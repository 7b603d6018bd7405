import Formula.Decimal.Range
import Formula.Error
import Formula.Token

set_option autoImplicit false

namespace Formula.Lexer

def isLayout (c : Char) : Bool := c == ' ' || c == '\t' || c == '\r' || c == '\n'

structure Fault where
  cause : Cause
  help : Option String
deriving DecidableEq, Repr

structure Munch where
  verdict : Except (Stop Fault) Terminal
  lexeme : List Char
  rest : List Char

def single (terminal : Terminal) (c : Char) (cs : List Char) : Munch :=
  ⟨.ok terminal, [c], cs⟩

def withEqual (short long : Terminal) (c : Char) : List Char → Munch
  | '=' :: rest => ⟨.ok long, [c, '='], rest⟩
  | rest => ⟨.ok short, [c], rest⟩

def doubled (terminal : Terminal) (c : Char) : List Char → Munch
  | d :: rest =>
    if d = c then ⟨.ok terminal, [c, d], rest⟩
    else ⟨.error (.failed ⟨.incompleteOperator c, none⟩), [c], d :: rest⟩
  | [] => ⟨.error (.failed ⟨.incompleteOperator c, none⟩), [c], []⟩

-- A text up to the next quote of the same sort; there are no escapes.
def quoted (quote : Char) (cs : List Char) : Munch :=
  let content := cs.takeWhile (· != quote)
  match cs.dropWhile (· != quote) with
  | closing :: rest => ⟨.ok (.string (String.ofList content)), quote :: content ++ [closing], rest⟩
  | [] =>
    ⟨.error (.failed
        ⟨.unterminatedString, some ("close the string with " ++ String.singleton quote)⟩),
      quote :: content, []⟩

def malformation (lexeme : String) (fault : NumberFault) : Fault :=
  ⟨.malformedNumber lexeme (fault.message lexeme), none⟩

def malformed (lexeme : List Char) (fault : NumberFault) (rest : List Char) : Munch :=
  ⟨.error (.failed (malformation (String.ofList lexeme) fault)), lexeme, rest⟩

def literal (lexeme : List Char) : Except (Stop Fault) Terminal :=
  match Decimal.read lexeme with
  | .error fault => .error (.failed (malformation (String.ofList lexeme) (.unreadable fault)))
  | .ok d =>
    d.byRange (.ok (.number d))
      (.error (.failed (malformation (String.ofList lexeme) .outOfRange)))

theorem literal_ok_iff (lexeme : List Char) (t : Terminal) : literal lexeme = .ok t ↔
    ∃ d, Decimal.read lexeme = .ok d ∧ d.inRange = some true ∧ t = .number d := by
  rw [literal]
  cases Decimal.read lexeme with
  | error fault => simp
  | ok d =>
    rcases range : d.inRange with _ | _ | _ <;> simp [Decimal.byRange, range, eq_comm]

def finished (lexeme : List Char) (rest : List Char) : Munch := ⟨literal lexeme, lexeme, rest⟩

def splitSign : List Char → List Char × List Char
  | '-' :: rest => (['-'], rest)
  | '+' :: rest => (['+'], rest)
  | rest => ([], rest)

def startsWithDigit (cs : List Char) : Bool := cs.head?.any Char.isDigit

def exponent (sofar : List Char) : List Char → Munch
  | mark :: cs =>
    if Decimal.isExponentMark mark then
      let (sign, digits) := splitSign cs
      let sofar := sofar ++ mark :: sign
      if startsWithDigit digits then
        finished (sofar ++ digits.takeWhile Char.isDigit) (digits.dropWhile Char.isDigit)
      else malformed sofar .noDigitInExponent digits
    else finished sofar (mark :: cs)
  | [] => finished sofar []

def number (cs : List Char) : Munch :=
  let whole := cs.takeWhile Char.isDigit
  match cs.dropWhile Char.isDigit with
  | '.' :: places =>
    if startsWithDigit places then
      exponent (whole ++ '.' :: places.takeWhile Char.isDigit) (places.dropWhile Char.isDigit)
    else malformed (whole ++ ['.']) .noDigitAfterPoint places
  | rest => exponent whole rest

def isNameStart (c : Char) : Bool := c.isAlpha || c == '_'

def isNamePart (c : Char) : Bool := c.isAlphanum || c == '_' || c == '.'

def wordTerminal (word : List Char) : Terminal :=
  if word = ['t', 'r', 'u', 'e'] then .boolean true
  else if word = ['f', 'a', 'l', 's', 'e'] then .boolean false
  else .identifier (String.ofList word)

def word (cs : List Char) : Munch :=
  ⟨.ok (wordTerminal (cs.takeWhile isNamePart)), cs.takeWhile isNamePart, cs.dropWhile isNamePart⟩

def munch (c : Char) (cs : List Char) : Munch :=
  match c with
  | '+' => single .plus c cs
  | '-' => single .minus c cs
  | '*' => single .star c cs
  | '/' => single .slash c cs
  | '^' => single .caret c cs
  | '%' => single .percent c cs
  | '(' => single .leftParen c cs
  | ')' => single .rightParen c cs
  | ',' => single .comma c cs
  | '?' => single .question c cs
  | ':' => single .colon c cs
  | '!' => withEqual .bang .bangEqual c cs
  | '>' => withEqual .greater .greaterEqual c cs
  | '<' => withEqual .less .lessEqual c cs
  | '=' => doubled .equalEqual c cs
  | '&' => doubled .and c cs
  | '|' => doubled .or c cs
  | '"' => quoted c cs
  | '\'' => quoted c cs
  | _ =>
    if c.isDigit then number (c :: cs)
    else if isNameStart c then word (c :: cs)
    else ⟨.error (.failed ⟨.unexpectedCharacter c, none⟩), [c], cs⟩

def Munch.Splits (m : Munch) (cs : List Char) : Prop :=
  m.lexeme ++ m.rest = cs ∧ m.lexeme ≠ []

theorem split_sign_append (cs : List Char) : (splitSign cs).1 ++ (splitSign cs).2 = cs := by
  unfold splitSign
  split <;> rfl

theorem finished_splits (lexeme rest : List Char) (nonempty : lexeme ≠ []) :
    (finished lexeme rest).Splits (lexeme ++ rest) := ⟨rfl, nonempty⟩

theorem exponent_splits (sofar cs : List Char) (nonempty : sofar ≠ []) :
    (exponent sofar cs).Splits (sofar ++ cs) := by
  cases cs with
  | nil => exact finished_splits sofar [] nonempty
  | cons mark cs =>
    simp only [exponent]
    split
    · have sign := split_sign_append cs
      split
      · have split := finished_splits
          (sofar ++ mark :: (splitSign cs).1 ++ (splitSign cs).2.takeWhile Char.isDigit)
          ((splitSign cs).2.dropWhile Char.isDigit) (by simp)
        simpa [List.append_assoc, List.takeWhile_append_dropWhile, sign] using split
      · simp [malformed, Munch.Splits, List.append_assoc, sign]
    · exact finished_splits sofar (mark :: cs) nonempty

theorem number_splits (c : Char) (cs : List Char) (digit : c.isDigit = true) :
    (number (c :: cs)).Splits (c :: cs) := by
  have whole : (c :: cs).takeWhile Char.isDigit ++ (c :: cs).dropWhile Char.isDigit = c :: cs :=
    List.takeWhile_append_dropWhile
  have nonempty : (c :: cs).takeWhile Char.isDigit ≠ [] := by simp [digit]
  unfold number
  split
  · rename_i places behind
    rw [behind] at whole
    split
    · have split := exponent_splits
        ((c :: cs).takeWhile Char.isDigit ++ '.' :: places.takeWhile Char.isDigit)
        (places.dropWhile Char.isDigit) (by simp)
      simp only [List.append_assoc, List.cons_append, List.takeWhile_append_dropWhile,
        whole] at split
      exact split
    · simpa [malformed, Munch.Splits, List.append_assoc] using whole
  · have split := exponent_splits _ ((c :: cs).dropWhile Char.isDigit) nonempty
    rw [whole] at split
    exact split

theorem quoted_splits (quote : Char) (cs : List Char) : (quoted quote cs).Splits (quote :: cs) := by
  have content : cs.takeWhile (· != quote) ++ cs.dropWhile (· != quote) = cs :=
    List.takeWhile_append_dropWhile
  unfold quoted
  split
  · rename_i closing rest behind
    rw [behind] at content
    simp [Munch.Splits, content]
  · rename_i behind
    rw [behind, List.append_nil] at content
    simp [Munch.Splits, content]

theorem word_splits (c : Char) (cs : List Char) (start : isNameStart c = true) :
    (word (c :: cs)).Splits (c :: cs) := by
  have part : isNamePart c = true := by
    simp only [isNameStart, isNamePart, Char.isAlphanum, Bool.or_eq_true] at start ⊢
    rcases start with letter | underscore
    · exact .inl (.inl (.inl letter))
    · exact .inl (.inr underscore)
  exact ⟨List.takeWhile_append_dropWhile, by simp [word, part]⟩

theorem with_equal_splits (short long : Terminal) (c : Char) (cs : List Char) :
    (withEqual short long c cs).Splits (c :: cs) := by
  unfold withEqual
  split <;> simp [Munch.Splits]

theorem doubled_splits (terminal : Terminal) (c : Char) (cs : List Char) :
    (doubled terminal c cs).Splits (c :: cs) := by
  unfold doubled
  split
  · split <;> simp [Munch.Splits]
  · simp [Munch.Splits]

theorem single_splits (terminal : Terminal) (c : Char) (cs : List Char) :
    (single terminal c cs).Splits (c :: cs) := by
  simp [single, Munch.Splits]

theorem munch_splits (c : Char) (cs : List Char) : (munch c cs).Splits (c :: cs) := by
  unfold munch
  split <;>
    first
    | exact single_splits _ _ _
    | exact with_equal_splits _ _ _ _
    | exact doubled_splits _ _ _
    | exact quoted_splits _ _
    | skip
  split
  · exact number_splits c cs ‹_›
  · split
    · exact word_splits c cs ‹_›
    · simp [Munch.Splits]

theorem munch_rest_shorter (c : Char) (cs : List Char) :
    (munch c cs).rest.length ≤ cs.length := by
  obtain ⟨whole, nonempty⟩ := munch_splits c cs
  have lengths := congrArg List.length whole
  have positive := List.length_pos_iff.mpr nonempty
  simp only [List.length_append, List.length_cons] at lengths
  omega

structure Cursor where
  position : Nat
  rest : List Char
deriving DecidableEq, Repr

def Cursor.start (source : String) : Cursor := ⟨0, source.toList⟩

def Cursor.skip (cursor : Cursor) : Cursor :=
  ⟨cursor.position + byteLength (cursor.rest.takeWhile isLayout),
    cursor.rest.dropWhile isLayout⟩

def Munch.place (m : Munch) (position : Nat) : Result Token :=
  let span := ⟨position, position + byteLength m.lexeme⟩
  match m.verdict with
  | .ok terminal => .ok ⟨terminal, String.ofList m.lexeme, span⟩
  | .error stop => .error (stop.map fun fault => ⟨fault.cause, some span, fault.help⟩)

-- The next token or error, and the place behind it. At the end it is the end, again and again.
def Cursor.next (cursor : Cursor) : Result Token × Cursor :=
  let start := cursor.skip
  match start.rest with
  | [] => (.ok (.eofAt start.position), start)
  | c :: cs =>
    let m := munch c cs
    (m.place start.position, ⟨start.position + byteLength m.lexeme, m.rest⟩)

structure Run where
  steps : List (Result Token)
  eof : Token

set_option linter.unusedVariables false in
def Cursor.run (cursor : Cursor) : Run :=
  match behind : cursor.skip.rest with
  | [] => ⟨[], .eofAt cursor.skip.position⟩
  | _ :: _ =>
    let run := cursor.next.2.run
    ⟨cursor.next.1 :: run.steps, run.eof⟩
termination_by cursor.rest.length
decreasing_by
  have shorter : (cursor.rest.dropWhile isLayout).length ≤ cursor.rest.length :=
    (List.dropWhile_suffix _).length_le
  simp only [Cursor.skip] at behind
  simp only [Cursor.next, Cursor.skip, behind]
  rw [behind] at shorter
  have rest := munch_rest_shorter ‹Char› ‹List Char›
  simp only [List.length_cons] at shorter
  omega

inductive Ending where
  | eof (token : Token)
  | fault (stop : Stop Error)

def Ending.token : Ending → Result Token
  | .eof token => .ok token
  | .fault stop => .error stop

structure Lexed where
  tokens : List Token
  ending : Ending

def Lexed.ofSteps : List (Result Token) → Token → Lexed
  | [], eof => ⟨[], .eof eof⟩
  | .ok token :: steps, eof =>
    let lexed := ofSteps steps eof
    ⟨token :: lexed.tokens, lexed.ending⟩
  | .error stop :: _, _ => ⟨[], .fault stop⟩

def lex (source : String) : Lexed :=
  let run := (Cursor.start source).run
  Lexed.ofSteps run.steps run.eof

def tokens (source : String) : Result (List Token) :=
  let lexed := lex source
  lexed.ending.token.map fun eof => lexed.tokens ++ [eof]

end Formula.Lexer
