import Formula.Proofs.Lexeme
import Formula.Proofs.ScannerBytes

set_option autoImplicit false

namespace Formula

open Lexer (Cursor Munch isLayout isNameStart isNamePart munch malformation)

def signs : List Char :=
  ['+', '-', '*', '/', '^', '%', '(', ')', ',', '?', ':', '!', '>', '<', '=', '&', '|', '"', '\'']

theorem wide_none {c : Char} (wide : 128 ≤ c.toNat) :
    isLayout c = false ∧ c.isDigit = false ∧ isNameStart c = false ∧ isNamePart c = false ∧
      Decimal.isExponentMark c = false ∧ c ∉ signs := by
  have apart : c ∉ signs := by
    have all : signs.all (fun d => decide (d.toNat < 128)) = true := rfl
    exact fun sign => Nat.not_lt_of_le wide (of_decide_eq_true (List.all_eq_true.mp all c sign))
  have other (d : Char) (narrow : d.toNat < 128) : (c == d) = false := by
    rw [beq_eq_false_iff_ne]
    rintro rfl
    exact Nat.not_lt_of_le wide narrow
  have digit : c.isDigit = false := Bool.eq_false_iff.mpr fun digit => by
    have code := Lexer.digit_code digit
    omega
  have letter : c.isAlpha = false := Bool.eq_false_iff.mpr fun letter => by
    have code := Lexer.alpha_code letter
    omega
  simp [isLayout, isNameStart, isNamePart, Decimal.isExponentMark, Char.isAlphanum, digit, letter,
    other, apart]

theorem layout_uniform : Uniform isLayout := ⟨false, fun _ wide => (wide_none wide).1⟩

theorem digit_uniform : Uniform Char.isDigit := ⟨false, fun _ wide => (wide_none wide).2.1⟩

theorem name_uniform : Uniform isNamePart := ⟨false, fun _ wide => (wide_none wide).2.2.2.1⟩

theorem mark_uniform : Uniform Decimal.isExponentMark :=
  ⟨false, fun _ wide => (wide_none wide).2.2.2.2.1⟩

namespace Scanner

structure Scans (source : String) (front : List Char) (m : Munch)
    (outcome : Result RawToken × Scanner) : Prop where
  answer : outcome.1 = (m.place (byteLength front)).map Token.raw
  stands : Stands source front m.lexeme m.rest outcome.2

section

variable {source text : String} {front taken rest cs : List Char} {c : Char} {s : Scanner}

theorem token_scans {t : Terminal} (stands : Stands source front taken rest s) :
    Scans source front ⟨.ok t, taken, rest⟩ (s.makeToken t.type t.literal?, s) :=
  ⟨make_token_stands stands _ _, stands⟩

theorem plain_scans {t : Terminal} (valueless : t.literal? = none)
    (stands : Stands source front taken rest s) :
    Scans source front ⟨.ok t, taken, rest⟩ (s.plain t.type) := by
  rw [plain, ← valueless]
  exact token_scans stands

theorem failed_scans (fault : Lexer.Fault) (stands : Stands source front taken rest s) :
    Scans source front ⟨.error (.failed fault), taken, rest⟩
      (.error (.failed ⟨fault.cause, some s.span, fault.help⟩), s) := by
  refine ⟨?_, stands⟩
  rw [span, stands.start, stands.current]
  rfl

theorem with_equal_scans {short long : Terminal} (valueless : short.literal? = none)
    (valueless' : long.literal? = none) (stands : Stands source front [c] cs s) :
    Scans source front (Lexer.withEqual short long c cs) (s.withEqual short.type long.type) := by
  rw [withEqual]
  unfold Lexer.withEqual
  split
  · rw [byte_matches stands (by decide)]
    exact plain_scans valueless' (advance_stands stands (by decide))
  · rename_i other
    rw [byte_differs stands (by decide) other]
    exact plain_scans valueless stands

theorem doubled_scans {t : Terminal} (valueless : t.literal? = none) (narrow : c.toNat < 128)
    (stands : Stands source front [c] cs s) :
    Scans source front (Lexer.doubled t c cs) (s.doubled c t.type) := by
  rw [doubled]
  cases cs with
  | nil =>
    rw [byte_differs stands narrow nofun]
    exact failed_scans _ stands
  | cons d cs =>
    rw [Lexer.doubled]
    by_cases same : d = c
    · subst same
      rw [if_pos rfl, byte_matches stands narrow]
      exact plain_scans valueless (advance_stands stands narrow)
    · rw [if_neg same, byte_differs stands narrow fun _ found => same (List.cons.inj found).1]
      exact failed_scans _ stands

theorem string_scans (narrow : c.toNat < 128) (stands : Stands source front [c] cs s) :
    Scans source front (Lexer.quoted c cs) (s.string c) := by
  have passed := pass_stands stands (uniform_ne narrow)
  rw [string]
  unfold Lexer.quoted
  cases behind : cs.dropWhile (· != c) with
  | nil =>
    rw [behind] at passed
    rw [if_pos ((at_end_iff passed).mpr rfl)]
    exact failed_scans _ passed
  | cons closing rest =>
    have closes : closing = c := by
      have stopped := List.head?_dropWhile_not (· != c) cs
      simpa [behind] using stopped
    subst closes
    rw [behind] at passed
    have more : ¬ (s.passWhile (· != closing)).isAtEnd = true :=
      fun ended => nomatch (at_end_iff passed).mp ended
    have whole := advance_stands passed narrow
    rw [if_neg more]
    dsimp only
    rw [quoted_stands narrow whole]
    exact token_scans (t := .string _) whole

theorem malformed_scans (fault : NumberFault) (stands : Stands source front taken rest s) :
    Scans source front (Lexer.malformed taken fault rest) (s.malformed fault, s) := by
  have failed := failed_scans (malformation (String.ofList taken) fault) stands
  rw [malformed, lexeme_stands stands]
  exact failed

theorem numeral_reads (read : s.lexeme = .ok text) :
    s.numeral.1 =
      match Decimal.read text.toList with
      | .error fault => s.malformed (.unreadable fault)
      | .ok d =>
        d.byRange (s.makeToken .number (some (.number d))) (s.malformed .outOfRange) := by
  rw [numeral, read]
  rfl

theorem numeral_scans (stands : Stands source front taken rest s) :
    Scans source front (Lexer.finished taken rest) s.numeral := by
  refine ⟨?_, stands⟩
  rw [numeral_reads (lexeme_stands stands), String.toList_ofList, Lexer.finished, Lexer.literal]
  cases Decimal.read taken with
  | error fault => exact (malformed_scans (.unreadable fault) stands).answer
  | ok d =>
    dsimp only
    rw [Decimal.byRange, Decimal.byRange]
    rcases d.inRange with _ | _ | _
    · rfl
    · exact (malformed_scans .outOfRange stands).answer
    · exact (token_scans (t := .number d) stands).answer

theorem sign_stands (stands : Stands source front taken cs s) :
    Stands source front (taken ++ (Lexer.splitSign cs).1) (Lexer.splitSign cs).2
      (if (s.matchByte '-').1 then (s.matchByte '-').2
        else ((s.matchByte '-').2.matchByte '+').2) := by
  unfold Lexer.splitSign
  split
  · rw [byte_matches stands (by decide)]
    exact advance_stands stands (by decide)
  · rename_i rest
    have other : ∀ cs, '+' :: rest ≠ '-' :: cs := nofun
    rw [byte_differs stands (by decide) other, if_neg Bool.false_ne_true,
      byte_matches stands (by decide)]
    exact advance_stands stands (by decide)
  · rename_i minus plus
    rw [byte_differs stands (by decide) minus, if_neg Bool.false_ne_true,
      byte_differs stands (by decide) plus, List.append_nil]
    exact stands

theorem peek_digit (stands : Stands source front taken rest s) :
    s.peek.isDigit = Lexer.startsWithDigit rest := peek_any stands digit_uniform rfl

theorem exponent_scans (stands : Stands source front taken rest s) :
    Scans source front (Lexer.exponent taken rest) s.exponent := by
  rw [exponent, peek_any stands mark_uniform rfl]
  cases rest with
  | nil => exact numeral_scans stands
  | cons mark cs =>
    rw [Lexer.exponent, List.head?_cons, Option.any_some]
    by_cases marks : Decimal.isExponentMark mark = true
    · rw [if_pos marks, if_pos marks]
      have narrow : mark.toNat < 128 := Nat.lt_of_not_le fun wide => by
        rw [(wide_none wide).2.2.2.2.1] at marks
        cases marks
      have signed := sign_stands (advance_stands stands narrow)
      rw [List.append_assoc, List.singleton_append] at signed
      dsimp only
      rw [peek_digit signed]
      by_cases digit : Lexer.startsWithDigit (Lexer.splitSign cs).2 = true
      · rw [if_pos digit, if_pos digit]
        exact numeral_scans (pass_stands signed digit_uniform)
      · rw [if_neg digit, if_neg digit]
        exact malformed_scans _ signed
    · rw [if_neg marks, if_neg marks]
      exact numeral_scans stands

theorem number_scans (digit : c.isDigit = true) (stands : Stands source front [c] cs s) :
    Scans source front (Lexer.number (c :: cs)) s.number := by
  have whole := run_stands stands digit_uniform digit
  rw [number, digits]
  unfold Lexer.number
  split
  · rename_i places behind
    rw [behind] at whole
    have pointed := advance_stands whole (by decide)
    rw [byte_matches whole (by decide)]
    dsimp only
    rw [if_pos rfl, peek_digit pointed]
    by_cases more : Lexer.startsWithDigit places = true
    · rw [if_pos more, if_pos more]
      have passed := pass_stands pointed digit_uniform
      rw [List.append_assoc, List.singleton_append] at passed
      exact exponent_scans passed
    · rw [if_neg more, if_neg more]
      exact malformed_scans _ pointed
  · rename_i other
    rw [byte_differs whole (by decide) other]
    exact exponent_scans whole

theorem identifier_scans (begins : isNameStart c = true) (stands : Stands source front [c] cs s) :
    Scans source front (Lexer.word (c :: cs)) s.identifier := by
  have passed := run_stands stands name_uniform (Lexer.name_start_part begins)
  refine ⟨?_, passed⟩
  rw [identifier, Lexer.word, Lexer.wordTerminal]
  dsimp only
  rw [lexeme_stands passed]
  generalize (c :: cs).takeWhile isNamePart = word at passed
  generalize s.passWhile isNamePart = s' at passed
  change (if String.ofList word = "true" then s'.makeToken .boolean (some (.boolean true))
    else if String.ofList word = "false" then s'.makeToken .boolean (some (.boolean false))
    else s'.makeToken .identifier none) = _
  have spelled (text : String) : String.ofList word = text ↔ word = text.toList := by
    rw [← String.toList_inj, String.toList_ofList]
  by_cases isTrue : word = ['t', 'r', 'u', 'e']
  · rw [if_pos ((spelled "true").mpr isTrue), if_pos isTrue]
    exact (token_scans (t := .boolean true) passed).answer
  · rw [if_neg (mt (spelled "true").mp isTrue), if_neg isTrue]
    by_cases isFalse : word = ['f', 'a', 'l', 's', 'e']
    · rw [if_pos ((spelled "false").mpr isFalse), if_pos isFalse]
      exact (token_scans (t := .boolean false) passed).answer
    · rw [if_neg (mt (spelled "false").mp isFalse), if_neg isFalse]
      exact (token_scans (t := .identifier _) passed).answer

theorem unexpected_scans (stands : Stands source front [] (c :: cs) s) :
    Scans source front ⟨.error (.failed ⟨.unexpectedCharacter c, none⟩), [c], cs⟩
      s.advance.unexpected := by
  have split : splitBytes s.advance.start s.advance.source.toList = some (front, c :: cs) := by
    rw [advance, stands.whole, stands.start, stands.text]
    exact split_bytes_append _ _
  rw [unexpected, split]
  refine failed_scans ⟨.unexpectedCharacter c, none⟩
    ⟨stands.whole, stands.text, stands.start, ?_⟩
  rw [advance, stands.start]
  rfl

theorem munch_other (other : c ∉ signs) :
    munch c cs =
      if c.isDigit then Lexer.number (c :: cs)
      else if isNameStart c then Lexer.word (c :: cs)
      else ⟨.error (.failed ⟨.unexpectedCharacter c, none⟩), [c], cs⟩ := by
  unfold munch
  split
  any_goals
    refine absurd ?_ other
    decide
  rfl

theorem scan_other (other : s.peek ∉ signs) :
    s.scanToken =
      if s.peek.isDigit then s.advance.number
      else if isNameStart s.peek then s.advance.identifier
      else s.advance.unexpected := by
  unfold scanToken
  generalize s.peek = b at other
  dsimp only
  split
  any_goals
    refine absurd ?_ other
    decide
  rfl

theorem sign_scans (stands : Stands source front [c] cs s.advance) (peeked : s.peek = c)
    (narrow : c.toNat < 128) (sign : c ∈ signs) :
    Scans source front (munch c cs) s.scanToken := by
  unfold scanToken
  rw [peeked]
  simp only [signs, List.mem_cons, List.not_mem_nil, or_false] at sign
  rcases sign with rfl | rfl | rfl | rfl | rfl | rfl | rfl | rfl | rfl | rfl | rfl | rfl | rfl |
    rfl | rfl | rfl | rfl | rfl | rfl
  any_goals exact plain_scans rfl stands
  any_goals exact with_equal_scans rfl rfl stands
  any_goals exact doubled_scans rfl narrow stands
  any_goals exact string_scans narrow stands

theorem munch_scans (stands : Stands source front [] (c :: cs) s) :
    Scans source front (munch c cs) s.scanToken := by
  by_cases narrow : c.toNat < 128
  · have peeked : s.peek = c := by
      have same := peek_more (p := (· == c)) stands (uniform_eq narrow)
      rwa [beq_self_eq_true, beq_iff_eq] at same
    have behind : Stands source front [c] cs s.advance := advance_stands stands narrow
    by_cases sign : c ∈ signs
    · exact sign_scans behind peeked narrow sign
    · rw [munch_other sign, scan_other (by rwa [peeked]), peeked]
      by_cases digit : c.isDigit = true
      · rw [if_pos digit, if_pos digit]
        exact number_scans digit behind
      · rw [if_neg digit, if_neg digit]
        by_cases start : isNameStart c = true
        · rw [if_pos start, if_pos start]
          exact identifier_scans start behind
        · rw [if_neg start, if_neg start]
          exact unexpected_scans stands
  · have wide := Nat.le_of_not_lt narrow
    have uniform : Uniform fun d => decide (128 ≤ d.toNat) :=
      ⟨true, fun _ wide => decide_eq_true wide⟩
    have wide' := of_decide_eq_true ((peek_more stands uniform).trans (decide_eq_true wide))
    obtain ⟨-, digit, start, -, -, other⟩ := wide_none wide
    obtain ⟨-, digit', start', -, -, other'⟩ := wide_none wide'
    rw [munch_other other, scan_other other', digit, start, digit', start']
    exact unexpected_scans stands

end

-- The scanner stands where a cursor does, behind what it scanned last.
def At (source : String) (cursor : Cursor) (s : Scanner) : Prop :=
  s.current = cursor.position ∧ ∃ front taken, Stands source front taken cursor.rest s

theorem start_at (source : String) : At source (.start source) (.ofSource source) :=
  ⟨rfl, [], [], rfl, rfl, rfl, rfl⟩

structure Agrees (source : String) (cursor : Cursor) (s : Scanner) : Prop where
  answer : s.next.1 = cursor.next.1.map Token.raw
  behind : At source cursor.next.2 s.next.2
  start : s.next.2.start = cursor.skip.position

theorem skip_stands {source : String} {cursor : Cursor} {s : Scanner} (stands : At source cursor s) :
    ∃ before, byteLength before = cursor.skip.position ∧
      Stands source before [] cursor.skip.rest
        { s.passWhile isLayout with start := (s.passWhile isLayout).current } := by
  obtain ⟨current, front, taken, stands⟩ := stands
  refine ⟨_, ?_, begin_stands (pass_stands stands layout_uniform)⟩
  rw [Lexer.byte_length_append, Lexer.byte_length_append, ← Nat.add_assoc, ← stands.current,
    current, Cursor.skip]

theorem agrees_of_scans {source : String} {cursor : Cursor} {s : Scanner} {before : List Char}
    {m : Munch} (position : byteLength before = cursor.skip.position)
    (read : cursor.next =
      (m.place cursor.skip.position, ⟨cursor.skip.position + byteLength m.lexeme, m.rest⟩))
    (scans : Scans source before m s.next) : Agrees source cursor s := by
  rw [← position] at read
  refine ⟨?_, ⟨?_, before, m.lexeme, ?_⟩, ?_⟩
  · rw [scans.answer, read]
  · rw [scans.stands.current, read]
  · rw [read]
    exact scans.stands
  · rw [scans.stands.start, position]

theorem next_agrees {source : String} {cursor : Cursor} {s : Scanner} (stands : At source cursor s) :
    Agrees source cursor s := by
  obtain ⟨before, position, here⟩ := skip_stands stands
  cases rest : cursor.skip.rest with
  | nil =>
    rw [rest] at here
    have same : cursor.skip = ⟨cursor.skip.position, []⟩ := congrArg (Cursor.mk _) rest
    have read : cursor.next = (.ok (.eofAt cursor.skip.position), ⟨cursor.skip.position, []⟩) := by
      rw [Lexer.next_of_end rest, ← same]
    refine agrees_of_scans (m := ⟨.ok .eof, [], []⟩) position read ?_
    rw [next, if_pos ((at_end_iff here).mpr rfl)]
    exact plain_scans (t := .eof) rfl here
  | cons c cs =>
    rw [rest] at here
    refine agrees_of_scans position (Lexer.next_of_more rest) ?_
    rw [next, if_neg (mt (at_end_iff here).mp (List.cons_ne_nil c cs))]
    exact munch_scans here

end Scanner

end Formula
