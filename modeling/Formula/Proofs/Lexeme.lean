import Formula.Proofs.Numeral
import Formula.Token.Lexer

set_option autoImplicit false

namespace Formula.Lexer

inductive Spelled : List Char → Terminal → Prop where
  | plus : Spelled ['+'] .plus
  | minus : Spelled ['-'] .minus
  | star : Spelled ['*'] .star
  | slash : Spelled ['/'] .slash
  | caret : Spelled ['^'] .caret
  | percent : Spelled ['%'] .percent
  | leftParen : Spelled ['('] .leftParen
  | rightParen : Spelled [')'] .rightParen
  | comma : Spelled [','] .comma
  | question : Spelled ['?'] .question
  | colon : Spelled [':'] .colon
  | bang : Spelled ['!'] .bang
  | bangEqual : Spelled ['!', '='] .bangEqual
  | greater : Spelled ['>'] .greater
  | greaterEqual : Spelled ['>', '='] .greaterEqual
  | less : Spelled ['<'] .less
  | lessEqual : Spelled ['<', '='] .lessEqual
  | equalEqual : Spelled ['=', '='] .equalEqual
  | and : Spelled ['&', '&'] .and
  | or : Spelled ['|', '|'] .or
  | string {quote : Char} {content : List Char} (isQuote : quote = '"' ∨ quote = '\'')
      (unquoted : quote ∉ content) :
      Spelled (quote :: (content ++ [quote])) (.string (String.ofList content))
  | number (n : Numeral) : Spelled n.text (.number n.decimal)
  | trueWord : Spelled ['t', 'r', 'u', 'e'] (.boolean true)
  | falseWord : Spelled ['f', 'a', 'l', 's', 'e'] (.boolean false)
  | identifier {c : Char} {cs : List Char} (start : c.isAlpha = true ∨ c = '_')
      (parts : ∀ d ∈ cs, d.isAlphanum = true ∨ d = '_' ∨ d = '.')
      (notTrue : c :: cs ≠ ['t', 'r', 'u', 'e'])
      (notFalse : c :: cs ≠ ['f', 'a', 'l', 's', 'e']) :
      Spelled (c :: cs) (.identifier (String.ofList (c :: cs)))

-- Whether a lexeme is not over, or not one, if this character is next.
def goesOn (lexeme : List Char) (next : Char) : Bool :=
  match lexeme with
  | [] => false
  | c :: cs =>
    if c.isDigit then
      next.isDigit ||
        (!(c :: cs).any Decimal.isExponentMark &&
          (Decimal.isExponentMark next || ((c :: cs).all Char.isDigit && next == '.')))
    else if isNameStart c then isNamePart next
    else cs.isEmpty && (c == '!' || c == '>' || c == '<') && next == '='

def Stops (lexeme rest : List Char) : Prop := ∀ next ∈ rest.head?, goesOn lexeme next = false

theorem marked_iff (p : Power) : Decimal.isExponentMark p.mark = true := by
  rcases p.isMark with mark | mark <;> simp [mark, Decimal.isExponentMark]

theorem digits_no_mark {cs : List Char} (digits : AllDigits cs) :
    cs.any Decimal.isExponentMark = false :=
  List.any_eq_false.mpr fun c member => by simp [Decimal.digit_not_mark (digits c member)]

theorem numeral_any_mark (n : Numeral) : n.text.any Decimal.isExponentMark = n.power.isSome := by
  have fraction : (Numeral.fraction n.places).any Decimal.isExponentMark = false :=
    List.any_eq_false.mpr fun c member => by simp [Decimal.fraction_no_mark member]
  rw [Numeral.text, Numeral.base, List.any_append, List.any_append, fraction,
    digits_no_mark n.wholeDigits]
  cases n.power with
  | none => rfl
  | some p => simp [Numeral.powerText, Power.text, marked_iff p]

theorem numeral_all_digits (n : Numeral) :
    n.text.all Char.isDigit = (n.power.isNone && n.places.isEmpty) := by
  have whole : n.whole.all Char.isDigit = true := List.all_eq_true.mpr n.wholeDigits
  rw [Numeral.text, Numeral.base, List.all_append, List.all_append, whole]
  cases n.power with
  | none => cases n.places <;> simp [Numeral.fraction, Numeral.powerText]
  | some p =>
    have mark : p.mark.isDigit = false := by rcases p.isMark with mark | mark <;> simp [mark]
    simp [Numeral.powerText, Power.text, mark]

theorem numeral_first (n : Numeral) : ∃ c cs, n.text = c :: cs ∧ c.isDigit = true := by
  obtain ⟨c, cs, whole⟩ := List.exists_cons_of_ne_nil n.written
  refine ⟨c, cs ++ Numeral.fraction n.places ++ Numeral.powerText n.power, ?_, ?_⟩
  · simp [Numeral.text, Numeral.base, whole]
  · exact n.wholeDigits c (whole ▸ List.mem_cons_self)

theorem numeral_goes_on (n : Numeral) (next : Char) :
    goesOn n.text next = (next.isDigit ||
      (n.power.isNone && (Decimal.isExponentMark next || (n.places.isEmpty && next == '.')))) := by
  obtain ⟨c, cs, text, digit⟩ := numeral_first n
  have marks := numeral_any_mark n
  have digits := numeral_all_digits n
  rw [text] at marks digits ⊢
  rw [goesOn]
  simp only [digit, if_true, marks, digits]
  cases n.power <;> simp

theorem starts_with_digit_append {cs : List Char} (rest : List Char) (written : cs ≠ [])
    (digits : AllDigits cs) : startsWithDigit (cs ++ rest) = true := by
  obtain ⟨c, cs, rfl⟩ := List.exists_cons_of_ne_nil written
  simpa [startsWithDigit] using digits c List.mem_cons_self

theorem split_sign_power (p : Power) (rest : List Char) :
    splitSign (p.sign ++ (p.digits ++ rest)) = (p.sign, p.digits ++ rest) := by
  obtain ⟨mark, sign, digits, isMark, isSign, written, isDigits⟩ := p
  obtain ⟨d, ds, rfl⟩ := List.exists_cons_of_ne_nil written
  have minus : d ≠ '-' := Decimal.digit_ne (isDigits d List.mem_cons_self) rfl
  have plus : d ≠ '+' := Decimal.digit_ne (isDigits d List.mem_cons_self) rfl
  rcases isSign with rfl | rfl | rfl <;> simp [splitSign, minus, plus]

theorem exponent_power (sofar : List Char) (p : Power) {rest : List Char}
    (ends : ∀ next ∈ rest.head?, next.isDigit = false) :
    exponent sofar (p.text ++ rest) = finished (sofar ++ p.text) rest := by
  obtain ⟨digits, behind⟩ := take_drop_exact p.isDigits ends
  have starts := starts_with_digit_append rest p.written p.isDigits
  rw [Power.text, List.cons_append, List.append_assoc, exponent]
  simp only [marked_iff p, if_true, split_sign_power, starts, digits, behind, List.append_assoc,
    List.cons_append]

theorem exponent_none (sofar : List Char) {rest : List Char}
    (ends : ∀ next ∈ rest.head?, Decimal.isExponentMark next = false) :
    exponent sofar rest = finished sofar rest := by
  cases rest with
  | nil => rfl
  | cons next rest => simp [exponent, ends next rfl]

theorem number_base (n : Numeral) {rest : List Char}
    (ends : ∀ next ∈ rest.head?, next.isDigit = false)
    (point : n.places = [] → ∀ next ∈ rest.head?, next ≠ '.') :
    number (n.base ++ rest) = exponent n.base rest := by
  rw [Numeral.base]
  cases places : n.places with
  | nil =>
    obtain ⟨whole, behind⟩ := take_drop_exact n.wholeDigits ends
    rw [Numeral.fraction, List.append_nil, number, whole, behind]
    cases rest with
    | nil => rfl
    | cons next rest =>
      have other : next ≠ '.' := point places next rfl
      simp [other]
  | cons d ds =>
    have digits := n.placesDigits
    rw [places] at digits
    have dot : ∀ next ∈ ('.' :: (d :: ds ++ rest)).head?, next.isDigit = false := by simp
    obtain ⟨whole, behind⟩ := take_drop_exact n.wholeDigits dot
    obtain ⟨after, tail⟩ := take_drop_exact digits ends
    have starts := starts_with_digit_append rest (List.cons_ne_nil d ds) digits
    rw [Numeral.fraction, List.append_assoc, List.cons_append, number, whole, behind]
    simp only [starts, if_true, after, tail]

theorem number_text (n : Numeral) {rest : List Char} (stops : Stops n.text rest) :
    number (n.text ++ rest) = finished n.text rest := by
  have ends (next : Char) (first : next ∈ rest.head?) := stops next first
  simp only [numeral_goes_on, Bool.or_eq_false_iff, Bool.and_eq_false_iff] at ends
  rw [Numeral.text, List.append_assoc]
  cases power : n.power with
  | none =>
    simp only [power, Option.isNone_none, Bool.true_eq_false, false_or] at ends
    rw [Numeral.powerText, List.append_nil, List.nil_append, number_base n]
    · exact exponent_none n.base fun next first => (ends next first).2.1
    · exact fun next first => (ends next first).1
    · intro none next first
      simpa [none] using (ends next first).2.2
  | some p =>
    have mark : p.mark.isDigit = false ∧ p.mark ≠ '.' := by
      rcases p.isMark with mark | mark <;> simp [mark]
    rw [Numeral.powerText, number_base n]
    · exact exponent_power n.base p fun next first => (ends next first).1
    · rintro next ⟨⟩
      exact mark.1
    · rintro _ next ⟨⟩
      exact mark.2

theorem behind_run (p : Char → Bool) (cs : List Char) :
    ∀ next ∈ (cs.dropWhile p).head?, p next = false := by
  intro next first
  have stopped := List.head?_dropWhile_not p cs
  rwa [first] at stopped

theorem run_digits (cs : List Char) : AllDigits (cs.takeWhile Char.isDigit) :=
  List.all_eq_true.mp List.all_takeWhile

theorem run_written {cs : List Char} (starts : startsWithDigit cs = true) :
    cs.takeWhile Char.isDigit ≠ [] := by
  cases cs with
  | nil => cases starts
  | cons c cs =>
    have digit : c.isDigit = true := by simpa [startsWithDigit] using starts
    simp [digit]

theorem split_sign_first (cs : List Char) :
    (splitSign cs).1 = [] ∨ (splitSign cs).1 = ['+'] ∨ (splitSign cs).1 = ['-'] := by
  unfold splitSign
  split <;> simp

structure ReadNumber (w : List Char) (t : Terminal) (rest : List Char) : Prop where
  numeral : ∃ n : Numeral, n.text = w
  stops : Stops w rest
  value : ∃ d, Decimal.read w = .ok d ∧ d.inRange = some true ∧ t = .number d

theorem finished_ok (n : Numeral) {behind rest w : List Char} {t : Terminal}
    (stops : Stops n.text behind) (ok : finished n.text behind = ⟨.ok t, w, rest⟩) :
    ReadNumber w t rest := by
  obtain ⟨verdict, rfl, rfl⟩ := Munch.mk.inj ok
  exact ⟨⟨n, rfl⟩, stops, (literal_ok_iff n.text t).mp verdict⟩

theorem exponent_ok (n : Numeral) (bare : n.power = none) {cs rest w : List Char} {t : Terminal}
    (ends : ∀ next ∈ cs.head?, next.isDigit = false)
    (point : n.places = [] → ∀ next ∈ cs.head?, next ≠ '.')
    (ok : exponent n.base cs = ⟨.ok t, w, rest⟩) : ReadNumber w t rest := by
  have text : n.text = n.base := by rw [Numeral.text, bare, Numeral.powerText, List.append_nil]
  have finish (unmarked : ∀ next ∈ cs.head?, Decimal.isExponentMark next = false) :
      ReadNumber w t rest := by
    rw [exponent_none n.base unmarked, ← text] at ok
    apply finished_ok n _ ok
    intro next first
    rw [numeral_goes_on, ends next first, unmarked next first]
    cases places : n.places with
    | nil => simp [point places next first]
    | cons d ds => simp
  cases cs with
  | nil => exact finish (by simp)
  | cons mark cs =>
    by_cases marked : Decimal.isExponentMark mark = true
    · simp only [exponent, marked, if_true] at ok
      by_cases digit : startsWithDigit (splitSign cs).2 = true
      · simp only [digit, if_true] at ok
        let power : Power := ⟨mark, (splitSign cs).1, (splitSign cs).2.takeWhile Char.isDigit,
          by simpa [Decimal.isExponentMark] using marked, split_sign_first cs, run_written digit,
          run_digits _⟩
        let m : Numeral := { n with power := some power }
        have whole : m.text = n.base ++ mark :: (splitSign cs).1 ++
            (splitSign cs).2.takeWhile Char.isDigit := by
          rw [List.append_assoc]
          rfl
        rw [← whole] at ok
        apply finished_ok m _ ok
        intro next first
        rw [numeral_goes_on, behind_run _ _ next first]
        rfl
      · simp only [digit] at ok
        cases ok
    · apply finish
      rintro next ⟨⟩
      exact Bool.eq_false_iff.mpr marked

theorem number_ok {c : Char} {cs rest w : List Char} {t : Terminal} (digit : c.isDigit = true)
    (ok : number (c :: cs) = ⟨.ok t, w, rest⟩) : ReadNumber w t rest := by
  have written : (c :: cs).takeWhile Char.isDigit ≠ [] := by simp [digit]
  have ends := behind_run Char.isDigit (c :: cs)
  unfold number at ok
  split at ok
  · rename_i places behind
    by_cases more : startsWithDigit places = true
    · simp only [more, if_true] at ok
      have some := run_written more
      let n : Numeral := ⟨_, places.takeWhile Char.isDigit, none, written, run_digits _,
        run_digits _⟩
      have base : n.base = (c :: cs).takeWhile Char.isDigit ++
          '.' :: places.takeWhile Char.isDigit := by
        obtain ⟨d, ds, digits⟩ := List.exists_cons_of_ne_nil some
        simp only [Numeral.base, n, digits, Numeral.fraction]
      rw [← base] at ok
      exact exponent_ok n rfl (behind_run _ _) (fun none => absurd none some) ok
    · simp only [more] at ok
      cases ok
  · rename_i other
    let n : Numeral := ⟨_, [], none, written, run_digits _, all_digits_nil⟩
    have base : n.base = (c :: cs).takeWhile Char.isDigit := List.append_nil _
    rw [← base] at ok
    apply exponent_ok n rfl ends _ ok
    rintro - next first rfl
    obtain ⟨places, behind⟩ := List.head?_eq_some_iff.mp first
    exact other places behind

theorem alpha_code {c : Char} (letter : c.isAlpha = true) :
    65 ≤ c.toNat ∧ c.toNat ≤ 90 ∨ 97 ≤ c.toNat ∧ c.toNat ≤ 122 := by
  rcases Bool.or_eq_true_iff.mp letter with upper | lower
  · exact .inl (of_decide_eq_true upper)
  · obtain ⟨low, high⟩ := Bool.and_eq_true_iff.mp lower
    exact .inr ⟨of_decide_eq_true low, of_decide_eq_true high⟩

theorem digit_code {c : Char} (digit : c.isDigit = true) : 48 ≤ c.toNat ∧ c.toNat ≤ 57 := by
  obtain ⟨low, high⟩ := Bool.and_eq_true_iff.mp digit
  exact ⟨of_decide_eq_true low, of_decide_eq_true high⟩

theorem alpha_not_digit {c : Char} (letter : c.isAlpha = true) : c.isDigit = false := by
  rw [Bool.eq_false_iff]
  intro digit
  have letters := alpha_code letter
  have digits := digit_code digit
  omega

theorem name_start_iff (c : Char) : isNameStart c = true ↔ c.isAlpha = true ∨ c = '_' := by
  rw [isNameStart, Bool.or_eq_true, beq_iff_eq]

theorem name_part_iff (c : Char) :
    isNamePart c = true ↔ c.isAlphanum = true ∨ c = '_' ∨ c = '.' := by
  rw [isNamePart, Bool.or_eq_true, Bool.or_eq_true, beq_iff_eq, beq_iff_eq, or_assoc]

theorem name_start_not_digit {c : Char} (start : isNameStart c = true) : c.isDigit = false := by
  rcases (name_start_iff c).mp start with letter | rfl
  · exact alpha_not_digit letter
  · rfl

theorem name_start_part {c : Char} (start : isNameStart c = true) : isNamePart c = true := by
  rcases (name_start_iff c).mp start with letter | rfl
  · exact (name_part_iff c).mpr (.inl (by simp [Char.isAlphanum, letter]))
  · rfl

theorem munch_digit {c : Char} (cs : List Char) (digit : c.isDigit = true) :
    munch c cs = number (c :: cs) := by
  unfold munch
  split <;> try exact absurd digit (by decide)
  rw [if_pos digit]

theorem munch_name {c : Char} (cs : List Char) (start : isNameStart c = true) :
    munch c cs = word (c :: cs) := by
  unfold munch
  split <;> try exact absurd start (by decide)
  rw [if_neg (by simp [name_start_not_digit start]), if_pos start]

def taken (w : List Char) (t : Terminal) (rest : List Char) : Munch :=
  match t with
  | .number _ => finished w rest
  | t => ⟨.ok t, w, rest⟩

theorem with_equal_short {short long : Terminal} {c : Char} {rest : List Char}
    (stops : ∀ next ∈ rest.head?, next ≠ '=') :
    withEqual short long c rest = ⟨.ok short, [c], rest⟩ := by
  cases rest with
  | nil => rfl
  | cons next rest => simp [withEqual, stops next rfl]

theorem munch_string {quote : Char} {content : List Char} (rest : List Char)
    (isQuote : quote = '"' ∨ quote = '\'') (unquoted : quote ∉ content) :
    munch quote (content ++ [quote] ++ rest) =
      ⟨.ok (.string (String.ofList content)), quote :: (content ++ [quote]), rest⟩ := by
  have inside : ∀ c ∈ content, (c != quote) = true := by
    intro c member
    simpa using fun same : c = quote => unquoted (same ▸ member)
  have closing : ∀ c ∈ (quote :: rest).head?, (c != quote) = false := by simp
  obtain ⟨before, behind⟩ := take_drop_exact inside closing
  have read : munch quote (content ++ [quote] ++ rest) =
      quoted quote (content ++ quote :: rest) := by
    rw [List.append_assoc]
    rcases isQuote with rfl | rfl <;> rfl
  rw [read, quoted, before, behind]
  rfl

theorem munch_word {c : Char} {cs rest : List Char} (start : isNameStart c = true)
    (parts : ∀ d ∈ cs, isNamePart d = true) (stops : Stops (c :: cs) rest) :
    munch c (cs ++ rest) = ⟨.ok (wordTerminal (c :: cs)), c :: cs, rest⟩ := by
  have inside : ∀ d ∈ c :: cs, isNamePart d = true := by
    intro d member
    rcases List.mem_cons.mp member with rfl | member
    · exact name_start_part start
    · exact parts d member
  have ends : ∀ next ∈ rest.head?, isNamePart next = false := by
    intro next first
    have stop := stops next first
    rwa [goesOn, name_start_not_digit start, if_neg Bool.false_ne_true, if_pos start] at stop
  obtain ⟨before, behind⟩ := take_drop_exact inside ends
  rw [munch_name _ start, ← List.cons_append, word, before, behind]

theorem munch_spelled {w rest : List Char} {t : Terminal} (spelled : Spelled w t)
    (stops : Stops w rest) : ∃ c cs, w ++ rest = c :: cs ∧ munch c cs = taken w t rest := by
  cases spelled with
  | number n =>
    obtain ⟨c, cs, text, digit⟩ := numeral_first n
    refine ⟨c, cs ++ rest, by rw [text]; rfl, ?_⟩
    rw [munch_digit _ digit, ← List.cons_append, ← text, number_text n stops]
    rfl
  | string isQuote unquoted => exact ⟨_, _, rfl, munch_string rest isQuote unquoted⟩
  | bang | greater | less =>
    refine ⟨_, _, rfl, with_equal_short ?_⟩
    rintro next first rfl
    cases stops _ first
  | trueWord | falseWord => exact ⟨_, _, rfl, munch_word rfl (List.all_eq_true.mp rfl) stops⟩
  | identifier start parts notTrue notFalse =>
    have read := munch_word ((name_start_iff _).mpr start)
      (fun d member => (name_part_iff d).mpr (parts d member)) stops
    rw [wordTerminal, if_neg notTrue, if_neg notFalse] at read
    exact ⟨_, _, rfl, read⟩
  | _ => exact ⟨_, _, rfl, rfl⟩

def Admitted (w : List Char) : Prop :=
  ∀ n : Numeral, n.text = w → ∃ d, Decimal.read w = .ok d ∧ d.inRange = some true

theorem read_numeral {n : Numeral} {d : Decimal} (read : Decimal.read n.text = .ok d) :
    d = n.decimal :=
  ((Decimal.read_signed_iff false n d).mp read).2

theorem taken_ok {w : List Char} {t : Terminal} (spelled : Spelled w t) (admitted : Admitted w)
    (rest : List Char) : taken w t rest = ⟨.ok t, w, rest⟩ := by
  cases spelled with
  | number n =>
    obtain ⟨d, read, range⟩ := admitted n rfl
    obtain rfl := read_numeral read
    have verdict := (literal_ok_iff n.text _).mpr ⟨n.decimal, read, range, rfl⟩
    rw [taken, finished, verdict]
  | _ => rfl

theorem spelled_numeral {n : Numeral} {t : Terminal} (spelled : Spelled n.text t) :
    ∃ m : Numeral, m.text = n.text ∧ t = .number m.decimal := by
  obtain ⟨c, cs, text, digit⟩ := numeral_first n
  generalize n.text = w at spelled text
  cases spelled with
  | number m => exact ⟨m, rfl, rfl⟩
  | string isQuote unquoted =>
    cases text
    rcases isQuote with rfl | rfl <;> cases digit
  | identifier start parts notTrue notFalse =>
    cases text
    rw [name_start_not_digit ((name_start_iff _).mpr start)] at digit
    cases digit
  | _ =>
    cases text
    cases digit

theorem spelled_word {c : Char} {cs : List Char} (start : isNameStart c = true)
    (parts : ∀ d ∈ cs, isNamePart d = true) : Spelled (c :: cs) (wordTerminal (c :: cs)) := by
  rw [wordTerminal]
  by_cases isTrue : c :: cs = ['t', 'r', 'u', 'e']
  · rw [if_pos isTrue, isTrue]
    exact .trueWord
  · rw [if_neg isTrue]
    by_cases isFalse : c :: cs = ['f', 'a', 'l', 's', 'e']
    · rw [if_pos isFalse, isFalse]
      exact .falseWord
    · rw [if_neg isFalse]
      exact .identifier ((name_start_iff c).mp start)
        (fun d member => (name_part_iff d).mp (parts d member)) isTrue isFalse

structure Exact (w : List Char) (t : Terminal) (rest : List Char) : Prop where
  spelled : Spelled w t
  stops : Stops w rest
  number : ∀ d, t = .number d → Decimal.read w = .ok d ∧ d.inRange = some true

theorem exact_admitted {w rest : List Char} {t : Terminal} (read : Exact w t rest) :
    Admitted w := by
  rintro n rfl
  obtain ⟨m, -, rfl⟩ := spelled_numeral read.spelled
  exact ⟨m.decimal, read.number _ rfl⟩

theorem read_number_exact {w rest : List Char} {t : Terminal} (number : ReadNumber w t rest) :
    Exact w t rest := by
  obtain ⟨⟨n, rfl⟩, stops, d, read, range, rfl⟩ := number
  refine ⟨read_numeral read ▸ .number n, stops, ?_⟩
  rintro _ ⟨⟩
  exact ⟨read, range⟩

theorem word_exact {c : Char} {cs rest w : List Char} {t : Terminal} (start : isNameStart c = true)
    (ok : word (c :: cs) = ⟨.ok t, w, rest⟩) : Exact w t rest := by
  have first : (c :: cs).takeWhile isNamePart = c :: cs.takeWhile isNamePart := by
    simp [name_start_part start]
  rw [word, first] at ok
  cases ok
  refine ⟨spelled_word start (List.all_eq_true.mp List.all_takeWhile), ?_, ?_⟩
  · intro next behind
    rw [goesOn, name_start_not_digit start, if_neg Bool.false_ne_true, if_pos start]
    exact behind_run _ _ next behind
  · intro d same
    unfold wordTerminal at same
    split at same
    · cases same
    · split at same <;> cases same

theorem quoted_exact {quote : Char} {cs rest w : List Char} {t : Terminal}
    (isQuote : quote = '"' ∨ quote = '\'') (ok : quoted quote cs = ⟨.ok t, w, rest⟩) :
    Exact w t rest := by
  have closes := behind_run (· != quote) cs
  unfold quoted at ok
  split at ok
  · rename_i closing behind dropped
    rw [dropped] at closes
    have same : closing = quote := by simpa using closes closing rfl
    subst same
    cases ok
    refine ⟨.string isQuote ?_, ?_, nofun⟩
    · intro inside
      simpa using List.all_eq_true.mp List.all_takeWhile closing inside
    · intro next first
      rcases isQuote with rfl | rfl <;> simp [goesOn, isNameStart]
  · cases ok

theorem with_equal_exact {short long : Terminal} {c : Char} {cs rest w : List Char} {t : Terminal}
    (spelledShort : Spelled [c] short) (spelledLong : Spelled [c, '='] long)
    (symbol : ∀ next, goesOn [c] next = (next == '=') ∧ goesOn [c, '='] next = false)
    (number : ∀ d, short ≠ .number d ∧ long ≠ .number d)
    (ok : withEqual short long c cs = ⟨.ok t, w, rest⟩) : Exact w t rest := by
  unfold withEqual at ok
  split at ok
  · cases ok
    exact ⟨spelledLong, fun next _ => (symbol next).2, fun d same => absurd same (number d).2⟩
  · rename_i cs none
    cases ok
    refine ⟨spelledShort, ?_, fun d same => absurd same (number d).1⟩
    intro next first
    rw [(symbol next).1, beq_eq_false_iff_ne]
    rintro rfl
    obtain ⟨tail, rfl⟩ := List.head?_eq_some_iff.mp first
    exact none tail rfl

theorem doubled_exact {terminal : Terminal} {c : Char} {cs rest w : List Char} {t : Terminal}
    (spelled : Spelled [c, c] terminal) (symbol : ∀ next, goesOn [c, c] next = false)
    (number : ∀ d, terminal ≠ .number d) (ok : doubled terminal c cs = ⟨.ok t, w, rest⟩) :
    Exact w t rest := by
  unfold doubled at ok
  split at ok
  · split at ok
    · rename_i same
      cases ok
      rw [same]
      exact ⟨spelled, fun next _ => symbol next, fun d same => absurd same (number d)⟩
    · cases ok
  · cases ok

theorem munch_exact {c : Char} {cs rest w : List Char} {t : Terminal}
    (ok : munch c cs = ⟨.ok t, w, rest⟩) : Exact w t rest := by
  unfold munch at ok
  split at ok
  case h_20 =>
    by_cases digit : c.isDigit = true
    · rw [if_pos digit] at ok
      exact read_number_exact (number_ok digit ok)
    · rw [if_neg digit] at ok
      by_cases start : isNameStart c = true
      · rw [if_pos start] at ok
        exact word_exact start ok
      · rw [if_neg start] at ok
        cases ok
  case h_18 | h_19 => exact quoted_exact (by simp) ok
  case h_12 | h_13 | h_14 =>
    exact with_equal_exact (by constructor) (by constructor) (fun _ => ⟨rfl, rfl⟩)
      (by simp) ok
  case h_15 | h_16 | h_17 => exact doubled_exact (by constructor) (fun _ => rfl) (by simp) ok
  all_goals
    cases ok
    exact ⟨by constructor, fun _ _ => rfl, nofun⟩

theorem taken_lexeme (w : List Char) (t : Terminal) (rest : List Char) :
    (taken w t rest).lexeme = w := by
  cases t <;> rfl

theorem longest_of_stops {w rest longer : List Char} {t t' : Terminal} (spelled : Spelled w t)
    (stops : Stops w rest) (other : Spelled longer t') (here : longer <+: w ++ rest) :
    longer.length ≤ w.length := by
  obtain ⟨tail, whole⟩ := here
  rcases List.append_eq_append_iff.mp whole with ⟨mid, rfl, -⟩ | ⟨mid, rfl, rfl⟩
  · simp
  · cases mid with
    | nil => simp
    | cons next mid =>
      -- Both would be read first from the same characters.
      have ends : Stops w (next :: mid) := by
        rintro _ ⟨⟩
        exact stops next rfl
      obtain ⟨c, cs, text, short⟩ := munch_spelled spelled ends
      have whole : Stops (w ++ next :: mid) [] := nofun
      obtain ⟨d, ds, same, long⟩ := munch_spelled other whole
      rw [List.append_nil, text] at same
      cases same
      have lexemes := congrArg Munch.lexeme (short.symm.trans long)
      rw [taken_lexeme, taken_lexeme] at lexemes
      exact Nat.le_of_eq (congrArg List.length lexemes).symm

theorem numeral_more (n : Numeral) {next : Char} (digit : next.isDigit = true) :
    ∃ m : Numeral, m.text = n.text ++ [next] := by
  have one : AllDigits [next] := by simpa [AllDigits] using digit
  obtain ⟨whole, places, power, written, wholeDigits, placesDigits⟩ := n
  cases power with
  | some p =>
    refine ⟨⟨whole, places, some { p with
      digits := p.digits ++ [next]
      written := by simp
      isDigits := all_digits_append p.isDigits one }, written, wholeDigits, placesDigits⟩, ?_⟩
    simp [Numeral.text, Numeral.base, Numeral.powerText, Power.text]
  | none =>
    cases places with
    | nil =>
      refine ⟨⟨whole ++ [next], [], none, by simp, all_digits_append wholeDigits one,
        placesDigits⟩, ?_⟩
      simp [Numeral.text, Numeral.base, Numeral.powerText, Numeral.fraction]
    | cons d ds =>
      refine ⟨⟨whole, d :: ds ++ [next], none, written, wholeDigits,
        all_digits_append placesDigits one⟩, ?_⟩
      simp [Numeral.text, Numeral.base, Numeral.powerText, Numeral.fraction]

theorem word_more {c : Char} {cs : List Char} {next : Char} (start : isNameStart c = true)
    (parts : ∀ d ∈ cs, isNamePart d = true) (more : goesOn (c :: cs) next = true) :
    ∃ t, Spelled (c :: cs ++ [next]) t := by
  rw [goesOn, name_start_not_digit start, if_neg Bool.false_ne_true, if_pos start] at more
  refine ⟨_, spelled_word start ?_⟩
  intro d member
  rcases List.mem_append.mp member with early | last
  · exact parts d early
  · cases List.mem_singleton.mp last
    exact more

theorem longer_of_goes_on {w : List Char} {t : Terminal} {next : Char} (spelled : Spelled w t)
    (more : goesOn w next = true) : (∃ t', Spelled (w ++ [next]) t') ∨
      ∃ n : Numeral, n.text = w ∧ n.power = none ∧ (next = 'e' ∨ next = 'E' ∨ next = '.') := by
  cases spelled with
  | number n =>
    rw [numeral_goes_on, Bool.or_eq_true, Bool.and_eq_true, Option.isNone_iff_eq_none] at more
    rcases more with digit | ⟨bare, more⟩
    · obtain ⟨m, text⟩ := numeral_more n digit
      rw [← text]
      exact .inl ⟨_, .number m⟩
    · refine .inr ⟨n, rfl, bare, ?_⟩
      simp only [Decimal.isExponentMark, Bool.or_eq_true, Bool.and_eq_true, beq_iff_eq] at more
      rcases more with mark | ⟨-, point⟩
      · exact mark.imp_right .inl
      · exact .inr (.inr point)
  | bang | greater | less =>
    obtain rfl := beq_iff_eq.mp more
    exact .inl ⟨_, by constructor⟩
  | string isQuote unquoted =>
    rcases isQuote with rfl | rfl <;> simp [goesOn, isNameStart] at more
  | trueWord | falseWord => exact .inl (word_more rfl (List.all_eq_true.mp rfl) more)
  | identifier start parts notTrue notFalse =>
    exact .inl (word_more ((name_start_iff _).mpr start)
      (fun d member => (name_part_iff d).mpr (parts d member)) more)
  | _ => cases more

theorem layout_iff (c : Char) :
    isLayout c = true ↔ c = ' ' ∨ c = '\t' ∨ c = '\r' ∨ c = '\n' := by
  simp [isLayout, or_assoc]

theorem layout_stops (w : List Char) {next : Char} (layout : isLayout next = true) :
    goesOn w next = false := by
  cases w with
  | nil => rfl
  | cons c cs =>
    rcases (layout_iff next).mp layout with rfl | rfl | rfl | rfl <;>
      simp [goesOn, isNamePart, Decimal.isExponentMark]

theorem not_layout {c : Char} (inside : c.isDigit = true ∨ isNameStart c = true) :
    isLayout c = false := by
  rw [Bool.eq_false_iff, Ne, layout_iff]
  rintro (rfl | rfl | rfl | rfl) <;> exact absurd inside (by decide)

theorem spelled_first {w : List Char} {t : Terminal} (spelled : Spelled w t) :
    ∃ c cs, w = c :: cs ∧ isLayout c = false ∧ c ≠ '.' := by
  cases spelled with
  | number n =>
    obtain ⟨c, cs, text, digit⟩ := numeral_first n
    exact ⟨c, cs, text, not_layout (.inl digit), Decimal.digit_ne digit rfl⟩
  | string isQuote unquoted =>
    rcases isQuote with rfl | rfl <;> exact ⟨_, _, rfl, rfl, by decide⟩
  | identifier start parts notTrue notFalse =>
    have start := (name_start_iff _).mpr start
    refine ⟨_, _, rfl, not_layout (.inr start), ?_⟩
    rintro rfl
    cases start
  | _ => exact ⟨_, _, rfl, rfl, by decide⟩

end Formula.Lexer
