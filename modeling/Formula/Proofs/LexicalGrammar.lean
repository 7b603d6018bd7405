import Formula.Proofs.Lexeme
import Formula.Proofs.Lexing
import Mathlib.Data.List.TakeWhile

set_option autoImplicit false

namespace Formula.Lexer

def Layout (gap : List Char) : Prop := ∀ c ∈ gap, c = ' ' ∨ c = '\t' ∨ c = '\r' ∨ c = '\n'

structure Word where
  gap : List Char
  lexeme : List Char
  terminal : Terminal

def textOf (behind : List Char) : List Word → List Char
  | [] => behind
  | word :: words => word.gap ++ (word.lexeme ++ textOf behind words)

def tokensFrom (position : Nat) : List Word → List Token
  | [] => []
  | word :: words =>
    let start := position + byteLength word.gap
    let stop := start + byteLength word.lexeme
    ⟨word.terminal, String.ofList word.lexeme, ⟨start, stop⟩⟩ :: tokensFrom stop words

-- A lexeme before the rest of its source: it is the longest one there, and a number is not broken
-- off before an exponent mark, and is one that can be computed with.
structure Word.Fits (word : Word) (rest : List Char) : Prop where
  layout : Layout word.gap
  spelled : Spelled word.lexeme word.terminal
  longest : ∀ longer t, Spelled longer t → longer <+: word.lexeme ++ rest →
    longer.length ≤ word.lexeme.length
  unbroken : ∀ n : Numeral, n.text = word.lexeme → n.power = none →
    ∀ next ∈ rest.head?, next ≠ 'e' ∧ next ≠ 'E'
  admitted : Admitted word.lexeme

def WordsFit (behind : List Char) : List Word → Prop
  | [] => Layout behind
  | word :: words => word.Fits (textOf behind words) ∧ WordsFit behind words

structure Cut where
  words : List Word
  behind : List Char

def Cut.text (cut : Cut) : List Char := textOf cut.behind cut.words

def Cut.Fits (cut : Cut) : Prop := WordsFit cut.behind cut.words

def Cut.tokens (cut : Cut) : List Token :=
  tokensFrom 0 cut.words ++ [.eofAt (byteLength cut.text)]

structure Word.Steady (word : Word) (rest : List Char) : Prop where
  layout : Layout word.gap
  spelled : Spelled word.lexeme word.terminal
  stops : Stops word.lexeme rest
  admitted : Admitted word.lexeme

def WordsSteady (behind : List Char) : List Word → Prop
  | [] => Layout behind
  | word :: words => word.Steady (textOf behind words) ∧ WordsSteady behind words

theorem layout_all {gap : List Char} (layout : Layout gap) : ∀ c ∈ gap, isLayout c = true :=
  fun c member => (layout_iff c).mpr (layout c member)

theorem layout_run (cs : List Char) : Layout (cs.takeWhile isLayout) :=
  fun c member => (layout_iff c).mp (List.all_eq_true.mp List.all_takeWhile c member)

theorem words_no_point {behind : List Char} {words : List Word} (fit : WordsFit behind words) :
    ∀ next ∈ (textOf behind words).head?, next ≠ '.' := by
  have gap_first {gap rest : List Char} (layout : Layout gap)
      (ends : ∀ next ∈ rest.head?, next ≠ '.') : ∀ next ∈ (gap ++ rest).head?, next ≠ '.' := by
    cases gap with
    | nil => exact ends
    | cons c gap =>
      rintro _ ⟨⟩ rfl
      simpa using layout '.' List.mem_cons_self
  cases words with
  | nil => simpa [textOf] using @gap_first behind [] fit nofun
  | cons word words =>
    obtain ⟨c, cs, first, -, point⟩ := spelled_first fit.1.spelled
    apply gap_first fit.1.layout
    rw [first]
    rintro _ ⟨⟩
    exact point

theorem stops_of_fits {word : Word} {rest : List Char} (fits : word.Fits rest)
    (point : ∀ next ∈ rest.head?, next ≠ '.') : Stops word.lexeme rest := by
  intro next first
  rw [Bool.eq_false_iff]
  intro more
  rcases longer_of_goes_on fits.spelled more with ⟨t, longer⟩ | ⟨n, text, bare, mark⟩
  · obtain ⟨tail, rfl⟩ := List.head?_eq_some_iff.mp first
    have length := fits.longest _ t longer ⟨tail, by simp⟩
    rw [List.length_append, List.length_singleton] at length
    omega
  · have unbroken := fits.unbroken n text bare next first
    have inside := point next first
    simp [unbroken, inside] at mark

theorem fits_of_stops {word : Word} {rest : List Char} (steady : word.Steady rest) :
    word.Fits rest := by
  refine ⟨steady.layout, steady.spelled, ?_, ?_, steady.admitted⟩
  · intro longer t other here
    exact longest_of_stops steady.spelled steady.stops other here
  · intro n text bare next first
    have stop := steady.stops next first
    rw [← text, numeral_goes_on, bare] at stop
    constructor <;> rintro rfl <;> cases stop

theorem words_fit_iff {behind : List Char} {words : List Word} :
    WordsFit behind words ↔ WordsSteady behind words := by
  induction words with
  | nil => exact Iff.rfl
  | cons word words ih =>
    constructor
    · rintro ⟨fits, later⟩
      exact ⟨⟨fits.layout, fits.spelled, stops_of_fits fits (words_no_point later), fits.admitted⟩,
        ih.mp later⟩
    · rintro ⟨steady, later⟩
      exact ⟨fits_of_stops steady, ih.mpr later⟩

theorem run_of_end {cursor : Cursor} (behind : cursor.skip.rest = []) :
    cursor.run = ⟨[], .eofAt cursor.skip.position⟩ := by
  rw [Cursor.run]
  split
  · rfl
  · rename_i more
    rw [behind] at more
    cases more

theorem run_of_more {cursor : Cursor} {c : Char} {cs : List Char}
    (behind : cursor.skip.rest = c :: cs) :
    cursor.run = ⟨cursor.next.1 :: cursor.next.2.run.steps, cursor.next.2.run.eof⟩ := by
  rw [Cursor.run]
  split
  · rename_i none
    rw [behind] at none
    cases none
  · rfl

theorem steady_first {word : Word} {rest : List Char} (steady : word.Steady rest) :
    ∃ c cs, word.lexeme ++ rest = c :: cs ∧ isLayout c = false ∧
      munch c cs = ⟨.ok word.terminal, word.lexeme, rest⟩ := by
  obtain ⟨c, cs, text, read⟩ := munch_spelled steady.spelled steady.stops
  obtain ⟨d, ds, first, apart, -⟩ := spelled_first steady.spelled
  rw [taken_ok steady.spelled steady.admitted] at read
  have same : d = c := by
    rw [first] at text
    exact (List.cons.inj text).1
  exact ⟨c, cs, text, same ▸ apart, read⟩

theorem steady_apart {word : Word} {rest : List Char} (steady : word.Steady rest) :
    (word.gap ++ (word.lexeme ++ rest)).takeWhile isLayout = word.gap ∧
      (word.gap ++ (word.lexeme ++ rest)).dropWhile isLayout = word.lexeme ++ rest := by
  apply take_drop_exact (layout_all steady.layout)
  obtain ⟨c, cs, text, apart, -⟩ := steady_first steady
  rw [text]
  rintro _ ⟨⟩
  exact apart

theorem next_word {cursor : Cursor} {word : Word} {rest : List Char}
    (here : cursor.rest = word.gap ++ (word.lexeme ++ rest)) (steady : word.Steady rest) :
    let start := cursor.position + byteLength word.gap
    let stop := start + byteLength word.lexeme
    (∃ c cs, cursor.skip.rest = c :: cs) ∧
      cursor.next = (.ok ⟨word.terminal, String.ofList word.lexeme, ⟨start, stop⟩⟩, ⟨stop, rest⟩) := by
  intro start stop
  obtain ⟨gap, text⟩ := steady_apart steady
  obtain ⟨c, cs, first, -, read⟩ := steady_first steady
  have position : cursor.skip.position = start := by rw [Cursor.skip, here, gap]
  have behind : cursor.skip.rest = c :: cs := by rw [Cursor.skip, here, text, first]
  refine ⟨⟨c, cs, behind⟩, ?_⟩
  rw [next_of_more behind, read, position]
  rfl

theorem run_words {behind : List Char} {words : List Word} (steady : WordsSteady behind words)
    {cursor : Cursor} (here : cursor.rest = textOf behind words) :
    cursor.run.steps = (tokensFrom cursor.position words).map .ok := by
  induction words generalizing cursor with
  | nil =>
    have ends : cursor.skip.rest = [] := by
      rw [Cursor.skip, here]
      exact List.dropWhile_eq_nil_iff.mpr (layout_all steady)
    rw [run_of_end ends]
    rfl
  | cons word words ih =>
    obtain ⟨⟨c, cs, more⟩, next⟩ := next_word here steady.1
    rw [run_of_more more, next, ih steady.2 rfl]
    rfl

theorem words_of_run {cursor : Cursor} {ts : List Token} (ok : cursor.run.steps = ts.map .ok) :
    ∃ behind words, cursor.rest = textOf behind words ∧ WordsSteady behind words := by
  fun_induction Cursor.run cursor generalizing ts with
  | case1 cursor behind =>
    have layout := List.dropWhile_eq_nil_iff.mp behind
    exact ⟨cursor.rest, [], rfl, fun c member => (layout_iff c).mp (layout c member)⟩
  | case2 cursor c cs more run =>
    rename_i ih
    cases ts with
    | nil => cases ok
    | cons t ts =>
      obtain ⟨first, later⟩ := List.cons.inj ok
      obtain ⟨behind, words, rest, steady⟩ := ih later
      rw [next_of_more more] at first rest
      have read : Exact (munch c cs).lexeme t.terminal (munch c cs).rest :=
        munch_exact (by rw [← (place_ok first).1])
      refine ⟨behind, ⟨cursor.rest.takeWhile isLayout, (munch c cs).lexeme, t.terminal⟩ :: words,
        ?_, ⟨layout_run _, read.spelled, rest ▸ read.stops, exact_admitted read⟩, steady⟩
      calc cursor.rest = cursor.rest.takeWhile isLayout ++ cursor.skip.rest :=
            List.takeWhile_append_dropWhile.symm
        _ = cursor.rest.takeWhile isLayout ++ ((munch c cs).lexeme ++ (munch c cs).rest) := by
            rw [more, (munch_splits c cs).1]
        _ = textOf behind (_ :: words) := by rw [textOf, ← rest]

theorem steps_of_eof {steps : List (Result Token)} {eof token : Token}
    (ends : (Lexed.ofSteps steps eof).ending = .eof token) :
    steps = (Lexed.ofSteps steps eof).tokens.map .ok := by
  fun_induction Lexed.ofSteps steps eof with
  | case1 eof => rfl
  | case2 token steps eof lexed ih => exact congrArg (Except.ok token :: ·) (ih ends)
  | case3 e steps eof => cases ends

theorem of_steps_ok (ts : List Token) (eof : Token) :
    Lexed.ofSteps (ts.map .ok) eof = ⟨ts, .eof eof⟩ := by
  induction ts with
  | nil => rfl
  | cons t ts ih => rw [List.map_cons, Lexed.ofSteps, ih]

theorem lex_words {source : String} {behind : List Char} {words : List Word}
    (text : source.toList = textOf behind words) (steady : WordsSteady behind words) :
    lex source = ⟨tokensFrom 0 words, .eof (.eofAt source.utf8ByteSize)⟩ := by
  have here : (Cursor.start source).rest = textOf behind words := text
  rw [lex, run_words steady here, run_eof (within_start source), of_steps_ok]
  rfl

theorem tokens_iff_words {source : String} {ts : List Token} :
    tokens source = .ok ts ↔ ∃ behind words, source.toList = textOf behind words ∧
      WordsSteady behind words ∧ ts = tokensFrom 0 words ++ [.eofAt source.utf8ByteSize] := by
  rw [tokens_ok_iff]
  constructor
  · rintro ⟨ends, rfl⟩
    obtain ⟨behind, words, text, steady⟩ := words_of_run (steps_of_eof ends)
    refine ⟨behind, words, text, steady, ?_⟩
    rw [lex_words text steady]
  · rintro ⟨behind, words, text, steady, rfl⟩
    rw [lex_words text steady]
    exact ⟨rfl, rfl⟩

theorem steady_unique {a b : Word} {rest rest' : List Char} (first : a.Steady rest)
    (second : b.Steady rest')
    (same : a.gap ++ (a.lexeme ++ rest) = b.gap ++ (b.lexeme ++ rest')) :
    a = b ∧ rest = rest' := by
  obtain ⟨gap, text⟩ := steady_apart first
  obtain ⟨gap', text'⟩ := steady_apart second
  rw [same, gap'] at gap
  rw [same, text'] at text
  obtain ⟨c, cs, shown, -, read⟩ := steady_first first
  obtain ⟨d, ds, shown', -, read'⟩ := steady_first second
  rw [← text, shown'] at shown
  cases shown
  rw [read'] at read
  cases a
  cases b
  cases read
  cases gap
  exact ⟨rfl, rfl⟩

theorem words_unique {behind behind' : List Char} {words words' : List Word}
    (first : WordsSteady behind words) (second : WordsSteady behind' words')
    (same : textOf behind words = textOf behind' words') : words = words' ∧ behind = behind' := by
  -- Layout has no word in it, so both have none or both have one.
  have outside {gap rest : List Char} {word : Word} (steady : word.Steady rest)
      (layout : Layout gap) : gap ≠ word.gap ++ (word.lexeme ++ rest) := by
    rintro rfl
    obtain ⟨c, cs, text, apart, -⟩ := steady_first steady
    have inside := (layout_iff c).mpr (layout c (by rw [text]; simp))
    rw [apart] at inside
    cases inside
  induction words generalizing words' with
  | nil =>
    cases words' with
    | nil => exact ⟨rfl, same⟩
    | cons word words' => exact absurd same (outside second.1 first)
  | cons word words ih =>
    cases words' with
    | nil => exact absurd same.symm (outside first.1 second)
    | cons word' words' =>
      obtain ⟨rfl, rest⟩ := steady_unique first.1 second.1 same
      obtain ⟨rfl, behind⟩ := ih first.2 second.2 rest
      exact ⟨rfl, behind⟩

/-- A source has tokens exactly if it can be cut into layout and lexemes, each the longest one in
its place, with no exponent mark behind a number that has no exponent, and each number one that can
be computed with. The tokens are then the lexemes with what they stand for, a number with the
decimal that its digits denote, and the end; and there is no second way to cut the source. -/
theorem tokens_accept_lexemes (source : String) :
    (∀ ts, tokens source = .ok ts ↔
      ∃ cut : Cut, cut.text = source.toList ∧ cut.Fits ∧ cut.tokens = ts) ∧
    ∀ a b : Cut, a.text = source.toList → b.text = source.toList → a.Fits → b.Fits → a = b := by
  constructor
  · intro ts
    rw [tokens_iff_words, ← byte_length_source]
    constructor
    · rintro ⟨behind, words, text, steady, rfl⟩
      refine ⟨⟨words, behind⟩, text.symm, words_fit_iff.mpr steady, ?_⟩
      rw [Cut.tokens, Cut.text, text]
    · rintro ⟨⟨words, behind⟩, text, fits, rfl⟩
      refine ⟨behind, words, text.symm, words_fit_iff.mp fits, ?_⟩
      rw [Cut.tokens, text]
  · rintro ⟨words, behind⟩ ⟨words', behind'⟩ text text' fits fits'
    obtain ⟨rfl, rfl⟩ := words_unique (words_fit_iff.mp fits) (words_fit_iff.mp fits')
      (text.trans text'.symm)
    rfl

end Formula.Lexer
