import Formula.Proofs.LexicalGrammar
import Formula.Proofs.ScaleWords
import Formula.Proofs.Scanning

set_option autoImplicit false

namespace Formula

open Decimal (lowestScale)
open Lexer (Cursor Layout Reads Within)

def RawToken.Carries (t : RawToken) : Prop :=
  match t.type with
  | .number => ∃ d, t.literal = some (.number d) ∧ Decimal.read t.lexeme.toList = .ok d
  | .string => ∃ s, t.literal = some (.text s) ∧ Lexer.Quotes t.lexeme.toList s
  | .boolean => ∃ b, t.literal = some (.boolean b) ∧ t.lexeme = if b then "true" else "false"
  | _ => t.literal = none

structure RawToken.Sound (t : RawToken) : Prop where
  more : t.type ≠ .eof
  column : t.column = t.span.stop
  carries : t.Carries

-- A stretch of the source that is read as a number at the lowest scale.
def LowestNumeral (source : String) (span : Span) : Prop :=
  ∃ text d, Reads source span text ∧ Decimal.read text = .ok d ∧ d.scale = lowestScale

theorem exact_carries {t : Token} {w rest : List Char} (read : Lexer.Exact w t.terminal rest)
    (lexeme : t.lexeme = String.ofList w)
    (quoted : ∀ s, t.terminal = .string s → Lexer.Quotes w s) : t.raw.Carries := by
  obtain ⟨spelled, _, number⟩ := read
  unfold RawToken.Carries
  rw [Token.raw, lexeme, String.toList_ofList]
  cases is : t.terminal with
  | number d => exact ⟨d, rfl, (number d is).1⟩
  | string s => exact ⟨s, rfl, quoted s is⟩
  | boolean b =>
    rw [is] at spelled
    refine ⟨b, rfl, ?_⟩
    cases spelled <;> rfl
  | _ => rfl

theorem type_eof {t : Terminal} (eof : t.type = .eof) : t = .eof := by
  cases t <;> cases eof
  rfl

theorem placed_sound {c : Char} {cs : List Char} {position : Nat} {t : Token}
    (placed : (Lexer.munch c cs).place position = .ok t) : t.raw.Sound := by
  obtain ⟨verdict, lexeme, -⟩ := Lexer.place_ok placed
  have munched := Lexer.munch_munched c cs
  have read : Lexer.munch c cs =
      ⟨.ok t.terminal, (Lexer.munch c cs).lexeme, (Lexer.munch c cs).rest⟩ := by
    rw [← verdict]
  refine ⟨fun eof => Lexer.munched_more munched verdict (type_eof eof), rfl,
    exact_carries (Lexer.munch_exact read) lexeme fun s text => ?_⟩
  exact Lexer.munched_quotes munched (verdict.trans (congrArg _ text))

namespace Scanner

inductive Answers (span : Span) (text : List Char) : Result RawToken → Prop where
  | token {t : RawToken} (placed : t.span = span) (lexeme : t.lexeme.toList = text)
    (sound : t.Sound) : Answers span text (.ok t)
  | error {e : Error} (placed : e.span = some span) : Answers span text (.error (.failed e))

-- Layout and the spans of answers by turns, from one byte to another.
inductive Tiles (source : String) : Nat → List (Result RawToken) → Nat → Prop where
  | gap {start stop : Nat} {gap : List Char} (reads : Reads source ⟨start, stop⟩ gap)
    (layout : Layout gap) : Tiles source start [] stop
  | answer {start stop : Nat} {gap text : List Char} {span : Span} {answer : Result RawToken}
    {later : List (Result RawToken)} (before : Reads source ⟨start, span.start⟩ gap)
    (layout : Layout gap) (reads : Reads source span text) (written : text ≠ [])
    (answers : Answers span text answer) (tiles : Tiles source span.stop later stop) :
    Tiles source start (answer :: later) stop

section

variable {source : String} {cursor : Cursor} {s : Scanner}

theorem at_within (stands : At source cursor s) : Within source cursor := by
  obtain ⟨current, front, taken, stands⟩ := stands
  refine ⟨front ++ taken, ?_, ?_⟩
  · rw [stands.text, List.append_assoc]
  · rw [Lexer.byte_length_append, ← stands.current, current]

theorem after_at (stands : At source cursor s) (n : Nat) :
    ∃ cursor, At source cursor (s.after n) := by
  induction n generalizing cursor s with
  | zero => exact ⟨cursor, stands⟩
  | succ n ih => exact ih (next_agrees stands).behind

theorem skipped_reads (within : Within source cursor) :
    Reads source ⟨cursor.position, cursor.skip.position⟩ (cursor.rest.takeWhile Lexer.isLayout) := by
  obtain ⟨before, whole, position⟩ := within
  refine ⟨before, cursor.skip.rest, ?_, ?_⟩
  · rw [whole, Cursor.skip, List.takeWhile_append_dropWhile]
  · rw [position, Cursor.skip]

theorem end_position (within : Within source cursor) (ends : cursor.skip.rest = []) :
    cursor.skip.position = source.utf8ByteSize := by
  obtain ⟨before, whole, position⟩ := Lexer.within_skip within
  rw [ends, List.append_nil] at whole
  rw [← position, ← Lexer.byte_length_source, whole]

theorem call_end (stands : At source cursor s) (ends : cursor.skip.rest = []) (n : Nat) :
    s.call n = .ok (Token.eofAt source.utf8ByteSize).raw := by
  have next : cursor.next = (.ok (.eofAt source.utf8ByteSize), cursor.skip) := by
    rw [Lexer.next_of_end ends, end_position (at_within stands) ends]
  have agrees := next_agrees stands
  induction n generalizing cursor s with
  | zero =>
    rw [call, after, agrees.answer, next]
    rfl
  | succ n ih =>
    have behind := agrees.behind
    rw [next] at behind
    have still : cursor.skip.skip.rest = [] := by
      rw [Cursor.skip, ends]
      rfl
    exact ih behind still (by rw [Lexer.next_of_end still, end_position (at_within behind) still])
      (next_agrees behind)

theorem call_runs (stands : At source cursor s) (n : Nat) :
    s.call n =
      (cursor.run.steps[n]?.getD (.ok (.eofAt source.utf8ByteSize))).map Token.raw := by
  induction n generalizing cursor s with
  | zero =>
    cases rest : cursor.skip.rest with
    | nil =>
      rw [call_end stands rest, Lexer.run_of_end rest]
      rfl
    | cons c cs =>
      rw [Lexer.run_of_more rest]
      exact (next_agrees stands).answer
  | succ n ih =>
    cases rest : cursor.skip.rest with
    | nil =>
      rw [call_end stands rest, Lexer.run_of_end rest]
      rfl
    | cons c cs =>
      rw [Lexer.run_of_more rest]
      exact ih (next_agrees stands).behind

def Panics (source : String) (s : Scanner) : Prop :=
  s.next.1 = .error .panicked ∧ LowestNumeral source s.next.2.span

theorem next_span (stands : At source cursor s) :
    s.next.2.span = ⟨cursor.skip.position, cursor.next.2.position⟩ :=
  have agrees := next_agrees stands
  congrArg₂ Span.mk agrees.start agrees.behind.1

theorem next_answers (stands : At source cursor s) {c : Char} {cs : List Char}
    (rest : cursor.skip.rest = c :: cs) :
    Answers s.next.2.span (Lexer.munch c cs).lexeme s.next.1 ∨ Panics source s := by
  have answer := (next_agrees stands).answer
  obtain ⟨reads, -⟩ := Lexer.next_reads (at_within stands) rest
  rw [← next_span stands] at reads
  have span : s.next.2.span =
      ⟨cursor.skip.position, cursor.skip.position + byteLength (Lexer.munch c cs).lexeme⟩ := by
    rw [next_span stands, Lexer.next_of_more rest]
  rw [Lexer.next_of_more rest] at answer
  cases given : (Lexer.munch c cs).place cursor.skip.position with
  | ok t =>
    obtain ⟨-, lexeme, placed⟩ := Lexer.place_ok given
    rw [answer, given]
    refine .inl (.token (placed.trans span.symm) ?_ (placed_sound given))
    rw [Token.raw, lexeme, String.toList_ofList]
  | error stop =>
    obtain ⟨fault | _, verdict, rfl⟩ := Lexer.place_error given
    · rw [answer, given]
      exact .inl (.error (congrArg some span.symm))
    · obtain ⟨d, read, lowest⟩ := Lexer.munched_panic (Lexer.munch_munched c cs) verdict
      rw [given] at answer
      exact .inr ⟨answer, _, d, reads, read, Decimal.in_range_none.mp lowest⟩

theorem panics_at (stands : At source cursor s) (panics : s.next.1 = .error .panicked) :
    Panics source s := by
  cases rest : cursor.skip.rest with
  | nil =>
    have ended : s.next.1 = _ := call_end stands rest 0
    rw [panics] at ended
    cases ended
  | cons c cs =>
    rcases next_answers stands rest with answers | panics'
    · rw [panics] at answers
      cases answers
    · exact panics'

structure Scanned (source : String) (start : Nat) (s : Scanner) (n stop : Nat) : Prop where
  tiles : Tiles source start (s.calls n) stop
  ending : (stop = source.utf8ByteSize ∧
      ∀ m, n ≤ m → s.call m = .ok (Token.eofAt source.utf8ByteSize).raw) ∨
    (stop = (s.after (n + 1)).start ∧ Panics source (s.after n))

theorem scan_end (stands : At source cursor s) (rest : cursor.skip.rest = []) :
    Scanned source cursor.position s 0 source.utf8ByteSize := by
  have within := at_within stands
  have gap := skipped_reads within
  rw [end_position within rest] at gap
  exact ⟨.gap gap (Lexer.layout_run cursor.rest), .inl ⟨rfl, fun m _ => call_end stands rest m⟩⟩

theorem scan_panic (stands : At source cursor s) (panics : Panics source s) :
    Scanned source cursor.position s 0 cursor.skip.position :=
  ⟨.gap (skipped_reads (at_within stands)) (Lexer.layout_run cursor.rest),
    .inr ⟨(next_agrees stands).start.symm, panics⟩⟩

theorem scan_more (stands : At source cursor s) {c : Char} {cs : List Char} {n stop : Nat}
    (rest : cursor.skip.rest = c :: cs)
    (answers : Answers s.next.2.span (Lexer.munch c cs).lexeme s.next.1)
    (later : Scanned source cursor.next.2.position s.next.2 n stop) :
    Scanned source cursor.position s (n + 1) stop := by
  have within := at_within stands
  have gap := skipped_reads within
  obtain ⟨reads, -⟩ := Lexer.next_reads within rest
  rw [← (next_agrees stands).start] at gap
  rw [← next_span stands] at reads
  obtain ⟨tiles, ending⟩ := later
  rw [← (next_agrees stands).behind.1] at tiles
  refine ⟨.answer gap (Lexer.layout_run cursor.rest) reads (Lexer.munch_splits c cs).2 answers tiles,
    ending.imp_left fun ⟨whole, eof⟩ => ⟨whole, fun m more => ?_⟩⟩
  obtain ⟨m, rfl⟩ := Nat.exists_eq_add_of_le' (Nat.le_of_add_left_le more)
  exact eof m (Nat.le_of_succ_le_succ more)

end

theorem scan_tiles {source : String} {cursor : Cursor} {s : Scanner} (stands : At source cursor s) :
    ∃ n ≤ cursor.rest.length, ∃ stop, Scanned source cursor.position s n stop := by
  cases rest : cursor.skip.rest with
  | nil => exact ⟨0, Nat.zero_le _, _, scan_end stands rest⟩
  | cons c cs =>
    have shorter := (Lexer.next_advances rest).2
    rcases next_answers stands rest with answers | panics
    · obtain ⟨n, few, stop, later⟩ := scan_tiles (next_agrees stands).behind
      exact ⟨n + 1, Nat.lt_of_le_of_lt few shorter, stop, scan_more stands rest answers later⟩
    · exact ⟨0, Nat.zero_le _, _, scan_panic stands panics⟩
termination_by cursor.rest.length

/-- The calls of a scanner, going on behind errors, cut the source into layout and the spans of
tokens and errors, and then answer with the end, again and again. Only a numeral at the lowest scale
stops them, by a panic. No byte at which the scanner stands is inside a character. -/
theorem scanning_lossless (source : String) :
    (∀ n, (ofSource source).call n = ((Cursor.start source).run.steps[n]?.getD
      (.ok (.eofAt source.utf8ByteSize))).map Token.raw) ∧
    (∀ n, ∃ front taken rest, Stands source front taken rest ((ofSource source).after n)) ∧
    ∃ n ≤ source.utf8ByteSize, ∃ stop, Scanned source 0 (ofSource source) n stop := by
  have stands := start_at source
  refine ⟨call_runs stands, fun n => ?_, ?_⟩
  · obtain ⟨cursor, -, front, taken, stands⟩ := after_at stands n
    exact ⟨front, taken, cursor.rest, stands⟩
  · obtain ⟨n, few, scanned⟩ := scan_tiles stands
    refine ⟨n, ?_, scanned⟩
    calc n ≤ source.toList.length := few
      _ ≤ byteLength source.toList := Lexer.length_le_byte_length _
      _ = source.utf8ByteSize := Lexer.byte_length_source source

theorem lowest_numeral_stops_scan :
    (ofSource "1e9223372036854775808").call 0 = .error .panicked :=
  (next_agrees (start_at _)).answer.trans (by decide +kernel)

end Scanner

end Formula
