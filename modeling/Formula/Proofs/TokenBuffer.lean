import Formula.Proofs.BufferedParser
import Formula.Proofs.LosslessScan

set_option autoImplicit false

namespace Formula

open Lexer (Cursor Lexed)

namespace Lexer

def Lexed.behind (t : Token) (lexed : Lexed) : Lexed :=
  if t.isEof then ⟨[], .eof t⟩ else ⟨t :: lexed.tokens, lexed.ending⟩

def Cursor.lexed (cursor : Cursor) : Lexed := .ofSteps cursor.run.steps cursor.run.eof

theorem next_more {cursor : Cursor} {t : Token} {c : Char} {cs : List Char}
    (more : cursor.skip.rest = c :: cs) (given : cursor.next.1 = .ok t) :
    (munch c cs).place cursor.skip.position = .ok t := by
  rwa [next_of_more more] at given

theorem lexed_next (cursor : Cursor) :
    cursor.lexed = match cursor.next.1 with
      | .ok t => .behind t cursor.next.2.lexed
      | .error e => ⟨[], .fault e⟩ := by
  unfold Cursor.lexed
  cases rest : cursor.skip.rest with
  | nil =>
    rw [run_of_end rest, next_of_end rest]
    rfl
  | cons c cs =>
    rw [run_of_more rest]
    cases given : cursor.next.1 with
    | error e => rfl
    | ok t =>
      have notEof := place_more (next_more rest given)
      simp only [Lexed.ofSteps, Lexed.behind, notEof, Bool.false_eq_true, if_false]

theorem of_steps_length (steps : List (Result Token)) (eof : Token) :
    (Lexed.ofSteps steps eof).tokens.length ≤ steps.length := by
  fun_induction Lexed.ofSteps steps eof with
  | case1 eof => exact Nat.zero_le _
  | case2 token steps eof lexed ih => exact Nat.succ_le_succ ih
  | case3 e steps eof => exact Nat.zero_le _

theorem lexed_length {source : String} {cursor : Cursor} (within : Within source cursor) :
    cursor.lexed.tokens.length ≤ source.utf8ByteSize := by
  obtain ⟨before, whole, -⟩ := within
  calc cursor.lexed.tokens.length ≤ cursor.rest.length :=
        Nat.le_trans (of_steps_length _ _) (run_steps_length cursor)
    _ ≤ byteLength cursor.rest := length_le_byte_length _
    _ ≤ byteLength source.toList := by
      rw [whole, byte_length_append]
      exact Nat.le_add_left _ _
    _ = source.utf8ByteSize := byte_length_source source

theorem lexed_panic {source : String} {cursor : Cursor} (within : Within source cursor)
    (panics : cursor.lexed.ending = .fault .panicked) : ∃ span, LowestNumeral source span := by
  obtain ⟨c, cs, span, reads, step⟩ := run_reads within _ (lexed_fault panics)
  obtain ⟨fault | _, verdict, same⟩ := place_error step.symm
  · cases same
  · obtain ⟨d, read, lowest⟩ := munched_panic (munch_munched c cs) verdict
    exact ⟨span, _, d, reads, read, Decimal.in_range_none.mp lowest⟩

end Lexer

def Token.Named (t : Token) : Prop := ∀ n, t.terminal = .identifier n → n = t.lexeme

theorem next_token {cursor : Cursor} {t : Token} (given : cursor.next.1 = .ok t) :
    t.Named ∧ t.raw.Carries := by
  cases rest : cursor.skip.rest with
  | nil =>
    rw [Lexer.next_of_end rest] at given
    cases given
    exact ⟨nofun, rfl⟩
  | cons c cs =>
    have placed := Lexer.next_more rest given
    refine ⟨?_, (placed_sound placed).carries⟩
    obtain ⟨verdict, lexeme, -⟩ := Lexer.place_ok placed
    intro n name
    rw [name] at verdict
    have read : Lexer.munch c cs =
        ⟨.ok (.identifier n), (Lexer.munch c cs).lexeme, (Lexer.munch c cs).rest⟩ := by
      rw [← verdict]
    have spelled := (Lexer.munch_exact read).spelled
    rw [lexeme]
    generalize (Lexer.munch c cs).lexeme = w at spelled
    cases spelled
    rfl

namespace Scanner

theorem after_add_one (s : Scanner) (n : Nat) : s.after (n + 1) = (s.after n).next.2 := by
  induction n generalizing s with
  | zero => rfl
  | succ n ih => exact ih s.next.2

theorem calls_add_one (s : Scanner) (n : Nat) : s.calls (n + 1) = s.calls n ++ [s.call n] := by
  induction n generalizing s with
  | zero => rfl
  | succ n ih => exact congrArg (s.next.1 :: ·) (ih s.next.2)

theorem mem_calls {s : Scanner} {n : Nat} {answer : Result RawToken} (called : answer ∈ s.calls n) :
    ∃ i, answer = s.call i := by
  induction n with
  | zero => cases called
  | succ n ih =>
    rw [calls_add_one, List.mem_append, List.mem_singleton] at called
    exact called.elim ih fun last => ⟨n, last⟩

theorem next_raw {source : String} {cursor : Cursor} {s : Scanner} {t : RawToken}
    (stands : At source cursor s) (given : s.next.1 = .ok t) :
    ∃ u, cursor.next.1 = .ok u ∧ t = u.raw := by
  rw [(next_agrees stands).answer] at given
  cases answer : cursor.next.1 with
  | error stop =>
    rw [answer] at given
    cases given
  | ok u =>
    rw [answer] at given
    cases given
    exact ⟨u, rfl, rfl⟩

end Scanner

end Formula

namespace Formula.Buffered

open Lexer (Cursor)
open Scanner (At Panics)

inductive Step : Buffer → Act → Buffer → Prop where
  | lexed {b : Buffer} (missing : b.tokens.length ≤ b.current) :
      Step b (.lexed b.scanner.next.1) b.keep
  | peeked {b : Buffer} {t : RawToken} (next : b.tokens[b.current]? = some t) : Step b (.peeked t) b
  | advanced {b : Buffer} {t : RawToken} (next : b.tokens[b.current]? = some t)
      (more : t.isEof = false) : Step b .advanced b.accept
  | lookedBack {b : Buffer} {t : RawToken} (begun : 1 ≤ b.current)
      (last : b.tokens[b.current - 1]? = some t) : Step b (.lookedBack t) b

inductive History (source : String) : Session → Prop where
  | start : History source (.start source)
  | step {s : Session} {a : Act} {b : Buffer} (history : History source s)
      (step : Step s.buffer a b) : History source ⟨b, s.moments ++ [⟨s.buffer, a⟩]⟩

def Act.answer? : Act → Option (Result RawToken)
  | .lexed answer => some answer
  | _ => none

def answers (moments : List Moment) : List (Result RawToken) :=
  moments.filterMap fun m => m.act.answer?

-- A buffer after some moments. The lexer was called once for each of its answers, in their order,
-- and the tokens among them are in the buffer.
structure Consistent (source : String) (earlier : List Moment) (b : Buffer) : Prop where
  answered : answers earlier = (Scanner.ofSource source).calls (answers earlier).length
  placed : b.scanner = (Scanner.ofSource source).after (answers earlier).length
  produced : b.tokens = (answers earlier).filterMap Except.toOption
  filled : b.tokens.length = b.current ∨ b.tokens.length = b.current + 1
  notPassed : ∀ i t, b.tokens[i]? = some t → t.isEof = true → b.current ≤ i

-- What is asked of the lexer is missing, and it panics at a numeral only. What is looked at is there,
-- and no end is accepted.
def Moment.Safe (source : String) (m : Moment) : Prop :=
  match m.act with
  | .lexed answer => m.buffer.tokens.length = m.buffer.current ∧
    (answer = .error .panicked → Panics source m.buffer.scanner)
  | .peeked t => m.buffer.tokens[m.buffer.current]? = some t
  | .advanced => ∃ t, m.buffer.tokens[m.buffer.current]? = some t ∧ t.isEof = false
  | .lookedBack t => 1 ≤ m.buffer.current ∧ m.buffer.tokens[m.buffer.current - 1]? = some t
  | .fellThrough => False

theorem answers_append (earlier later : List Moment) :
    answers (earlier ++ later) = answers earlier ++ answers later :=
  List.filterMap_append

theorem answers_silent (earlier : List Moment) (b : Buffer) {a : Act} (silent : a.answer? = none) :
    answers (earlier ++ [⟨b, a⟩]) = answers earlier := by
  simp [answers, silent]

section Steps

variable {source : String} {earlier : List Moment} {b b' : Buffer} {a : Act}

theorem start_consistent (source : String) : Consistent source [] (.start source) :=
  ⟨rfl, rfl, rfl, .inl rfl, by simp [Buffer.start]⟩

theorem missing_length (consistent : Consistent source earlier b)
    (missing : b.tokens.length ≤ b.current) : b.tokens.length = b.current := by
  have filled := consistent.filled
  omega

theorem present_length (consistent : Consistent source earlier b) {t : RawToken}
    (next : b.tokens[b.current]? = some t) : b.tokens.length = b.current + 1 := by
  obtain ⟨inside, _⟩ := List.getElem?_eq_some_iff.mp next
  have filled := consistent.filled
  omega

theorem consistent_at (consistent : Consistent source earlier b) :
    ∃ cursor, At source cursor b.scanner := by
  rw [consistent.placed]
  exact Scanner.after_at (Scanner.start_at source) _

theorem keep_consistent (consistent : Consistent source earlier b)
    (missing : b.tokens.length ≤ b.current) :
    Consistent source (earlier ++ [⟨b, .lexed b.scanner.next.1⟩]) b.keep := by
  have length := missing_length consistent missing
  have more : answers (earlier ++ [⟨b, .lexed b.scanner.next.1⟩]) =
      answers earlier ++ [b.scanner.next.1] := answers_append _ _
  have called : b.scanner.next.1 = (Scanner.ofSource source).call (answers earlier).length := by
    rw [Scanner.call, ← consistent.placed]
  constructor
  · rw [more, List.length_append, List.length_singleton, Scanner.calls_add_one,
      ← consistent.answered, ← called]
  · rw [more, List.length_append, List.length_singleton, Scanner.after_add_one, ← consistent.placed,
      Buffer.keep]
  · rw [more, List.filterMap_append, ← consistent.produced, Buffer.keep]
    cases b.scanner.next.1 <;> rfl
  · simp only [Buffer.keep, List.length_append, length]
    cases b.scanner.next.1 with
    | error e => exact .inl rfl
    | ok t => exact .inr rfl
  · intro i t at_ eof
    by_cases inside : i < b.tokens.length
    · rw [Buffer.keep, List.getElem?_append_left inside] at at_
      exact consistent.notPassed i t at_ eof
    · simp only [Buffer.keep]
      omega

theorem accept_consistent (consistent : Consistent source earlier b) {t : RawToken}
    (next : b.tokens[b.current]? = some t) (more : t.isEof = false) :
    Consistent source (earlier ++ [⟨b, .advanced⟩]) b.accept := by
  have length := present_length consistent next
  have same : answers (earlier ++ [⟨b, .advanced⟩]) = answers earlier := answers_silent _ _ rfl
  refine ⟨?_, ?_, ?_, .inl length, ?_⟩
  · rw [same]
    exact consistent.answered
  · rw [same]
    exact consistent.placed
  · rw [same]
    exact consistent.produced
  · intro i u at_ eof
    have passed := consistent.notPassed i u at_ eof
    have other : i ≠ b.current := by
      rintro rfl
      obtain rfl := Option.some.inj (next.symm.trans at_)
      rw [more] at eof
      cases eof
    simp only [Buffer.accept]
    omega

theorem silent_consistent (consistent : Consistent source earlier b)
    (silent : a.answer? = none) : Consistent source (earlier ++ [⟨b, a⟩]) b := by
  obtain ⟨answered, placed, produced, filled, notPassed⟩ := consistent
  rw [← answers_silent earlier b silent] at answered placed produced
  exact ⟨answered, placed, produced, filled, notPassed⟩

theorem step_consistent (consistent : Consistent source earlier b) (step : Step b a b') :
    Consistent source (earlier ++ [⟨b, a⟩]) b' := by
  cases step with
  | lexed missing => exact keep_consistent consistent missing
  | advanced next more => exact accept_consistent consistent next more
  | peeked | lookedBack => exact silent_consistent consistent rfl

theorem step_safe (consistent : Consistent source earlier b) (step : Step b a b') :
    Moment.Safe source ⟨b, a⟩ := by
  cases step with
  | lexed missing =>
    obtain ⟨cursor, stands⟩ := consistent_at consistent
    exact ⟨missing_length consistent missing, Scanner.panics_at stands⟩
  | peeked next => exact next
  | advanced next more => exact ⟨_, next, more⟩
  | lookedBack accepted last => exact ⟨accepted, last⟩

theorem consistent_token (consistent : Consistent source earlier b) {t : RawToken}
    (kept : t ∈ b.tokens) : ∃ u : Token, t = u.raw ∧ u.Named ∧ t.Carries := by
  rw [consistent.produced, consistent.answered] at kept
  obtain ⟨answer, called, given⟩ := List.mem_filterMap.mp kept
  obtain ⟨i, rfl⟩ := Scanner.mem_calls called
  obtain ⟨cursor, stands⟩ := Scanner.after_at (Scanner.start_at source) i
  have answered : (Scanner.ofSource source).call i = .ok t := by
    cases answer : (Scanner.ofSource source).call i with
    | error e =>
      rw [answer] at given
      cases given
    | ok u =>
      rw [answer] at given
      cases given
      rfl
  obtain ⟨u, token, rfl⟩ := Scanner.next_raw stands answered
  obtain ⟨named, carries⟩ := next_token token
  exact ⟨u, rfl, named, carries⟩

end Steps

theorem history_consistent {source : String} {s : Session} (history : History source s) :
    Consistent source s.moments s.buffer := by
  induction history with
  | start => exact start_consistent source
  | step _ step ih => exact step_consistent ih step

structure Session.Sound (source : String) (s : Session) : Prop where
  moment : ∀ earlier m later, s.moments = earlier ++ m :: later →
    Consistent source earlier m.buffer ∧ m.Safe source ∧ m.buffer.tokens <+: s.buffer.tokens
  now : Consistent source s.moments s.buffer
  literal : ∀ t ∈ s.buffer.tokens, t.Carries

theorem consistent_prefix {source : String} {earlier later : List Moment} {b b' : Buffer}
    (before : Consistent source earlier b) (now : Consistent source (earlier ++ later) b') :
    b.tokens <+: b'.tokens := by
  rw [before.produced, now.produced, answers_append, List.filterMap_append]
  exact List.prefix_append _ _

theorem history_safe {source : String} {s : Session} (history : History source s)
    (earlier : List Moment) (m : Moment) (later : List Moment)
    (split : s.moments = earlier ++ m :: later) :
    Consistent source earlier m.buffer ∧ m.Safe source := by
  induction history generalizing later with
  | start => cases earlier <;> cases split
  | @step s a b history step ih =>
    have consistent := history_consistent history
    rcases List.eq_nil_or_concat later with rfl | ⟨later, last, rfl⟩
    · obtain ⟨rfl, moment⟩ := List.append_inj' split rfl
      cases moment
      exact ⟨consistent, step_safe consistent step⟩
    · rw [List.concat_eq_append, ← List.cons_append, ← List.append_assoc] at split
      exact ih later (List.append_inj' split rfl).1

theorem history_sound {source : String} {s : Session} (history : History source s) :
    s.Sound source := by
  have now := history_consistent history
  have literal (t : RawToken) (kept : t ∈ s.buffer.tokens) : t.Carries := by
    obtain ⟨_, -, -, carries⟩ := consistent_token now kept
    exact carries
  refine ⟨?_, now, literal⟩
  intro earlier m later split
  obtain ⟨consistent, safe⟩ := history_safe history earlier m later split
  rw [split] at now
  exact ⟨consistent, safe, consistent_prefix consistent now⟩

end Formula.Buffered
