import Formula.Proofs.ParserGrammar
import Formula.Proofs.TokenBuffer

set_option autoImplicit false

namespace Formula.Buffered

open Lexer (Cursor Ending Lexed)
open Scanner (At)

variable {α β : Type}

def Runs (m : Machine α) (s : Session) (post : Except Halt α → Session → Prop) : Prop :=
  post (m.runFrom s).1 (m.runFrom s).2

theorem runs_pure {a : α} {s : Session} {post : Except Halt α → Session → Prop}
    (holds : post (.ok a) s) : Runs (pure a) s post := holds

theorem runs_throw {halt : Halt} {s : Session} {post : Except Halt α → Session → Prop}
    (holds : post (.error halt) s) : Runs (throw halt) s post := holds

theorem runs_mono {m : Machine α} {s : Session} {post wider : Except Halt α → Session → Prop}
    (runs : Runs m s post) (wide : ∀ outcome s', post outcome s' → wider outcome s') :
    Runs m s wider := wide _ _ runs

theorem run_bind (m : Machine α) (k : α → Machine β) (s : Session) :
    (m >>= k).runFrom s =
      match m.runFrom s with
      | (.ok a, s') => (k a).runFrom s'
      | (.error stop, s') => (.error stop, s') := by
  change (m.run >>= ExceptT.bindCont k).run s = _
  rw [StateT.run_bind]
  change StateT.run (ExceptT.bindCont k (m.runFrom s).1) (m.runFrom s).2 = _
  obtain ⟨outcome, s'⟩ := m.runFrom s
  cases outcome <;> rfl

theorem runs_bind {m : Machine α} {k : α → Machine β} {s : Session}
    {middle : Except Halt α → Session → Prop} {post : Except Halt β → Session → Prop}
    (first : Runs m s middle) (later : ∀ a s', middle (.ok a) s' → Runs (k a) s' post)
    (stopped : ∀ stop s', middle (.error stop) s' → post (.error stop) s') :
    Runs (m >>= k) s post := by
  unfold Runs at first later ⊢
  rw [run_bind]
  generalize m.runFrom s = ended at first ⊢
  obtain ⟨outcome, s'⟩ := ended
  cases outcome with
  | ok a => exact later a s' first
  | error stop => exact stopped stop s' first

theorem runs_buffer {k : Buffer → Machine β} {s : Session} {post : Except Halt β → Session → Prop}
    (later : Runs (k s.buffer) s post) : Runs (buffer >>= k) s post := later

theorem runs_act {a : Act} {change : Buffer → Buffer} {k : Unit → Machine β} {s : Session}
    {post : Except Halt β → Session → Prop}
    (later : Runs (k ()) ⟨change s.buffer, s.moments ++ [⟨s.buffer, a⟩]⟩ post) :
    Runs (act a change >>= k) s post := later

structure Reading where
  source : String
  whole : List RawToken
  ending : Ending

namespace Reading

-- The token that is next is in the buffer, and the lexer stands behind it.
structure Sees (r : Reading) (ts : List Token) (t : Token) (s : Session) : Prop where
  history : History r.source s
  accepted : s.buffer.tokens.take s.buffer.current ++ ts.map Token.raw = r.whole
  next : s.buffer.tokens[s.buffer.current]? = some t.raw
  named : t.Named
  ahead : ∃ cursor, At r.source cursor s.buffer.scanner ∧
    Lexed.behind t cursor.lexed = ⟨ts, r.ending⟩

structure Needs (r : Reading) (ts : List Token) (s : Session) : Prop where
  history : History r.source s
  accepted : s.buffer.tokens.take s.buffer.current ++ ts.map Token.raw = r.whole
  missing : s.buffer.tokens.length ≤ s.buffer.current
  ahead : ∃ cursor, At r.source cursor s.buffer.scanner ∧ cursor.lexed = ⟨ts, r.ending⟩

def Stands (r : Reading) (ts : List Token) (s : Session) : Prop :=
  r.Needs ts s ∨ ∃ t, r.Sees ts t s

structure Faults (r : Reading) (ts : List Token) (stop : Stop Error) (s : Session) : Prop where
  none_left : ts = []
  ending : r.ending = .fault stop
  history : History r.source s

def Gets (r : Reading) (ts : List Token) (post : α → Session → Prop) :
    Except Halt α → Session → Prop
  | .ok a, s => post a s
  | .error halt, s => ∃ stop, halt = .stopped stop ∧ r.Faults ts stop s

def Matches (r : Reading) (types : List TokenType) (ts : List Token) : Bool → Session → Prop
  | true, s => ∃ t rest, ts = t :: rest ∧ t.terminal.type ∈ types ∧ t.Named ∧ r.Stands rest s
  | false, s => (∃ t, r.Sees ts t s) ∧ ∀ t rest, ts = t :: rest → t.terminal.type ∉ types

def Follows (r : Reading) (read : Result (α × List Token)) : Except Halt α → Session → Prop
  | .ok a, s => ∃ rest, read = .ok (a, rest) ∧ r.Stands rest s
  | .error halt, s => ∃ stop, halt = .stopped stop ∧ read = .error stop ∧ History r.source s

def Reads (r : Reading) (m : Machine α) (ts : List Token) (read : Result (α × List Token)) :
    Prop :=
  ∀ s, r.Stands ts s → Runs m s (r.Follows read)

end Reading

section Acts

variable {r : Reading} {ts : List Token} {s : Session} {t : Token}

theorem stands_history (stands : r.Stands ts s) : History r.source s := by
  rcases stands with needs | ⟨t, sees⟩
  · exact needs.history
  · exact sees.history

theorem stands_accepted (stands : r.Stands ts s) :
    s.buffer.tokens.take s.buffer.current ++ ts.map Token.raw = r.whole := by
  rcases stands with needs | ⟨t, sees⟩
  · exact needs.accepted
  · exact sees.accepted

theorem stands_suffix (stands : r.Stands ts s) : ts.map Token.raw <:+ r.whole :=
  ⟨_, stands_accepted stands⟩

theorem raw_eof (t : Token) : t.raw.isEof = t.isEof := by
  obtain ⟨terminal, lexeme, span⟩ := t
  cases terminal <;> rfl

theorem sees_cases (sees : r.Sees ts t s) :
    (t.isEof = true ∧ ts = [] ∧ r.ending = .eof t) ∨
      (t.isEof = false ∧ ∃ cursor, At r.source cursor s.buffer.scanner ∧
        ts = t :: cursor.lexed.tokens ∧ r.ending = cursor.lexed.ending) := by
  obtain ⟨cursor, stands, ahead⟩ := sees.ahead
  rw [Lexed.behind] at ahead
  cases eof : t.isEof with
  | true =>
    rw [eof, if_pos rfl] at ahead
    injection ahead with tokens ending
    exact .inl ⟨rfl, tokens.symm, ending.symm⟩
  | false =>
    rw [eof, if_neg Bool.false_ne_true] at ahead
    injection ahead with tokens ending
    exact .inr ⟨rfl, cursor, stands, tokens.symm, ending.symm⟩

theorem at_source {cursor : Cursor} {scanner : Scanner} {source : String}
    (stands : At source cursor scanner) : scanner.source = source := by
  obtain ⟨-, _, _, stands⟩ := stands
  exact stands.whole

theorem stands_length (stands : r.Stands ts s) :
    ts.length ≤ s.buffer.scanner.source.utf8ByteSize + 1 := by
  rcases stands with needs | ⟨t, sees⟩
  · obtain ⟨cursor, stands, ahead⟩ := needs.ahead
    have left := Lexer.lexed_length (Scanner.at_within stands)
    rw [ahead] at left
    rw [at_source stands]
    exact Nat.le_succ_of_le left
  · rcases sees_cases sees with ⟨-, rfl, -⟩ | ⟨-, cursor, stands, rfl, -⟩
    · exact Nat.zero_le _
    · rw [at_source stands]
      exact Nat.succ_le_succ (Lexer.lexed_length (Scanner.at_within stands))

theorem sees_length (sees : r.Sees ts t s) : s.buffer.tokens.length = s.buffer.current + 1 :=
  present_length (history_consistent sees.history) sees.next

theorem gets_bind {m : Machine α} {k : α → Machine β} {middle : α → Session → Prop}
    {post : β → Session → Prop} (first : Runs m s (r.Gets ts middle))
    (later : ∀ a s', middle a s' → Runs (k a) s' (r.Gets ts post)) :
    Runs (m >>= k) s (r.Gets ts post) :=
  runs_bind first later fun _ _ stopped => stopped

theorem runs_lex_next {s : Session} {post : Except Halt Unit → Session → Prop}
    (runs : Runs
      (match s.buffer.scanner.next.1 with
        | .ok _ => pure ()
        | .error stop => throw (.stopped stop))
      ⟨s.buffer.keep, s.moments ++ [⟨s.buffer, .lexed s.buffer.scanner.next.1⟩]⟩ post) :
    Runs lexNext s post := runs_buffer (runs_act runs)

theorem lex_next (needs : r.Needs ts s) :
    Runs lexNext s (r.Gets ts fun _ s' => ∃ t, r.Sees ts t s') := by
  have length := missing_length (history_consistent needs.history) needs.missing
  have history : History r.source
      ⟨s.buffer.keep, s.moments ++ [⟨s.buffer, .lexed s.buffer.scanner.next.1⟩]⟩ :=
    .step needs.history (.lexed needs.missing)
  obtain ⟨cursor, stands, ahead⟩ := needs.ahead
  have agrees := Scanner.next_agrees stands
  rw [Lexer.lexed_next] at ahead
  refine runs_lex_next ?_
  cases given : cursor.next.1 with
  | error stop =>
    have answer := agrees.answer
    rw [given] at answer ahead
    rw [answer] at history
    injection ahead with tokens ending
    rw [answer]
    exact runs_throw ⟨stop, rfl, tokens.symm, ending.symm, history⟩
  | ok t =>
    have answer : s.buffer.scanner.next.1 = .ok t.raw := by rw [agrees.answer, given]; rfl
    rw [given] at ahead
    rw [answer] at history
    have kept : s.buffer.keep.tokens = s.buffer.tokens ++ [t.raw] := by
      rw [Buffer.keep, answer]
      rfl
    have next : s.buffer.keep.tokens[s.buffer.keep.current]? = some t.raw := by
      rw [kept, Buffer.keep, ← length, List.getElem?_concat_length]
    have accepted : s.buffer.keep.tokens.take s.buffer.keep.current ++ ts.map Token.raw =
        r.whole := by
      simp only [Buffer.keep]
      rw [List.take_append_of_le_length (Nat.le_of_eq length.symm)]
      exact needs.accepted
    rw [answer]
    exact runs_pure
      ⟨t, history, accepted, next, (next_token given).1, cursor.next.2, agrees.behind, ahead⟩

theorem fill_sees (stands : r.Stands ts s) :
    Runs (fill (s.buffer.current + 1 - s.buffer.tokens.length)) s
      (r.Gets ts fun _ s' => ∃ t, r.Sees ts t s') := by
  rcases stands with needs | ⟨t, sees⟩
  · have length := missing_length (history_consistent needs.history) needs.missing
    have one : s.buffer.current + 1 - s.buffer.tokens.length = 1 := by omega
    rw [one, fill]
    refine gets_bind (lex_next needs) ?_
    rintro ⟨⟩ s' sees
    exact runs_pure sees
  · rw [sees_length sees, Nat.sub_self, fill]
    exact runs_pure ⟨t, sees⟩

theorem peek_sees (stands : r.Stands ts s) :
    Runs peek s (r.Gets ts fun raw s' => ∃ t, raw = t.raw ∧ r.Sees ts t s') := by
  rw [peek]
  refine runs_buffer (gets_bind (fill_sees stands) ?_)
  rintro ⟨⟩ s' ⟨t, sees⟩
  refine runs_buffer ?_
  rw [sees.next]
  have history := History.step sees.history (.peeked sees.next)
  exact runs_act (runs_pure
    ⟨t, rfl, history, sees.accepted, sees.next, sees.named, sees.ahead⟩)

theorem accept_stands (sees : r.Sees ts t s) (more : t.isEof = false) :
    ∃ rest, ts = t :: rest ∧
      r.Stands rest ⟨s.buffer.accept, s.moments ++ [⟨s.buffer, .advanced⟩]⟩ := by
  rcases sees_cases sees with ⟨eof, _, _⟩ | ⟨_, cursor, stands, rfl, ending⟩
  · rw [more] at eof
    cases eof
  · have length := sees_length sees
    have last : s.buffer.tokens.take (s.buffer.current + 1) =
        s.buffer.tokens.take s.buffer.current ++ [t.raw] := by
      rw [List.take_add_one, sees.next, Option.toList_some]
    refine ⟨_, rfl, .inl ⟨.step sees.history (.advanced sees.next ?_), ?_, ?_, cursor, stands, ?_⟩⟩
    · rw [raw_eof, more]
    · simp only [Buffer.accept]
      rw [last, List.append_assoc]
      exact sees.accepted
    · exact Nat.le_of_eq length
    · rw [ending]

theorem match_types {types : List TokenType} (stands : r.Stands ts s)
    (seen : types = [] → ∃ t, r.Sees ts t s) :
    Runs (matchTypes types) s (r.Gets ts (r.Matches types ts)) := by
  induction types generalizing s with
  | nil =>
    obtain ⟨t, sees⟩ := seen rfl
    exact runs_pure ⟨⟨t, sees⟩, fun _ _ _ => List.not_mem_nil⟩
  | cons type types ih =>
    rw [matchTypes, check, bind_assoc]
    refine gets_bind (peek_sees stands) ?_
    rintro _ s' ⟨t, rfl, sees⟩
    rw [pure_bind, raw_eof]
    by_cases found : (!t.isEof && t.raw.type == type) = true
    · rw [if_pos found]
      simp only [Bool.and_eq_true, Bool.not_eq_true', beq_iff_eq] at found
      obtain ⟨rest, split, behind⟩ := accept_stands sees found.1
      exact runs_act (runs_pure
        ⟨t, rest, split, List.mem_cons.mpr (.inl found.2), sees.named, behind⟩)
    · rw [if_neg found]
      refine runs_mono (ih (.inr ⟨t, sees⟩) fun _ => ⟨t, sees⟩) ?_
      rintro (halt | matched) s'' holds
      · exact holds
      · cases matched with
        | true =>
          obtain ⟨u, rest, split, member, named, stands⟩ := holds
          exact ⟨u, rest, split, List.mem_cons_of_mem _ member, named, stands⟩
        | false =>
          refine ⟨holds.1, fun u rest split member => ?_⟩
          rcases List.mem_cons.mp member with same | later
          · rcases sees_cases sees with ⟨_, none_left, _⟩ | ⟨more, _, _, next, _⟩
            · rw [none_left] at split
              cases split
            · obtain ⟨rfl, _⟩ := List.cons.inj (split.symm.trans next)
              have is : u.raw.type = type := same
              exact found (by rw [more, is, beq_self_eq_true]; rfl)
          · exact holds.2 u rest split later

end Acts

section Rules

variable {r : Reading} {ts : List Token}

theorem reads_pure (a : α) : r.Reads (pure a) ts (pure (a, ts)) :=
  fun _ stands => runs_pure ⟨ts, rfl, stands⟩

theorem reads_bind {m : Machine α} {k : α → Machine β} {read : Result (α × List Token)}
    {more : α × List Token → Result (β × List Token)} (first : r.Reads m ts read)
    (later : ∀ a rest, read = .ok (a, rest) → r.Reads (k a) rest (more (a, rest))) :
    r.Reads (m >>= k) ts (read >>= more) := by
  intro s stands
  refine runs_bind (first s stands) ?_ ?_
  · rintro a s' ⟨rest, rfl, stands⟩
    exact later a rest rfl s' stands
  · rintro halt s' ⟨stop, rfl, rfl, history⟩
    exact ⟨stop, rfl, rfl, history⟩

theorem reads_suffix {m : Machine α} {read : Result (α × List Token)}
    (later : ts.map Token.raw <:+ r.whole → r.Reads m ts read) : r.Reads m ts read :=
  fun s stands => later (stands_suffix stands) s stands

theorem reads_then {m : Machine α} {k : α → Machine β} {a : α} {rest : List Token}
    {read : Result (β × List Token)} (first : r.Reads m ts (pure (a, rest)))
    (later : r.Reads (k a) rest read) : r.Reads (m >>= k) ts read := by
  have both : r.Reads (m >>= k) ts (pure (a, rest) >>= fun _ => read) := by
    refine reads_bind first fun b more same => ?_
    cases same
    exact later
  exact both

theorem reads_same {m : Machine α} {k : α → Machine α} {read : Result (α × List Token)}
    (first : r.Reads m ts read) (same : ∀ a rest, read = .ok (a, rest) → k a = pure a) :
    r.Reads (m >>= k) ts read := by
  have both : r.Reads (m >>= k) ts (read >>= pure) := by
    refine reads_bind first fun a rest ok => ?_
    rw [same a rest ok]
    exact reads_pure a
  rwa [bind_pure] at both

theorem reads_stopped {m : Machine α} {k : α → Machine β} {stop : Stop Error}
    (first : r.Reads m ts (.error stop)) : r.Reads (m >>= k) ts (.error stop) := by
  have both : r.Reads (m >>= k) ts (.error stop >>= fun _ => .error stop) :=
    reads_bind first fun a rest same => by cases same
  exact both

theorem gets_follows {m : Machine α} {k : α → Machine β} {middle : α → Session → Prop}
    {read : Result (β × List Token)} {s : Session} (first : Runs m s (r.Gets ts middle))
    (later : ∀ a s', middle a s' → Runs (k a) s' (r.Follows read))
    (fault : ∀ stop, ts = [] → r.ending = .fault stop → read = .error stop) :
    Runs (m >>= k) s (r.Follows read) := by
  refine runs_bind first later ?_
  rintro halt s' ⟨stop, rfl, faults⟩
  exact ⟨stop, rfl, fault stop faults.none_left faults.ending, faults.history⟩

theorem fault_read {more : Token → Result (α × List Token)} {stop : Stop Error}
    (ending : r.ending = .fault stop) : r.ending.token >>= more = .error stop := by
  rw [ending]
  rfl

theorem seen_end {m : Machine α} {more : Token → Result (α × List Token)} {s : Session}
    {t : Token} (later : r.ending = .eof t → r.Reads m [] (more t))
    (sees : r.Sees [] t s) : Runs m s (r.Follows (r.ending.token >>= more)) := by
  rcases sees_cases sees with ⟨_, _, ending⟩ | ⟨_, _, _, split, _⟩
  · rw [ending]
    exact later ending s (.inr ⟨t, sees⟩)
  · cases split

section Choice

variable {types : List TokenType} {accepted refused : Machine α} {t : Token}

theorem reads_taken {read : Result (α × List Token)} (found : t.terminal.type ∈ types)
    (later : t.Named → (t :: ts).map Token.raw <:+ r.whole → r.Reads accepted ts read) :
    r.Reads (matchTypes types >>= fun found => if found then accepted else refused) (t :: ts)
      read := by
  intro s stands
  have suffix := stands_suffix stands
  have known : types = [] → ∃ u, r.Sees (t :: ts) u s := by
    rintro rfl
    cases found
  refine gets_follows (match_types stands known) ?_ fun _ none_left => nomatch none_left
  rintro (_ | _) s' holds
  · exact absurd found (holds.2 t ts rfl)
  · obtain ⟨u, rest, split, _, named, stands⟩ := holds
    obtain ⟨rfl, rfl⟩ := List.cons.inj split
    exact later named suffix s' stands

theorem reads_left {read : Result (α × List Token)} (types_given : types ≠ [])
    (other : t.terminal.type ∉ types) (later : r.Reads refused (t :: ts) read) :
    r.Reads (matchTypes types >>= fun found => if found then accepted else refused) (t :: ts)
      read := by
  intro s stands
  refine gets_follows (match_types stands fun none_given => absurd none_given types_given) ?_
    fun _ none_left => nomatch none_left
  rintro (_ | _) s' holds
  · exact later s' (.inr holds.1)
  · obtain ⟨u, rest, split, member, _⟩ := holds
    obtain ⟨rfl, rfl⟩ := List.cons.inj split
    exact absurd member other

theorem reads_at_end {more : Token → Result (α × List Token)} (types_given : types ≠ [])
    (later : ∀ eof, r.ending = .eof eof → r.Reads refused [] (more eof)) :
    r.Reads (matchTypes types >>= fun found => if found then accepted else refused) []
      (r.ending.token >>= more) := by
  intro s stands
  refine gets_follows (match_types stands fun none_given => absurd none_given types_given) ?_
    fun e _ => fault_read
  rintro (_ | _) s' holds
  · obtain ⟨u, sees⟩ := holds.1
    exact seen_end (later u) sees
  · obtain ⟨u, rest, split, _, _⟩ := holds
    cases split

theorem reads_left_eof {eof : Token} {read : Result (α × List Token)}
    (types_given : types ≠ []) (ending : r.ending = .eof eof) (later : r.Reads refused [] read) :
    r.Reads (matchTypes types >>= fun found => if found then accepted else refused) [] read := by
  have left : r.Reads (matchTypes types >>= fun found => if found then accepted else refused) []
      (r.ending.token >>= fun _ => read) := reads_at_end types_given fun _ _ => later
  rw [ending] at left
  exact left

theorem choice_bind {k : α → Machine β} :
    (matchTypes types >>= fun found => if found then accepted else refused) >>= k =
      matchTypes types >>= fun found => if found then accepted >>= k else refused >>= k := by
  rw [bind_assoc]
  congr 1
  funext found
  cases found <;> rfl

end Choice

theorem reads_peek {k : RawToken → Machine α} {t : Token} {read : Result (α × List Token)}
    (later : r.Reads (k t.raw) (t :: ts) read) : r.Reads (peek >>= k) (t :: ts) read := by
  intro s stands
  refine gets_follows (peek_sees stands) ?_ fun _ none_left => nomatch none_left
  rintro _ s' ⟨u, rfl, sees⟩
  rcases sees_cases sees with ⟨_, none_left, _⟩ | ⟨_, _, _, split, _⟩
  · cases none_left
  · obtain ⟨rfl, _⟩ := List.cons.inj split
    exact later s' (.inr ⟨t, sees⟩)

theorem move_stands {a : Act} {s : Session} (stands : r.Stands ts s)
    (history : History r.source ⟨s.buffer, s.moments ++ [⟨s.buffer, a⟩]⟩) :
    r.Stands ts ⟨s.buffer, s.moments ++ [⟨s.buffer, a⟩]⟩ := by
  rcases stands with ⟨-, accepted, missing, ahead⟩ | ⟨t, -, accepted, next, named, ahead⟩
  · exact .inl ⟨history, accepted, missing, ahead⟩
  · exact .inr ⟨t, history, accepted, next, named, ahead⟩

theorem reads_previous {k : RawToken → Machine α} {t : Token} {read : Result (α × List Token)}
    (suffix : (t :: ts).map Token.raw <:+ r.whole) (later : r.Reads (k t.raw) ts read) :
    r.Reads (previous >>= k) ts read := by
  intro s stands
  obtain ⟨front, whole⟩ := suffix
  have accepted : s.buffer.tokens.take s.buffer.current = front ++ [t.raw] := by
    have same : s.buffer.tokens.take s.buffer.current ++ ts.map Token.raw =
        (front ++ [t.raw]) ++ ts.map Token.raw := by
      rw [stands_accepted stands, ← whole, List.append_assoc, List.singleton_append, List.map_cons]
    exact List.append_cancel_right same
  have filled := (history_consistent (stands_history stands)).filled
  have current : s.buffer.current = front.length + 1 := by
    have length := congrArg List.length accepted
    rw [List.length_take, List.length_append, List.length_singleton] at length
    omega
  have last : s.buffer.tokens[front.length]? = some t.raw := by
    rw [← List.getElem?_take_of_lt (Nat.lt_succ_self front.length), ← Nat.add_one, ← current,
      accepted, List.getElem?_concat_length]
  have history := History.step (stands_history stands)
    (.lookedBack (by omega) (by rw [current, Nat.add_sub_cancel]; exact last))
  rw [previous, bind_assoc]
  refine runs_buffer ?_
  rw [current]
  simp only [last]
  exact later _ (move_stands stands history)

theorem reads_peek_eof {k : RawToken → Machine α} {eof : Token} {read : Result (α × List Token)}
    (ending : r.ending = .eof eof) (later : r.Reads (k eof.raw) [] read) :
    r.Reads (peek >>= k) [] read := by
  intro s stands
  refine gets_follows (peek_sees stands) ?_ ?_
  · rintro _ s' ⟨u, rfl, sees⟩
    rcases sees_cases sees with ⟨_, _, same⟩ | ⟨_, _, _, split, _⟩
    · cases ending.symm.trans same
      exact later s' (.inr ⟨eof, sees⟩)
    · cases split
  · intro stop _ fault
    cases ending.symm.trans fault

theorem reads_failed (e : Error) :
    r.Reads (failed e : Machine α) ts (throw (.failed e)) :=
  fun _ stands => runs_throw ⟨.failed e, rfl, rfl, stands_history stands⟩

theorem mismatch_raw (cause : String → Cause) (t : Token) :
    mismatch cause t.raw = Parser.mismatch cause t := by
  rw [mismatch, RawToken.describe, raw_eof]
  rfl

theorem reads_mismatch (cause : String → Cause) (t : Token) :
    r.Reads (failed (mismatch cause t.raw) : Machine α) ts
      (throw (.failed (Parser.mismatch cause t))) := by
  rw [mismatch_raw]
  exact reads_failed _

theorem reads_ternary_mismatch (t : Token) :
    r.Reads (failed (ternaryMismatch t.raw) : Machine α) ts
      (throw (.failed (Parser.ternaryMismatch t))) := by
  rw [ternaryMismatch, mismatch_raw]
  exact reads_failed _

end Rules

end Formula.Buffered
