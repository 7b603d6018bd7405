import Formula.Proofs.BufferedReading
import Formula.Proofs.ViablePrefix

set_option autoImplicit false

namespace Formula.Buffered

open Lexer (Ending Lexed)
open Formula.Parser hiding mismatch ternaryMismatch

theorem type_iff {t u : Terminal} (plain : u.literal? = none)
    (unnamed : ∀ n, u ≠ .identifier n) : t.type = u.type ↔ t = u := by
  constructor
  · intro same
    cases u with
    | number | string | boolean => cases plain
    | identifier n => exact absurd rfl (unnamed n)
    | _ => cases t <;> first | rfl | cases same
  · exact fun same => congrArg Terminal.type same

theorem is_type {t u : Terminal} (is : t = u) (plain : u.literal? = none)
    (unnamed : ∀ n, u ≠ .identifier n) : t.type ∈ [u.type] :=
  List.mem_singleton.mpr ((type_iff plain unnamed).mpr is)

theorem not_type {t u : Terminal} (other : t ≠ u) (plain : u.literal? = none)
    (unnamed : ∀ n, u ≠ .identifier n) : t.type ∉ [u.type] :=
  fun member => other ((type_iff plain unnamed).mp (List.mem_singleton.mp member))

theorem operator_by_type (level : Level) (t : Terminal) :
    level.operator? t =
      if t.type ∈ levelTypes level then some (levelOperator level t.type) else none := by
  cases level <;> cases t <;> rfl

theorem prefix_by_type (t : Terminal) :
    prefixOperator? t = if t.type ∈ prefixTypes then some (prefixOf t.type) else none := by
  cases t <;> rfl

def failsAtEnd (ending : Ending) : Result (Expr × List Token) :=
  ending.token >>= fun found => throw (.failed (Parser.mismatch .expectedExpression found))

theorem fails_bind (ending : Ending) (more : Expr × List Token → Result (Expr × List Token)) :
    failsAtEnd ending >>= more = failsAtEnd ending := by
  cases ending <;> rfl

theorem read_chain_nil (ending : Ending) (level : Level) :
    readChain ending level [] = failsAtEnd ending := by
  have tightest : readExponent ending [] = failsAtEnd ending := by
    rw [read_exponent_eq, read_unary_eq]
    exact fails_bind ending _
  rw [read_chain_eq, read_operand_eq]
  cases level with
  | logical => rw [read_chain_nil ending .equality, fails_bind]
  | equality => rw [read_chain_nil ending .additive, fails_bind]
  | additive => rw [read_chain_nil ending .multiplicative, fails_bind]
  | multiplicative => rw [tightest, fails_bind]
termination_by level.rank

theorem read_expression_nil (ending : Ending) :
    readExpression ending [] = failsAtEnd ending := by
  rw [read_expression_eq, read_chain_nil, fails_bind]

theorem level_types_given (level : Level) : levelTypes level ≠ [] := by
  cases level <;> exact List.cons_ne_nil _ _

theorem literal_type {t : Terminal} {value : Value} (carried : t.literal? = some value) :
    t.type ∈ [.number, .string, .boolean] := by
  cases t <;> simp_all [Terminal.literal?, Terminal.type]

theorem plain_type {t : Terminal} (plain : t.literal? = none) :
    t.type ∉ [.number, .string, .boolean] := by
  cases t <;> simp_all [Terminal.literal?, Terminal.type]

section Leaves

variable {r : Reading} {α : Type} {ts : List Token} {depth : Nat}

section Closing

variable {k : Unit → Machine α} {context : String} {closing : Token}

theorem reads_closed {k : RawToken → Machine α} {read : Result (α × List Token)}
    (isClosing : closing.terminal = .rightParen) (later : r.Reads (k closing.raw) ts read) :
    r.Reads (matchRightParen context >>= fun _ => previous >>= k) (closing :: ts) read := by
  refine reads_suffix fun suffix => ?_
  have closed : r.Reads (matchRightParen context) (closing :: ts) (pure ((), ts)) :=
    reads_taken (is_type isClosing rfl nofun) fun _ _ => reads_pure ()
  exact reads_then closed (reads_previous suffix later)

theorem reads_unclosed (other : closing.terminal ≠ .rightParen) :
    r.Reads (matchRightParen context >>= k) (closing :: ts)
      (throw (.failed (Parser.mismatch (.missingClosingParen context) closing))) :=
  reads_stopped (reads_left nofun (not_type other rfl nofun)
    (reads_peek (reads_mismatch _ _)))

theorem reads_unclosed_eof {eof : Token} (ending : r.ending = .eof eof) :
    r.Reads (matchRightParen context >>= k) []
      (throw (.failed (Parser.mismatch (.missingClosingParen context) eof))) :=
  reads_stopped (reads_left_eof nofun ending (reads_peek_eof ending (reads_mismatch _ _)))

theorem reads_unclosed_end :
    r.Reads (matchRightParen context >>= k) []
      (r.ending.token >>= fun found =>
        throw (.failed (Parser.mismatch (.missingClosingParen context) found))) := by
  rw [matchRightParen, choice_bind]
  exact reads_at_end nofun fun eof ending =>
    reads_stopped (reads_peek_eof ending (reads_mismatch _ _))

end Closing

theorem value_reads {next : Token} {value : Value} (carried : next.terminal.literal? = some value) :
    r.Reads (primary (depth + 1)) (next :: ts) (pure (.literal value next.span, ts)) := by
  rw [primary]
  refine reads_taken (literal_type carried) fun _ suffix => reads_previous suffix ?_
  have literal : next.raw.literal = some value := carried
  rw [literal]
  exact reads_pure _

theorem plain_reads {next : Token} {read : Result (Expr × List Token)}
    (plain : next.terminal.literal? = none) (later : r.Reads (named depth) (next :: ts) read) :
    r.Reads (primary (depth + 1)) (next :: ts) read := by
  rw [primary]
  exact reads_left nofun (plain_type plain) later

theorem name_reads {next : Token} {name : String} (isName : next.terminal = .identifier name) :
    r.Reads (named (depth + 1)) (next :: ts) (pure (.name name next.span, ts)) := by
  rw [named]
  refine reads_taken (by rw [isName]; exact List.mem_singleton_self _) fun named suffix =>
    reads_previous suffix ?_
  rw [named name isName]
  exact reads_pure _

theorem none_reads {next : Token} (notName : next.terminal.type ∉ [.identifier])
    (notOpening : next.terminal.type ∉ [.leftParen]) :
    r.Reads (named (depth + 1)) (next :: ts)
      (throw (.failed (Parser.mismatch .expectedExpression next))) := by
  rw [named]
  exact reads_left nofun notName
    (reads_left nofun notOpening (reads_peek (reads_mismatch _ _)))

theorem call_at_eof {eof : Token} (ending : r.ending = .eof eof) :
    r.Reads (call (depth + 3)) [] (throw (.failed (Parser.mismatch .expectedExpression eof))) := by
  rw [call, primary, named]
  refine reads_stopped ?_
  refine reads_left_eof nofun ending ?_
  refine reads_left_eof nofun ending ?_
  exact reads_left_eof nofun ending (reads_peek_eof ending (reads_mismatch _ _))

end Leaves

theorem derived_shorter {n : Grammar.Nonterminal} {e : Expr} {ts rest : List Token}
    (derived : ∃ p : Grammar.Phrase n, p.tokens ++ rest = ts ∧ p.tree = e) :
    rest.length < ts.length := by
  obtain ⟨p, tokens, _⟩ := derived
  exact behind_shorter tokens

section Productions

variable (r : Reading)

-- The recursion is on the depth. It is enough for a production if it is above the tokens that are
-- left, sixteen for each, and above the place of the production among calls at the same tokens.
mutual

theorem expression_reads (depth : Nat) (ts : List Token) (enough : ts.length * 16 + 13 < depth) :
    r.Reads (expression depth) ts (readExpression r.ending ts) := by
  cases depth with
  | zero => omega
  | succ depth =>
    rw [expression, read_expression_eq]
    refine reads_bind (chain_reads depth .logical ts (by simp; omega))
      fun condition rest first => ?_
    have shorter := derived_shorter (chain_derives r.ending .logical ts condition rest first)
    cases rest with
    | nil => exact reads_at_end nofun fun _ _ => reads_pure condition
    | cons next after =>
      simp only [List.length_cons] at shorter
      by_cases question : next.terminal = .question
      · simp only [question, if_true]
        refine reads_taken (is_type question rfl nofun) fun _ _ => ?_
        refine reads_bind (expression_reads depth after (by omega)) fun whenTrue rest second => ?_
        have shorter := derived_shorter (expression_derives r.ending after whenTrue rest second)
        cases rest with
        | nil =>
          exact reads_at_end nofun fun eof ending => reads_peek_eof ending (reads_ternary_mismatch _)
        | cons next after =>
          simp only [List.length_cons] at shorter
          by_cases colon : next.terminal = .colon
          · simp only [colon, if_true]
            refine reads_taken (is_type colon rfl nofun) fun _ _ => ?_
            exact reads_bind (expression_reads depth after (by omega)) fun whenFalse rest _ =>
              reads_pure _
          · simp only [colon, if_false]
            exact reads_left nofun (not_type colon rfl nofun) (reads_peek (reads_ternary_mismatch _))
      · simp only [question, if_false]
        exact reads_left nofun (not_type question rfl nofun) (reads_pure condition)

theorem chain_reads (depth : Nat) (level : Level) (ts : List Token)
    (enough : ts.length * 16 + (2 * level.rank + 4) < depth) :
    r.Reads (chain depth level) ts (readChain r.ending level ts) := by
  cases depth with
  | zero => omega
  | succ depth =>
    rw [chain, read_chain_eq]
    refine reads_bind (operand_reads depth level ts (by omega)) fun first rest read => ?_
    have shorter := derived_shorter (operand_derives r.ending level ts first rest read)
    exact tail_reads depth level first rest (by omega)

theorem tail_reads (depth : Nat) (level : Level) (left : Expr) (ts : List Token)
    (enough : ts.length * 16 < depth) :
    r.Reads (chainRest depth level left) ts (readTail r.ending level left ts) := by
  cases depth with
  | zero => omega
  | succ depth =>
    rw [chainRest, read_tail_eq]
    cases ts with
    | nil => exact reads_at_end (level_types_given level) fun _ _ => reads_pure left
    | cons next rest =>
      simp only [List.length_cons] at enough
      simp only [operator_by_type]
      by_cases joins : next.terminal.type ∈ levelTypes level
      · simp only [joins, if_true]
        refine reads_taken joins fun _ suffix => reads_previous suffix ?_
        have bounded := rank_bounded level
        refine reads_bind (operand_reads depth level rest (by omega)) fun right behind read => ?_
        have shorter := derived_shorter (operand_derives r.ending level rest right behind read)
        exact tail_reads depth level _ behind (by omega)
      · simp only [joins, if_false]
        exact reads_left (level_types_given level) joins (reads_pure left)

theorem operand_reads (depth : Nat) (level : Level) (ts : List Token)
    (enough : ts.length * 16 + (2 * level.rank + 3) < depth) :
    r.Reads (operand depth level) ts (readOperand r.ending level ts) := by
  cases depth with
  | zero => omega
  | succ depth =>
    rw [read_operand_eq]
    cases level with
    | logical => exact chain_reads depth .equality ts (by simp at enough ⊢; omega)
    | equality => exact chain_reads depth .additive ts (by simp at enough ⊢; omega)
    | additive => exact chain_reads depth .multiplicative ts (by simp at enough ⊢; omega)
    | multiplicative => exact exponent_reads depth ts (by simp at enough; omega)

theorem exponent_reads (depth : Nat) (ts : List Token) (enough : ts.length * 16 + 4 < depth) :
    r.Reads (exponent depth) ts (readExponent r.ending ts) := by
  cases depth with
  | zero => omega
  | succ depth =>
    rw [exponent, read_exponent_eq]
    refine reads_bind (unary_reads depth ts (by omega)) fun base rest first => ?_
    have shorter := derived_shorter (unary_derives r.ending ts base rest first)
    cases rest with
    | nil => exact reads_at_end nofun fun _ _ => reads_pure base
    | cons next after =>
      simp only [List.length_cons] at shorter
      by_cases caret : next.terminal = .caret
      · simp only [caret, if_true]
        refine reads_taken (is_type caret rfl nofun) fun _ _ => ?_
        exact reads_bind (exponent_reads depth after (by omega)) fun power rest _ => reads_pure _
      · simp only [caret, if_false]
        exact reads_left nofun (not_type caret rfl nofun) (reads_pure base)

theorem unary_reads (depth : Nat) (ts : List Token) (enough : ts.length * 16 + 3 < depth) :
    r.Reads (unary depth) ts (readUnary r.ending ts) := by
  cases depth with
  | zero => omega
  | succ depth =>
    rw [unary, read_unary_eq]
    cases ts with
    | nil =>
      obtain ⟨less, rfl⟩ := Nat.exists_eq_add_of_le' (Nat.le_of_lt_succ enough)
      exact reads_at_end nofun fun eof ending => call_at_eof ending
    | cons next rest =>
      simp only [List.length_cons] at enough
      simp only [prefix_by_type]
      by_cases signed : next.terminal.type ∈ prefixTypes
      · simp only [signed, if_true]
        refine reads_taken signed fun _ suffix => reads_previous suffix ?_
        exact reads_bind (unary_reads depth rest (by omega)) fun right behind _ => reads_pure _
      · simp only [signed, if_false]
        exact reads_left nofun signed (call_reads depth next rest (by omega))

theorem call_reads (depth : Nat) (next : Token) (ts : List Token)
    (enough : (ts.length + 1) * 16 + 2 < depth) :
    r.Reads (call depth) (next :: ts) (readPrimary r.ending next ts) := by
  obtain ⟨less, rfl⟩ : ∃ less, depth = less + 3 := ⟨depth - 3, by omega⟩
  rw [call, read_primary_eq]
  cases is : next.terminal with
  | number d => exact reads_then (value_reads (by rw [is]; rfl)) (reads_pure _)
  | string s => exact reads_then (value_reads (by rw [is]; rfl)) (reads_pure _)
  | boolean b => exact reads_then (value_reads (by rw [is]; rfl)) (reads_pure _)
  | identifier name =>
    refine reads_then (plain_reads (by rw [is]; rfl) (name_reads is)) ?_
    cases ts with
    | nil => exact reads_at_end nofun fun _ _ => reads_pure _
    | cons opening after =>
      simp only [List.length_cons] at enough
      by_cases isOpening : opening.terminal = .leftParen
      · simp only [isOpening, if_true]
        refine reads_taken (is_type isOpening rfl nofun) fun _ _ => ?_
        exact enclosed_reads (less + 2) after
          (fun args closing => pure (.call name args (next.span.cover closing.span))) _
          (fun args closing rest => reads_pure _) (by omega)
      · simp only [isOpening, if_false]
        exact reads_left nofun (not_type isOpening rfl nofun) (reads_pure _)
  | leftParen =>
    refine reads_same
      (plain_reads (by rw [is]; rfl) (group_reads (less + 1) next is ts (by omega))) ?_
    intro e rest read
    obtain ⟨⟨inner, behind⟩, _, read⟩ := bind_ok read
    cases behind with
    | nil =>
      obtain ⟨_, _, read⟩ := bind_ok read
      cases read
    | cons closing after =>
      by_cases isClosing : closing.terminal = .rightParen
      · simp only [isClosing, if_true] at read
        cases read
        rfl
      · simp only [isClosing, if_false] at read
        cases read
  | _ =>
    exact reads_stopped (plain_reads (by rw [is]; rfl)
      (none_reads (by rw [is]; decide) (by rw [is]; decide)))

theorem group_reads (depth : Nat) (opening : Token) (isOpening : opening.terminal = .leftParen)
    (ts : List Token) (enough : (ts.length + 1) * 16 < depth) :
    r.Reads (named depth) (opening :: ts)
      (readExpression r.ending ts >>= fun (inner, rest) =>
        match rest with
        | [] => r.ending.token >>= fun found =>
          throw (.failed (Parser.mismatch (.missingClosingParen "expression") found))
        | closing :: after =>
          if closing.terminal = .rightParen then
            pure (.group inner (opening.span.cover closing.span), after)
          else throw (.failed (Parser.mismatch (.missingClosingParen "expression") closing))) := by
  cases depth with
  | zero => omega
  | succ depth =>
    rw [named]
    refine reads_left nofun (by rw [isOpening]; decide) ?_
    refine reads_taken (is_type isOpening rfl nofun) fun _ suffix => reads_previous suffix ?_
    refine reads_bind (expression_reads depth ts (by omega)) fun inner rest first => ?_
    cases rest with
    | nil => exact reads_unclosed_end
    | cons closing after =>
      by_cases isClosing : closing.terminal = .rightParen
      · simp only [isClosing, if_true]
        exact reads_closed isClosing (reads_pure _)
      · simp only [isClosing, if_false]
        exact reads_unclosed isClosing

theorem enclosed_reads (depth : Nat) (ts : List Token) (k : List Expr → RawToken → Machine Expr)
    (more : List Expr → Token → List Token → Result (Expr × List Token))
    (later : ∀ args closing rest, r.Reads (k args closing.raw) rest (more args closing rest))
    (enough : ts.length * 16 + 15 < depth) :
    r.Reads (enclosed depth >>= fun args => previous >>= k args) ts
      (readCall r.ending ts >>= fun (args, closing, rest) => more args closing rest) := by
  cases depth with
  | zero => omega
  | succ depth =>
    rw [enclosed, choice_bind, read_call_eq]
    cases ts with
    | nil =>
      simp only [bind_assoc, pure_bind]
      refine reads_at_end nofun fun eof ending => ?_
      have none_left := arguments_reads depth [] [] k more later (by simp at enough ⊢; omega)
      rw [read_arguments_eq, read_expression_nil, failsAtEnd, ending] at none_left
      exact none_left
    | cons next rest =>
      by_cases isClosing : next.terminal = .rightParen
      · simp only [isClosing, if_true]
        exact reads_taken (is_type isClosing rfl nofun) fun _ suffix =>
          reads_previous suffix (later [] next rest)
      · simp only [isClosing, if_false]
        refine reads_left nofun (not_type isClosing rfl nofun) ?_
        simp only [bind_assoc, pure_bind]
        exact arguments_reads depth [] (next :: rest) k more later (by omega)

theorem arguments_reads (depth : Nat) (before : List Expr) (ts : List Token)
    (k : List Expr → RawToken → Machine Expr)
    (more : List Expr → Token → List Token → Result (Expr × List Token))
    (later : ∀ args closing rest, r.Reads (k args closing.raw) rest (more args closing rest))
    (enough : ts.length * 16 + 14 < depth) :
    r.Reads
      (arguments depth before >>= fun args =>
        matchRightParen "arguments" >>= fun _ => previous >>= k args)
      ts (readArguments r.ending ts >>= fun (args, closing, rest) =>
        more (before ++ args) closing rest) := by
  cases depth with
  | zero => omega
  | succ depth =>
    rw [arguments, bind_assoc, read_arguments_eq, bind_assoc]
    refine reads_bind (expression_reads depth ts (by omega)) fun arg rest first => ?_
    have shorter := derived_shorter (expression_derives r.ending ts arg rest first)
    rw [choice_bind]
    cases rest with
    | nil =>
      simp only [bind_assoc]
      exact reads_at_end nofun fun eof ending => reads_unclosed_eof ending
    | cons next after =>
      simp only [List.length_cons] at shorter
      by_cases isComma : next.terminal = .comma
      · simp only [isComma, if_true, bind_assoc, pure_bind]
        refine reads_taken (is_type isComma rfl nofun) fun _ _ => ?_
        have listed := arguments_reads depth (before ++ [arg]) after k more later (by omega)
        simpa only [List.append_assoc, List.singleton_append] using listed
      · simp only [isComma, if_false]
        refine reads_left nofun (not_type isComma rfl nofun) ?_
        by_cases isClosing : next.terminal = .rightParen
        · simp only [isClosing, if_true]
          exact reads_closed isClosing (later _ _ _)
        · simp only [isClosing, if_false]
          exact reads_unclosed isClosing

end

end Productions

section Formulas

variable {r : Reading} {ts : List Token} {s : Session}

theorem depth_enough (stands : r.Stands ts s) : ts.length * 16 + 13 < s.buffer.depth := by
  have length := stands_length stands
  rw [Buffer.depth]
  omega

theorem formula_runs (stands : r.Stands ts s) :
    Runs formula s fun outcome s' =>
      outcome = (complete ⟨ts, r.ending⟩).mapError .stopped ∧ History r.source s' ∧
        ∀ e, outcome = .ok e → ∃ eof, r.Sees [] eof s' := by
  rw [formula, complete_eq]
  refine runs_buffer (runs_bind (expression_reads r _ ts (depth_enough stands) s stands) ?_ ?_)
  · rintro e s' ⟨rest, read, stands⟩
    rw [read]
    refine runs_bind (peek_sees stands) ?_ ?_
    · rintro _ s'' ⟨t, rfl, sees⟩
      rw [raw_eof, mismatch_raw]
      rcases sees_cases sees with ⟨eof, rfl, ending⟩ | ⟨more, cursor, _, rfl, _⟩
      · rw [eof, if_pos rfl, ending]
        exact runs_pure ⟨rfl, sees.history, fun _ _ => ⟨t, sees⟩⟩
      · rw [more, if_neg Bool.false_ne_true]
        exact runs_throw ⟨rfl, sees.history, nofun⟩
    · rintro halt s'' ⟨stop, rfl, faults⟩
      rw [faults.none_left, faults.ending]
      exact ⟨rfl, faults.history, nofun⟩
  · rintro halt s' ⟨stop, rfl, read, history⟩
    rw [read]
    exact ⟨rfl, history, nofun⟩

theorem seen_tokens {eof : Token} (sees : r.Sees [] eof s) :
    s.buffer.tokens = r.whole ++ [eof.raw] ∧ r.ending = .eof eof ∧ eof.terminal = .eof := by
  have accepted := sees.accepted
  rw [List.map_nil, List.append_nil] at accepted
  have all : s.buffer.tokens.take (s.buffer.current + 1) = s.buffer.tokens := by
    rw [← sees_length sees, List.take_length]
  rw [List.take_add_one, sees.next, accepted, Option.toList_some] at all
  rcases sees_cases sees with ⟨isEof, _, ending⟩ | ⟨_, _, _, split, _⟩
  · exact ⟨all.symm, ending, by simpa [Token.isEof] using isEof⟩
  · cases split

theorem start_stands (source : String) :
    Reading.Stands ⟨source, (Lexer.lex source).tokens.map Token.raw, (Lexer.lex source).ending⟩
      (Lexer.lex source).tokens (.start source) :=
  .inl ⟨.start, rfl, Nat.le_refl 0, .start source, Scanner.start_at source, rfl⟩

theorem history_stands {source : String} (history : History source s) :
    ∃ (r : Reading) (ts : List Token), r.source = source ∧ r.Stands ts s ∧
      (r.ending = .fault .panicked → ∃ span, LowestNumeral source span) := by
  have consistent := history_consistent history
  obtain ⟨cursor, stands⟩ := consistent_at consistent
  have lowest := Lexer.lexed_panic (Scanner.at_within stands)
  rcases consistent.filled with none_kept | kept
  · exact ⟨⟨source, _, cursor.lexed.ending⟩, cursor.lexed.tokens, rfl,
      .inl ⟨history, rfl, Nat.le_of_eq none_kept, cursor, stands, rfl⟩, lowest⟩
  · have inside : s.buffer.current < s.buffer.tokens.length := by omega
    obtain ⟨t, same, named, -⟩ := consistent_token consistent (List.getElem_mem inside)
    have next : s.buffer.tokens[s.buffer.current]? = some t.raw := by
      rw [List.getElem?_eq_getElem inside, same]
    refine ⟨⟨source, _, (Lexed.behind t cursor.lexed).ending⟩, (Lexed.behind t cursor.lexed).tokens,
      rfl, .inr ⟨t, history, rfl, next, named, cursor, stands, rfl⟩, fun panics => lowest ?_⟩
    rw [Lexed.behind] at panics
    split at panics
    · cases panics
    · exact panics

structure Answer (source : String) (outcome : Except Halt Expr) (read : Result Expr) : Prop where
  same : outcome = read.mapError .stopped
  panic : read = .error .panicked → ∃ span, LowestNumeral source span

theorem formula_answers {source : String} (history : History source s) :
    Runs formula s fun outcome s' =>
      (∃ read, Answer source outcome read) ∧ History source s' := by
  obtain ⟨r, ts, rfl, stands, lowest⟩ := history_stands history
  refine runs_mono (formula_runs stands) ?_
  rintro outcome s' ⟨same, history, -⟩
  refine ⟨⟨_, same, fun panics => lowest ?_⟩, history⟩
  cases complete_stuck panics with
  | lexical fault before => exact fault
  | atEnd eof ends before blames => cases blames
  | atToken front t behind split before blames steady => cases blames

theorem formulas_run (source : String) (n : Nat) :
    (formulas (.start source) n).1.length = n ∧
      (∀ outcome ∈ (formulas (.start source) n).1, ∃ read, Answer source outcome read) ∧
      History source (formulas (.start source) n).2 := by
  induction n with
  | zero => exact ⟨rfl, List.forall_mem_nil _, .start⟩
  | succ n ih =>
    obtain ⟨length, answered, history⟩ := ih
    obtain ⟨answer, behind⟩ := formula_answers history
    rw [formulas]
    dsimp only
    refine ⟨by rw [List.length_append, length, List.length_singleton], ?_, behind⟩
    intro outcome member
    rcases List.mem_append.mp member with before | last
    · exact answered outcome before
    · rw [List.mem_singleton.mp last]
      exact answer

end Formulas

/-- However often a parser is asked for a formula of a source, each time it answers with a tree or
with an error, unless the lexer panics at a numeral of the lowest scale. At every moment the buffer
holds the tokens that the lexer gave so far, each asked for once and when it was missing, and reaches
one token past the place of the parser at most; that place does not pass the end; what is looked at,
ahead and back, is in the buffer; and a token that stands for a value has it. The first answer is
that of the parser on lists, and a tree has all the tokens of the source. -/
theorem token_buffer_consistent (source : String) :
    (Runs formula (.start source) fun outcome s =>
      Answer source outcome (parse source) ∧
        ∀ e, parse source = .ok e →
          (Lexer.tokens source).map (List.map Token.raw) = .ok s.buffer.tokens ∧
          s.buffer.tokens.map RawToken.type = e.terminals.map Terminal.type ++ [.eof]) ∧
    ∀ n,
      let (outcomes, s) := formulas (.start source) n
      outcomes.length = n ∧ (∀ outcome ∈ outcomes, ∃ read, Answer source outcome read) ∧
        s.Sound source := by
  constructor
  · refine runs_mono (formula_runs (start_stands source)) ?_
    rintro outcome s ⟨same, _, ends⟩
    refine ⟨⟨same, fun panics => ?_⟩, ?_⟩
    · exact Lexer.lexed_panic (Lexer.within_start source) (panic_lexed panics).1
    · intro e parsed
      obtain ⟨eof, sees⟩ := ends e (same.trans (congrArg (Except.mapError Halt.stopped) parsed))
      obtain ⟨all, ending, isEof⟩ := seen_tokens sees
      obtain ⟨_, _, p, tokens, rfl⟩ := (complete_ok_iff (Lexer.lex source) e).mp parsed
      dsimp only at all ending
      constructor
      · rw [all, Lexer.tokens, ending, ← List.map_singleton, ← List.map_append]
        rfl
      · rw [all, ← tokens, List.map_append, List.map_singleton, List.map_map,
          Grammar.phrase_terminals, List.map_map, Token.raw, isEof]
        rfl
  · intro n
    obtain ⟨length, answered, history⟩ := formulas_run source n
    exact ⟨length, answered, history_sound history⟩

/-- The lexer can panic while the parser looks at the next token. -/
theorem lowest_numeral_stops_formula :
    (formula.runFrom (.start "1e9223372036854775808")).1 = .error (.stopped .panicked) := by
  have lexed : Lexer.lex "1e9223372036854775808" = ⟨[], .fault .panicked⟩ := by
    have answer : (Lexer.Cursor.start "1e9223372036854775808").next.1 = .error .panicked := by
      decide +kernel
    exact (Lexer.lexed_next _).trans (by rw [answer])
  have runs := formula_runs (start_stands "1e9223372036854775808")
  rw [lexed, complete_eq, read_expression_nil] at runs
  exact runs.1

end Formula.Buffered
