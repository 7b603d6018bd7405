import Formula.Evaluation
import Formula.Proofs.LexicalGrammar
import Formula.Proofs.MovedSpans

set_option autoImplicit false

namespace Formula

def Move.away : Move := ⟨fun _ => ⟨0, 0⟩, fun _ _ => rfl⟩

def Token.unplaced (t : Token) : Token := t.move .away

def Expr.unplaced (e : Expr) : Expr := e.move .away

def Error.unplaced (e : Error) : Error := { e with span := none }

def Stop.unplaced (stop : Stop Error) : Stop Error := stop.map Error.unplaced

def Alike {α : Type} (a b : Traced α) : Prop :=
  a.mapError Error.unplaced = b.mapError Error.unplaced

namespace Alike

variable {α β : Type}

theorem of_except {a b : Result α}
    (same : a.mapError Stop.unplaced = b.mapError Stop.unplaced) :
    Alike (Traced.ofExcept a) (Traced.ofExcept b) :=
  congrArg Traced.ofExcept same

theorem bind {first first' : Traced α} {next next' : α → Traced β} (same : Alike first first')
    (later : ∀ a, Alike (next a) (next' a)) : Alike (first >>= next) (first' >>= next') := by
  obtain ⟨outcome, events⟩ := first
  obtain ⟨outcome', events'⟩ := first'
  obtain ⟨outcomes, rfl⟩ := Traced.mk.inj same
  cases outcome with
  | error e =>
    cases outcome' with
    | error e' =>
      exact congrArg (fun e => Traced.mk (.error e) events) (Except.error.inj outcomes)
    | ok a => cases outcomes
  | ok a =>
    cases outcome' with
    | error e' => cases outcomes
    | ok a' =>
      obtain rfl := Except.ok.inj outcomes
      obtain ⟨values, traces⟩ := Traced.mk.inj (later a)
      exact congrArg₂ Traced.mk values (congrArg (events ++ ·) traces)

theorem map_error {g g' : Error → Error} (same : ∀ e, (g e).unplaced = (g' e).unplaced)
    (t : Traced α) : Alike (t.mapError g) (t.mapError g') := by
  obtain ⟨outcome, events⟩ := t
  rcases outcome with (e | _) | a
  · exact congrArg (fun e => Traced.mk (.error (.failed e)) events) (same e)
  · rfl
  · rfl

end Alike

theorem at_node_unplaced {α : Type} (a b : Span) (result : Result α) :
    (atNode a result).mapError Stop.unplaced = (atNode b result).mapError Stop.unplaced := by
  rcases result with (e | _) | a <;> rfl

theorem apply_binary_unplaced (operator : BinaryOp) (left right : Value) (a b : Span) :
    (applyBinary operator left right a).mapError Stop.unplaced =
      (applyBinary operator left right b).mapError Stop.unplaced := by
  unfold applyBinary
  split
  case h_7 | h_8 =>
    split
    · rfl
    · exact at_node_unplaced a b _
  all_goals first | rfl | exact at_node_unplaced a b _

theorem apply_unary_unplaced (operator : UnaryOp) (operand : Value) (a b : Span) :
    (applyUnary operator operand a).mapError Stop.unplaced =
      (applyUnary operator operand b).mapError Stop.unplaced := by
  cases operator <;> cases operand <;> rfl

theorem look_up_unplaced (env : Environment) (name : String) (a b : Span) :
    (lookUp env name a).mapError Stop.unplaced = (lookUp env name b).mapError Stop.unplaced := by
  unfold lookUp
  split <;> rfl

theorem look_up_function_unplaced (env : Environment) (name : String) (a b : Span) :
    (lookUpFunction env name a).mapError Stop.unplaced =
      (lookUpFunction env name b).mapError Stop.unplaced := by
  unfold lookUpFunction
  split <;> rfl

theorem call_error_unplaced (f : Function) (a b : Span) (e : Error) :
    (callError f a e).unplaced = (callError f b e).unplaced := rfl

theorem call_result_unplaced (name : String) (result : Value) (a b : Span) :
    (callResult name a result).mapError Stop.unplaced =
      (callResult name b result).mapError Stop.unplaced := by
  cases result with
  | number d => exact at_node_unplaced a b _
  | text | boolean => rfl

namespace Expr

variable (f : Move) (env : Environment)

mutual

theorem eval_moved (e : Expr) : Alike ((e.move f).eval env) (e.eval env) := by
  cases e with
  | literal value span => rfl
  | name n span => exact .of_except (look_up_unplaced env n _ _)
  | group inner span => exact eval_moved inner
  | unary operator operand span =>
    exact .bind (eval_moved operand) fun value => .of_except (apply_unary_unplaced operator value _ _)
  | binary operator left right span =>
    exact .bind (eval_moved left) fun l => .bind (eval_moved right) fun r =>
      .of_except (apply_binary_unplaced operator l r _ _)
  | logical operator left right span =>
    refine .bind (eval_moved left) fun l => ?_
    have decided : Alike ((right.move f).eval env >>= fun r => pure (Value.boolean r.isTruthy))
        (right.eval env >>= fun r => pure (Value.boolean r.isTruthy)) :=
      .bind (eval_moved right) fun r => rfl
    cases operator <;> cases l.isTruthy <;> first | rfl | exact decided
  | ternary condition whenTrue whenFalse span =>
    refine .bind (eval_moved condition) fun c => ?_
    by_cases truthy : c.isTruthy = true
    · simp only [truthy, if_true]
      exact eval_moved whenTrue
    · simp only [truthy]
      exact eval_moved whenFalse
  | call n args span =>
    refine .bind (.of_except (look_up_function_unplaced env n _ _)) fun host => ?_
    refine .bind (eval_all_moved args) fun values => ?_
    exact .bind (.map_error (call_error_unplaced host _ _) _) fun result =>
      .of_except (call_result_unplaced n result _ _)

theorem eval_all_moved (es : List Expr) :
    Alike (evalAll env (moveAll f es)) (evalAll env es) := by
  cases es with
  | nil => rfl
  | cons e es =>
    exact .bind (eval_moved e) fun value => .bind (eval_all_moved es) fun values => rfl

end

end Expr

theorem moved_unplaced (result : Result Expr) :
    (moved .away (Expr.move .away) result).mapError Stop.unplaced =
      (result.map Expr.unplaced).mapError Stop.unplaced := by
  rcases result with (e | _) | e <;> rfl

def evaluateParsed (env : Environment) : Result Expr → Traced Value
  | .ok e => e.eval env
  | .error e => .ofExcept (.error e)

theorem evaluate_eq (source : String) (env : Environment) :
    evaluateTraced source env = evaluateParsed env (parse source) := by
  rw [evaluateTraced]
  cases parse source <;> rfl

theorem evaluate_moved (env : Environment) (result : Result Expr) :
    Alike (evaluateParsed env (moved .away (Expr.move .away) result))
      (evaluateParsed env result) := by
  rcases result with (e | _) | e
  · rfl
  · rfl
  · exact e.eval_moved .away env

namespace Lexer

inductive Spaced : List String → List Char → Prop where
  | nil : Spaced [] []
  | cons (lexeme : String) (gap : List Char) {lexemes : List String} {text : List Char}
      (layout : Layout gap) (apart : lexemes ≠ [] → gap ≠ []) (rest : Spaced lexemes text) :
      Spaced (lexeme :: lexemes) (lexeme.toList ++ (gap ++ text))

def Word.bare (word : Word) : List Char × Terminal := (word.lexeme, word.terminal)

theorem spaced_stops (w : List Char) {lexemes : List String} {gap text : List Char}
    (layout : Layout gap) (apart : lexemes ≠ [] → gap ≠ []) (rest : Spaced lexemes text) :
    Stops w (gap ++ text) := by
  cases gap with
  | nil =>
    cases rest with
    | nil => exact nofun
    | cons => exact absurd rfl (apart (List.cons_ne_nil _ _))
  | cons c gap =>
    rintro next ⟨⟩
    exact layout_stops w ((layout_iff c).mpr (layout c List.mem_cons_self))

theorem respaced_words {behind : List Char} {words : List Word} (steady : WordsSteady behind words)
    {lead text : List Char} (layout : Layout lead)
    (spaced : Spaced (words.map fun word => String.ofList word.lexeme) text) :
    ∃ behind' words', lead ++ text = textOf behind' words' ∧ WordsSteady behind' words' ∧
      words'.map Word.bare = words.map Word.bare := by
  induction words generalizing lead text with
  | nil =>
    cases spaced
    exact ⟨lead, [], List.append_nil lead, layout, rfl⟩
  | cons word words ih =>
    cases spaced with
    | cons _ gap layoutGap apart rest =>
      obtain ⟨behind', words', written, later, same⟩ := ih steady.2 layoutGap rest
      have stops := spaced_stops word.lexeme layoutGap apart rest
      rw [written] at stops
      refine ⟨behind', { word with gap := lead } :: words', ?_,
        ⟨⟨layout, steady.1.spelled, stops, steady.1.admitted⟩, later⟩, ?_⟩
      · rw [String.toList_ofList, written, textOf]
      · simp only [List.map_cons, same, Word.bare]

theorem tokens_lexemes (k : Nat) (words : List Word) :
    (tokensFrom k words).map Token.lexeme = words.map fun word => String.ofList word.lexeme := by
  induction words generalizing k with
  | nil => rfl
  | cons word words ih => simp only [tokensFrom, List.map_cons, ih]

theorem tokens_unplaced (k : Nat) (words : List Word) :
    (tokensFrom k words).map Token.unplaced =
      (words.map Word.bare).map fun (lexeme, terminal) =>
        ⟨terminal, String.ofList lexeme, ⟨0, 0⟩⟩ := by
  induction words generalizing k with
  | nil => rfl
  | cons word words ih =>
    simp only [tokensFrom, List.map_cons, ih]
    rfl

theorem respaced_lexed {source respaced : String} {ts : List Token} {eof : Token}
    (read : tokens source = .ok (ts ++ [eof])) {lead text : List Char} (layout : Layout lead)
    (spaced : Spaced (ts.map Token.lexeme) text) (written : respaced.toList = lead ++ text) :
    (∃ us, tokens respaced = .ok us ∧
      us.map Token.unplaced = (ts ++ [eof]).map Token.unplaced) ∧
    (lex respaced).move .away = (lex source).move .away := by
  obtain ⟨behind, words, source_text, steady, split⟩ := tokens_iff_words.mp read
  obtain ⟨rfl, last⟩ := List.append_inj' split rfl
  obtain rfl : eof = .eofAt source.utf8ByteSize := List.singleton_inj.mp last
  rw [tokens_lexemes] at spaced
  obtain ⟨behind', words', text', steady', same⟩ := respaced_words steady layout spaced
  have respaced_text := written.trans text'
  have alike : (tokensFrom 0 words').map Token.unplaced = (tokensFrom 0 words).map Token.unplaced := by
    rw [tokens_unplaced, tokens_unplaced, same]
  refine ⟨⟨_, tokens_iff_words.mpr ⟨behind', words', respaced_text, steady', rfl⟩, ?_⟩, ?_⟩
  · rw [List.map_append, List.map_append, alike]
    rfl
  · rw [lex_words respaced_text steady', lex_words source_text steady]
    exact congrArg (Lexed.mk · _) alike

end Lexer

/-- Between the lexemes of a source, layout makes no difference as long as there is some, nor does
it before and behind them. The tokens stay the same but for their places; so does the tree, or the
error in its place; and so does what the formula evaluates to in every environment. -/
theorem layout_irrelevant {source respaced : String} {ts : List Token} {eof : Token}
    (read : Lexer.tokens source = .ok (ts ++ [eof])) {lead text : List Char}
    (layout : Lexer.Layout lead) (spaced : Lexer.Spaced (ts.map Token.lexeme) text)
    (written : respaced.toList = lead ++ text) :
    (∃ us, Lexer.tokens respaced = .ok us ∧
      us.map Token.unplaced = (ts ++ [eof]).map Token.unplaced) ∧
    ((parse respaced).map Expr.unplaced).mapError Stop.unplaced =
      ((parse source).map Expr.unplaced).mapError Stop.unplaced ∧
    ∀ env, (evaluate respaced env).mapError Stop.unplaced =
      (evaluate source env).mapError Stop.unplaced := by
  obtain ⟨tokens, lexed⟩ := Lexer.respaced_lexed read layout spaced written
  have parsed : moved .away (Expr.move .away) (parse respaced) =
      moved .away (Expr.move .away) (parse source) := by
    rw [parse, parse, ← Parser.complete_moved, ← Parser.complete_moved, lexed]
  refine ⟨tokens, ?_, fun env => ?_⟩
  · rw [← moved_unplaced, ← moved_unplaced, parsed]
  · have alike : Alike (evaluateTraced respaced env) (evaluateTraced source env) := by
      have left := evaluate_moved env (parse respaced)
      have right := evaluate_moved env (parse source)
      rw [parsed] at left
      rw [evaluate_eq, evaluate_eq]
      exact left.symm.trans right
    exact congrArg Traced.outcome alike

theorem layout_irrelevant_of_spread :
    ((parse "\t1 <=\r\n1.5 ").map Expr.unplaced).mapError Stop.unplaced =
        ((parse "1<=1.5").map Expr.unplaced).mapError Stop.unplaced ∧
      evaluate "1<=1.5" .empty = .ok (.boolean true) ∧
      (evaluate "\t1 <=\r\n1.5 " .empty).mapError Stop.unplaced = .ok (.boolean true) := by
  have read : Lexer.tokens "1<=1.5" = .ok ([⟨.number ⟨1, 0⟩, "1", ⟨0, 1⟩⟩,
      ⟨.lessEqual, "<=", ⟨1, 3⟩⟩, ⟨.number ⟨15, 1⟩, "1.5", ⟨3, 6⟩⟩] ++ [.eofAt 6]) := by
    decide +kernel
  have tab : Lexer.Layout ['\t'] := by simp [Lexer.Layout]
  have spaced : Lexer.Spaced ["1", "<=", "1.5"] _ :=
    .cons "1" [' '] (by simp [Lexer.Layout]) (by simp)
      (.cons "<=" ['\r', '\n'] (by simp [Lexer.Layout]) (by simp)
        (.cons "1.5" [' '] (by simp [Lexer.Layout]) (by simp) .nil))
  have evaluated : evaluate "1<=1.5" .empty = .ok (.boolean true) := by decide +kernel
  obtain ⟨-, parsed, values⟩ := layout_irrelevant read tab spaced
    (by decide : "\t1 <=\r\n1.5 ".toList = _)
  refine ⟨parsed, evaluated, ?_⟩
  rw [values .empty, evaluated]
  rfl

end Formula
