import Formula.Proofs.FailingNode
import Formula.Proofs.HostErrors
import Formula.Proofs.Subexpressions
import Formula.Proofs.ViablePrefix

set_option autoImplicit false

namespace Formula

structure Error.At (span : Span) (e : Error) : Prop where
  place : e.span = some span
  notLexical : e.category ≠ .lexical
  notParse : e.category ≠ .parse

abbrev FailsAt {α : Type} (span : Span) (result : Result α) : Prop :=
  Fails (Error.At span) result

@[simp] theorem located_at (cause : Cause) (span : Span) :
    (Error.located cause span).At span ↔ cause.category ≠ .lexical ∧ cause.category ≠ .parse :=
  ⟨fun placed => ⟨placed.notLexical, placed.notParse⟩, fun other => ⟨rfl, other.1, other.2⟩⟩

theorem with_help_at {e : Error} {span : Span} (placed : e.At span) (help : String) :
    (e.withHelp help).At span := ⟨placed.place, placed.notLexical, placed.notParse⟩

theorem or_span_at {e : Error} (hosted : e.Hosted) (span : Span) : (e.orSpan span).At span := by
  refine ⟨?_, hosted.notLexical, hosted.notParse⟩
  rw [Error.orSpan, hosted.unplaced]
  rfl

theorem at_node_at {α : Type} {result : Result α} (hosted : Hosted result) (span : Span) :
    FailsAt span (atNode span result) := by
  rcases result with (e | _) | a
  · exact (fails_error _).mpr (or_span_at (hosted e rfl) span)
  · exact fails_panicked
  · exact fails_ok a

theorem checked_at (operator : BinaryOp) (span : Span) (d : Decimal) :
    FailsAt span (checkedNumber operator span d) :=
  at_node_at (by simp) span

theorem binary_at (operator : BinaryOp) (l r : Value) (span : Span) :
    FailsAt span (applyBinary operator l r span) := by
  unfold applyBinary
  split <;> simp [Cause.category, checked_at, at_node_at]

theorem unary_at (operator : UnaryOp) (v : Value) (span : Span) :
    FailsAt span (applyUnary operator v span) := by
  cases operator with
  | not | plus => simp [applyUnary]
  | negate => cases v <;> simp [applyUnary, Cause.category]

theorem look_up_at (env : Environment) (name : String) (span : Span) :
    FailsAt span (lookUp env name span) := by
  rw [lookUp]
  cases env.get? name with
  | none => simp [Cause.category]
  | some symbol =>
    cases symbol with
    | value v => exact fails_ok v
    | function f => simp [with_help_at, Cause.category]

theorem look_up_function_at (env : Environment) (name : String) (span : Span) :
    FailsAt span (lookUpFunction env name span) := by
  rw [lookUpFunction]
  cases env.get? name with
  | none => simp [Cause.category]
  | some symbol => cases symbol <;> simp [Cause.category]

theorem call_result_at (name : String) (span : Span) (v : Value) :
    FailsAt span (callResult name span v) := by
  cases v with
  | number d => exact at_node_at (by simp) span
  | text | boolean => exact fails_ok _

theorem with_help_hosted {e : Error} (hosted : e.Hosted) (help : String) :
    (e.withHelp help).Hosted := ⟨hosted.unplaced, hosted.notLexical, hosted.notParse⟩

theorem call_error_at (f : Function) (span : Span) {e : Error} (hosted : e.Hosted) :
    (callError f span e).At span := by
  unfold callError
  split
  · exact or_span_at (with_help_hosted hosted _) span
  · exact or_span_at (with_help_hosted hosted _) span
  · exact or_span_at hosted span

theorem check_types_hosted (f : Function) (index : Nat) (args : List Value) :
    Hosted (f.checkTypesFrom index args) := by
  fun_induction Function.checkTypesFrom f index args <;> simp [Cause.category, *]

theorem call_hosted {f : Function} (hosted : f.Hosted) (args : List Value) :
    Hosted (f.call args).outcome := by
  have verified : Hosted (f.verify args).outcome := by
    rw [Function.verify]
    cases own : f.verifier with
    | none => exact fails_pure ()
    | some verifier => exact hosted.verifies verifier own args
  rw [Function.call]
  simp only [Traced.outcome_bind, fails_bind]
  refine ⟨?_, fun _ _ => ⟨?_, fun _ _ => ⟨verified, fun _ _ => hosted.computes args⟩⟩⟩
  · simp [Traced.ofExcept, Function.checkArity, Cause.category]
  · exact check_types_hosted f 0 args

theorem looked_up_hosted {env : Environment} (hosted : env.Hosted) {name : String} {span : Span}
    {f : Function} (found : lookUpFunction env name span = .ok f) : f.Hosted := by
  rw [lookUpFunction] at found
  cases bound : env.get? name with
  | none =>
    rw [bound] at found
    cases found
  | some symbol =>
    rw [bound] at found
    cases symbol with
    | value v => cases found
    | function g =>
      cases found
      exact hosted name f bound

theorem fault_at {env : Environment} (hosted : env.Hosted) {n : Expr} {e : Error}
    (faults : Expr.Faults env n (.failed e)) : e.At n.span := by
  generalize stop : Stop.failed e = s at faults
  cases faults with
  | name failed => exact look_up_at _ _ _ _ (stop ▸ failed)
  | unary value failed => exact unary_at _ _ _ _ (stop ▸ failed)
  | binary first second failed => exact binary_at _ _ _ _ _ (stop ▸ failed)
  | callee failed => exact look_up_function_at _ _ _ _ (stop ▸ failed)
  | @host _ _ _ _ _ s' found given failed =>
    cases s' with
    | panicked => cases stop
    | failed e' =>
      cases stop
      exact call_error_at _ _ (call_hosted (looked_up_hosted hosted found) _ _ failed)
  | result found given called failed => exact call_result_at _ _ _ _ (stop ▸ failed)

theorem reads_bounds {source : String} {span : Span} {text : List Char}
    (reads : Lexer.Reads source span text) :
    span.start ≤ span.stop ∧ span.stop ≤ source.utf8ByteSize := by
  obtain ⟨before, after, whole, rfl⟩ := reads
  rw [← Lexer.byte_length_source, whole, Lexer.byte_length_append, Lexer.byte_length_append]
  constructor <;> dsimp only <;> omega

theorem reads_end (source : String) :
    Lexer.Reads source ⟨source.utf8ByteSize, source.utf8ByteSize⟩ [] :=
  ⟨source.toList, [], by simp, by rw [Lexer.byte_length_source]; rfl⟩

theorem token_reads {source : String} {t : Token} (member : t ∈ (Lexer.lex source).tokens) :
    ∃ text, Lexer.Reads source t.span text := by
  obtain ⟨c, cs, span, ⟨before, after, whole, place⟩, step⟩ :=
    Lexer.run_reads (Lexer.within_start source) _ (Lexer.lexed_of_steps member)
  refine ⟨_, before, after, whole, ?_⟩
  have placed := (Lexer.place_ok step.symm).2.2
  rw [placed, place]

open Grammar in
theorem node_reads {source : String} {e n : Expr} (parsed : parse source = .ok e)
    (node : n ∈ e.nodes) : ∃ text, Lexer.Reads source n.span text := by
  obtain ⟨whole, rfl, -, behind, words, text, steady, same⟩ := Parser.parse_ok_words parsed
  obtain ⟨p, rfl, before, after, split⟩ := node_phrase whole node
  have ordered := Lexer.tokens_ordered 0 words
  rw [← same] at ordered
  have spans := phrase_spans p (ordered_sublist (part_sublist split) ordered)
  obtain ⟨piece, start, alone⟩ :=
    Lexer.piece_of_tokens steady (split.trans same) (Parser.tokens_written p)
  obtain ⟨front, back, part, place⟩ := alone.part
  refine ⟨_, front, back, text.trans part, ?_⟩
  rw [spans_unique spans alone.spans, place]

theorem blamed_place {t : Token} {e : Error} (blames : Parser.Blames t (.failed e)) :
    e.span = some t.span := by
  cases blames <;> rfl

theorem parse_error_placed {source : String} {e : Error}
    (failed : parse source = .error (.failed e)) :
    (e.category = .lexical ∨ e.category = .parse) ∧
      ∃ span text, e.span = some span ∧ Lexer.Reads source span text := by
  cases Parser.complete_stuck failed with
  | lexical fault before =>
    obtain ⟨lexical, place⟩ := Lexer.lex_fault fault
    exact ⟨.inl lexical, place⟩
  | atEnd eof ends before blames =>
    refine ⟨.inr (Parser.blames_parse blames), _, [], blamed_place blames, ?_⟩
    rw [Lexer.lex_ending ends]
    exact reads_end source
  | atToken front t behind split before blames steady =>
    obtain ⟨text, reads⟩ := token_reads (split ▸ List.mem_append_right front List.mem_cons_self)
    exact ⟨.inr (Parser.blames_parse blames), _, text, blamed_place blames, reads⟩

/-- An evaluation that fails points into the source, on boundaries of characters. It is an error of
the lexer or of the parser exactly if the source does not parse, and then it is the error in every
environment; otherwise it points at the first node, in the order of evaluation, whose own operation
fails. This is so for functions of the host whose errors point nowhere and are no errors of reading,
as those of the default functions are. -/
theorem errors_point_into_source {source : String} {env : Environment} {e : Error}
    (hosted : env.Hosted) (failed : evaluate source env = .error (.failed e)) :
    Catalogue.environment.Hosted ∧
    (∃ span text, e.span = some span ∧ Lexer.Reads source span text ∧
      span.start ≤ span.stop ∧ span.stop ≤ source.utf8ByteSize) ∧
    ((e.category = .lexical ∨ e.category = .parse) ↔ ∃ e', parse source = .error e') ∧
    (∀ e', parse source = .error e' → ∀ other, evaluate source other = .error (.failed e)) ∧
    ∀ tree, parse source = .ok tree →
      ∃ n ∈ tree.nodes, Expr.StopsIn env (tree.visits env) n (.failed e) ∧
        e.span = some n.span := by
  refine ⟨Environment.defaults_hosted, ?_⟩
  rw [evaluate, evaluateTraced] at failed
  cases parsed : parse source with
  | error e' =>
    rw [parsed] at failed
    cases failed
    obtain ⟨category, span, text, place, reads⟩ := parse_error_placed parsed
    refine ⟨⟨span, text, place, reads, reads_bounds reads⟩, ?_, ?_, ?_⟩
    · exact ⟨fun _ => ⟨_, rfl⟩, fun _ => category⟩
    · intro _ _ other
      rw [evaluate, evaluateTraced, parsed]
      rfl
    · rintro _ ⟨⟩
  | ok tree =>
    rw [parsed] at failed
    obtain ⟨n, stops⟩ := (Expr.eval_follows env tree).error _ failed
    obtain ⟨before, after, order, fine, faults⟩ := stops
    have visited : n ∈ tree.visits env := by rw [order]; simp
    have node := Expr.visited_node tree visited
    have here := fault_at hosted faults
    obtain ⟨text, reads⟩ := node_reads parsed node
    refine ⟨⟨n.span, text, here.place, reads, reads_bounds reads⟩, ?_, ?_, ?_⟩
    · constructor
      · rintro (lexical | parse)
        · exact absurd lexical here.notLexical
        · exact absurd parse here.notParse
      · rintro ⟨_, ⟨⟩⟩
    · rintro _ ⟨⟩
    · rintro _ ⟨⟩
      exact ⟨n, node, ⟨before, after, order, fine, faults⟩, here.place⟩

theorem errors_point_into_source_of_root :
    let e : Error :=
      ⟨.invalidArgument "sqrt" "square root of a negative number", some ⟨4, 15⟩, none⟩
    ∃ tree, parse "2 * sqrt(1 - 5) + x" = .ok tree ∧ Catalogue.environment.Hosted ∧
      evaluate "2 * sqrt(1 - 5) + x" Catalogue.environment = .error (.failed e) ∧
      ∃ n ∈ tree.nodes, n.span = ⟨4, 15⟩ ∧
        Expr.StopsIn Catalogue.environment (tree.visits Catalogue.environment) n (.failed e) := by
  intro e
  have failed : evaluate "2 * sqrt(1 - 5) + x" Catalogue.environment = .error (.failed e) := by
    decide +kernel
  obtain ⟨hosted, -, stage, -, first⟩ :=
    errors_point_into_source Environment.defaults_hosted failed
  cases parsed : parse "2 * sqrt(1 - 5) + x" with
  | error stop =>
    rcases stage.mpr ⟨stop, parsed⟩ with category | category <;> cases category
  | ok tree =>
    obtain ⟨n, node, stops, place⟩ := first tree parsed
    exact ⟨tree, rfl, hosted, failed, n, node, (Option.some.inj place).symm, stops⟩

end Formula
