import Formula.Proofs.ConsoleSession
import Formula.Proofs.OptionArguments
import Formula.Proofs.RequestedNames

set_option autoImplicit false

namespace Formula

namespace Text

theorem trim_end_blank_back {back : List Char} (blank : Blank back) (cs : List Char) :
    trimEnd (cs ++ back) = trimEnd cs := by
  rw [trimEnd, List.reverse_append, List.dropWhile_append_of_pos, trimEnd]
  exact fun c member => blank c (List.mem_reverse.mp member)

theorem trim_end_of_trimmed {cs : List Char} (trimmed : trim cs = cs) (some : cs ≠ []) :
    trimEnd cs = cs := by
  obtain ⟨more, c, form, solid⟩ := (solid_of_trimmed trimmed some).back
  have ended := trim_end_eq blank_nil ⟨form, solid⟩
  rwa [List.append_nil] at ended

end Text

namespace Console

structure FormulaLine (t : String) : Prop where
  text : t ≠ ""
  single : '\n' ∉ t.toList
  trimmed : Text.trim t.toList = t.toList
  plain : t.toList.head? ≠ some ':'
  goes : t ≠ "exit" ∧ t ≠ "quit"

theorem lines_of_line {cs : List Char} (line : '\n' ∉ cs) : lines (cs ++ ['\n']) = [cs] := by
  induction cs with
  | nil => rfl
  | cons c cs ih =>
    rw [List.mem_cons, not_or] at line
    rw [List.cons_append, lines, if_neg (Ne.symm line.1), ih line.2]

theorem answer_line (env : Environment) {t : String} (line : FormulaLine t) :
    answer env t.toList = execute env (.evaluate t) := by
  have some : t.toList ≠ [] := mt String.toList_eq_nil_iff.mp line.text
  have other : ¬ (t.toList = ['e', 'x', 'i', 't'] ∨ t.toList = ['q', 'u', 'i', 't']) := by
    rintro (same | same)
    · exact line.goes.1 (String.toList_inj.mp same)
    · exact line.goes.2 (String.toList_inj.mp same)
  simp only [answer, line.trimmed, if_neg some, read_plain line.plain, if_neg other,
    String.ofList_toList]

end Console

namespace CommandLine

def shown : Result Value → Outcome
  | .ok value => ⟨⟨value.display ++ "\n", ""⟩, 0⟩
  | .error (.failed e) =>
    ⟨⟨"", "Error: " ++ e.category.title ++ ": " ++ e.message ++ "\n"⟩, 1⟩
  | .error .panicked => ⟨.none, panicExit⟩

theorem declared_built {names : List (String × Value)} {env last : Environment}
    (built : env.Built) (declared : env.declareAll names = .ok last) : last.Built := by
  induction names generalizing env with
  | nil =>
    cases declared
    exact built
  | cons named names ih =>
    obtain ⟨next, first, rest⟩ := bind_ok declared
    exact ih (.addVariable built first) rest

section

variable {read : String → FileContent} {o : Options} {env : Environment} {args : List String}

theorem requested_built (requested : Requested read o env) : env.Built := by
  obtain ⟨-, -, declared⟩ := requested
  refine declared_built ?_ declared
  split
  · exact .empty
  · exact .install .empty

theorem run_without_names {message : String} (asked : request args = .run o)
    (failed : environment read o = .error (.failed message)) (turns : List Console.Turn) :
    run args read turns = ⟨⟨"", "Error: " ++ message ++ "\n"⟩, 1⟩ := by
  rw [run, asked, start, startWith, failed]
  rfl

theorem run_overflowing (asked : request args = .run o)
    (panics : environment read o = .error .panicked) (turns : List Console.Turn) :
    run args read turns = ⟨.none, panicExit⟩ := by
  rw [run, asked, start, startWith, panics]

theorem evaluated_once (range : env.InRange) (source : String) :
    evaluateOnce env source =
      shown (evaluate (String.ofList (Text.trimEnd source.toList)) env) := by
  rw [evaluateOnce, Console.shown_eq range]
  rcases evaluate (String.ofList (Text.trimEnd source.toList)) env with (e | _) | value <;> rfl

theorem run_formula {source : String} (asked : request args = .run o)
    (once : o.interactive = false) (built : environment read o = .ok env) (range : env.InRange)
    (formula : given read o = .ok (some source)) (turns : List Console.Turn) :
    run args read turns =
      shown (evaluate (String.ofList (Text.trimEnd source.toList)) env) := by
  rw [run, asked, start, startWith, built, formula, once, ← evaluated_once range]
  rfl

end

section

variable {env : Environment} {t : String} (range : env.InRange) (line : Console.FormulaLine t)

include range line

theorem answer_shown (comes : (shown (evaluate t env)).exit ≠ panicExit) :
    Console.answer env t.toList = ⟨env, (shown (evaluate t env)).output, .going⟩ := by
  rw [Console.answer_line env line, Console.execute, Console.shown_eq range]
  rcases evaluated : evaluate t env with (e | _) | value
  · rfl
  · rw [evaluated] at comes
    exact absurd rfl comes
  · rfl

theorem answer_panics (lost : (shown (evaluate t env)).exit = panicExit) :
    Console.answer env t.toList = ⟨env, .none, .panicked⟩ := by
  rw [Console.answer_line env line, Console.execute, Console.shown_eq range]
  rcases evaluated : evaluate t env with (e | _) | value
  · rw [evaluated] at lost
    cases lost
  · rfl
  · rw [evaluated] at lost
    cases lost

end

theorem append_output (a b c d : String) :
    (⟨a, b⟩ ++ ⟨c, d⟩ : Output) = ⟨a ++ c, b ++ d⟩ := rfl

theorem turns_of_line {t : String} (line : Console.FormulaLine t) :
    (Console.lines (t ++ "\n").toList).map Console.Turn.line = [.line t.toList] := by
  rw [String.toList_append]
  exact congrArg _ (Console.lines_of_line line.single)

section

variable {read : String → FileContent} {o : Options} {env : Environment} {args : List String}
  {t : String} (asked : request args = .run o) (bare : Bare o)
  (requested : Requested read o env) (line : Console.FormulaLine t)

include asked bare requested

theorem run_console (turns : List Console.Turn) :
    run args read turns =
      ⟨⟨Console.banner, ""⟩ ++ (Console.run env turns).output,
        exitOf (Console.run env turns).ending⟩ := by
  have nothing : given read o = .ok none := by rw [given, bare.expression, bare.file]
  rw [run, asked, start, startWith, (requested_iff read o env).mpr requested]
  dsimp only
  rw [nothing]
  rfl

include line

theorem run_line (comes : (shown (evaluate t env)).exit ≠ panicExit) :
    run args read ((Console.lines (t ++ "\n").toList).map .line) =
      ⟨⟨Console.banner ++ Console.prompt ++ (shown (evaluate t env)).output.out ++
          Console.prompt ++ "\n",
        (shown (evaluate t env)).output.err⟩, 0⟩ := by
  have range := Environment.built_in_range (requested_built requested)
  rw [run_console asked bare requested, turns_of_line line, Console.run, Console.take,
    answer_shown range line comes]
  change (⟨⟨Console.banner, ""⟩ ++ (⟨Console.prompt, ""⟩ ++ (shown (evaluate t env)).output ++
    ⟨Console.prompt ++ "\n", ""⟩), 0⟩ : Outcome) = _
  obtain ⟨out, err⟩ := (shown (evaluate t env)).output
  simp only [append_output, String.append_assoc, String.empty_append, String.append_empty]

theorem run_line_panics (lost : (shown (evaluate t env)).exit = panicExit) :
    run args read ((Console.lines (t ++ "\n").toList).map .line) =
      ⟨⟨Console.banner ++ Console.prompt, ""⟩, panicExit⟩ := by
  have range := Environment.built_in_range (requested_built requested)
  rw [run_console asked bare requested, turns_of_line line, Console.run, Console.take,
    answer_panics range line lost]
  rfl

end

/-- A formula is answered as the library evaluates it, however it is given, in the table of names
that the options ask for; and if there is no such table, nothing is evaluated. A number at the lowest
scale, in the table or in the formula, ends the program by a panic. -/
theorem front_ends_agree (read : String → FileContent) {o : Options} (bare : Bare o)
    (once : o.interactive = false) (t : String) :
    (∀ env, environment read o = .ok env ↔ Requested read o env) ∧
    (environment read o = .error .panicked ↔ Overflows read o) ∧
    (∀ options, request options = .run o →
      (isPlain t = true → request (t :: options) = .run (o.evaluating (some t) none)) ∧
      ∀ file, isPlain file = true →
        request ("-f" :: file :: options) = .run (o.evaluating none (some file))) ∧
    ((∀ env, ¬ Requested read o env) → ¬ Overflows read o →
      ∃ message, ∀ args turns expression file, request args = .run (o.evaluating expression file) →
        run args read turns = ⟨⟨"", "Error: " ++ message ++ "\n"⟩, 1⟩) ∧
    (Overflows read o →
      ∀ args turns expression file, request args = .run (o.evaluating expression file) →
        run args read turns = ⟨.none, panicExit⟩) ∧
    ∀ env, Requested read o env →
      let answer := shown (evaluate (String.ofList (Text.trimEnd t.toList)) env)
      (∀ args turns, request args = .run (o.evaluating (some t) none) →
        run args read turns = answer) ∧
      (∀ args turns file blanks, request args = .run (o.evaluating none (some file)) →
        Text.Blank blanks → read file = .text (String.ofList (t.toList ++ blanks)) →
        run args read turns = answer) ∧
      (Console.FormulaLine t → answer.exit ≠ panicExit →
        Console.answer env t.toList = ⟨env, answer.output, .going⟩ ∧
        ∀ args, request args = .run o →
          run args read ((Console.lines (t ++ "\n").toList).map .line) =
            ⟨⟨Console.banner ++ Console.prompt ++ answer.output.out ++ Console.prompt ++ "\n",
              answer.output.err⟩, 0⟩) ∧
      (Console.FormulaLine t → answer.exit = panicExit →
        Console.answer env t.toList = ⟨env, .none, .panicked⟩ ∧
        ∀ args, request args = .run o →
          run args read ((Console.lines (t ++ "\n").toList).map .line) =
            ⟨⟨Console.banner ++ Console.prompt, ""⟩, panicExit⟩) := by
  refine ⟨requested_iff read o, overflows_iff read o, ?_, ?_, ?_, ?_⟩
  · intro options asked
    exact ⟨request_expression asked bare, fun _ => request_file asked bare⟩
  · intro nowhere within
    rcases built : environment read o with (message | _) | env
    · exact ⟨message, fun args turns expression file asked => run_without_names asked built turns⟩
    · exact absurd ((overflows_iff read o).mp built) within
    · exact absurd ((requested_iff read o env).mp built) (nowhere env)
  · intro overflows args turns expression file asked
    exact run_overflowing asked ((overflows_iff read o).mpr overflows) turns
  · intro env requested
    have built := (requested_iff read o env).mpr requested
    have range := Environment.built_in_range (requested_built requested)
    have ended (line : Console.FormulaLine t) :
        String.ofList (Text.trimEnd t.toList) = t := by
      rw [Text.trim_end_of_trimmed line.trimmed (mt String.toList_eq_nil_iff.mp line.text),
        String.ofList_toList]
    refine ⟨?_, ?_, ?_, ?_⟩
    · intro args turns asked
      exact run_formula asked once built range rfl turns
    · intro args turns file blanks asked blank content
      have formula : given read (o.evaluating none (some file)) =
          .ok (some (String.ofList (t.toList ++ blanks))) := by
        simp only [given, Options.evaluating, content]
      rw [run_formula asked once built range formula turns, String.toList_ofList,
        Text.trim_end_blank_back blank]
    · intro line
      rw [ended line]
      exact fun comes => ⟨answer_shown range line comes,
        fun args asked => run_line asked bare requested line comes⟩
    · intro line
      rw [ended line]
      exact fun lost => ⟨answer_panics range line lost,
        fun args asked => run_line_panics asked bare requested line lost⟩

theorem front_ends_agree_of_sum :
    let read : String → FileContent :=
      fun file => if file = "sum" then .text "x + 1 \n" else .missing
    run ["x + 1", "--var", "x=2", "--no-defaults"] read [] = ⟨⟨"3\n", ""⟩, 0⟩ ∧
      run ["-f", "sum", "--var", "x=2", "--no-defaults"] read [] = ⟨⟨"3\n", ""⟩, 0⟩ ∧
      run ["--var", "x=2", "--no-defaults"] read
          ((Console.lines ("x + 1" ++ "\n").toList).map .line) =
        ⟨⟨Console.banner ++ "> " ++ "3\n" ++ "> " ++ "\n", ""⟩, 0⟩ := by
  intro read
  let o : Options := ⟨none, none, false, ["x=2"], none, true⟩
  have options : request ["--var", "x=2", "--no-defaults"] = .run o := by decide +kernel
  obtain ⟨names, -, placed, -, -, agree⟩ := front_ends_agree read (o := o) ⟨rfl, rfl⟩ rfl "x + 1"
  obtain ⟨inFront, file⟩ := placed _ options
  have value : (environment read o).toOption.map (fun env => shown (evaluate "x + 1" env)) =
      some ⟨⟨"3\n", ""⟩, 0⟩ := by decide +kernel
  cases built : environment read o with
  | error stop =>
    rw [built] at value
    cases value
  | ok env =>
    rw [built] at value
    have answer : shown (evaluate "x + 1" env) = ⟨⟨"3\n", ""⟩, 0⟩ := Option.some.inj value
    obtain ⟨argument, content, line, -⟩ := agree env ((names env).mp built)
    have ended : String.ofList (Text.trimEnd "x + 1".toList) = "x + 1" := by decide +kernel
    rw [ended, answer] at argument content line
    have plain : Console.FormulaLine "x + 1" := by
      refine ⟨?_, ?_, ?_, ?_, ?_, ?_⟩ <;> decide +kernel
    refine ⟨argument _ _ (inFront rfl), ?_, (line plain (by decide)).2 _ options⟩
    exact content _ _ "sum" [' ', '\n'] (file "sum" rfl) (List.all_eq_true.mp rfl) rfl

/-- Neither a text nor a report comes of a literal or an assignment at the lowest scale. -/
theorem lowest_scale_exits :
    (run ["1e9223372036854775808", "--no-defaults"] (fun _ => .missing) []).exit = panicExit ∧
      (run ["1", "--var", "x=1e9223372036854775808", "--no-defaults"] (fun _ => .missing) []).exit =
        panicExit := by
  decide +kernel

end CommandLine

end Formula
