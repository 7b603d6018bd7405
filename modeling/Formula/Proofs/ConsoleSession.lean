import Formula.Proofs.ConsoleLines
import Formula.Proofs.NumbersInRange
import Formula.Proofs.ResultScales

set_option autoImplicit false

namespace Formula

namespace Console

def isFormula (line : List Char) : Bool :=
  !(Text.trim line).isEmpty && !ends line && (Text.trim line).head? != some ':'

inductive Ends (env : Environment) : Turn → Output → Ending → Prop where
  | leave {line : List Char} (word : ends line = true) :
      Ends env (.line line) (.line "Goodbye!") .over
  | unwritable (reason : String) :
      Ends env (.unwritable reason) (.complaint ("Error writing prompt: " ++ reason)) .over
  | unreadable (reason : String) :
      Ends env (.unreadable reason) (.complaint ("Error reading input: " ++ reason)) .over
  | formula {line : List Char} (formula : isFormula line = true)
      (panics : Formula.evaluate (String.ofList (Text.trim line)) env = .error .panicked) :
      Ends env (.line line) .none .panicked
  | declaration {line name source : List Char} (shape : LetLine line name source)
      (panics : Formula.evaluate (String.ofList source) env = .error .panicked) :
      Ends env (.line line) .none .panicked
  | tree {line : List Char} {source : String} (asked : read (Text.trim line) = .ok (.tree source))
      (panics : parse source = .error .panicked) : Ends env (.line line) .none .panicked

-- The environment that a line leads to: a name that is not taken gets the value declared for it.
inductive Leads (env : Environment) (line : List Char) : Environment → Prop where
  | declares {name source : String} {value : Value} {next : Environment}
      (shape : LetLine line name.toList source.toList)
      (evaluated : Formula.evaluate source env = .ok value) (fresh : env.get? name = none)
      (names : ∀ other, next.get? other =
        if other = name then some (.value value) else env.get? other) : Leads env line next
  | stays (none : ∀ (name source : String) (value : Value),
      LetLine line name.toList source.toList → Formula.evaluate source env = .ok value →
        env.get? name ≠ none) : Leads env line env

def Answers (env : Environment) (line : List Char) (output : Output) : Prop :=
  isFormula line = true →
    match Formula.evaluate (String.ofList (Text.trim line)) env with
    | .ok value => output = .line value.display
    | .error (.failed e) => output = .report e
    | .error .panicked => False

-- A session as the library has it: the reply at its end, with all that is printed on the way.
inductive Session : Environment → List Turn → Reply → Prop where
  | over (env : Environment) : Session env [] ⟨env, ⟨prompt ++ "\n", ""⟩, .over⟩
  | last {env : Environment} {turn : Turn} {output : Output} {ending : Ending}
      (ends : Ends env turn output ending) (turns : List Turn) :
      Session env (turn :: turns) ⟨env, turn.prompted ++ output, ending⟩
  | next {env next : Environment} {line : List Char} {output : Output} {turns : List Turn}
      {reply : Reply} (goes : ∀ output ending, ¬ Ends env (.line line) output ending)
      (leads : Leads env line next) (answers : Answers env line output)
      (rest : Session next turns reply) :
      Session env (.line line :: turns)
        { reply with output := (Turn.line line).prompted ++ output ++ reply.output }

theorem write_in_range {ε : Type} {v : Value} (range : v.InRange) :
    v.write (ε := ε) = .ok v.display := by
  cases v with
  | text | boolean => rfl
  | number d =>
    exact Decimal.write_of_bounded (Decimal.in_range_iff_bounded.mp (range d rfl))

theorem evaluated_in_range {env : Environment} (range : env.InRange) {source : String} {v : Value}
    (evaluated : Formula.evaluate source env = .ok v) : v.InRange := by
  rw [Formula.evaluate, evaluateTraced] at evaluated
  cases parsed : parse source with
  | error stop =>
    rw [parsed] at evaluated
    cases evaluated
  | ok e =>
    rw [parsed] at evaluated
    exact (Expr.eval_sound range e (parsed_in_range parsed)).value v evaluated

theorem print_env (env : Environment) (result : Result String) :
    (Reply.print env result).env = env := by
  rcases result with (_ | _) | _ <;> rfl

theorem print_last {env : Environment} {result : Result String}
    (last : (Reply.print env result).ending ≠ .going) : result = .error .panicked := by
  rcases result with (_ | _) | _
  · exact absurd rfl last
  · rfl
  · exact absurd rfl last

theorem of_map_error {α β : Type} {f : α → β} {result : Result α} {stop : Stop Error}
    (stopped : result.map f = .error stop) : result = .error stop := by
  cases result with
  | error e =>
    cases stopped
    rfl
  | ok a => cases stopped

theorem print_each_going (env : Environment) {results : List (Result String)}
    (written : ∀ result ∈ results, ∃ s, result = .ok s) :
    ∃ output, Reply.printEach env results = ⟨env, output, .going⟩ := by
  induction results with
  | nil => exact ⟨_, rfl⟩
  | cons first results ih =>
    obtain ⟨⟨s, rfl⟩, others⟩ := List.forall_mem_cons.mp written
    obtain ⟨output, rest⟩ := ih others
    rw [Reply.printEach, rest]
    exact ⟨_, rfl⟩

theorem print_each_env (env : Environment) (results : List (Result String)) :
    (Reply.printEach env results).env = env := by
  cases results with
  | nil => rfl
  | cons first results =>
    rw [Reply.printEach]
    dsimp only
    split
    · rfl
    · exact print_env env first

theorem list_variables_going {env : Environment} (range : env.InRange) :
    ∃ output, execute env .listVariables = ⟨env, output, .going⟩ := by
  apply print_each_going
  intro result member
  obtain ⟨⟨name, value⟩, listed, rfl⟩ := List.mem_map.mp member
  have inside : value.InRange := by
    obtain ⟨⟨_, symbol⟩, bound, found⟩ := List.mem_filterMap.mp listed
    cases symbol <;> cases found
    exact range _ bound _ rfl
  rw [write_in_range inside]
  exact ⟨_, rfl⟩

theorem list_functions_going (env : Environment) :
    ∃ output, execute env .listFunctions = ⟨env, output, .going⟩ := by
  apply print_each_going
  intro result member
  obtain ⟨f, -, rfl⟩ := List.mem_map.mp member
  exact ⟨_, rfl⟩

theorem execute_env (env : Environment) (command : Command) :
    (execute env command).env = env ∨ ∃ name source value,
      command = .declare name source ∧
        declare env name source = .ok ((execute env command).env, value) := by
  cases command with
  | declare name source =>
    rw [execute]
    cases declared : declare env name source with
    | error stop => exact .inl (print_env env _)
    | ok made =>
      right
      refine ⟨name, source, made.2, rfl, ?_⟩
      rw [declared, print_env]
  | tree | evaluate => exact .inl (print_env env _)
  | exit | help => exact .inl rfl
  | listVariables | listFunctions => exact .inl (print_each_env env _)

theorem read_keyword_ne_exit (keyword argument : List Char) :
    readKeyword keyword argument ≠ .ok .exit := by
  intro exits
  unfold readKeyword readDeclaration at exits
  dsimp only at exits
  repeat' split at exits
  all_goals cases exits

theorem read_keyword_ne_evaluate (keyword argument : List Char) (source : String) :
    readKeyword keyword argument ≠ .ok (.evaluate source) := by
  intro evaluates
  unfold readKeyword readDeclaration at evaluates
  dsimp only at evaluates
  repeat' split at evaluates
  all_goals cases evaluates

theorem of_list_eq_iff (text : List Char) (s : String) :
    String.ofList text = s ↔ text = s.toList := by
  constructor
  · intro same
    rw [← same, String.toList_ofList]
  · intro same
    rw [same, String.ofList_toList]

theorem read_plain {text : List Char} (plain : text.head? ≠ some ':') :
    read text =
      if text = ['e', 'x', 'i', 't'] ∨ text = ['q', 'u', 'i', 't'] then .ok .exit
      else .ok (.evaluate (String.ofList text)) := by
  unfold read
  split
  · exact absurd rfl plain
  · simp only [of_list_eq_iff]
    rfl

theorem read_exit_iff (text : List Char) :
    read text = .ok .exit ↔ text = ['e', 'x', 'i', 't'] ∨ text = ['q', 'u', 'i', 't'] := by
  by_cases plain : text.head? = some ':'
  · obtain ⟨rest, rfl⟩ := List.head?_eq_some_iff.mp plain
    constructor
    · intro exits
      exact absurd exits (read_keyword_ne_exit _ _)
    · intro same
      rcases same with same | same <;> cases same
  · rw [read_plain plain]
    split
    · rename_i same
      exact ⟨fun _ => same, fun _ => rfl⟩
    · rename_i other
      constructor
      · intro exits
        cases exits
      · intro same
        exact absurd same other

theorem ends_iff (line : List Char) : ends line = true ↔ read (Text.trim line) = .ok .exit := by
  rw [read_exit_iff, ends, Bool.or_eq_true, beq_iff_eq, beq_iff_eq]

theorem formula_read {line : List Char} (formula : isFormula line = true) :
    Text.trim line ≠ [] ∧
      read (Text.trim line) = .ok (.evaluate (String.ofList (Text.trim line))) := by
  simp only [isFormula, Bool.and_eq_true, Bool.not_eq_true', bne_iff_ne,
    List.isEmpty_eq_false_iff] at formula
  obtain ⟨⟨some, goes⟩, plain⟩ := formula
  refine ⟨some, ?_⟩
  rw [read_plain plain, if_neg]
  rw [← read_exit_iff, ← ends_iff, goes]
  exact Bool.false_ne_true

theorem formula_of_read {line : List Char} {source : String} (some : Text.trim line ≠ [])
    (asked : read (Text.trim line) = .ok (.evaluate source)) :
    isFormula line = true ∧ source = String.ofList (Text.trim line) := by
  have goes : ends line = false := by
    rw [Bool.eq_false_iff, ne_eq, ends_iff, asked]
    nofun
  have plain : (Text.trim line).head? ≠ Option.some ':' := by
    intro colon
    obtain ⟨rest, form⟩ := List.head?_eq_some_iff.mp colon
    rw [form] at asked
    exact read_keyword_ne_evaluate _ _ _ asked
  constructor
  · simp only [isFormula, goes, List.isEmpty_eq_false_iff.mpr some, Bool.not_false, Bool.true_and,
      bne_iff_ne]
    exact plain
  · rw [read_plain plain] at asked
    split at asked <;> cases asked
    rfl

theorem answer_command {line : List Char} {command : Command} (env : Environment)
    (asked : read (Text.trim line) = .ok command) (some : Text.trim line ≠ []) :
    answer env line = execute env command := by
  simp only [answer, if_neg some, asked]

theorem some_of_read {line : List Char} {command : Command}
    (asked : read (Text.trim line) = .ok command) (other : ∀ source, command ≠ .evaluate source) :
    Text.trim line ≠ [] := by
  intro nothing
  rw [nothing] at asked
  cases asked
  exact other _ rfl

theorem let_line_read {line name source : List Char} (shape : LetLine line name source) :
    Text.trim line ≠ [] ∧
      read (Text.trim line) = .ok (.declare (String.ofList name) (String.ofList source)) := by
  refine ⟨?_, read_of_let_line shape⟩
  cases shape with
  | intro form =>
    rw [form]
    nofun

theorem shown_eq {env : Environment} (range : env.InRange) (source : String) :
    shown source env = (Formula.evaluate source env).map Value.display := by
  rw [shown]
  cases evaluated : Formula.evaluate source env with
  | error stop => rfl
  | ok v => exact write_in_range (evaluated_in_range range evaluated)

theorem declare_of_value {env : Environment} (name : String) {source : String} {value : Value}
    (evaluated : Formula.evaluate source env = .ok value) :
    declare env name source =
      (env.declareVariable name value).map fun next => (next, value) := by
  rw [declare, evaluated]
  change (env.declareVariable name value >>= fun next => pure (next, value)) = _
  cases env.declareVariable name value <;> rfl

theorem execute_declare {env : Environment} (name : String) {source : String} {value : Value}
    (range : value.InRange) (evaluated : Formula.evaluate source env = .ok value) :
    (env.get? name = none ∧ ∃ next, env.declareVariable name value = .ok next ∧
      execute env (.declare name source) =
        ⟨next, .line (name ++ " = " ++ value.display), .going⟩) ∨
    env.get? name ≠ none ∧
      execute env (.declare name source) = ⟨env, .report (.of (.alreadyDeclared name)), .going⟩ := by
  rw [execute, declare_of_value name evaluated]
  cases found : env.get? name with
  | none =>
    obtain ⟨next, declared⟩ := (env.declare_variable_ok_iff name value).mpr ⟨found, range⟩
    refine .inl ⟨rfl, next, declared, ?_⟩
    rw [declared]
    change Reply.print next (value.write.map _) = _
    rw [write_in_range range]
    rfl
  | some bound =>
    rw [Environment.declare_variable_of_range range, Environment.declare_of_bound found]
    exact .inr ⟨nofun, rfl⟩

theorem execute_undeclared {env : Environment} {name source : String} {stop : Stop Error}
    (failed : Formula.evaluate source env = .error stop) :
    execute env (.declare name source) = .print env (.error stop) := by
  rw [execute, declare, failed]
  rfl

theorem take_of_ends {env : Environment} {turn : Turn} {output : Output} {ending : Ending}
    (ends : Ends env turn output ending) :
    take env turn = ⟨env, output, ending⟩ ∧ ending ≠ .going := by
  cases ends with
  | unwritable | unreadable => exact ⟨rfl, nofun⟩
  | leave word =>
    have asked := (ends_iff _).mp word
    exact ⟨answer_command env asked (some_of_read asked nofun), nofun⟩
  | formula formula panics =>
    obtain ⟨some, asked⟩ := formula_read formula
    refine ⟨(answer_command env asked some).trans ?_, nofun⟩
    rw [execute, shown, panics]
    rfl
  | declaration shape panics =>
    obtain ⟨some, asked⟩ := let_line_read shape
    refine ⟨(answer_command env asked some).trans ?_, nofun⟩
    rw [execute_undeclared panics]
    rfl
  | tree asked panics =>
    refine ⟨(answer_command env asked (some_of_read asked nofun)).trans ?_, nofun⟩
    rw [execute, panics]
    rfl

theorem answer_env (env : Environment) (line : List Char) :
    (answer env line).env = env ∨ ∃ name source value,
      declaration? line = some (name, source) ∧
        declare env name source = .ok ((answer env line).env, value) := by
  by_cases blank : Text.trim line = []
  · left
    simp only [answer, if_pos blank]
  cases asked : read (Text.trim line) with
  | error misuse =>
    left
    simp only [answer, if_neg blank, asked]
  | ok command =>
    rw [answer_command env asked blank]
    rcases execute_env env command with same | ⟨name, source, value, rfl, declared⟩
    · exact .inl same
    · exact .inr ⟨name, source, value, (declaration_eq_some line name source).mpr asked, declared⟩

theorem answer_built {env : Environment} (built : env.Built) (line : List Char) :
    (answer env line).env.Built := by
  rcases answer_env env line with same | ⟨name, source, value, -, declared⟩
  · rwa [same]
  · obtain ⟨_, -, declared⟩ := bind_ok declared
    obtain ⟨_, made, last⟩ := bind_ok declared
    cases last
    exact .addVariable built made

section

variable {env : Environment} (range : env.InRange) (line : List Char)

include range

theorem ends_of_command {command : Command} (asked : read (Text.trim line) = .ok command)
    (some : Text.trim line ≠ []) (last : (execute env command).ending ≠ .going) :
    Ends env (.line line) (execute env command).output (execute env command).ending ∧
      (execute env command).env = env := by
  cases command with
  | exit => exact ⟨.leave ((ends_iff line).mpr asked), rfl⟩
  | help => exact absurd rfl last
  | listVariables =>
    obtain ⟨output, listed⟩ := list_variables_going range
    rw [listed] at last
    exact absurd rfl last
  | listFunctions =>
    obtain ⟨output, listed⟩ := list_functions_going env
    rw [listed] at last
    exact absurd rfl last
  | tree source =>
    rw [execute] at last ⊢
    have panics := print_last last
    rw [panics]
    exact ⟨.tree asked (of_map_error panics), rfl⟩
  | evaluate source =>
    obtain ⟨formula, rfl⟩ := formula_of_read some asked
    rw [execute, shown_eq range] at last ⊢
    have panics := print_last last
    rw [panics]
    exact ⟨.formula formula (of_map_error panics), rfl⟩
  | declare name source =>
    cases evaluated : Formula.evaluate source env with
    | ok value =>
      have inside := evaluated_in_range range evaluated
      rcases execute_declare name inside evaluated with
        ⟨-, next, -, executed⟩ | ⟨-, executed⟩ <;>
      · rw [executed] at last
        exact absurd rfl last
    | error stop =>
      rw [execute_undeclared evaluated] at last ⊢
      cases print_last last
      refine ⟨.declaration (let_line_of_read asked) ?_, rfl⟩
      rwa [String.ofList_toList]

theorem ends_of_answer (last : (answer env line).ending ≠ .going) :
    Ends env (.line line) (answer env line).output (answer env line).ending ∧
      (answer env line).env = env := by
  by_cases blank : Text.trim line = []
  · simp only [answer, if_pos blank] at last
    exact absurd rfl last
  cases asked : read (Text.trim line) with
  | error misuse =>
    simp only [answer, if_neg blank, asked] at last
    exact absurd rfl last
  | ok command =>
    rw [answer_command env asked blank] at last ⊢
    exact ends_of_command range line asked blank last

theorem answer_leads : Leads env line (answer env line).env := by
  cases declared : declaration? line with
  | none =>
    have none (name source : String) : ¬ LetLine line name.toList source.toList := by
      rw [← declaration_iff, declared]
      nofun
    have same : (answer env line).env = env := by
      rcases answer_env env line with same | ⟨name, source, _, found, -⟩
      · exact same
      · rw [declared] at found
        cases found
    rw [same]
    exact .stays fun name source value shape => absurd shape (none name source)
  | some pair =>
    obtain ⟨name, source⟩ := pair
    have asked := (declaration_eq_some line name source).mp declared
    have shape := (declaration_iff line name source).mp declared
    have only (name' source' : String) (shape' : LetLine line name'.toList source'.toList) :
        name' = name ∧ source' = source := by
      have declared' := (declaration_iff line name' source').mpr shape'
      rw [declared] at declared'
      cases declared'
      exact ⟨rfl, rfl⟩
    rw [answer_command env asked (some_of_read asked nofun)]
    cases evaluated : Formula.evaluate source env with
    | ok value =>
      have inside := evaluated_in_range range evaluated
      rcases execute_declare name inside evaluated with
        ⟨fresh, next, made, executed⟩ | ⟨taken, executed⟩
      · rw [executed]
        exact .declares shape evaluated fresh
          (Environment.get_declared (Environment.variable_declared made))
      · rw [executed]
        refine .stays fun name' source' value' shape' _ => ?_
        rwa [(only name' source' shape').1]
    | error stop =>
      rw [execute_undeclared evaluated, print_env]
      refine .stays fun name' source' value' shape' ok => ?_
      rw [(only name' source' shape').2, evaluated] at ok
      cases ok

theorem answer_answers (going : (answer env line).ending = .going) :
    Answers env line (answer env line).output := by
  intro formula
  obtain ⟨some, asked⟩ := formula_read formula
  rw [answer_command env asked some, execute, shown_eq range] at going ⊢
  cases evaluated : Formula.evaluate (String.ofList (Text.trim line)) env with
  | ok value => rfl
  | error stop =>
    rw [evaluated] at going
    cases stop with
    | failed e => rfl
    | panicked => cases going

end

theorem run_last {env : Environment} {turn : Turn} (last : (take env turn).ending ≠ .going)
    (turns : List Turn) :
    run env (turn :: turns) =
      ⟨(take env turn).env, turn.prompted ++ (take env turn).output, (take env turn).ending⟩ := by
  rw [run]
  dsimp only
  split
  · rename_i going
    exact absurd going last
  · rfl

theorem run_next {env : Environment} {turn : Turn} (going : (take env turn).ending = .going)
    (turns : List Turn) :
    run env (turn :: turns) =
      { run (take env turn).env turns with
        output := turn.prompted ++ (take env turn).output ++
          (run (take env turn).env turns).output } := by
  rw [run]
  dsimp only
  rw [going]

theorem run_session {env : Environment} (built : env.Built) (turns : List Turn) :
    Session env turns (run env turns) := by
  induction turns generalizing env with
  | nil => exact .over env
  | cons turn turns ih =>
    cases turn with
    | unwritable reason => exact .last (.unwritable reason) turns
    | unreadable reason => exact .last (.unreadable reason) turns
    | line line =>
      have range := Environment.built_in_range built
      by_cases going : (answer env line).ending = .going
      · have goes (output : Output) (ending : Ending) : ¬ Ends env (.line line) output ending := by
          intro ends
          obtain ⟨taken, last⟩ := take_of_ends ends
          change answer env line = _ at taken
          rw [taken] at going
          exact last going
        rw [@run_next env (.line line) going]
        exact .next goes (answer_leads range line) (answer_answers range line going)
          (ih (answer_built built line))
      · obtain ⟨ends, same⟩ := ends_of_answer range line going
        have last := Session.last ends turns
        rw [@run_last env (.line line) going]
        change Session env _ ⟨(answer env line).env, _, _⟩
        rwa [same]

/-- The console is a session with the library. It stops at the first line that is `exit` or `quit`,
at the end of the input, where the prompt or a line is lost, and at a line whose formula panics. Up
to there a name that is not taken gets the value of a line that declares it, and no other line
changes anything; each formula is answered by its value in the environment so far, or by an error.
A name and a formula are read from a line as they are written, also if there is an equals sign in
the formula. -/
theorem console_refines_session {env : Environment} (built : env.Built) (turns : List Turn) :
    Session env turns (run env turns) ∧
      (∀ line name source,
        read (Text.trim line) = .ok (.declare name source) ↔
          LetLine line name.toList source.toList) ∧
      ∀ name source : String, isName name.toList = true →
        Text.trim source.toList = source.toList → source ≠ "" →
        ∀ n s : String, LetLine (letLine name.toList source.toList) n.toList s.toList ↔
          n = name ∧ s = source := by
  refine ⟨run_session built turns, fun line name source => ?_, ?_⟩
  · rw [← declaration_iff, declaration_eq_some]
  · intro name source valid trimmed some n s
    have some_source : source.toList ≠ [] := mt String.toList_eq_nil_iff.mp some
    have written := (declaration_iff _ name source).mpr
      (let_line_as_written valid trimmed some_source)
    rw [← declaration_iff, written, Option.some_inj, Prod.mk.injEq, eq_comm, @eq_comm _ source]

theorem console_refines_session_of_rate :
    Catalogue.environment.Built ∧
      Session Catalogue.environment [.line ":let rate = 1 / 4".toList, .line "rate * 2".toList]
        (run Catalogue.environment
          [.line ":let rate = 1 / 4".toList, .line "rate * 2".toList]) := by
  have built : Catalogue.environment.Built := .install .empty
  exact ⟨built, (console_refines_session built _).1⟩

/-- The session is over behind a number at the lowest scale, which is no word to leave with. -/
theorem lowest_scale_ends_session :
    ¬ ∀ (env : Environment) (line : List Char), env.Built → ends line = false →
      (take env (.line line)).ending = .going := by
  intro goes
  have ending := goes .empty "1e9223372036854775808".toList .empty (by decide)
  have panics : (take .empty (.line "1e9223372036854775808".toList)).ending = .panicked := by
    decide +kernel
  rw [panics] at ending
  cases ending

end Console

end Formula
