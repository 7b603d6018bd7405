import Formula.CommandLine.Options

set_option autoImplicit false

namespace Formula.CommandLine

def Options.evaluating (o : Options) (expression file : Option String) : Options :=
  { o with expression := expression, file := file }

structure Bare (o : Options) : Prop where
  expression : o.expression = none
  file : o.file = none

theorem set_apart {o next : Options} {option : Valued} {value : String}
    (set : o.set option value = some next) (bare : Bare next) :
    Bare o ∧ ∀ expression file, (o.evaluating expression file).set option value =
      some (next.evaluating expression file) := by
  cases option with
  | file =>
    rw [Options.set] at set
    split at set
    · cases set
    · cases set
      cases bare.file
  | assignment =>
    cases set
    exact ⟨⟨bare.expression, bare.file⟩, fun _ _ => rfl⟩
  | hostData =>
    rw [Options.set] at set
    split at set
    · cases set
    · rename_i unset
      cases set
      exact ⟨⟨bare.expression, bare.file⟩, fun _ _ => if_neg unset⟩

theorem raise_not_run (o asked : Options) (flag : Flag) : o.raise flag ≠ .inl (.run asked) := by
  cases flag with
  | help | version => nofun
  | interactive | withoutDefaults =>
    rw [Options.raise]
    split <;> nofun

theorem raise_apart {o next : Options} {flag : Flag} (raised : o.raise flag = .inr next)
    (bare : Bare next) :
    Bare o ∧ ∀ expression file, (o.evaluating expression file).raise flag =
      .inr (next.evaluating expression file) := by
  cases flag with
  | help | version => cases raised
  | interactive | withoutDefaults =>
    rw [Options.raise] at raised
    split at raised
    · cases raised
    · rename_i unset
      cases raised
      exact ⟨⟨bare.expression, bare.file⟩, fun _ _ => if_neg unset⟩

-- A step that is no request to run, and that does not touch what is given, nor depends on it.
structure Apart (step : Options → Request ⊕ (Options × Open)) : Prop where
  answer : ∀ o asked, step o ≠ .inl (.run asked)
  move : ∀ {o next opened}, step o = .inr (next, opened) → Bare next →
    Bare o ∧ ∀ expression file, step (o.evaluating expression file) =
      .inr (next.evaluating expression file, opened)

theorem attach_apart (option : Valued) (value : List Char) :
    Apart fun o => readShort.attach o option value := by
  constructor
  · intro o asked
    rw [readShort.attach]
    split <;> nofun
  · intro o next opened attached bare
    rw [readShort.attach] at attached
    split at attached
    · rename_i set
      cases attached
      refine ⟨(set_apart set bare).1, fun expression file => ?_⟩
      rw [readShort.attach, (set_apart set bare).2]
    · cases attached

theorem misuse_apart : Apart fun _ => .inl .misuse :=
  ⟨fun _ _ same => (nomatch same), fun moved _ => nomatch moved⟩

theorem opened_apart (opened : Open) : Apart fun o => .inr (o, opened) := by
  refine ⟨fun _ _ same => (nomatch same), fun moved bare => ?_⟩
  cases moved
  exact ⟨bare, fun _ _ => rfl⟩

theorem raised_apart (flag : Flag) {step : Options → Request ⊕ (Options × Open)}
    (apart : Apart step) :
    Apart fun o =>
      match o.raise flag with
      | .inl request => .inl request
      | .inr o => step o := by
  constructor
  · intro o asked
    split
    · rename_i raised
      rintro ⟨⟩
      exact raise_not_run o asked flag raised
    · exact apart.answer _ asked
  · intro o next opened moved bare
    split at moved
    · cases moved
    · rename_i raised
      obtain ⟨source, whatever⟩ := apart.move moved bare
      refine ⟨(raise_apart raised source).1, fun expression file => ?_⟩
      simp only [(raise_apart raised source).2]
      exact whatever expression file

theorem short_apart (letters : List Char) : Apart (readShort · letters) := by
  induction letters with
  | nil => exact opened_apart .nothing
  | cons c cs ih =>
    cases meaning : ofShort c with
    | none => simpa only [readShort, meaning] using misuse_apart
    | some meant =>
      cases meant with
      | flag flag =>
        simp only [readShort, meaning]
        exact raised_apart flag ih
      | valued option =>
        simp only [readShort, meaning]
        split
        · exact opened_apart (.value option)
        · exact attach_apart option _
        · exact attach_apart option _

theorem long_apart (text : List Char) : Apart (readLong · text) := by
  unfold readLong
  dsimp only
  split
  · exact misuse_apart
  · exact misuse_apart
  · exact raised_apart _ (opened_apart .nothing)
  · exact opened_apart _
  · exact attach_apart _ _

theorem expression_not_bare {o next : Options} {t : String}
    (given : o.setExpression t = some next) : ¬ Bare next := by
  intro bare
  rw [Options.setExpression] at given
  split at given
  · cases given
  · cases given
    cases bare.expression

theorem plain_apart {o asked : Options} {args : List String}
    (run : readPlain o args = .run asked) (bare : Bare asked) : args = [] ∧ asked = o := by
  induction args generalizing o with
  | nil =>
    rw [readPlain] at run
    split at run
    · cases run
    · cases run
      exact ⟨rfl, rfl⟩
  | cons arg args ih =>
    rw [readPlain] at run
    split at run
    · rename_i given
      obtain ⟨-, rfl⟩ := ih run
      exact absurd bare (expression_not_bare given)
    · cases run

theorem plain_nothing {o : Options} {expression file : Option String}
    (one : expression = none ∨ file = none) :
    readPlain (o.evaluating expression file) [] = .run (o.evaluating expression file) := by
  rw [readPlain, if_neg]
  rcases one with rfl | rfl <;> simp [Options.evaluating]

def readOption (arg : String) (o : Options) : Request ⊕ (Options × Open) :=
  match arg.toList with
  | '-' :: '-' :: cs => readLong o cs
  | cs => readShort o cs.tail

theorem option_apart (arg : String) : Apart (readOption arg) := by
  unfold readOption
  split
  · exact long_apart _
  · exact short_apart _

theorem args_of_option {o : Options} {arg : String} {args : List String}
    (option : ¬ isPlain arg = true) (more : arg ≠ "--") :
    readArgs o .nothing (arg :: args) =
      match readOption arg o with
      | .inl request => request
      | .inr (o, opened) => readArgs o opened args := by
  rw [readArgs, if_neg option, if_neg more]
  rfl

theorem args_apart {o asked : Options} {opened : Open} {args : List String}
    (run : readArgs o opened args = .run asked) (bare : Bare asked) :
    Bare o ∧ ∀ expression file, (expression = none ∨ file = none) →
      readArgs (o.evaluating expression file) opened args =
        .run (asked.evaluating expression file) := by
  induction args generalizing o opened with
  | nil =>
    cases opened with
    | value option => cases run
    | nothing =>
      obtain ⟨-, rfl⟩ := plain_apart run bare
      exact ⟨bare, fun expression file one => plain_nothing one⟩
  | cons arg args ih =>
    cases opened with
    | value option =>
      rw [readArgs] at run
      split at run
      · rename_i plain
        split at run
        · rename_i set
          obtain ⟨source, rest⟩ := ih run
          obtain ⟨source, apart⟩ := set_apart set source
          refine ⟨source, fun expression file one => ?_⟩
          rw [readArgs, if_pos plain, apart]
          exact rest expression file one
        · cases run
      · cases run
    | nothing =>
      by_cases plain : isPlain arg = true
      · rw [readArgs, if_pos plain] at run
        split at run
        · rename_i given
          exact absurd (ih run).1 (expression_not_bare given)
        · cases run
      · by_cases dashes : arg = "--"
        · rw [readArgs, if_neg plain, if_pos dashes] at run
          obtain ⟨rfl, rfl⟩ := plain_apart run bare
          refine ⟨bare, fun expression file one => ?_⟩
          rw [readArgs, if_neg plain, if_pos dashes]
          exact plain_nothing one
        · rw [args_of_option plain dashes] at run
          split at run
          · rename_i answered
            exact absurd (answered.trans (congrArg Sum.inl run)) ((option_apart arg).answer o asked)
          · rename_i moved
            obtain ⟨source, rest⟩ := ih run
            obtain ⟨source, apart⟩ := (option_apart arg).move moved source
            refine ⟨source, fun expression file one => ?_⟩
            rw [args_of_option plain dashes, apart]
            exact rest expression file one

/-- A plain argument in front is the formula, beside all options. -/
theorem request_expression {o : Options} {options : List String} {t : String}
    (run : request options = .run o) (bare : Bare o) (plain : isPlain t = true) :
    request (t :: options) = .run (o.evaluating (some t) none) := by
  rw [request, readArgs, if_pos plain]
  exact (args_apart run bare).2 (some t) none (.inr rfl)

theorem request_file {o : Options} {options : List String} {file : String}
    (run : request options = .run o) (bare : Bare o) (plain : isPlain file = true) :
    request ("-f" :: file :: options) = .run (o.evaluating none (some file)) := by
  have opened : request ("-f" :: file :: options) =
      readArgs ⟨none, none, false, [], none, false⟩ (.value .file) (file :: options) := rfl
  rw [opened, readArgs, if_pos plain]
  exact (args_apart run bare).2 none (some file) (.inl rfl)

end Formula.CommandLine
