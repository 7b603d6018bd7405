import Formula.CommandLine
import Formula.Proofs.ConsoleLines
import Formula.Proofs.ScaleWords
import Formula.Proofs.SymbolTable

set_option autoImplicit false

namespace Formula

namespace Json

def lastOf (name : String) (entries : List (String × Json)) : Option Json :=
  (entries.reverse.find? fun entry => entry.1 == name).map Prod.snd

abbrev Ascending {α : Type} (entries : List (String × α)) : Prop :=
  entries.Pairwise fun a b => Text.before a.1 b.1 = true

structure InKeyOrder (entries sorted : List (String × Json)) : Prop where
  ascending : Ascending sorted
  mem_iff : ∀ name json, (name, json) ∈ sorted ↔ lastOf name entries = some json

theorem ne_of_before {a b : String} (before : Text.before a b = true) : a ≠ b := by
  rintro rfl
  rw [Text.before, Text.not_before_self] at before
  cases before

theorem mem_put_entry {name : String} {json : Json} {entry : String × Json}
    {sorted : List (String × Json)} (ascending : Ascending sorted) :
    entry ∈ putEntry name json sorted ↔ entry = (name, json) ∨ entry ∈ sorted ∧ entry.1 ≠ name := by
  induction sorted with
  | nil => simp [putEntry]
  | cons head rest ih =>
    obtain ⟨above, ordered⟩ := List.pairwise_cons.mp ascending
    rw [putEntry]
    by_cases front : Text.before name head.1 = true
    · have apart : ∀ other ∈ head :: rest, other.1 ≠ name := by
        refine List.forall_mem_cons.mpr ⟨(ne_of_before front).symm, fun other member => ?_⟩
        exact (ne_of_before (Text.chars_before_trans _ _ _ front (above other member))).symm
      rw [if_pos front, List.mem_cons]
      exact or_congr_right ⟨fun member => ⟨member, apart entry member⟩, And.left⟩
    · rw [if_neg front]
      by_cases same : head.1 = name
      · have apart : ∀ other ∈ rest, other.1 ≠ name := by
          intro other member
          exact same ▸ (ne_of_before (above other member)).symm
        rw [if_pos same, List.mem_cons]
        refine or_congr_right ⟨fun member => ⟨List.mem_cons_of_mem _ member, apart entry member⟩, ?_⟩
        rintro ⟨member, other⟩
        rcases List.mem_cons.mp member with rfl | later
        · exact absurd same other
        · exact later
      · rw [if_neg same, List.mem_cons, ih ordered, List.mem_cons]
        constructor
        · rintro (rfl | rfl | ⟨later, other⟩)
          · exact .inr ⟨.inl rfl, same⟩
          · exact .inl rfl
          · exact .inr ⟨.inr later, other⟩
        · rintro (rfl | ⟨rfl | later, other⟩)
          · exact .inr (.inl rfl)
          · exact .inl rfl
          · exact .inr (.inr ⟨later, other⟩)

theorem put_entry_ascending {name : String} {json : Json} {sorted : List (String × Json)}
    (ascending : Ascending sorted) : Ascending (putEntry name json sorted) := by
  induction sorted with
  | nil => exact List.pairwise_singleton _ _
  | cons head rest ih =>
    obtain ⟨above, ordered⟩ := List.pairwise_cons.mp ascending
    rw [putEntry]
    by_cases front : Text.before name head.1 = true
    · rw [if_pos front]
      refine List.pairwise_cons.mpr ⟨List.forall_mem_cons.mpr ⟨front, ?_⟩, ascending⟩
      exact fun other member => Text.chars_before_trans _ _ _ front (above other member)
    · rw [if_neg front]
      by_cases same : head.1 = name
      · rw [if_pos same]
        exact List.pairwise_cons.mpr ⟨fun other member => same ▸ above other member, ordered⟩
      · rw [if_neg same]
        refine List.pairwise_cons.mpr ⟨fun other member => ?_, ih ordered⟩
        rcases (mem_put_entry ordered).mp member with rfl | ⟨later, -⟩
        · refine Text.before_or_before _ _ ?_ (Bool.eq_false_iff.mpr front)
          exact fun chars => same (String.toList_inj.mp chars).symm
        · exact above other later

theorem last_of_append (name : String) (entries : List (String × Json)) (entry : String × Json) :
    lastOf name (entries ++ [entry]) =
      if entry.1 = name then some entry.2 else lastOf name entries := by
  rw [lastOf, List.reverse_append, List.reverse_singleton, List.singleton_append, List.find?_cons]
  by_cases same : entry.1 = name
  · rw [if_pos same, beq_iff_eq.mpr same]
    rfl
  · rw [if_neg same, beq_eq_false_iff_ne.mpr same]
    rfl

theorem ordered_in_key_order (entries : List (String × Json)) :
    InKeyOrder entries (ordered entries) := by
  induction entries using List.reverseRecOn with
  | nil => exact ⟨.nil, fun name json => ⟨nofun, nofun⟩⟩
  | append_singleton entries entry ih =>
    have step : ordered (entries ++ [entry]) = putEntry entry.1 entry.2 (ordered entries) := by
      rw [ordered, List.foldl_append]
      rfl
    rw [step]
    refine ⟨put_entry_ascending ih.ascending, fun name json => ?_⟩
    rw [mem_put_entry ih.ascending, ih.mem_iff, last_of_append, Prod.mk.injEq]
    by_cases same : entry.1 = name
    · simp [same, eq_comm]
    · simp [same, Ne.symm same]

theorem in_key_order_unique {entries a b : List (String × Json)} (first : InKeyOrder entries a)
    (second : InKeyOrder entries b) : a = b := by
  have nodup {sorted : List (String × Json)} (ascending : Ascending sorted) : sorted.Nodup :=
    ascending.imp fun before same => ne_of_before before (congrArg Prod.fst same)
  have perm : a.Perm b := by
    rw [List.perm_ext_iff_of_nodup (nodup first.ascending) (nodup second.ascending)]
    rintro ⟨name, json⟩
    rw [first.mem_iff, second.mem_iff]
  refine perm.eq_of_pairwise ?_ first.ascending second.ascending
  intro x y _ _ before after
  exact absurd rfl (ne_of_before (Text.chars_before_trans _ _ _ before after))

end Json

def Environment.declareAll (env : Environment) (names : List (String × Value)) :
    Result Environment :=
  names.foldlM (fun env entry => env.declareVariable entry.1 entry.2) env

theorem Environment.declare_all_append (env : Environment) (front back : List (String × Value)) :
    env.declareAll (front ++ back) = env.declareAll front >>= fun env => env.declareAll back :=
  List.foldlM_append

theorem map_error_ok_iff {ε ε' α : Type} {f : ε → ε'} {result : Except ε α} {a : α} :
    result.mapError f = .ok a ↔ result = .ok a := by
  cases result with
  | error e => exact ⟨nofun, nofun⟩
  | ok b => exact ⟨fun same => by cases same; rfl, fun same => by cases same; rfl⟩

def Json.Gives (entry : String × Json) (named : String × Value) : Prop :=
  named.1 = entry.1 ∧ Json.toValue entry.1 entry.2 = .ok named.2

theorem Json.declare_entry_iff (env next : Environment) (entry : String × Json) :
    Json.declareEntry env entry = .ok next ↔
      ∃ named, Json.Gives entry named ∧ env.declareVariable named.1 named.2 = .ok next := by
  rw [declareEntry, bind_ok_iff]
  constructor
  · rintro ⟨value, read, declared⟩
    exact ⟨(entry.1, value), ⟨rfl, read⟩, declared⟩
  · rintro ⟨⟨name, value⟩, ⟨rfl, read⟩, declared⟩
    exact ⟨value, read, declared⟩

section Reading

variable {ε α : Type} {declare : Environment → α → Except ε Environment}
  {reads : α → String × Value → Prop}

theorem declare_all_iff
    (each : ∀ env next item, declare env item = .ok next ↔
      ∃ named, reads item named ∧ env.declareVariable named.1 named.2 = .ok next)
    {env last : Environment} {items : List α} :
    items.foldlM declare env = .ok last ↔
      ∃ names, List.Forall₂ reads items names ∧ env.declareAll names = .ok last := by
  induction items generalizing env with
  | nil =>
    constructor
    · rintro ⟨⟩
      exact ⟨[], .nil, rfl⟩
    · rintro ⟨_, ⟨⟩, ⟨⟩⟩
      rfl
  | cons item items ih =>
    rw [List.foldlM_cons, bind_ok_iff]
    constructor
    · rintro ⟨next, first, whole⟩
      obtain ⟨names, values, rest⟩ := ih.mp whole
      obtain ⟨named, value, declared⟩ := (each env next item).mp first
      exact ⟨named :: names, .cons value values, bind_ok_iff.mpr ⟨next, declared, rest⟩⟩
    · rintro ⟨_, _ | ⟨value, values⟩, whole⟩
      obtain ⟨next, declared, rest⟩ := bind_ok_iff.mp whole
      exact ⟨next, (each env next item).mpr ⟨_, value, declared⟩, ih.mpr ⟨_, values, rest⟩⟩

structure Overflow (reads : α → String × Value → Prop) (env : Environment) (items : List α) :
    Prop where
  stops : ∃ before item after names mid name d, items = before ++ item :: after ∧
    List.Forall₂ reads before names ∧ env.declareAll names = .ok mid ∧
    reads item (name, .number d) ∧ d.scale = Decimal.lowestScale

theorem overflow_nil (env : Environment) : ¬ Overflow reads env [] := by
  rintro ⟨before, _, _, _, _, _, _, split, -⟩
  cases before <;> cases split

theorem overflow_cons {env : Environment} {item : α} {items : List α} :
    Overflow reads env (item :: items) ↔
      (∃ name d, reads item (name, .number d) ∧ d.scale = Decimal.lowestScale) ∨
        ∃ next, (∃ named, reads item named ∧ env.declareVariable named.1 named.2 = .ok next) ∧
          Overflow reads next items := by
  constructor
  · rintro ⟨_ | ⟨head, before⟩, item', after, names, mid, name, d, split, values, all, rest⟩
    · cases split
      exact .inl ⟨name, d, rest⟩
    · cases split
      cases values with
      | cons value values =>
        obtain ⟨next, declared, all⟩ := bind_ok all
        exact .inr ⟨next, ⟨_, value, declared⟩, before, item', after, _, mid, name, d, rfl, values,
          all, rest⟩
  · rintro (⟨name, d, rest⟩ | ⟨next, ⟨named, value, declared⟩, overflow⟩)
    · exact ⟨[], item, items, [], env, name, d, rfl, .nil, rfl, rest⟩
    · obtain ⟨before, item', after, names, mid, name, d, rfl, values, all, rest⟩ := overflow
      exact ⟨item :: before, item', after, named :: names, mid, name, d, rfl, .cons value values,
        bind_ok_iff.mpr ⟨next, declared, all⟩, rest⟩

theorem declare_all_panics {declare : Environment → α → Except (Stop ε) Environment}
    (each : ∀ env next item, declare env item = .ok next ↔
      ∃ named, reads item named ∧ env.declareVariable named.1 named.2 = .ok next)
    (panics : ∀ env item, declare env item = .error .panicked ↔
      ∃ name d, reads item (name, .number d) ∧ d.scale = Decimal.lowestScale)
    {env : Environment} {items : List α} :
    items.foldlM declare env = .error .panicked ↔ Overflow reads env items := by
  induction items generalizing env with
  | nil => exact iff_of_false (by rintro ⟨⟩) (overflow_nil env)
  | cons item items ih =>
    rw [List.foldlM_cons, bind_error_iff, overflow_cons]
    simp only [panics, each, ih]

end Reading

theorem Environment.declare_variable_panics {env : Environment} {name : String} {value : Value} :
    env.declareVariable name value = .error .panicked ↔
      ∃ d, value = .number d ∧ d.scale = Decimal.lowestScale := by
  have never (symbol : Symbol) : env.declare name symbol ≠ .error .panicked := by
    cases taken : env.get? name with
    | none =>
      obtain ⟨next, declared⟩ := declare_of_fresh taken symbol
      rw [declared]
      rintro ⟨⟩
    | some bound =>
      rw [declare_of_bound taken]
      rintro ⟨⟩
  cases value with
  | text | boolean => exact iff_of_false (never _) (by rintro ⟨_, ⟨⟩, _⟩)
  | number d =>
    simp only [Value.number.injEq, exists_eq_left']
    rw [← Decimal.in_range_none, declareVariable, Decimal.byRange]
    split
    · rename_i range
      exact iff_of_false (never _) (by rw [range]; rintro ⟨⟩)
    · rename_i range
      exact iff_of_false (by rintro ⟨⟩) (by rw [range]; rintro ⟨⟩)
    · rename_i range
      exact iff_of_true rfl range

theorem Json.declare_entry_panics (env : Environment) (entry : String × Json) :
    Json.declareEntry env entry = .error .panicked ↔
      ∃ name d, Json.Gives entry (name, .number d) ∧ d.scale = Decimal.lowestScale := by
  have never : toValue entry.1 entry.2 ≠ .error .panicked := by
    cases entry.2 <;> rintro ⟨⟩
  rw [declareEntry, bind_error_iff, or_iff_right never]
  simp only [Environment.declare_variable_panics]
  constructor
  · rintro ⟨_, read, d, rfl, lowest⟩
    exact ⟨entry.1, d, ⟨rfl, read⟩, lowest⟩
  · rintro ⟨name, d, ⟨-, read⟩, lowest⟩
    exact ⟨_, read, d, rfl, lowest⟩

theorem Environment.declare_each_eq {α : Type}
    (declareOne : Environment → α → Result Environment) (env : Environment) (items : List α) :
    items.foldlM declareOne env =
      (declareEach declareOne env items).2.map
        fun _ => (declareEach declareOne env items).1 := by
  induction items generalizing env with
  | nil => rfl
  | cons item items ih =>
    rw [declareEach, List.foldlM_cons]
    cases declareOne env item with
    | error stop => rfl
    | ok next => exact ih next

namespace CommandLine

inductive Assigns : String → String × Value → Prop where
  | intro {assignment : String} {left right : List Char} (first : '=' ∉ left)
      (form : assignment.toList = left ++ '=' :: right) :
      Assigns assignment
        (String.ofList (Text.trim left), assignedValue (String.ofList right))

inductive HostData (read : String → FileContent) : Option String → List (String × Value) → Prop where
  | none : HostData read .none []
  | file {path content : String} {entries sorted : List (String × Json)}
      {data : List (String × Value)} (text : read path = .text content)
      (object : Json.read? content = some (.object entries))
      (order : Json.InKeyOrder entries sorted)
      (values : List.Forall₂ Json.Gives sorted data) :
      HostData read (some path) data

inductive Requested (read : String → FileContent) (o : Options) (env : Environment) : Prop where
  | intro {data assigned : List (String × Value)} (host : HostData read o.hostData data)
      (assignments : List.Forall₂ Assigns o.assignments assigned)
      (declared : (if o.withoutDefaults then Environment.empty else Catalogue.environment).declareAll
        (data ++ assigned) = .ok env)

def Options.names (o : Options) : Environment :=
  if o.withoutDefaults then .empty else Catalogue.environment

-- A number at the lowest scale is met before the table is complete.
inductive Overflows (read : String → FileContent) (o : Options) : Prop where
  | entry {path content : String} {entries sorted : List (String × Json)}
      (hostData : o.hostData = some path) (text : read path = .text content)
      (object : Json.read? content = some (.object entries))
      (order : Json.InKeyOrder entries sorted) (overflow : Overflow Json.Gives o.names sorted)
  | assignment {data : List (String × Value)} {loaded : Environment}
      (host : HostData read o.hostData data) (declared : o.names.declareAll data = .ok loaded)
      (overflow : Overflow Assigns loaded o.assignments)

theorem map_error_panics_iff {α : Type} {f : Error → String} {result : Result α} :
    result.mapError (Stop.map f) = .error .panicked ↔ result = .error .panicked := by
  rcases result with (_ | _) | _
  · exact iff_of_false nofun nofun
  · exact iff_of_true rfl rfl
  · exact iff_of_false nofun nofun

theorem assigns_iff {assignment : String} {named : String × Value} :
    Assigns assignment named ↔ ∃ left right, '=' ∉ left ∧ assignment.toList = left ++ '=' :: right ∧
      named = (String.ofList (Text.trim left), assignedValue (String.ofList right)) := by
  constructor
  · rintro ⟨first, form⟩
    exact ⟨_, _, first, form, rfl⟩
  · rintro ⟨left, right, first, form, rfl⟩
    exact .intro first form

theorem assign_cut (env : Environment) (assignment : String) :
    (∃ message, assign env assignment = .error (.failed message) ∧
      ∀ named, ¬ Assigns assignment named) ∨
    ∃ (named : String × Value) (f : Error → String),
      (∀ named', Assigns assignment named' ↔ named' = named) ∧ assign env assignment =
        (env.declareVariable named.1 named.2).mapError (Stop.map f) := by
  cases rest : assignment.toList.dropWhile (· != '=') with
  | nil =>
    refine .inl ⟨_, by rw [assign, rest], fun named assigns => ?_⟩
    obtain ⟨left, right, first, form, -⟩ := assigns_iff.mp assigns
    rw [form, (Console.cut_at_equals first right).2] at rest
    cases rest
  | cons c behind =>
    obtain ⟨first, form⟩ := Console.first_equals rest
    refine .inr ⟨(String.ofList (Text.trim (assignment.toList.takeWhile (· != '='))),
      assignedValue (String.ofList behind)), fun e => "--var " ++ String.ofList
        (Text.trim (assignment.toList.takeWhile (· != '='))) ++ ": " ++ e.message,
      fun named => ?_, by rw [assign, rest]⟩
    constructor
    · intro assigns
      obtain ⟨left, right, first', form', rfl⟩ := assigns_iff.mp assigns
      obtain ⟨taken, dropped⟩ := Console.cut_at_equals first' right
      rw [← form'] at taken dropped
      rw [dropped] at rest
      cases rest
      rw [taken]
    · rintro rfl
      exact .intro first form

theorem assign_iff (env next : Environment) (assignment : String) :
    assign env assignment = .ok next ↔
      ∃ named, Assigns assignment named ∧ env.declareVariable named.1 named.2 = .ok next := by
  rcases assign_cut env assignment with ⟨message, refused, none⟩ | ⟨named, f, unique, made⟩
  · rw [refused]
    exact iff_of_false nofun fun ⟨named, assigns, _⟩ => none named assigns
  · simp only [unique, exists_eq_left]
    rw [made, map_error_ok_iff]

theorem assign_panics (env : Environment) (assignment : String) :
    assign env assignment = .error .panicked ↔
      ∃ name d, Assigns assignment (name, .number d) ∧ d.scale = Decimal.lowestScale := by
  rcases assign_cut env assignment with ⟨message, refused, none⟩ | ⟨⟨name, value⟩, f, unique, made⟩
  · rw [refused]
    exact iff_of_false nofun fun ⟨name, d, assigns, _⟩ => none _ assigns
  · rw [made, map_error_panics_iff, Environment.declare_variable_panics]
    simp only [unique, Prod.mk.injEq]
    constructor
    · rintro ⟨d, same, lowest⟩
      exact ⟨name, d, ⟨rfl, same.symm⟩, lowest⟩
    · rintro ⟨-, d, ⟨-, same⟩, lowest⟩
      exact ⟨d, same.symm, lowest⟩

theorem load_cases (read : String → FileContent) (env : Environment) (path : String) :
    (∃ message, loadHostData read env path = .error (.failed message) ∧
      ∀ content entries, read path = .text content →
        Json.read? content ≠ some (.object entries)) ∨
    ∃ content entries f, read path = .text content ∧ Json.read? content = some (.object entries) ∧
      loadHostData read env path =
        ((Json.ordered entries).foldlM Json.declareEntry env).mapError (Stop.map f) := by
  rw [loadHostData]
  cases text : read path with
  | missing => exact .inl ⟨_, rfl, nofun⟩
  | unreadable reason => exact .inl ⟨_, rfl, nofun⟩
  | text content =>
    dsimp only
    split
    · rename_i entries object
      refine .inr ⟨content, entries, fun e => "'" ++ path ++ "': " ++ e.message, rfl, object, ?_⟩
      rw [Environment.declare_each_eq, Environment.declareJson]
      rcases Environment.declareEach Json.declareEntry env (Json.ordered entries) with
        ⟨last, stop | done⟩ <;> rfl
    · rename_i other
      refine .inl ⟨_, rfl, ?_⟩
      rintro _ entries ⟨⟩
      exact other entries

theorem load_iff {read : String → FileContent} {env next : Environment} {path : String} :
    loadHostData read env path = .ok next ↔
      ∃ data, HostData read (some path) data ∧ env.declareAll data = .ok next := by
  rcases load_cases read env path with
    ⟨message, refused, none⟩ | ⟨content, entries, f, text, object, loaded⟩
  · rw [refused]
    refine iff_of_false nofun ?_
    rintro ⟨data, _ | @⟨_, _, _, _, _, text, object, -, -⟩, -⟩
    exact none _ _ text object
  · rw [loaded, map_error_ok_iff, declare_all_iff Json.declare_entry_iff]
    constructor
    · rintro ⟨data, values, all⟩
      exact ⟨data, .file text object (Json.ordered_in_key_order entries) values, all⟩
    · rintro ⟨data, _ | @⟨_, _, _, _, _, text', object', order, values⟩, all⟩
      cases text.symm.trans text'
      cases object.symm.trans object'
      rw [Json.in_key_order_unique order (Json.ordered_in_key_order entries)] at values
      exact ⟨data, values, all⟩

theorem load_panics {read : String → FileContent} {env : Environment} {path : String} :
    loadHostData read env path = .error .panicked ↔
      ∃ content entries sorted, read path = .text content ∧
        Json.read? content = some (.object entries) ∧ Json.InKeyOrder entries sorted ∧
        Overflow Json.Gives env sorted := by
  rcases load_cases read env path with
    ⟨message, refused, none⟩ | ⟨content, entries, f, text, object, loaded⟩
  · rw [refused]
    exact iff_of_false nofun fun ⟨_, _, _, text, object, _⟩ => none _ _ text object
  · rw [loaded, map_error_panics_iff,
      declare_all_panics Json.declare_entry_iff Json.declare_entry_panics]
    constructor
    · intro overflow
      exact ⟨content, entries, _, text, object, Json.ordered_in_key_order entries, overflow⟩
    · rintro ⟨_, _, sorted, text', object', order, overflow⟩
      cases text.symm.trans text'
      cases object.symm.trans object'
      rwa [Json.in_key_order_unique order (Json.ordered_in_key_order entries)] at overflow

def hosted (read : String → FileContent) (env : Environment) :
    Option String → Except (Stop String) Environment
  | none => pure env
  | some path => loadHostData read env path

theorem environment_eq (read : String → FileContent) (o : Options) :
    environment read o =
      hosted read o.names o.hostData >>= fun env => o.assignments.foldlM assign env := by
  rw [environment]
  cases o.hostData <;> rfl

theorem hosted_iff {read : String → FileContent} {env next : Environment} {path : Option String} :
    hosted read env path = .ok next ↔
      ∃ data, HostData read path data ∧ env.declareAll data = .ok next := by
  cases path with
  | none =>
    constructor
    · rintro ⟨⟩
      exact ⟨[], .none, rfl⟩
    · rintro ⟨_, ⟨⟩, ⟨⟩⟩
      rfl
  | some path => exact load_iff

/-- The table is the one that is asked for; there is none if a file of host data cannot be read, an
entry or an assignment has no value, or a name cannot be declared. -/
theorem requested_iff (read : String → FileContent) (o : Options) (env : Environment) :
    environment read o = .ok env ↔ Requested read o env := by
  simp only [environment_eq, bind_ok_iff, hosted_iff, declare_all_iff assign_iff]
  constructor
  · rintro ⟨loaded, ⟨data, host, all⟩, assigned, assignments, rest⟩
    refine ⟨host, assignments, ?_⟩
    rw [Environment.declare_all_append]
    exact bind_ok_iff.mpr ⟨loaded, all, rest⟩
  · rintro ⟨host, assignments, declared⟩
    rw [Environment.declare_all_append] at declared
    obtain ⟨loaded, all, rest⟩ := bind_ok declared
    exact ⟨loaded, ⟨_, host, all⟩, _, assignments, rest⟩

theorem overflows_iff (read : String → FileContent) (o : Options) :
    environment read o = .error .panicked ↔ Overflows read o := by
  simp only [environment_eq, bind_error_iff, hosted_iff, declare_all_panics assign_iff assign_panics]
  constructor
  · rintro (panics | ⟨loaded, ⟨data, host, all⟩, overflow⟩)
    · cases path : o.hostData with
      | none =>
        rw [path] at panics
        cases panics
      | some file =>
        rw [path] at panics
        obtain ⟨content, entries, sorted, text, object, order, overflow⟩ := load_panics.mp panics
        exact .entry path text object order overflow
    · exact .assignment host all overflow
  · rintro (⟨path, text, object, order, overflow⟩ | ⟨host, declared, overflow⟩)
    · rw [path]
      exact .inl (load_panics.mpr ⟨_, _, _, text, object, order, overflow⟩)
    · exact .inr ⟨_, ⟨_, host, declared⟩, overflow⟩

end CommandLine

end Formula
