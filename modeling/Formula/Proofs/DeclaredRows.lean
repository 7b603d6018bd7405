import Formula.Proofs.RequestedNames

set_option autoImplicit false

namespace Formula

namespace Environment

def Gains (env last : Environment) (gained : String → Symbol → Prop) : Prop :=
  ∀ name symbol, last.get? name = some symbol ↔ env.get? name = some symbol ∨ gained name symbol

theorem gains_nothing (env : Environment) {gained : String → Symbol → Prop}
    (nothing : ∀ name symbol, ¬ gained name symbol) : Gains env env gained := by
  intro name symbol
  rw [or_iff_left (nothing name symbol)]

theorem not_declared_iff (env : Environment) (name : String) :
    env.isDeclared name = false ↔ env.get? name = none := by
  rw [isDeclared, Option.isSome_eq_false_iff, Option.isNone_iff_eq_none]

theorem Gains.congr {env last : Environment} {gained gained' : String → Symbol → Prop}
    (gains : Gains env last gained)
    (same : ∀ name symbol, gained name symbol ↔ gained' name symbol) : Gains env last gained' :=
  fun name symbol => (gains name symbol).trans (or_congr_right (same name symbol))

structure Row {α : Type} (declareOne : Environment → String × α → Result Environment)
    (reads : String × α → Result Symbol) (entries : List (String × α)) : Prop where
  one : ∀ entry ∈ entries, ∀ env, declareOne env entry = reads entry >>= env.declare entry.1
  distinct : (entries.map Prod.fst).Nodup

structure Fits {α : Type} (reads : String × α → Result Symbol) (env : Environment)
    (entry : String × α) : Prop where
  free : env.get? entry.1 = none
  read : ∃ symbol, reads entry = .ok symbol

inductive Refuses {α : Type} (reads : String × α → Result Symbol) (env : Environment)
    (entry : String × α) : Stop Error → Prop where
  | unread {e : Stop Error} (failed : reads entry = .error e) : Refuses reads env entry e
  | taken {symbol : Symbol} (read : reads entry = .ok symbol)
      (declared : env.isDeclared entry.1 = true) :
      Refuses reads env entry (.of (.alreadyDeclared entry.1))

def Added {α : Type} (reads : String × α → Result Symbol) (entries : List (String × α))
    (name : String) (symbol : Symbol) : Prop :=
  ∃ entry ∈ entries, entry.1 = name ∧ reads entry = .ok symbol

section

variable {α : Type} {declareOne : Environment → String × α → Result Environment}
  {reads : String × α → Result Symbol} {entry : String × α}
  {entries before after : List (String × α)} {env : Environment} {e : Stop Error}

theorem fits_or_refuses (reads : String × α → Result Symbol) (env : Environment)
    (entry : String × α) : Fits reads env entry ∨ ∃ e, Refuses reads env entry e := by
  cases read : reads entry with
  | error e => exact .inr ⟨e, .unread read⟩
  | ok symbol =>
    cases declared : env.isDeclared entry.1 with
    | true => exact .inr ⟨_, .taken read declared⟩
    | false => exact .inl ⟨(not_declared_iff env entry.1).mp declared, symbol, read⟩

theorem fits_not_refused (fits : Fits reads env entry) : ¬ Refuses reads env entry e := by
  obtain ⟨symbol, read⟩ := fits.read
  rintro (failed | ⟨-, declared⟩)
  · rw [read] at failed
    cases failed
  · rw [(not_declared_iff env entry.1).mpr fits.free] at declared
    cases declared

theorem first_refused (reads : String × α → Result Symbol) (env : Environment)
    (entries : List (String × α)) :
    (∀ entry ∈ entries, Fits reads env entry) ∨ ∃ before entry after e,
      entries = before ++ entry :: after ∧ (∀ earlier ∈ before, Fits reads env earlier) ∧
        Refuses reads env entry e := by
  induction entries with
  | nil => exact .inl nofun
  | cons head rest ih =>
    rcases fits_or_refuses reads env head with fits | ⟨e, refused⟩
    · rcases ih with all | ⟨before, entry, after, e, rfl, earlier, refused⟩
      · exact .inl (List.forall_mem_cons.mpr ⟨fits, all⟩)
      · exact .inr ⟨head :: before, entry, after, e, rfl,
          List.forall_mem_cons.mpr ⟨fits, earlier⟩, refused⟩
    · exact .inr ⟨[], head, rest, e, rfl, nofun, refused⟩

theorem fitting_declared (row : Row declareOne reads (before ++ after))
    (fit : ∀ entry ∈ before, Fits reads env entry) :
    ∃ mid, declareEach declareOne env (before ++ after) = declareEach declareOne mid after ∧
      Gains env mid (Added reads before) := by
  induction before generalizing env with
  | nil => exact ⟨env, rfl, gains_nothing env fun _ _ added => nomatch added⟩
  | cons head before ih =>
    obtain ⟨⟨free, symbol, read⟩, others⟩ := List.forall_mem_cons.mp fit
    obtain ⟨next, declared⟩ := declare_of_fresh free symbol
    obtain ⟨apart, distinct⟩ := List.nodup_cons.mp row.distinct
    have later : Row declareOne reads (before ++ after) :=
      ⟨fun entry member => row.one entry (List.mem_cons_of_mem _ member), distinct⟩
    have still : ∀ entry ∈ before, Fits reads next entry := by
      intro entry member
      refine ⟨?_, (others entry member).read⟩
      have other : entry.1 ≠ head.1 := by
        intro same
        exact apart (same ▸ List.mem_map_of_mem (List.mem_append_left _ member))
      rw [get_declared declared, if_neg other]
      exact (others entry member).free
    obtain ⟨mid, whole, gains⟩ := ih later still
    refine ⟨mid, ?_, fun name symbol' => ?_⟩
    · have first : declareOne env head = .ok next := by
        rw [row.one head List.mem_cons_self env, read]
        exact declared
      rw [List.cons_append, declareEach, first]
      exact whole
    · rw [gains, get_declared declared, Added, Added, List.exists_mem_cons_iff]
      by_cases own : name = head.1
      · rw [if_pos own, own, free, read]
        simp
      · rw [if_neg own]
        simp [Ne.symm own]

theorem row_declared (row : Row declareOne reads entries)
    (fit : ∀ entry ∈ entries, Fits reads env entry) :
    (declareEach declareOne env entries).2 = .ok () ∧
      Gains env (declareEach declareOne env entries).1 (Added reads entries) := by
  rw [← List.append_nil entries] at row ⊢
  obtain ⟨mid, whole, gains⟩ := fitting_declared row fit
  rw [whole, List.append_nil]
  exact ⟨rfl, gains⟩

theorem row_stops (row : Row declareOne reads (before ++ entry :: after))
    (fit : ∀ entry ∈ before, Fits reads env entry) (refused : Refuses reads env entry e) :
    (declareEach declareOne env (before ++ entry :: after)).2 = .error e ∧
      Gains env (declareEach declareOne env (before ++ entry :: after)).1
        (Added reads before) := by
  obtain ⟨mid, whole, gains⟩ := fitting_declared row fit
  have failed : declareOne mid entry = .error e := by
    rw [row.one entry (List.mem_append_right _ List.mem_cons_self) mid]
    rcases refused with failed | ⟨read, declared⟩
    · rw [failed]
      rfl
    · obtain ⟨symbol, bound⟩ := Option.isSome_iff_exists.mp declared
      rw [read]
      exact declare_of_bound ((gains entry.1 symbol).mpr (.inl bound)) _
  rw [whole, declareEach, failed]
  exact ⟨rfl, gains⟩

end

end Environment

namespace Json

open Environment (Gains Row Fits Refuses Added)

inductive Denotes : Json → Value → Prop where
  | number (d : Decimal) : Denotes (.number d) (.number d)
  | string (s : String) : Denotes (.string s) (.text s)
  | boolean (b : Bool) : Denotes (.boolean b) (.boolean b)

-- Why an entry cannot be declared. Whether its name is taken matters only if its data has a value.
inductive Refused (env : Environment) (name : String) : Json → Cause → Prop where
  | null : Refused env name .null (.unknownDataType name "null")
  | array (items : List Json) : Refused env name (.array items) (.unknownDataType name "array")
  | object (entries : List (String × Json)) :
      Refused env name (.object entries) (.unknownDataType name "object")
  | taken {json : Json} {value : Value} (denotes : json.Denotes value)
      (declared : env.isDeclared name = true) : Refused env name json (.alreadyDeclared name)

structure FirstRefused (env : Environment) (entries : List (String × Json)) (name : String)
    (cause : Cause) : Prop where
  refused : ∃ json, lastOf name entries = some json ∧ Refused env name json cause
  first : ∀ other json cause, lastOf other entries = some json → Refused env other json cause →
    ¬ Text.bytes other < Text.bytes name

def Holds (entries : List (String × Json)) (name : String) (symbol : Symbol) : Prop :=
  ∃ json value, lastOf name entries = some json ∧ json.Denotes value ∧ symbol = .value value

def readEntry (entry : String × Json) : Result Symbol :=
  (toValue entry.1 entry.2).map .value

section

variable {env : Environment} {entries sorted before after : List (String × Json)}
  {entry : String × Json} {name : String} {json : Json} {symbol : Symbol} {cause : Cause}
  {e : Stop Error}

theorem read_entry_iff :
    readEntry (name, json) = .ok symbol ↔ ∃ value, json.Denotes value ∧ symbol = .value value := by
  constructor
  · intro read
    cases json with
    | number d =>
      cases read
      exact ⟨_, .number d, rfl⟩
    | string s =>
      cases read
      exact ⟨_, .string s, rfl⟩
    | boolean b =>
      cases read
      exact ⟨_, .boolean b, rfl⟩
    | null | array items | object members => cases read
  · rintro ⟨_, _ | _ | _, rfl⟩ <;> rfl

theorem refuses_iff : Refuses readEntry env (name, json) e ↔
    ∃ cause, Refused env name json cause ∧ e = .of cause := by
  constructor
  · rintro (failed | ⟨read, declared⟩)
    · cases json with
      | null =>
        cases failed
        exact ⟨_, .null, rfl⟩
      | array items =>
        cases failed
        exact ⟨_, .array items, rfl⟩
      | object members =>
        cases failed
        exact ⟨_, .object members, rfl⟩
      | number | string | boolean => cases failed
    · obtain ⟨value, denotes, -⟩ := read_entry_iff.mp read
      exact ⟨_, .taken denotes declared, rfl⟩
  · rintro ⟨_, _ | items | members | ⟨denotes, declared⟩, rfl⟩
    · exact .unread rfl
    · exact .unread rfl
    · exact .unread rfl
    · exact .taken (read_entry_iff.mpr ⟨_, denotes, rfl⟩) declared

theorem fits_iff : Fits readEntry env (name, json) ↔
    (∃ value, json.Denotes value) ∧ env.isDeclared name = false := by
  rw [Environment.not_declared_iff]
  constructor
  · rintro ⟨free, symbol, read⟩
    obtain ⟨value, denotes, -⟩ := read_entry_iff.mp read
    exact ⟨⟨value, denotes⟩, free⟩
  · rintro ⟨⟨value, denotes⟩, free⟩
    exact ⟨free, _, read_entry_iff.mpr ⟨value, denotes, rfl⟩⟩

theorem mem_front_iff (ascending : Ascending (before ++ entry :: after)) (other : String × Json) :
    other ∈ before ↔
      other ∈ before ++ entry :: after ∧ Text.bytes other.1 < Text.bytes entry.1 := by
  obtain ⟨-, behind, apart⟩ := List.pairwise_append.mp ascending
  rw [← Text.before_iff_bytes]
  constructor
  · intro front
    exact ⟨List.mem_append_left _ front, apart other front entry List.mem_cons_self⟩
  · rintro ⟨member, less⟩
    rcases List.mem_append.mp member with front | back
    · exact front
    · rcases List.mem_cons.mp back with rfl | later
      · exact absurd rfl (ne_of_before less)
      · have greater := (List.pairwise_cons.mp behind).1 other later
        exact absurd rfl (ne_of_before (Text.chars_before_trans _ _ _ less greater))

theorem added_iff (order : InKeyOrder entries sorted) :
    Added readEntry sorted name symbol ↔ Holds entries name symbol := by
  constructor
  · rintro ⟨⟨_, json⟩, member, rfl, read⟩
    obtain ⟨value, denotes, same⟩ := read_entry_iff.mp read
    exact ⟨json, value, (order.mem_iff _ _).mp member, denotes, same⟩
  · rintro ⟨json, value, last, denotes, rfl⟩
    exact ⟨(name, json), (order.mem_iff _ _).mpr last, rfl, read_entry_iff.mpr ⟨_, denotes, rfl⟩⟩

theorem added_front_iff (order : InKeyOrder entries (before ++ entry :: after)) :
    Added readEntry before name symbol ↔
      Text.bytes name < Text.bytes entry.1 ∧ Holds entries name symbol := by
  rw [← added_iff order]
  constructor
  · rintro ⟨other, front, rfl, read⟩
    obtain ⟨member, less⟩ := (mem_front_iff order.ascending other).mp front
    exact ⟨less, other, member, rfl, read⟩
  · rintro ⟨less, other, member, rfl, read⟩
    exact ⟨other, (mem_front_iff order.ascending other).mpr ⟨member, less⟩, rfl, read⟩

theorem first_refused_iff (order : InKeyOrder entries sorted) :
    FirstRefused env entries name cause ↔ ∃ before json after,
      sorted = before ++ (name, json) :: after ∧
        (∀ earlier ∈ before, Fits readEntry env earlier) ∧
        Refuses readEntry env (name, json) (.of cause) := by
  constructor
  · rintro ⟨⟨json, last, refused⟩, first⟩
    obtain ⟨before, after, rfl⟩ := List.append_of_mem ((order.mem_iff name json).mpr last)
    refine ⟨before, json, after, rfl, ?_, refuses_iff.mpr ⟨cause, refused, rfl⟩⟩
    rintro ⟨other, json'⟩ front
    obtain ⟨member, less⟩ := (mem_front_iff order.ascending (other, json')).mp front
    rcases Environment.fits_or_refuses readEntry env (other, json') with fits | ⟨e, refuses⟩
    · exact fits
    · obtain ⟨cause', refused', -⟩ := refuses_iff.mp refuses
      exact absurd less (first other json' cause' ((order.mem_iff other json').mp member) refused')
  · rintro ⟨before, json, after, rfl, earlier, refuses⟩
    obtain ⟨cause', refused, same⟩ := refuses_iff.mp refuses
    cases same
    have member : (name, json) ∈ before ++ (name, json) :: after :=
      List.mem_append_right _ List.mem_cons_self
    refine ⟨⟨json, (order.mem_iff name json).mp member, refused⟩, ?_⟩
    intro other json' cause' last refused' less
    have front := (mem_front_iff order.ascending (other, json')).mpr
      ⟨(order.mem_iff other json').mpr last, less⟩
    exact Environment.fits_not_refused (earlier _ front) (refuses_iff.mpr ⟨cause', refused', rfl⟩)

end

section

variable {env : Environment} {entries : List (String × Json)}
  (numbers : ∀ name d, lastOf name entries = some (.number d) → d.inRange = some true)

include numbers

theorem entries_row : Row declareEntry readEntry (ordered entries) where
  one := by
    rintro ⟨name, json⟩ member env
    cases json with
    | number d =>
      have range : (Value.number d).InRange := by
        rintro _ ⟨⟩
        exact numbers name d (((ordered_in_key_order entries).mem_iff name _).mp member)
      exact Environment.declare_variable_of_range range
    | null | boolean | string | array | object => rfl
  distinct :=
    List.pairwise_map.mpr ((ordered_in_key_order entries).ascending.imp ne_of_before)

theorem object_declared (fit : ∀ entry ∈ ordered entries, Fits readEntry env entry) :
    (env.declareJson entries).2 = .ok () ∧
      Gains env (env.declareJson entries).1 (Holds entries) := by
  obtain ⟨done, gains⟩ := Environment.row_declared (entries_row numbers) fit
  exact ⟨done, gains.congr fun _ _ => added_iff (ordered_in_key_order entries)⟩

theorem object_stops {key : String} {cause : Cause} (first : FirstRefused env entries key cause) :
    (env.declareJson entries).2 = .error (.of cause) ∧
      Gains env (env.declareJson entries).1 fun name symbol =>
        Text.bytes name < Text.bytes key ∧ Holds entries name symbol := by
  have order := ordered_in_key_order entries
  have row := entries_row numbers
  obtain ⟨before, json, after, sorted, earlier, refuses⟩ := (first_refused_iff order).mp first
  rw [Environment.declareJson]
  rw [sorted] at order row ⊢
  obtain ⟨failed, gains⟩ := Environment.row_stops row earlier refuses
  exact ⟨failed, gains.congr fun _ _ => added_front_iff order⟩

end

theorem declared_or_stopped (env : Environment) (entries : List (String × Json)) :
    (∀ entry ∈ ordered entries, Fits readEntry env entry) ∨
      ∃ stop : String × Cause, FirstRefused env entries stop.1 stop.2 := by
  rcases Environment.first_refused readEntry env (ordered entries) with
    fit | ⟨before, ⟨name, json⟩, after, e, sorted, earlier, refuses⟩
  · exact .inl fit
  · obtain ⟨cause, refused, rfl⟩ := refuses_iff.mp refuses
    exact .inr ⟨(name, cause), (first_refused_iff (ordered_in_key_order entries)).mpr
      ⟨before, json, after, sorted, earlier, refuses⟩⟩

theorem object_fits_iff (env : Environment) (entries : List (String × Json)) :
    (∀ entry ∈ ordered entries, Fits readEntry env entry) ↔
      ∀ name json, lastOf name entries = some json →
        (∃ value, json.Denotes value) ∧ env.isDeclared name = false := by
  have order := ordered_in_key_order entries
  constructor
  · intro fit name json last
    exact fits_iff.mp (fit (name, json) ((order.mem_iff name json).mpr last))
  · rintro each ⟨name, json⟩ member
    exact fits_iff.mpr (each name json ((order.mem_iff name json).mp member))

end Json

namespace Catalogue

open Environment (Gains Row Fits Refuses Added)

structure FirstTaken (env : Environment) (before : List (String × Symbol)) (name : String) :
    Prop where
  listed : ∃ symbol after, defaults = before ++ (name, symbol) :: after
  free : ∀ entry ∈ before, env.isDeclared entry.1 = false
  taken : env.isDeclared name = true

theorem defaults_row : Row declareDefault (fun entry => .ok entry.2) defaults where
  one := by
    intro entry member env
    rcases List.mem_append.mp member with named | constant
    · obtain ⟨f, -, rfl⟩ := List.mem_map.mp named
      rfl
    · have range {d : Decimal} (inside : d.inRange = some true) : (Value.number d).InRange := by
        rintro _ ⟨⟩
        exact inside
      simp only [List.mem_cons, List.not_mem_nil, or_false] at constant
      rcases constant with rfl | rfl
      · exact Environment.declare_variable_of_range (range (d := pi) (by decide +kernel))
      · exact Environment.declare_variable_of_range (range (d := e) (by decide +kernel))
  distinct := by decide +kernel

section

variable {env : Environment} {entry : String × Symbol}

theorem default_fits_iff :
    Fits (fun entry => .ok entry.2) env entry ↔ env.isDeclared entry.1 = false := by
  rw [Environment.not_declared_iff]
  exact ⟨Fits.free, fun free => ⟨free, _, rfl⟩⟩

theorem mem_added_iff {entries : List (String × Symbol)} {name : String} {symbol : Symbol} :
    Added (fun entry => .ok entry.2) entries name symbol ↔ (name, symbol) ∈ entries := by
  constructor
  · rintro ⟨⟨_, _⟩, member, rfl, ⟨⟩⟩
    exact member
  · intro member
    exact ⟨(name, symbol), member, rfl, rfl⟩

theorem installed (free : ∀ entry ∈ defaults, env.isDeclared entry.1 = false) :
    (install env).2 = .ok () ∧
      Gains env (install env).1 fun name symbol => (name, symbol) ∈ defaults := by
  obtain ⟨done, gains⟩ := Environment.row_declared defaults_row
    fun entry member => default_fits_iff.mpr (free entry member)
  exact ⟨done, gains.congr fun _ _ => mem_added_iff⟩

theorem install_stops {before : List (String × Symbol)} {name : String}
    (first : FirstTaken env before name) :
    (install env).2 = .error (.of (.alreadyDeclared name)) ∧
      Gains env (install env).1 fun name symbol => (name, symbol) ∈ before := by
  obtain ⟨symbol, after, listed⟩ := first.listed
  have row := defaults_row
  rw [install]
  rw [listed] at row ⊢
  obtain ⟨failed, gains⟩ := Environment.row_stops row
    (fun entry member => default_fits_iff.mpr (first.free entry member)) (.taken rfl first.taken)
  exact ⟨failed, gains.congr fun _ _ => mem_added_iff⟩

end

theorem installed_or_stopped (env : Environment) :
    (∀ entry ∈ defaults, env.isDeclared entry.1 = false) ∨
      ∃ stop : List (String × Symbol) × String, FirstTaken env stop.1 stop.2 := by
  rcases Environment.first_refused (fun entry => .ok entry.2) env defaults with
    fit | ⟨before, ⟨name, symbol⟩, after, e, listed, earlier, refuses⟩
  · exact .inl fun entry member => default_fits_iff.mp (fit entry member)
  · rcases refuses with ⟨⟨⟩⟩ | ⟨-, taken⟩
    exact .inr ⟨(before, name), ⟨symbol, after, listed⟩,
      fun entry member => default_fits_iff.mp (earlier entry member), taken⟩

end Catalogue

open Environment (Gains)

theorem result_iff {ι : Type} {result : Result Unit} {well : Prop} {stops : ι → Prop}
    {error : ι → Stop Error} (made : well → result = .ok ())
    (stopped : ∀ i, stops i → result = .error (error i)) (either : well ∨ ∃ i, stops i) :
    (result = .ok () ↔ well) ∧ ∀ e, result = .error e ↔ ∃ i, stops i ∧ e = error i := by
  rcases either with all | ⟨i, first⟩
  · have ok := made all
    refine ⟨iff_of_true ok all, fun e => iff_of_false ?_ ?_⟩
    · rw [ok]
      exact nofun
    · rintro ⟨i, first, -⟩
      cases ok.symm.trans (stopped i first)
  · have failed := stopped i first
    refine ⟨iff_of_false ?_ ?_, fun e => ⟨?_, ?_⟩⟩
    · rw [failed]
      exact nofun
    · intro all
      cases failed.symm.trans (made all)
    · intro error
      cases failed.symm.trans error
      exact ⟨i, first, rfl⟩
    · rintro ⟨j, other, rfl⟩
      exact stopped j other

/-- The entries of an object are declared in the order of their names, and the defaults in the order
of the catalogue, up to the first that cannot be: it alone is reported, and what stands in front of
it is all that the table gains. -/
theorem bulk_declarations_stop (env : Environment) (entries : List (String × Json))
    (numbers : ∀ name d, Json.lastOf name entries = some (.number d) → d.inRange = some true) :
    (((env.declareJson entries).2 = .ok () ↔ ∀ name json, Json.lastOf name entries = some json →
        (∃ value, json.Denotes value) ∧ env.isDeclared name = false) ∧
      ((env.declareJson entries).2 = .ok () →
        Gains env (env.declareJson entries).1 (Json.Holds entries)) ∧
      (∀ e, (env.declareJson entries).2 = .error e ↔
        ∃ name cause, Json.FirstRefused env entries name cause ∧ e = .of cause) ∧
      ∀ key cause, Json.FirstRefused env entries key cause →
        Gains env (env.declareJson entries).1 fun name symbol =>
          Text.bytes name < Text.bytes key ∧ Json.Holds entries name symbol) ∧
    ((Catalogue.install env).2 = .ok () ↔
        ∀ entry ∈ Catalogue.defaults, env.isDeclared entry.1 = false) ∧
      ((Catalogue.install env).2 = .ok () → Gains env (Catalogue.install env).1
        fun name symbol => (name, symbol) ∈ Catalogue.defaults) ∧
      (∀ e, (Catalogue.install env).2 = .error e ↔ ∃ before name,
        Catalogue.FirstTaken env before name ∧ e = .of (.alreadyDeclared name)) ∧
      (∀ before name, Catalogue.FirstTaken env before name →
        Gains env (Catalogue.install env).1 fun name symbol => (name, symbol) ∈ before) ∧
      Catalogue.defaults.map Prod.fst = Catalogue.functions.map Function.name ++ ["PI", "E"] := by
  obtain ⟨object_ok, object_error⟩ := result_iff
    (fun fit => (Json.object_declared numbers fit).1)
    (fun stop first => (Json.object_stops numbers first).1) (Json.declared_or_stopped env entries)
  obtain ⟨install_ok, install_error⟩ := result_iff
    (fun free => (Catalogue.installed free).1)
    (fun stop first => (Catalogue.install_stops first).1) (Catalogue.installed_or_stopped env)
  simp only [Prod.exists] at object_error install_error
  refine ⟨⟨object_ok.trans (Json.object_fits_iff env entries), ?_, object_error, ?_⟩,
    install_ok, ?_, install_error, ?_, rfl⟩
  · intro ok
    exact (Json.object_declared numbers (object_ok.mp ok)).2
  · intro key cause first
    exact (Json.object_stops numbers first).2
  · intro ok
    exact (Catalogue.installed (install_ok.mp ok)).2
  · intro before name first
    exact (Catalogue.install_stops first).2

def Environment.ofCeil : Environment :=
  ⟨[("ceil", .value (.boolean true))], List.pairwise_singleton _ _⟩

def Json.rates : List (String × Json) :=
  [("zone", .null), ("rate", .number ⟨25, 2⟩), ("ceil", .boolean false), ("Count", .string "7")]

theorem Json.rates_ordered : Json.ordered Json.rates = [("Count", .string "7"),
    ("ceil", .boolean false), ("rate", .number ⟨25, 2⟩), ("zone", .null)] := rfl

theorem Json.rates_stop :
    Json.FirstRefused .ofCeil Json.rates "ceil" (.alreadyDeclared "ceil") := by
  refine (first_refused_iff (ordered_in_key_order rates)).mpr
    ⟨[("Count", .string "7")], .boolean false, _, rates_ordered, ?_, .taken rfl rfl⟩
  exact List.forall_mem_singleton.mpr ⟨rfl, _, rfl⟩

theorem Json.rates_in_range (name : String) (d : Decimal)
    (last : Json.lastOf name Json.rates = some (.number d)) : d.inRange = some true := by
  have each : ∀ entry ∈ Json.ordered Json.rates, ∀ d, entry.2 = .number d → d.inRange = some true := by
    simp only [rates_ordered, List.forall_mem_cons]
    refine ⟨nofun, nofun, ?_, nofun, nofun⟩
    rintro _ ⟨⟩
    decide +kernel
  exact each _ (((ordered_in_key_order rates).mem_iff name _).mpr last) d rfl

theorem bulk_declarations_stop_of_ceil :
    (Environment.ofCeil.declareJson Json.rates).2 = .error (.of (.alreadyDeclared "ceil")) ∧
    Gains .ofCeil (Environment.ofCeil.declareJson Json.rates).1 (fun name symbol =>
      Text.bytes name < Text.bytes "ceil" ∧ Json.Holds Json.rates name symbol) ∧
    (Catalogue.install .ofCeil).2 = .error (.of (.alreadyDeclared "ceil")) ∧
    Gains .ofCeil (Catalogue.install .ofCeil).1 (fun name symbol =>
      (name, symbol) ∈ [("abs", Symbol.function Catalogue.functions[0])]) := by
  obtain ⟨⟨-, -, object, gained⟩, -, -, defaults, gained', -⟩ :=
    bulk_declarations_stop .ofCeil Json.rates Json.rates_in_range
  have taken : Catalogue.FirstTaken .ofCeil [("abs", .function Catalogue.functions[0])] "ceil" :=
    ⟨⟨_, _, rfl⟩, List.forall_mem_singleton.mpr rfl, rfl⟩
  exact ⟨(object _).mpr ⟨_, _, Json.rates_stop, rfl⟩, gained _ _ Json.rates_stop,
    (defaults _).mpr ⟨_, _, taken, rfl⟩, gained' _ _ taken⟩

end Formula
