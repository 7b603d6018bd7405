import Formula.Proofs.ParserGrammar

set_option autoImplicit false

namespace Formula.Parser

open Grammar
open Lexer (Ending Lexed)

inductive Blames (t : Token) : Stop Error → Prop where
  | expectedExpression : Blames t (.failed (mismatch .expectedExpression t))
  | missingClosingParen (context : String) :
      Blames t (.failed (mismatch (.missingClosingParen context) t))
  | malformedTernary : Blames t (.failed (ternaryMismatch t))
  | unexpectedToken : Blames t (.failed (mismatch .unexpectedToken t))

theorem blames_parse {t : Token} {e : Error} (blames : Blames t (.failed e)) :
    e.category = .parse := by
  cases blames <;> rfl

abbrev Reader (α : Type) := Ending → List Token → Result (α × List Token)

-- Why a reader fails: what took the place of a token, the end of the tokens, or one of them. In the
-- last case it fails in the same way whatever follows the token. What is before it is viable.
inductive Stuck {α : Type} (read : Reader α) (viable : List Token → Prop) (ending : Ending)
    (ts : List Token) (e : Stop Error) : Prop where
  | lexical (fault : ending = .fault e) (before : viable ts)
  | atEnd (eof : Token) (ends : ending = .eof eof) (before : viable ts) (blames : Blames eof e)
  | atToken (front : List Token) (t : Token) (behind : List Token) (split : front ++ t :: behind = ts)
      (before : viable front) (blames : Blames t e)
      (steady : ∀ ending behind, read ending (front ++ t :: behind) = .error e)

structure Predictive {α : Type} (read : Reader α) (viable : List Token → Prop) (ending : Ending)
    (ts : List Token) : Prop where
  takes : ∀ a rest, read ending ts = .ok (a, rest) → ∃ front, front ++ rest = ts ∧
    ∀ next behind, rest = next :: behind →
      ∀ ending behind, read ending (front ++ next :: behind) = .ok (a, next :: behind)
  stuck : ∀ e, read ending ts = .error e → Stuck read viable ending ts e

theorem stuck_behind {α β : Type} {read : Reader α} {later : Reader β}
    {viable : List Token → Prop} {ending : Ending} {ts : List Token} {e : Stop Error}
    (front : List Token) (stuck : Stuck later (fun more => viable (front ++ more)) ending ts e)
    (same : ∀ more t behind, more ++ t :: behind = ts →
      (∀ ending behind, later ending (more ++ t :: behind) = .error e) →
      ∀ ending behind, read ending (front ++ (more ++ t :: behind)) = .error e) :
    Stuck read viable ending (front ++ ts) e := by
  cases stuck with
  | lexical fault before => exact .lexical fault before
  | atEnd eof ends before blames => exact .atEnd eof ends before blames
  | atToken more t behind split before blames steady =>
    refine .atToken (front ++ more) t behind ?_ before blames fun ending behind => ?_
    · rw [List.append_assoc, split]
    · rw [List.append_assoc]
      exact same more t _ split steady ending behind

namespace Predictive

variable {α β : Type} {viable : List Token → Prop} {ending : Ending}

theorem mono {read : Reader α} {wider : List Token → Prop} {ts : List Token}
    (predictive : Predictive read viable ending ts) (wide : ∀ front, viable front → wider front) :
    Predictive read wider ending ts := by
  refine ⟨predictive.takes, ?_⟩
  intro e failed
  cases predictive.stuck e failed with
  | lexical fault before => exact .lexical fault (wide _ before)
  | atEnd eof ends before blames => exact .atEnd eof ends (wide _ before) blames
  | atToken front t behind split before blames steady =>
    exact .atToken front t behind split (wide _ before) blames steady

theorem returns {read : Reader α} {ts : List Token} (a : α)
    (same : ∀ ending ts, read ending ts = .ok (a, ts)) : Predictive read viable ending ts := by
  constructor
  · intro b rest ok
    rw [same] at ok
    cases ok
    exact ⟨[], rfl, fun _ _ _ _ _ => same _ _⟩
  · intro e failed
    rw [same] at failed
    cases failed

theorem stops {read : Reader α} {a : α} {next : Token} {behind : List Token}
    (same : ∀ ending behind, read ending (next :: behind) = .ok (a, next :: behind)) :
    Predictive read viable ending (next :: behind) := by
  constructor
  · intro b rest ok
    rw [same] at ok
    cases ok
    refine ⟨[], rfl, ?_⟩
    rintro _ _ ⟨⟩
    exact same
  · intro e failed
    rw [same] at failed
    cases failed

theorem stops_at_end {read : Reader α} {a : α}
    (same : read ending [] = ending.token >>= fun _ => .ok (a, [])) (before : viable []) :
    Predictive read viable ending [] := by
  constructor
  · intro b rest ok
    rw [same] at ok
    obtain ⟨_, _, ok⟩ := bind_ok ok
    cases ok
    exact ⟨[], rfl, nofun⟩
  · intro e failed
    rw [same] at failed
    cases ending with
    | eof token => cases failed
    | fault f =>
      cases failed
      exact .lexical rfl before

theorem refuses {read : Reader α} {next : Token} {behind : List Token} {e : Stop Error}
    (same : ∀ ending behind, read ending (next :: behind) = .error e) (blames : Blames next e)
    (before : viable []) : Predictive read viable ending (next :: behind) := by
  constructor
  · intro a rest ok
    rw [same] at ok
    cases ok
  · intro f failed
    rw [same] at failed
    cases failed
    exact .atToken [] next behind rfl before blames same

theorem refuses_at_end {read : Reader α} {report : Token → Stop Error}
    (same : read ending [] = ending.token >>= fun found => .error (report found))
    (blames : ∀ t, Blames t (report t)) (before : viable []) :
    Predictive read viable ending [] := by
  constructor
  · intro a rest ok
    rw [same] at ok
    obtain ⟨_, _, ok⟩ := bind_ok ok
    cases ok
  · intro e failed
    rw [same] at failed
    cases ending with
    | eof token =>
      cases failed
      exact .atEnd token rfl before (blames token)
    | fault f =>
      cases failed
      exact .lexical rfl before

theorem accepts {read later : Reader α} {next : Token} {behind : List Token}
    (same : ∀ ending behind, read ending (next :: behind) = later ending behind)
    (further : Predictive later (fun front => viable (next :: front)) ending behind) :
    Predictive read viable ending (next :: behind) := by
  constructor
  · intro a rest ok
    rw [same] at ok
    obtain ⟨front, rfl, steady⟩ := further.takes a rest ok
    refine ⟨next :: front, rfl, ?_⟩
    intro first after split ending behind
    rw [List.cons_append, same]
    exact steady first after split ending behind
  · intro e failed
    rw [same] at failed
    refine stuck_behind [next] (further.stuck e failed) fun more t after _ steady ending after => ?_
    rw [List.singleton_append, same]
    exact steady ending after

theorem agrees {read other : Reader α} {next : Token} {behind : List Token}
    (predictive : Predictive other viable ending (next :: behind))
    (same : ∀ ending behind, read ending (next :: behind) = other ending (next :: behind)) :
    Predictive read viable ending (next :: behind) := by
  have alike {front more : List Token} {t : Token} (split : front ++ t :: more = next :: behind)
      (ending : Ending) (after : List Token) :
      read ending (front ++ t :: after) = other ending (front ++ t :: after) := by
    cases front with
    | nil =>
      obtain ⟨rfl, -⟩ := List.cons.inj split
      exact same ending after
    | cons u front =>
      obtain ⟨rfl, -⟩ := List.cons.inj split
      exact same ending (front ++ t :: after)
  constructor
  · intro a rest ok
    rw [same] at ok
    obtain ⟨front, split, steady⟩ := predictive.takes a rest ok
    refine ⟨front, split, ?_⟩
    rintro t more rfl ending after
    rw [alike split]
    exact steady t more rfl ending after
  · intro e failed
    rw [same] at failed
    refine stuck_behind [] (predictive.stuck e failed) fun more t after split steady ending after => ?_
    rw [List.nil_append, alike split]
    exact steady ending after

theorem before_token {read : Reader α} {a : α} {front more behind : List Token} {t : Token}
    (steady : ∀ next rest, more ++ t :: behind = next :: rest →
      ∀ ending rest, read ending (front ++ next :: rest) = .ok (a, next :: rest))
    (ending : Ending) (other : List Token) :
    read ending (front ++ (more ++ t :: other)) = .ok (a, more ++ t :: other) := by
  cases more with
  | nil => exact steady t behind rfl ending other
  | cons u more => exact steady u (more ++ t :: behind) rfl ending (more ++ t :: other)

theorem bind {first : Reader α} {next : Ending → α × List Token → Result (β × List Token)}
    {ts : List Token} (reads : Predictive first viable ending ts)
    (further : ∀ a rest front, first ending ts = .ok (a, rest) → front ++ rest = ts →
      Predictive (fun ending rest => next ending (a, rest)) (fun more => viable (front ++ more))
        ending rest) :
    Predictive (fun ending ts => first ending ts >>= next ending) viable ending ts := by
  constructor
  · intro b rest ok
    obtain ⟨⟨a, middle⟩, read, ok⟩ := bind_ok ok
    obtain ⟨front, split, steady⟩ := reads.takes a middle read
    obtain ⟨more, rfl, steadyMore⟩ := (further a middle front read split).takes b rest ok
    refine ⟨front ++ more, by rw [List.append_assoc, split], ?_⟩
    rintro t behind rfl ending' behind'
    have taken := before_token steady ending' behind'
    simp only [List.append_assoc, taken]
    exact steadyMore t behind rfl ending' behind'
  · intro e failed
    cases read : first ending ts with
    | error f =>
      simp only [read] at failed
      cases failed
      refine stuck_behind [] (reads.stuck e read) fun more t behind _ steady ending behind => ?_
      simp only [List.nil_append, steady ending behind]
      rfl
    | ok result =>
      obtain ⟨a, middle⟩ := result
      obtain ⟨front, rfl, steady⟩ := reads.takes a middle read
      simp only [read] at failed
      refine stuck_behind front ((further a middle front read rfl).stuck e failed) ?_
      rintro more t behind rfl steadyMore ending' behind'
      have taken := before_token steady ending' behind'
      simp only [taken]
      exact steadyMore ending' behind'

end Predictive

end Formula.Parser
