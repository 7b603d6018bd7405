import Formula.Catalogue
import Formula.Proofs.LexicalGrammar
import Formula.Proofs.RaisedErrors
import Formula.Proofs.ScaleWords

set_option autoImplicit false

namespace Formula

namespace Decimal

structure Gate {α : Type} (d : Decimal) (outcome accepted : Result α) (refusal : Error) :
    Prop where
  inside : d.Bounded → outcome = accepted
  outside : d.scale ≠ lowestScale → ¬ d.Bounded → outcome = .error (.failed refusal)
  lowest : d.scale = lowestScale → outcome = .error .panicked

theorem gate_of_range {α : Type} (d : Decimal) (accepted : Result α) (refusal : Error) :
    d.Gate (d.byRange accepted (.error (.failed refusal))) accepted refusal :=
  ⟨by_range_bounded _ _, by_range_past _ _, by_range_lowest _ _⟩

theorem ensured_at_node (d : Decimal) (operation : String) (span : Span) :
    d.Gate (atNode span ((d.ensureInRange operation).map Value.number)) (.ok (.number d))
      (.located (.numberOutOfRange operation) span) := by
  have gate := gate_of_range d (.ok (Value.number d))
    (Error.located (.numberOutOfRange operation) span)
  have same : atNode span ((d.ensureInRange operation).map Value.number) =
      d.byRange (.ok (.number d)) (.error (.located (.numberOutOfRange operation) span)) := by
    rw [ensureInRange, byRange, byRange]
    rcases d.inRange with _ | _ | _ <;> rfl
  rw [same]
  exact gate

end Decimal

open Decimal (lowestScale Gate)

namespace Lexer

variable {cursor : Cursor} {n : Numeral} {rest : List Char}

def numeralSpan (cursor : Cursor) (n : Numeral) : Span :=
  ⟨cursor.skip.position, cursor.skip.position + byteLength n.text⟩

def numeralError (cursor : Cursor) (n : Numeral) (fault : NumberFault) : Error :=
  .located (malformation (String.ofList n.text) fault).cause (numeralSpan cursor n)

theorem next_numeral (here : cursor.skip.rest = n.text ++ rest) (stops : Stops n.text rest) :
    cursor.next.1 = (finished n.text rest).place cursor.skip.position := by
  obtain ⟨c, cs, first, read⟩ := munch_spelled (.number n) stops
  rw [next_of_more (here.trans first), read]
  rfl

theorem fitting_numeral (here : cursor.skip.rest = n.text ++ rest) (stops : Stops n.text rest)
    (fits : n.Fits) :
    n.decimal.Gate cursor.next.1
      (.ok ⟨.number n.decimal, String.ofList n.text, numeralSpan cursor n⟩)
      (numeralError cursor n .outOfRange) := by
  have read : Decimal.read n.text = .ok n.decimal :=
    (Decimal.read_signed_iff false n n.decimal).mpr ⟨fits, rfl⟩
  have gate := Decimal.gate_of_range n.decimal
    (.ok ⟨.number n.decimal, String.ofList n.text, numeralSpan cursor n⟩ : Result Token)
    (numeralError cursor n .outOfRange)
  have same : cursor.next.1 = n.decimal.byRange
      (.ok ⟨.number n.decimal, String.ofList n.text, numeralSpan cursor n⟩)
      (.error (.failed (numeralError cursor n .outOfRange))) := by
    rw [next_numeral here stops, finished, literal, read, Decimal.byRange]
    dsimp only [Munch.place]
    rw [Decimal.byRange]
    rcases n.decimal.inRange with _ | _ | _ <;> rfl
  rw [same]
  exact gate

theorem unfit_numeral (here : cursor.skip.rest = n.text ++ rest) (stops : Stops n.text rest)
    (unfit : ¬ n.Fits) : ∃ fault, cursor.next.1 =
      .error (.failed (numeralError cursor n (.unreadable fault))) := by
  rw [next_numeral here stops, finished, literal]
  cases read : Decimal.read n.text with
  | error fault => exact ⟨fault, rfl⟩
  | ok d => exact absurd ((Decimal.read_signed_iff false n d).mp read).1 unfit

end Lexer

namespace Expr

variable {env : Environment} {n : String} {args : List Expr} {f : Function} {values : List Value}

theorem called_outcome (found : env.get? n = some (.function f))
    (given : List.Forall₂ (fun arg value => (arg.eval env).outcome = .ok value) args values)
    (span : Span) : ((call n args span).eval env).outcome =
      (f.call values).outcome.mapError (Stop.map (callError f span)) >>= callResult n span := by
  have callee : lookUpFunction env n span = .ok f := by rw [lookUpFunction, found]
  rw [eval_call callee, Traced.bind_from (eval_all_of_values given), Traced.outcome_bind]
  rfl

theorem call_outcome {v : Value} (found : env.get? n = some (.function f))
    (given : List.Forall₂ (fun arg value => (arg.eval env).outcome = .ok value) args values)
    (returned : (f.call values).outcome = .ok v) (span : Span) :
    ((call n args span).eval env).outcome = callResult n span v := by
  rw [called_outcome found given, returned]
  rfl

theorem returned_number {d : Decimal} (found : env.get? n = some (.function f))
    (given : List.Forall₂ (fun arg value => (arg.eval env).outcome = .ok value) args values)
    (returned : (f.call values).outcome = .ok (.number d)) (span : Span) :
    d.Gate ((call n args span).eval env).outcome (.ok (.number d))
      (.located (.numberOutOfRange (n ++ "()")) span) := by
  rw [call_outcome found given returned]
  exact Decimal.ensured_at_node d _ span

end Expr

theorem Catalogue.to_number_computes (text : String) :
    (functions[14].compute [.text text] : Result Value) =
      match Decimal.ofText? text with
      | some d => .ok (.number d)
      | none => invalid "toNumber" ("'" ++ text ++ "' is not a number") := rfl

theorem Catalogue.to_number_call {f : Function} (default : f ∈ functions)
    (named : f.name = "toNumber") {text : String} {d : Decimal}
    (read : Decimal.ofText? text = some d) :
    (f.call [.text text]).outcome = .ok (.number d) := by
  have only : functions.filter (fun g => g.name == "toNumber") = [functions[14]] := rfl
  have this : f ∈ functions.filter fun g => g.name == "toNumber" :=
    List.mem_filter.mpr ⟨default, beq_iff_eq.mpr named⟩
  rw [only, List.mem_singleton] at this
  rw [this]
  refine ((Function.verified_call (f := (fixed "toNumber" [.string] .number _).function) rfl rfl
    nofun).trans (to_number_computes text)).trans ?_
  rw [read]

/-- The magnitude of a scale overflows at the lowest one. Any other number is in range if its scale
and its digits are. So it is where a variable is declared, where the host returns a number, where a
literal denotes one, and where one is read from a text: it is accepted if it is in range, refused if
it is not, and at the lowest scale there is a panic. A literal that cannot be read is malformed. -/
theorem range_gate (d : Decimal) :
    (d.inRange = none ↔ d.scale = lowestScale) ∧
    (d.inRange = some true ↔ d.Bounded) ∧
    (∀ (env : Environment) (name : String),
      d.Gate (env.declareVariable name (.number d)) (env.declare name (.value (.number d)))
        (.of (.numberOutOfRange name))) ∧
    (∀ (env : Environment) (n : String) (f : Function) (args : List Expr) (values : List Value)
      (span : Span), env.get? n = some (.function f) →
      List.Forall₂ (fun arg value => (arg.eval env).outcome = .ok value) args values →
      (f.call values).outcome = .ok (.number d) →
      d.Gate ((Expr.call n args span).eval env).outcome (.ok (.number d))
        (.located (.numberOutOfRange (n ++ "()")) span)) ∧
    (∀ (cursor : Lexer.Cursor) (n : Numeral) (rest : List Char),
      cursor.skip.rest = n.text ++ rest → Lexer.Stops n.text rest → n.decimal = d →
      (n.Fits → d.Gate cursor.next.1
        (.ok ⟨.number d, String.ofList n.text, Lexer.numeralSpan cursor n⟩)
        (Lexer.numeralError cursor n .outOfRange)) ∧
      (¬ n.Fits → ∃ fault, cursor.next.1 =
        .error (.failed (Lexer.numeralError cursor n (.unreadable fault))))) ∧
    ∀ (env : Environment) (f : Function) (arg : Expr) (text : String) (span : Span),
      f ∈ Catalogue.functions → env.get? "toNumber" = some (.function f) → f.name = "toNumber" →
      (arg.eval env).outcome = .ok (.text text) → Decimal.ofText? text = some d →
      d.Gate ((Expr.call "toNumber" [arg] span).eval env).outcome (.ok (.number d))
        (.located (.numberOutOfRange "toNumber()") span) := by
  refine ⟨Decimal.in_range_none, Decimal.in_range_iff_bounded, ?_, ?_, ?_, ?_⟩
  · intro env name
    exact Decimal.gate_of_range d _ _
  · intro env n f args values span found given returned
    exact Expr.returned_number found given returned span
  · rintro cursor n rest here stops rfl
    exact ⟨Lexer.fitting_numeral here stops, Lexer.unfit_numeral here stops⟩
  · intro env f arg text span default found named given read
    exact Expr.returned_number found (.cons given .nil)
      (Catalogue.to_number_call default named read) span

def hugePower : Power :=
  ⟨'e', [], ['1', '0', '0', '0', '0', '1'], .inl rfl, .inl rfl, by decide,
    List.all_eq_true.mp (by decide)⟩

def hugeNumeral : Numeral :=
  ⟨['1'], [], some hugePower, by decide, List.all_eq_true.mp (by decide), all_digits_nil⟩

theorem range_gate_of_ends :
    (Lexer.Cursor.start "1e100001").next.1 =
      .error (.failed ⟨.malformedNumber "1e100001" "the exponent is outside the supported range",
        some ⟨0, 8⟩, none⟩) ∧
    Environment.empty.declareVariable "x" (.number ⟨1, 100001⟩) =
      .error (.of (.numberOutOfRange "x")) ∧
    ((Expr.call "toNumber" [.literal (.text "1e100001") ⟨9, 19⟩] ⟨0, 20⟩).eval
        (.ofFunction Catalogue.functions[14])).outcome =
      .error (.located (.numberOutOfRange "toNumber()") ⟨0, 20⟩) := by
  have past (d : Decimal) (out : d.inRange = some false) : d.scale ≠ lowestScale ∧ ¬ d.Bounded :=
    Decimal.in_range_iff_past.mp out
  have read : Decimal.ofText? "1e100001" = some ⟨1, -100001⟩ := by decide +kernel
  obtain ⟨other, far⟩ := past ⟨1, -100001⟩ (by decide +kernel)
  obtain ⟨other', far'⟩ := past ⟨1, 100001⟩ (by decide +kernel)
  obtain ⟨-, -, -, -, literals, texts⟩ := range_gate ⟨1, -100001⟩
  obtain ⟨-, -, declarations, -⟩ := range_gate ⟨1, 100001⟩
  refine ⟨?_, ?_, ?_⟩
  · exact ((literals (.start "1e100001") hugeNumeral [] (by decide +kernel)
      nofun (by decide +kernel)).1 ⟨by decide +kernel, by decide +kernel⟩).outside other far
  · exact (declarations .empty "x").outside other' far'
  · exact (texts _ _ _ _ ⟨0, 20⟩ (List.getElem_mem _) rfl rfl rfl read).outside other far

/-- A literal at the lowest scale is not refused: its magnitude overflows. -/
theorem lowest_literal_panics :
    (Lexer.Cursor.start "1e9223372036854775808").next.1 = .error .panicked ∧
    Decimal.inRange ⟨1, lowestScale⟩ = none ∧ ¬ Decimal.Bounded ⟨1, lowestScale⟩ :=
  ⟨by decide +kernel, by decide +kernel, fun bounded => Decimal.bounded_off_lowest bounded rfl⟩

end Formula
