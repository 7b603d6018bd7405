import Formula.Proofs.Grammar
import Mathlib.Data.List.Nodup

set_option autoImplicit false

namespace Formula.Expr

-- The way from the root down to a node: which operand is taken at each node.
abbrev Site := List Nat

def nodeAt? : Expr → Site → Option Expr
  | e, [] => some e
  | e, i :: site => (e.children[i]?).bind fun child => child.nodeAt? site

theorem node_at_operand {e child : Expr} {i : Nat} (below : e.children[i]? = some child)
    (site : Site) : e.nodeAt? (i :: site) = child.nodeAt? site := by
  rw [nodeAt?, below, Option.bind_some]

mutual

def postorder : Expr → List Site
  | literal _ _ => [[]]
  | name _ _ => [[]]
  | group inner _ => (postorder inner).map (0 :: ·) ++ [[]]
  | unary _ operand _ => (postorder operand).map (0 :: ·) ++ [[]]
  | binary _ left right _ =>
    (postorder left).map (0 :: ·) ++ ((postorder right).map (1 :: ·) ++ [[]])
  | logical _ left right _ =>
    (postorder left).map (0 :: ·) ++ ((postorder right).map (1 :: ·) ++ [[]])
  | ternary condition whenTrue whenFalse _ =>
    (postorder condition).map (0 :: ·) ++
      ((postorder whenTrue).map (1 :: ·) ++ ((postorder whenFalse).map (2 :: ·) ++ [[]]))
  | call _ args _ => postorderFrom 0 args ++ [[]]

def postorderFrom (i : Nat) : List Expr → List Site
  | [] => []
  | e :: es => (postorder e).map (i :: ·) ++ postorderFrom (i + 1) es

end

theorem postorder_eq (e : Expr) : e.postorder = postorderFrom 0 e.children ++ [[]] := by
  cases e <;> simp [postorder, postorderFrom, children]

theorem mem_postorder_from {i : Nat} {es : List Expr} {site : Site} :
    site ∈ postorderFrom i es ↔
      ∃ j e below, es[j]? = some e ∧ below ∈ e.postorder ∧ site = (i + j) :: below := by
  induction es generalizing i with
  | nil => simp [postorderFrom]
  | cons e es ih =>
    rw [postorderFrom, List.mem_append, List.mem_map, ih]
    constructor
    · rintro (⟨below, member, rfl⟩ | ⟨j, other, below, found, member, rfl⟩)
      · exact ⟨0, e, below, rfl, member, rfl⟩
      · exact ⟨j + 1, other, below, found, member, by rw [Nat.add_right_comm, Nat.add_assoc]⟩
    · rintro ⟨j, other, below, found, member, rfl⟩
      cases j with
      | zero =>
        cases found
        exact .inl ⟨below, member, rfl⟩
      | succ j =>
        exact .inr ⟨j, other, below, found, member, by rw [Nat.add_right_comm, Nat.add_assoc]⟩

theorem mem_postorder {e : Expr} {site : Site} :
    site ∈ e.postorder ↔ ∃ n, e.nodeAt? site = some n := by
  induction site generalizing e with
  | nil => simp [postorder_eq, nodeAt?]
  | cons i site ih =>
    rw [postorder_eq, List.mem_append, mem_postorder_from]
    simp only [List.mem_singleton, List.cons_ne_nil, or_false, Nat.zero_add, List.cons.injEq]
    constructor
    · rintro ⟨j, child, below, found, member, rfl, rfl⟩
      rw [node_at_operand found]
      exact ih.mp member
    · rintro ⟨n, found⟩
      cases operand : e.children[i]? with
      | none => simp [nodeAt?, operand] at found
      | some child =>
        rw [node_at_operand operand] at found
        exact ⟨i, child, site, operand, ih.mpr ⟨n, found⟩, rfl, rfl⟩

theorem postorder_from_nodup {es : List Expr} (each : ∀ e ∈ es, e.postorder.Nodup) (i : Nat) :
    (postorderFrom i es).Nodup := by
  induction es generalizing i with
  | nil => exact .nil
  | cons e es ih =>
    have later := ih (fun other member => each other (List.mem_cons_of_mem _ member)) (i + 1)
    have first := each e List.mem_cons_self
    rw [postorderFrom, List.nodup_append]
    refine ⟨first.map (List.cons_injective), later, ?_⟩
    intro site member other member' same
    obtain ⟨below, -, rfl⟩ := List.mem_map.mp member
    obtain ⟨j, _, _, -, -, rfl⟩ := mem_postorder_from.mp member'
    have := (List.cons.inj same).1
    omega

theorem postorder_nodup (e : Expr) : e.postorder.Nodup := by
  rw [postorder_eq, List.nodup_append]
  refine ⟨postorder_from_nodup (fun child below => ?_) 0, List.nodup_singleton _, ?_⟩
  · have smaller := child_smaller below
    exact postorder_nodup child
  · intro site member other last same
    obtain ⟨_, _, _, -, -, rfl⟩ := mem_postorder_from.mp member
    rw [List.mem_singleton.mp last] at same
    cases same
termination_by sizeOf e

end Formula.Expr
