/-
# Closing a set, and listing it

A relation that is reflexive and transitive closes a set by adding what its
members lead to (`closing`). What is added from the closure changes nothing
(`closure_eq_of_between`).

A set is listed by sorting and dropping what is repeated; the list is strictly
increasing (`strict_dedup_insertionSort`), so the set determines it.
-/
import Mathlib.Data.List.Sort
import Mathlib.Data.List.Dedup
import Mathlib.Order.Closure
import Mathlib.Order.CompletePartialOrder

namespace Interact

/-- Everything that the members of a set lead to. -/
def closing {α : Type} (R : α → α → Prop) (refl : ∀ a, R a a)
    (trans : ∀ a b c, R a b → R b c → R a c) : ClosureOperator (Set α) where
  toFun s := {b | ∃ a ∈ s, R a b}
  monotone' _ _ h _ hb := hb.imp fun _ ha => ⟨h ha.1, ha.2⟩
  le_closure' _ a ha := ⟨a, ha, refl a⟩
  idempotent' s := by
    apply Set.Subset.antisymm
    · rintro c ⟨b, ⟨a, ha, hab⟩, hbc⟩
      exact ⟨a, ha, trans a b c hab hbc⟩
    · exact fun b hb => ⟨b, hb, refl b⟩

/-- What is added from the closure is there already. -/
theorem closure_eq_of_between {β : Type} [PartialOrder β] (c : ClosureOperator β) {s u : β}
    (h : s ≤ u) (h' : u ≤ c s) : c u = c s :=
  le_antisymm (c.le_closure_iff.mp h') (c.monotone h)

/-- Sorting and then dropping what is repeated leaves a strictly increasing list. -/
theorem strict_dedup_insertionSort {α : Type} [LinearOrder α] (l : List α) :
    (l.insertionSort (· ≤ ·)).dedup.Pairwise (· < ·) := by
  have hle : (l.insertionSort (· ≤ ·)).dedup.Pairwise (· ≤ ·) :=
    (List.pairwise_insertionSort (· ≤ ·) l).sublist (List.dedup_sublist _)
  have hne : (l.insertionSort (· ≤ ·)).dedup.Pairwise (· ≠ ·) := List.nodup_dedup _
  exact (hle.and hne).imp fun h => lt_of_le_of_ne h.1 h.2

end Interact
