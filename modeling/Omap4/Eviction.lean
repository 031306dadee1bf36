import Mathlib.Data.List.Perm.Basic
import Mathlib.Data.List.Perm.Lattice
import Mathlib.Algebra.BigOperators.Group.List.Basic
import Mathlib.Algebra.Order.Ring.Int
import Mathlib.Order.Basic

/-!
# Omap4.Eviction — keeping a collection within a quota

A collection of things with a weight and an age is over its quota, and the oldest ones go until it
is not. `Evicts` leaves open which one of several equally old things goes first, and in which order
the things are kept.  What follows from it does not depend on either: the things go in the order of
their age (`Evicts.sorted`), nothing that is kept is older than something that went
(`Evicts.le_kept`), and not one thing more went than had to (`Evicts.exceeds`).
-/

namespace Omap4

variable {α ι : Type} [LinearOrder ι] {key : α → ι} {weight : α → ℤ} {max : ℤ}

/-- From the collection `l`, the things `gone` are taken out in turn, and `kept` is left. -/
inductive Evicts (key : α → ι) (weight : α → ℤ) (max : ℤ) : List α → List α → List α → Prop
  | stop {l : List α} : (l.map weight).sum ≤ max → Evicts key weight max l [] l
  | evict {l l' gone kept : List α} {x : α} : max < (l.map weight).sum → l.Perm (x :: l') →
      (∀ y ∈ l, key x ≤ key y) → Evicts key weight max l' gone kept →
      Evicts key weight max l (x :: gone) kept

namespace Evicts

variable {l gone kept : List α}

theorem perm (h : Evicts key weight max l gone kept) : l.Perm (gone ++ kept) := by
  induction h with
  | stop _ => exact List.Perm.refl _
  | evict _ hperm _ _ ih => exact hperm.trans (ih.cons _)

theorem sum_kept (h : Evicts key weight max l gone kept) : (kept.map weight).sum ≤ max := by
  induction h with
  | stop h => exact h
  | evict _ _ _ _ ih => exact ih

/-- Whatever is left is not older than the first thing that went. -/
theorem le_rest {x : α} {l' : List α} (hperm : l.Perm (x :: l')) (hmin : ∀ y ∈ l, key x ≤ key y)
    (h : Evicts key weight max l' gone kept) : ∀ y ∈ gone ++ kept, key x ≤ key y := by
  intro y hy
  refine hmin y (hperm.mem_iff.mpr (List.mem_cons_of_mem x ?_))
  exact h.perm.mem_iff.mpr hy

theorem sorted (h : Evicts key weight max l gone kept) :
    gone.Pairwise fun x y => key x ≤ key y := by
  induction h with
  | stop _ => exact List.Pairwise.nil
  | evict _ hperm hmin hrest ih =>
    refine List.pairwise_cons.mpr ⟨fun y hy => ?_, ih⟩
    exact le_rest hperm hmin hrest y (List.mem_append_left _ hy)

theorem le_kept (h : Evicts key weight max l gone kept) :
    ∀ x ∈ gone, ∀ y ∈ kept, key x ≤ key y := by
  induction h with
  | stop _ => simp
  | evict _ hperm hmin hrest ih =>
    intro x hx y hy
    rcases List.mem_cons.mp hx with rfl | hx
    · exact le_rest hperm hmin hrest y (List.mem_append_right _ hy)
    · exact ih x hx y hy

/-- Before each thing went, the quota was exceeded. -/
theorem exceeds (h : Evicts key weight max l gone kept) :
    ∀ j, j < gone.length → max < ((gone.drop j ++ kept).map weight).sum := by
  induction h with
  | stop _ => simp
  | evict hover hperm _ hrest ih =>
    intro j hj
    cases j with
    | zero =>
      rw [List.drop_zero, List.cons_append, ← ((hperm.trans (hrest.perm.cons _)).map weight).sum_eq]
      exact hover
    | succ j => exact ih j (by simpa using hj)

end Evicts

end Omap4
