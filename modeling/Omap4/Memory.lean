import Mathlib.Data.List.Basic

/-!
# Omap4.Memory — ranges of a flat memory

A memory maps addresses to cells.  `load` reads a range, `copyTo` is `memcpy` from a list.
-/

namespace Omap4.Memory

variable {α : Type} (m : ℕ → α) (a b n k : ℕ) (l : List α)

/-- The `n` cells from `a` on. -/
def load : List α := (List.range' a n).map m

/-- The memory with the cells `l` from `a` on. -/
def copyTo : ℕ → α := fun x => if a ≤ x then (l[x - a]?).getD (m x) else m x

@[simp] theorem length_load : (load m a n).length = n := by
  simp [load]

@[simp] theorem load_zero : load m a 0 = [] := rfl

theorem load_succ : load m a (n + 1) = m a :: load m (a + 1) n := by
  rw [load, List.range'_succ, List.map_cons, load]

theorem load_append : load m a (n + k) = load m a n ++ load m (a + n) k := by
  unfold load
  rw [← List.range'_append_1, List.map_append]

variable {a b n l}

theorem load_congr {m m' : ℕ → α} (h : ∀ x, a ≤ x → x < a + n → m x = m' x) :
    load m a n = load m' a n :=
  List.map_congr_left fun x hx => h x (List.mem_range'_1.mp hx).1 (List.mem_range'_1.mp hx).2

/-- A copy does not change what lies beside it. -/
theorem load_copyTo_of_disjoint (h : b + n ≤ a ∨ a + l.length ≤ b) :
    load (copyTo m a l) b n = load m b n := by
  refine load_congr fun x hge hlt => ?_
  unfold copyTo
  split_ifs with hax
  · rw [List.getElem?_eq_none (by omega), Option.getD_none]
  · rfl

theorem load_copyTo : load (copyTo m a l) a l.length = l := by
  refine List.ext_getElem (length_load ..) fun i hi hl => ?_
  have hcell : copyTo m a l (a + i) = l[i] := by
    unfold copyTo
    rw [if_pos (Nat.le_add_right ..), Nat.add_sub_cancel_left, List.getElem?_eq_getElem hl,
      Option.getD_some]
  simpa [load] using hcell

/-- A copy to the end of a range extends it. -/
theorem load_copyTo_end : load (copyTo m (a + n) l) a (n + l.length) = load m a n ++ l := by
  rw [load_append, load_copyTo, load_copyTo_of_disjoint m (.inl (Nat.le_refl _))]

/-- The cells behind a copy are the old ones. -/
theorem copyTo_of_le {x : ℕ} (h : a + l.length ≤ x) : copyTo m a l x = m x := by
  unfold copyTo
  rw [if_pos (by omega), List.getElem?_eq_none (by omega), Option.getD_none]

@[simp] theorem copyTo_nil : copyTo m a [] = m := by
  funext x
  simp [copyTo]

/-- A copy of one cell. -/
theorem copyTo_singleton (v : α) : copyTo m a [v] = Function.update m a v := by
  funext x
  unfold copyTo
  by_cases hx : x = a
  · rw [hx, Function.update_self, if_pos (Nat.le_refl a), Nat.sub_self]
    rfl
  · rw [Function.update_of_ne hx]
    split_ifs with hle
    · rw [List.getElem?_eq_none (by rw [List.length_singleton]; omega), Option.getD_none]
    · rfl

/-- Two copies, one behind the other, are one copy. -/
theorem copyTo_append (l' : List α) :
    copyTo (copyTo m a l) (a + l.length) l' = copyTo m a (l ++ l') := by
  funext x
  unfold copyTo
  by_cases hend : a + l.length ≤ x
  · rw [if_pos hend, if_pos (by omega), if_pos (by omega), List.getElem?_append_right (by omega),
      List.getElem?_eq_none (l := l) (by omega), Option.getD_none, Nat.sub_sub]
  · rw [if_neg hend]
    by_cases hax : a ≤ x
    · rw [if_pos hax, if_pos hax, List.getElem?_append_left (by omega)]
    · rw [if_neg hax, if_neg hax]

theorem load_drop : (load m a n).drop k = load m (a + k) (n - k) := by
  unfold load
  rw [← List.map_drop, List.drop_range', Nat.mul_one]

/-- A copy to the start of a range, with the rest of the range behind it. -/
theorem load_copyTo_start (h : l.length ≤ n) :
    load (copyTo m a l) a n = l ++ (load m a n).drop l.length := by
  have hn : n = l.length + (n - l.length) := by omega
  conv_lhs => rw [hn]
  rw [load_append, load_copyTo, load_copyTo_of_disjoint m (.inr (Nat.le_refl _)), load_drop]

end Omap4.Memory
