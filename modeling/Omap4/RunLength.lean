import Mathlib.Algebra.Order.Ring.Nat
import Mathlib.Data.Nat.Find
import Mathlib.Data.List.Basic

/-!
# Omap4.RunLength — runs and a budget

A run is a count and a value; `expand` writes the runs out.  `within budget rs` is the longest
beginning of `rs` that needs no more than `budget` values.  A decoder that stops at the first run
that does not fit takes just these runs (`within_cons`), also when it sees only a beginning of the
runs (`within_take`).
-/

namespace Omap4.RunLength

variable {α : Type}

def expand (rs : List (ℕ × α)) : List α := rs.flatMap fun r => List.replicate r.1 r.2

/-- The number of values that the runs need. -/
def total (rs : List (ℕ × α)) : ℕ := (rs.map Prod.fst).sum

def within (budget : ℕ) (rs : List (ℕ × α)) : List (ℕ × α) :=
  rs.take (Nat.findGreatest (fun k => total (rs.take k) ≤ budget) rs.length)

@[simp] theorem expand_nil : expand ([] : List (ℕ × α)) = [] := rfl

@[simp] theorem expand_cons (r : ℕ × α) (rs : List (ℕ × α)) :
    expand (r :: rs) = List.replicate r.1 r.2 ++ expand rs := rfl

theorem expand_append (rs ts : List (ℕ × α)) : expand (rs ++ ts) = expand rs ++ expand ts :=
  List.flatMap_append

@[simp] theorem total_nil : total ([] : List (ℕ × α)) = 0 := rfl

@[simp] theorem total_cons (r : ℕ × α) (rs : List (ℕ × α)) : total (r :: rs) = r.1 + total rs := by
  simp [total]

theorem length_expand (rs : List (ℕ × α)) : (expand rs).length = total rs := by
  induction rs with
  | nil => rfl
  | cons r rs ih => rw [expand_cons, List.length_append, List.length_replicate, ih, total_cons]

theorem expand_eq_nil_iff {rs : List (ℕ × α)} : expand rs = [] ↔ ∀ r ∈ rs, r.1 = 0 := by
  unfold expand
  simp [List.flatMap_eq_nil_iff, List.replicate_eq_nil_iff]

theorem findGreatest_succ_shift {P Q : ℕ → Prop} [DecidablePred P] [DecidablePred Q]
    (h : ∀ k, P (k + 1) ↔ Q k) (h0 : Q 0) :
    ∀ n, Nat.findGreatest P (n + 1) = Nat.findGreatest Q n + 1
  | 0 => by
    rw [Nat.findGreatest_eq ((h 0).mpr h0), Nat.findGreatest_zero]
  | n + 1 => by
    have hn := findGreatest_succ_shift h h0 n
    rw [Nat.findGreatest_succ, hn, Nat.findGreatest_succ n]
    simp only [h]
    split_ifs <;> rfl

theorem within_nil (budget : ℕ) : within budget ([] : List (ℕ × α)) = [] := List.take_nil

/-- The first run is taken just if it fits. -/
theorem within_cons (budget : ℕ) (r : ℕ × α) (rs : List (ℕ × α)) :
    within budget (r :: rs) = if r.1 ≤ budget then r :: within (budget - r.1) rs else [] := by
  unfold within
  split_ifs with hr
  · have hshift : ∀ k, total ((r :: rs).take (k + 1)) ≤ budget ↔
        total (rs.take k) ≤ budget - r.1 := by
      intro k
      rw [List.take_succ_cons, total_cons]
      omega
    have hnone : total (rs.take 0) ≤ budget - r.1 := by simp
    rw [List.length_cons, findGreatest_succ_shift hshift hnone, List.take_succ_cons]
  · have hzero : Nat.findGreatest (fun k => total ((r :: rs).take k) ≤ budget) (r :: rs).length =
        0 := by
      rw [Nat.findGreatest_eq_zero_iff]
      intro k hk _ hle
      obtain ⟨k, rfl⟩ : ∃ j, k = j + 1 := ⟨k - 1, by omega⟩
      rw [List.take_succ_cons, total_cons] at hle
      omega
    rw [hzero, List.take_zero]

theorem total_within_le (budget : ℕ) (rs : List (ℕ × α)) : total (within budget rs) ≤ budget := by
  induction rs generalizing budget with
  | nil => exact Nat.zero_le _
  | cons r rs ih =>
    rw [within_cons]
    split_ifs with hr
    · have hrest := ih (budget - r.1)
      rw [total_cons]
      omega
    · exact Nat.zero_le _

theorem within_take (budget : ℕ) (rs : List (ℕ × α)) (k : ℕ) :
    within budget (rs.take k) = (within budget rs).take k := by
  induction rs generalizing budget k with
  | nil => rw [List.take_nil, within_nil, List.take_nil]
  | cons r rs ih =>
    cases k with
    | zero => rfl
    | succ k =>
      rw [List.take_succ_cons, within_cons, within_cons]
      split_ifs with hr
      · rw [List.take_succ_cons, ih]
      · rw [List.take_nil]

end Omap4.RunLength
