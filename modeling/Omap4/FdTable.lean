import Mathlib.Data.List.Perm.Subperm
import Mathlib.Data.List.Range

/-!
# Omap4.FdTable — descriptor tables

The open descriptors of a process, each with what it refers to.  `open` hands out the lowest
descriptor that is not open (`openFd_get`: it was free, so no other descriptor changes), `close`
makes one free.
-/

namespace Omap4

/-- The open descriptors of a process and what they refer to. -/
structure FdTable (δ : Type) where
  entries : List (ℕ × δ)
  deriving DecidableEq, Repr

namespace FdTable

variable {δ : Type}

def get (t : FdTable δ) (fd : ℕ) : Option δ := t.entries.lookup fd

/-- The lowest descriptor that is not open. -/
def lowest (t : FdTable δ) : ℕ :=
  ((List.range (t.entries.length + 1)).find? fun n => (t.get n).isNone).getD 0

def openFd (t : FdTable δ) (d : δ) : FdTable δ := ⟨(t.lowest, d) :: t.entries⟩

def close (t : FdTable δ) (fd : ℕ) : FdTable δ := ⟨t.entries.filter fun e => e.1 ≠ fd⟩

/-- What the descriptors refer to changes by `g`; which are open does not. -/
def map (g : δ → δ) (t : FdTable δ) : FdTable δ := ⟨t.entries.map fun e => (e.1, g e.2)⟩

theorem get_isSome_iff (t : FdTable δ) (fd : ℕ) :
    (t.get fd).isSome ↔ fd ∈ t.entries.map Prod.fst := by
  unfold get
  induction t.entries with
  | nil => simp
  | cons e l ih =>
    obtain ⟨n, d⟩ := e
    by_cases h : fd = n
    · simp [h]
    · simp only [List.lookup_cons, beq_eq_false_iff_ne.mpr h, List.map_cons,
        List.mem_cons, h, false_or]
      exact ih

/-- Some descriptor up to the number of open ones is free. -/
theorem get_lowest (t : FdTable δ) : t.get t.lowest = none := by
  cases h : (List.range (t.entries.length + 1)).find? fun n => (t.get n).isNone with
  | some n =>
    have hn := List.find?_some h
    unfold lowest
    rw [h]
    simpa using hn
  | none =>
    have hall := List.find?_eq_none.mp h
    have hsub : List.range (t.entries.length + 1) ⊆ t.entries.map Prod.fst := by
      intro n hn
      have hsome := hall n hn
      rw [← get_isSome_iff]
      cases hg : t.get n with
      | none => simp [hg] at hsome
      | some d => rfl
    have hlen := (List.subperm_of_subset List.nodup_range hsub).length_le
    rw [List.length_range, List.length_map] at hlen
    omega

@[simp] theorem get_openFd_self (t : FdTable δ) (d : δ) : (t.openFd d).get t.lowest = some d := by
  simp [get, openFd]

theorem get_openFd_of_ne (t : FdTable δ) (d : δ) {fd : ℕ} (h : fd ≠ t.lowest) :
    (t.openFd d).get fd = t.get fd := by
  simp only [get, openFd, List.lookup_cons, beq_eq_false_iff_ne.mpr h]

/-- Opening a descriptor changes no descriptor that is open. -/
theorem get_openFd {t : FdTable δ} {fd : ℕ} {x : δ} (d : δ) (h : t.get fd = some x) :
    (t.openFd d).get fd = some x := by
  rw [get_openFd_of_ne, h]
  rintro rfl
  rw [get_lowest] at h
  cases h

theorem get_close_self (t : FdTable δ) (fd : ℕ) : (t.close fd).get fd = none := by
  rw [← Option.not_isSome_iff_eq_none, get_isSome_iff]
  simp [close]

theorem get_close_of_ne (t : FdTable δ) {fd n : ℕ} (h : n ≠ fd) :
    (t.close fd).get n = t.get n := by
  unfold get close
  induction t.entries with
  | nil => rfl
  | cons e l ih =>
    obtain ⟨m, d⟩ := e
    by_cases hm : m = fd
    · have hnm : n ≠ m := fun e => h (e.trans hm)
      rw [List.filter_cons_of_neg (by simp [hm]), ih, List.lookup_cons, beq_eq_false_iff_ne.mpr hnm]
    · rw [List.filter_cons_of_pos (by simp [hm]), List.lookup_cons, List.lookup_cons, ih]

theorem get_map (g : δ → δ) (t : FdTable δ) (fd : ℕ) : (t.map g).get fd = (t.get fd).map g := by
  unfold get map
  induction t.entries with
  | nil => rfl
  | cons e l ih =>
    obtain ⟨m, d⟩ := e
    by_cases h : fd = m
    · simp [h]
    · simp only [List.map_cons, List.lookup_cons, beq_eq_false_iff_ne.mpr h]
      exact ih

end FdTable

end Omap4
