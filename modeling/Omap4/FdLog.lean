import Mathlib.Data.List.Basic
import Mathlib.Data.List.Count

/-!
# Omap4.FdLog — the descriptors of a call

What a call opens and closes.  Each `open` that succeeds is a descriptor of its own, also where the
number was in use before: descriptors are counted from 0 in the order of the opens.  `Holds l held`
says that the descriptors `held` are open and every other one was closed exactly once; it is kept by
an `open` and by a `close` of a descriptor that is held.
-/

namespace Omap4

/-- What was opened, the first one first, and the descriptors that were closed, the last one
first. -/
structure FdLog (δ : Type) where
  opened : List δ
  closed : List ℕ
  deriving DecidableEq, Repr

namespace FdLog

variable {δ : Type} {l : FdLog δ} {held : List ℕ} {fd : ℕ}

def empty : FdLog δ := ⟨[], []⟩

/-- The descriptor that the next `open` returns. -/
def next (l : FdLog δ) : ℕ := l.opened.length

def openFd (l : FdLog δ) (d : δ) : FdLog δ := ⟨l.opened ++ [d], l.closed⟩

def close (l : FdLog δ) (fd : ℕ) : FdLog δ := ⟨l.opened, fd :: l.closed⟩

/-- Every descriptor that was opened has been closed exactly once. -/
def Balanced (l : FdLog δ) : Prop := ∀ fd, fd < l.next → l.closed.count fd = 1

structure Holds (l : FdLog δ) (held : List ℕ) : Prop where
  count : ∀ fd, fd < l.next → l.closed.count fd = if fd ∈ held then 0 else 1
  closed_lt : ∀ fd ∈ l.closed, fd < l.next
  held_lt : ∀ fd ∈ held, fd < l.next

@[simp] theorem next_openFd (d : δ) : (l.openFd d).next = l.next + 1 := by
  simp [next, openFd]

@[simp] theorem next_close : (l.close fd).next = l.next := rfl

theorem holds_empty : Holds (empty : FdLog δ) [] :=
  ⟨fun _ h => absurd h (Nat.not_lt_zero _), by simp [empty], by simp⟩

theorem Holds.next_notMem (h : Holds l held) : l.next ∉ held :=
  fun hmem => Nat.lt_irrefl _ (h.held_lt _ hmem)

theorem Holds.openFd (h : Holds l held) (d : δ) : Holds (l.openFd d) (l.next :: held) where
  count := by
    intro fd hfd
    rw [next_openFd] at hfd
    show l.closed.count fd = _
    by_cases hnew : fd = l.next
    · have hnot : fd ∉ l.closed := fun hmem => absurd (h.closed_lt fd hmem) (by omega)
      rw [List.count_eq_zero_of_not_mem hnot, if_pos (by simp [hnew])]
    · rw [h.count fd (by omega)]
      simp [hnew]
  closed_lt := by
    intro fd hfd
    rw [next_openFd]
    exact Nat.lt_succ_of_lt (h.closed_lt fd hfd)
  held_lt := by
    intro fd hfd
    rw [next_openFd]
    rcases List.mem_cons.mp hfd with rfl | hfd
    · exact Nat.lt_succ_self _
    · exact Nat.lt_succ_of_lt (h.held_lt fd hfd)

/-- The descriptor that is named first is closed. -/
theorem Holds.close (h : Holds l (fd :: held)) (hnot : fd ∉ held) : Holds (l.close fd) held where
  count := by
    intro n hn
    show (fd :: l.closed).count n = _
    have hold := h.count n hn
    by_cases hnew : n = fd
    · rw [hnew, if_pos List.mem_cons_self] at hold
      rw [hnew, List.count_cons_self, hold, if_neg hnot]
    · rw [List.count_cons_of_ne (Ne.symm hnew), hold]
      simp [hnew]
  closed_lt := by
    intro n hn
    rcases List.mem_cons.mp hn with rfl | hn
    · exact h.held_lt n List.mem_cons_self
    · exact h.closed_lt n hn
  held_lt := fun n hn => h.held_lt n (List.mem_cons_of_mem fd hn)

/-- The order in which the descriptors are named does not matter. -/
theorem Holds.swap {a b : ℕ} (h : Holds l (a :: b :: held)) : Holds l (b :: a :: held) := by
  have hmem : ∀ n, n ∈ a :: b :: held ↔ n ∈ b :: a :: held :=
    fun n => (List.Perm.swap b a held).mem_iff
  refine ⟨fun n hn => ?_, h.closed_lt, fun n hn => h.held_lt n ((hmem n).mpr hn)⟩
  rw [h.count n hn]
  exact if_congr (hmem n) rfl rfl

/-- A call that holds nothing when it returns is balanced. -/
theorem Holds.balanced (h : Holds l []) : Balanced l := by
  intro fd hfd
  rw [h.count fd hfd, if_neg List.not_mem_nil]

/-- A call that still holds a descriptor is not. -/
theorem Holds.not_balanced (h : Holds l (fd :: held)) : ¬ Balanced l := by
  intro hall
  have hlt : fd < l.next := h.held_lt fd List.mem_cons_self
  have hcount := h.count fd hlt
  rw [if_pos List.mem_cons_self, hall fd hlt] at hcount
  cases hcount

end FdLog

end Omap4
