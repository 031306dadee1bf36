import Mathlib.Data.List.TakeWhile
import Mathlib.Data.List.Perm.Basic
import Mathlib.Data.Int.Init
import Mathlib.Algebra.Ring.Int.Defs

/-!
# Omap4.ChargeOnly.Queue — what the alarm queue is for

The alarms of `charge_only_mode` as a list: a new alarm goes behind the alarms that are not later
than it (`Queue.insert`), cancelling takes all alarms of a callback (`Queue.cancel`), and the first
alarm is the one that is due first.  `Queue.Ordered` is the order this keeps: by deadline, and by
age where deadlines are equal.  `alarm.c` implements it with a linked list
(`Omap4.ChargeOnly.Alarm`).
-/

namespace Omap4.ChargeOnly

/-- `struct timeval`. -/
structure Timeval where
  sec : ℤ
  usec : ℤ
  deriving DecidableEq, Repr

/-- The comparison of the code: of the seconds, and of the microseconds where these are equal. -/
def Timeval.before (s t : Timeval) : Prop := s.sec < t.sec ∨ s.sec = t.sec ∧ s.usec < t.usec

instance (s t : Timeval) : Decidable (s.before t) := inferInstanceAs (Decidable (_ ∨ _))

theorem Timeval.before_of_before_of_not {s t u : Timeval} (h₁ : s.before t) (h₂ : ¬ u.before t) :
    s.before u := by
  unfold before at *
  omega

theorem Timeval.before_of_not_of_before {s t u : Timeval} (h₁ : ¬ t.before s) (h₂ : t.before u) :
    s.before u := by
  unfold before at *
  omega

theorem Timeval.before_or_eq {s t : Timeval} (h : ¬ t.before s) : s.before t ∨ s = t := by
  obtain ⟨s₁, s₂⟩ := s
  obtain ⟨t₁, t₂⟩ := t
  simp only [before, mk.injEq] at *
  omega

theorem Timeval.not_before_of_before {s t : Timeval} (h : s.before t) : ¬ t.before s := by
  unfold before at *
  omega

/-- An alarm that was set: its callback and what this is called with.  The number is not in the
code; it says which call of `alarm_set_relative` set the alarm. -/
structure Alarm (F C : Type) where
  id : ℕ
  time : Timeval
  f : F
  cookie : C
  deriving DecidableEq, Repr

namespace Queue

variable {F C : Type} {a : Alarm F C} {l : List (Alarm F C)}

/-- The alarms that a new one with deadline `t` is put behind. -/
def upTo (t : Timeval) (x : Alarm F C) : Bool := ¬ t.before x.time

def insert (a : Alarm F C) (l : List (Alarm F C)) : List (Alarm F C) :=
  l.takeWhile (upTo a.time) ++ a :: l.dropWhile (upTo a.time)

def cancel [DecidableEq F] (f : F) (l : List (Alarm F C)) : List (Alarm F C) := l.filter (·.f ≠ f)

/-- Due first, or set first where the deadlines are equal. -/
def Ahead (x y : Alarm F C) : Prop := x.time.before y.time ∨ x.time = y.time ∧ x.id < y.id

def Ordered (l : List (Alarm F C)) : Prop := l.Pairwise Ahead

theorem Ahead.not_before {x y : Alarm F C} (h : Ahead x y) : ¬ y.time.before x.time := by
  obtain h | ⟨h, -⟩ := h
  · exact Timeval.not_before_of_before h
  · rw [h]
    unfold Timeval.before
    omega

theorem insert_perm (a : Alarm F C) (l : List (Alarm F C)) : (insert a l).Perm (a :: l) := by
  refine List.perm_middle.trans ?_
  rw [List.takeWhile_append_dropWhile]

/-- Behind the first alarm that is later than `t` every alarm is. -/
theorem before_of_mem_dropWhile {t : Timeval} (hl : Ordered l) {x : Alarm F C}
    (hx : x ∈ l.dropWhile (upTo t)) : t.before x.time := by
  induction l with
  | nil => cases hx
  | cons y l ih =>
    obtain ⟨hy, hl⟩ := List.pairwise_cons.mp hl
    by_cases hyt : t.before y.time
    · have hdrop : (y :: l).dropWhile (upTo t) = y :: l := by simp [upTo, hyt]
      rw [hdrop] at hx
      obtain rfl | hx := List.mem_cons.mp hx
      · exact hyt
      · exact Timeval.before_of_before_of_not hyt (hy x hx).not_before
    · have hdrop : (y :: l).dropWhile (upTo t) = l.dropWhile (upTo t) := by simp [upTo, hyt]
      rw [hdrop] at hx
      exact ih hl hx

/-- **A new alarm keeps the order.** -/
theorem insert_ordered (hl : Ordered l) (ha : ∀ x ∈ l, x.id < a.id) : Ordered (insert a l) := by
  have hsplit := List.takeWhile_append_dropWhile (p := upTo a.time) (l := l)
  have hparts := hl
  rw [Ordered, ← hsplit, List.pairwise_append] at hparts
  have hfront : ∀ x ∈ l.takeWhile (upTo a.time), Ahead x a := by
    intro x hx
    have hle : ¬ a.time.before x.time := by simpa [upTo] using List.mem_takeWhile_imp hx
    have hid := ha x (hsplit ▸ List.mem_append_left _ hx)
    exact (Timeval.before_or_eq hle).imp id fun heq => ⟨heq, hid⟩
  refine List.pairwise_append.mpr ⟨hparts.1, List.pairwise_cons.mpr ⟨?_, hparts.2.1⟩, ?_⟩
  · exact fun x hx => .inl (before_of_mem_dropWhile hl hx)
  · intro x hx y hy
    obtain rfl | hy := List.mem_cons.mp hy
    · exact hfront x hx
    · exact hparts.2.2 x hx y hy

/-- The first alarm is due first. -/
theorem Ordered.not_before_head {x : Alarm F C} {k : List (Alarm F C)} (h : Ordered (x :: k)) :
    ∀ y ∈ x :: k, ¬ y.time.before x.time := by
  intro y hy
  obtain rfl | hy := List.mem_cons.mp hy
  · unfold Timeval.before
    omega
  · exact ((List.pairwise_cons.mp h).1 y hy).not_before

theorem cancel_ordered [DecidableEq F] (f : F) (hl : Ordered l) : Ordered (cancel f l) :=
  hl.filter _

/-- What is cancelled and what stays. -/
theorem cancel_perm [DecidableEq F] (f : F) (l : List (Alarm F C)) :
    (cancel f l ++ l.filter (·.f = f)).Perm l := by
  have h := List.filter_append_perm (fun x : Alarm F C => decide (x.f ≠ f)) l
  simpa [cancel] using h

end Queue

end Omap4.ChargeOnly
