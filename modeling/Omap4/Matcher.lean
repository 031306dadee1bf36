import Mathlib.Data.List.Basic

/-!
# Omap4.Matcher — a counter that follows a pattern without fall-back

The counter is the number of symbols matched so far.  A symbol that matches advances it, any other
sets it to 0, whatever part of the pattern the last symbols make up.  A text is failed attempts and
then as much of the pattern as the counter says (`Attempted.append`), and this splitting determines
the counter (`Attempted.unique`).
-/

namespace Omap4.Matcher

variable {α : Type} {pattern text : List α} {i j : ℕ}

/-- The counter after the symbol `x`. -/
def advance [DecidableEq α] (pattern : List α) (counter : ℕ) (x : α) : ℕ :=
  if pattern[counter]? = some x then counter + 1 else 0

/-- A beginning of the pattern, and a symbol that does not continue it. -/
def FailedAttempt (pattern w : List α) : Prop :=
  ∃ i x, i < pattern.length ∧ pattern[i]? ≠ some x ∧ w = pattern.take i ++ [x]

/-- Failed attempts, one behind the other, and then the first `i` symbols of the pattern. -/
def Attempted (pattern text : List α) (i : ℕ) : Prop :=
  ∃ ws : List (List α), (∀ w ∈ ws, FailedAttempt pattern w) ∧ text = ws.flatten ++ pattern.take i

/-- Failed attempts, one behind the other, and then the whole pattern. -/
def Completed (pattern text : List α) : Prop :=
  ∃ ws : List (List α), (∀ w ∈ ws, FailedAttempt pattern w) ∧ text = ws.flatten ++ pattern

theorem attempted_length : Attempted pattern text pattern.length ↔ Completed pattern text := by
  unfold Attempted Completed
  rw [List.take_length]

theorem attempted_nil : Attempted pattern [] 0 := ⟨[], by simp, rfl⟩

theorem Completed.suffix (h : Completed pattern text) : pattern <:+ text := by
  obtain ⟨ws, -, rfl⟩ := h
  exact List.suffix_append ws.flatten pattern

theorem take_succ_of_getElem? {x : α} (h : pattern[i]? = some x) :
    pattern.take (i + 1) = pattern.take i ++ [x] := by
  rw [List.take_add_one, h]
  rfl

variable [DecidableEq α]

theorem advance_le (x : α) (h : i < pattern.length) : advance pattern i x ≤ pattern.length := by
  unfold advance
  split_ifs <;> omega

/-- One more symbol. -/
theorem Attempted.append (h : Attempted pattern text i) (hi : i < pattern.length) (x : α) :
    Attempted pattern (text ++ [x]) (advance pattern i x) := by
  obtain ⟨ws, hws, rfl⟩ := h
  by_cases hx : pattern[i]? = some x
  · refine ⟨ws, hws, ?_⟩
    rw [advance, if_pos hx, take_succ_of_getElem? hx, List.append_assoc]
  · refine ⟨ws ++ [pattern.take i ++ [x]], fun w hw => ?_, ?_⟩
    · rcases List.mem_append.mp hw with hw | hw
      · exact hws w hw
      · exact ⟨i, x, hi, hx, List.mem_singleton.mp hw⟩
    · rw [advance, if_neg hx, List.take_zero, List.append_nil, List.flatten_append,
        List.flatten_singleton, List.append_assoc]

/-- A beginning of the pattern is followed from the start. -/
theorem foldl_advance_take (h : i ≤ pattern.length) :
    (pattern.take i).foldl (advance pattern) 0 = i := by
  induction i with
  | zero => rfl
  | succ i ih =>
    have hget : pattern[i]? = some (pattern.get ⟨i, h⟩) := List.getElem?_eq_getElem h
    rw [take_succ_of_getElem? hget, List.foldl_append, ih (by omega)]
    exact if_pos hget

theorem foldl_advance_of_failed {w : List α} (h : FailedAttempt pattern w) :
    w.foldl (advance pattern) 0 = 0 := by
  obtain ⟨i, x, hi, hne, rfl⟩ := h
  rw [List.foldl_append, foldl_advance_take (Nat.le_of_lt hi)]
  exact if_neg hne

theorem foldl_advance_flatten {ws : List (List α)} (h : ∀ w ∈ ws, FailedAttempt pattern w) :
    ws.flatten.foldl (advance pattern) 0 = 0 := by
  induction ws with
  | nil => rfl
  | cons w ws ih =>
    rw [List.flatten_cons, List.foldl_append, foldl_advance_of_failed (h w (by simp))]
    exact ih fun v hv => h v (List.mem_cons_of_mem w hv)

/-- The counter is determined by the text. -/
theorem Attempted.unique (hi : Attempted pattern text i) (hj : Attempted pattern text j)
    (hile : i ≤ pattern.length) (hjle : j ≤ pattern.length) : i = j := by
  have hcounter : ∀ {k}, Attempted pattern text k → k ≤ pattern.length →
      text.foldl (advance pattern) 0 = k := by
    rintro k ⟨ws, hws, rfl⟩ hk
    rw [List.foldl_append, foldl_advance_flatten hws, foldl_advance_take hk]
  rw [← hcounter hi hile, hcounter hj hjle]

end Omap4.Matcher
