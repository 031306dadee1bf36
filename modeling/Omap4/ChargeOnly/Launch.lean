import Mathlib.Data.Int.Basic
import Mathlib.Data.List.Induction
import Omap4.Matcher

/-!
# Omap4.ChargeOnly.Launch — the key sequence of the memory test (`launch_sequence` in `main.c`)

`main` passes every event to `launch_sequence`, which follows the secret sequence with a static
counter, and sets `launched` when it returns 1.  The counter survives the calls; a key that does not
match sets it to 0, and nothing sets it back after an activation.

What lies behind the array in the memory of a call is input (`Call.beyond`).  The keys that were
pressed are failed attempts and a part of the sequence (`Matcher.Attempted`).  An occurrence of the
sequence is recognised if and only if it begins where an attempt has failed (`recognises_iff`), and
the array is left by the first key after an activation (`inBounds_iff`).
-/

namespace Omap4.ChargeOnly.Launch

open Matcher

/-! ## The code -/

def eventPowerKeyDown : ℤ := 3

def eventVolumedownKeyDown : ℤ := 5

def eventVolumeupKeyDown : ℤ := 7

/-- `sequence` of `launch_sequence`. -/
def sequence : List ℤ :=
  [eventVolumeupKeyDown, eventVolumeupKeyDown, eventVolumedownKeyDown, eventVolumedownKeyDown,
    eventVolumeupKeyDown, eventVolumeupKeyDown, eventVolumedownKeyDown, eventVolumedownKeyDown,
    eventPowerKeyDown]

/-- The cases of the `switch`. -/
def isKeyDown (r : ℤ) : Bool :=
  r = eventVolumedownKeyDown || r = eventVolumeupKeyDown || r = eventPowerKeyDown

/-- `sequence[counter]`; `beyond` is the memory at and after the end of the array. -/
def sequenceAt (beyond : ℕ → ℤ) (counter : ℕ) : ℤ := (sequence[counter]?).getD (beyond counter)

/-- The counter after a key. -/
def nextCounter (beyond : ℕ → ℤ) (counter : ℕ) (r : ℤ) : ℕ :=
  if sequenceAt beyond counter = r then counter + 1 else 0

/-- `launch_sequence`: whether it returns 1, and `counter` afterwards. -/
def launchSequence (beyond : ℕ → ℤ) (counter : ℕ) (r : ℤ) : Bool × ℕ :=
  if isKeyDown r then (nextCounter beyond counter r == 9, nextCounter beyond counter r)
  else (false, counter)

/-- One call: the event, and what is in the memory behind the array during it. -/
structure Call where
  r : ℤ
  beyond : ℕ → ℤ

/-- `counter`, and `launched` of `main`. -/
structure LaunchState where
  counter : ℕ
  launched : Bool
  deriving DecidableEq, Repr

/-- A call by the loop of `main`. -/
def LaunchState.call (s : LaunchState) (c : Call) : LaunchState where
  counter := (launchSequence c.beyond s.counter c.r).2
  launched := s.launched || (launchSequence c.beyond s.counter c.r).1

/-- The state after some calls since the start. -/
def after (calls : List Call) : LaunchState := calls.foldl LaunchState.call ⟨0, false⟩

/-- Whether a call after the calls `pre` returns 1. -/
def activates (pre : List Call) (c : Call) : Bool :=
  (launchSequence c.beyond (after pre).counter c.r).1

/-- The power, volume up and volume down key-down events among the events. -/
def keyDowns (calls : List Call) : List ℤ := (calls.map Call.r).filter isKeyDown

/-! ## The properties -/

/-- Every call returns 1 exactly when its event is a power-key-down and the last nine keys are the
sequence. -/
def Recognises (calls : List Call) : Prop :=
  ∀ pre c, pre ++ [c] <+: calls →
    (activates pre c = true ↔ c.r = eventPowerKeyDown ∧ sequence <:+ keyDowns (pre ++ [c]))

/-- Wherever the last nine keys are the sequence, the keys before them are failed attempts. -/
def AttemptsFail (calls : List Call) : Prop :=
  ∀ pre c, pre ++ [c] <+: calls → c.r = eventPowerKeyDown → sequence <:+ keyDowns (pre ++ [c]) →
    Completed sequence (keyDowns (pre ++ [c]))

/-- Every access to `sequence` has an index from 0 to 8. -/
def InBounds (calls : List Call) : Prop :=
  ∀ pre c, pre ++ [c] <+: calls → isKeyDown c.r = true → (after pre).counter ≤ 8

/-- No key is pressed after an activation. -/
def NoKeyAfterActivation (calls : List Call) : Prop :=
  ∀ pre c, pre ++ [c] <+: calls → isKeyDown c.r = true → ¬ Completed sequence (keyDowns pre)

/-! ## One call -/

theorem after_append (pre : List Call) (c : Call) : after (pre ++ [c]) = (after pre).call c := by
  rw [after, List.foldl_append]
  rfl

theorem keyDowns_append_of_key {pre : List Call} {c : Call} (h : isKeyDown c.r = true) :
    keyDowns (pre ++ [c]) = keyDowns pre ++ [c.r] := by
  simp [keyDowns, h]

theorem keyDowns_append_of_other {pre : List Call} {c : Call} (h : ¬ isKeyDown c.r = true) :
    keyDowns (pre ++ [c]) = keyDowns pre := by
  simp [keyDowns, h]

/-- Inside the array a key moves the counter as the recogniser without fall-back. -/
theorem nextCounter_of_lt (beyond : ℕ → ℤ) {counter : ℕ} (r : ℤ) (h : counter < sequence.length) :
    nextCounter beyond counter r = advance sequence counter r := by
  have hget : sequence[counter]? = some (sequence.get ⟨counter, h⟩) := List.getElem?_eq_getElem h
  simp only [nextCounter, advance, sequenceAt, hget, Option.getD_some, Option.some.injEq]

theorem call_of_key {s : LaunchState} {c : Call} (h : isKeyDown c.r = true)
    (hlt : s.counter < sequence.length) :
    (s.call c).counter = advance sequence s.counter c.r := by
  rw [← nextCounter_of_lt c.beyond c.r hlt]
  simp [LaunchState.call, launchSequence, h]

theorem call_of_other {s : LaunchState} {c : Call} (h : ¬ isKeyDown c.r = true) :
    (s.call c).counter = s.counter := by
  simp [LaunchState.call, launchSequence, h]

/-- A call with a key returns 1 exactly when it leaves the counter at 9. -/
theorem activates_iff_counter {pre : List Call} {c : Call} (h : isKeyDown c.r = true) :
    activates pre c = true ↔ (after (pre ++ [c])).counter = sequence.length := by
  rw [after_append]
  simp [activates, LaunchState.call, launchSequence, h, sequence]

/-! ## Runs inside the array -/

theorem InBounds.mono {pre calls : List Call} (h : InBounds calls) (hpre : pre <+: calls) :
    InBounds pre := fun p c hp => h p c (hp.trans hpre)

/-- **The invariant of a run in bounds**: the keys are failed attempts and then as much of the
sequence as the counter says. -/
theorem InBounds.attempted {calls : List Call} (h : InBounds calls) :
    Attempted sequence (keyDowns calls) (after calls).counter ∧
    (after calls).counter ≤ sequence.length := by
  induction calls using List.reverseRecOn with
  | nil => exact ⟨attempted_nil, by decide⟩
  | append_singleton calls c ih =>
    obtain ⟨hkeys, hle⟩ := ih (h.mono (List.prefix_append calls [c]))
    rw [after_append]
    by_cases hkey : isKeyDown c.r = true
    · have hlt : (after calls).counter < sequence.length :=
        Nat.lt_succ_of_le (h calls c List.prefix_rfl hkey)
      rw [call_of_key hkey hlt, keyDowns_append_of_key hkey]
      exact ⟨hkeys.append hlt c.r, advance_le c.r hlt⟩
    · rw [call_of_other hkey, keyDowns_append_of_other hkey]
      exact ⟨hkeys, hle⟩

theorem InBounds.counter_eq_iff {calls : List Call} (h : InBounds calls) :
    (after calls).counter = sequence.length ↔ Completed sequence (keyDowns calls) := by
  obtain ⟨hkeys, hle⟩ := h.attempted
  rw [← attempted_length]
  exact ⟨fun heq => heq ▸ hkeys, fun hall => hkeys.unique hall hle le_rfl⟩

theorem InBounds.append {calls : List Call} {c : Call} (h : InBounds calls)
    (hc : isKeyDown c.r = true → (after calls).counter ≤ 8) : InBounds (calls ++ [c]) := by
  intro pre d hpre hkey
  rcases List.prefix_concat_iff.mp hpre with heq | hpre
  · obtain ⟨rfl, hd⟩ := List.append_inj' heq rfl
    rw [List.singleton_inj.mp hd] at hkey
    exact hc hkey
  · exact h pre d hpre hkey

/-- **When `launch_sequence` stays in its array**: if and only if no power or volume key is pressed
after an activation.  The next such key reads `sequence[9]`. -/
theorem inBounds_iff (calls : List Call) : InBounds calls ↔ NoKeyAfterActivation calls := by
  constructor
  · intro h pre c hpre hkey hdone
    have hin : InBounds pre := h.mono ((List.prefix_append pre [c]).trans hpre)
    have hnine := hin.counter_eq_iff.mpr hdone
    have hle := h pre c hpre hkey
    rw [hnine] at hle
    exact absurd hle (by decide)
  · intro h
    induction calls using List.reverseRecOn with
    | nil => exact fun pre c hpre => absurd (List.prefix_nil.mp hpre) (by simp)
    | append_singleton calls c ih =>
      have hin : InBounds calls :=
        ih fun pre d hpre => h pre d (hpre.trans (List.prefix_append calls [c]))
      refine hin.append fun hkey => ?_
      have hle : (after calls).counter ≤ 9 := hin.attempted.2
      have hne : (after calls).counter ≠ 9 :=
        fun heq => h calls c List.prefix_rfl hkey (hin.counter_eq_iff.mp heq)
      omega

/-- Calls with these events, with zeros behind the array. -/
def presses (rs : List ℤ) : List Call := rs.map fun r => ⟨r, fun _ => 0⟩

/-- The sequence, and then the power key once more. -/
theorem power_after_activation : ¬ InBounds (presses (sequence ++ [eventPowerKeyDown])) := by
  intro h
  have hle := h (presses sequence) ⟨eventPowerKeyDown, fun _ => 0⟩ List.prefix_rfl rfl
  exact absurd hle (by decide)

/-! ## Runs up to the first activation -/

/-- Before an activation the accesses are in bounds and the counter is too. -/
theorem inBounds_of_not_launched {calls : List Call} (h : (after calls).launched = false) :
    InBounds calls ∧ (after calls).counter ≤ 8 := by
  induction calls using List.reverseRecOn with
  | nil => exact ⟨fun pre c hpre => absurd (List.prefix_nil.mp hpre) (by simp), by decide⟩
  | append_singleton calls c ih =>
    have hcall := h
    rw [after_append] at hcall
    obtain ⟨hbefore, hquiet⟩ := Bool.or_eq_false_iff.mp hcall
    obtain ⟨hin, hle⟩ := ih hbefore
    have hin' : InBounds (calls ++ [c]) := hin.append fun _ => hle
    refine ⟨hin', ?_⟩
    by_cases hkey : isKeyDown c.r = true
    · have hle' : (after (calls ++ [c])).counter ≤ 9 := hin'.attempted.2
      have hne : (after (calls ++ [c])).counter ≠ 9 := fun heq =>
        absurd ((activates_iff_counter hkey).mpr heq) (by rw [activates, hquiet]; decide)
      omega
    · rw [after_append, call_of_other hkey]
      exact hle

theorem not_launched_mono {pre calls : List Call} (hpre : pre <+: calls)
    (h : (after calls).launched = false) :
    (after pre).launched = false := by
  induction calls using List.reverseRecOn with
  | nil => rw [List.prefix_nil.mp hpre]; rfl
  | append_singleton calls c ih =>
    rcases List.prefix_concat_iff.mp hpre with rfl | hpre
    · exact h
    · rw [after_append] at h
      exact ih hpre (Bool.or_eq_false_iff.mp h).1

/-- What the first call that returns 1 has seen. -/
theorem activates_iff_completed {pre : List Call} (h : (after pre).launched = false) (c : Call) :
    activates pre c = true ↔ isKeyDown c.r = true ∧ Completed sequence (keyDowns (pre ++ [c])) := by
  obtain ⟨hin, hle⟩ := inBounds_of_not_launched h
  by_cases hkey : isKeyDown c.r = true
  · have hin' : InBounds (pre ++ [c]) := hin.append fun _ => hle
    rw [activates_iff_counter hkey, hin'.counter_eq_iff]
    exact ⟨fun hdone => ⟨hkey, hdone⟩, And.right⟩
  · refine iff_of_false ?_ fun hc => hkey hc.1
    simp [activates, launchSequence, hkey]

/-- The last key of the sequence is the power key. -/
theorem power_of_suffix {pre : List Call} {c : Call} (hkey : isKeyDown c.r = true)
    (h : sequence <:+ keyDowns (pre ++ [c])) : c.r = eventPowerKeyDown := by
  obtain ⟨t, ht⟩ := h
  rw [keyDowns_append_of_key hkey] at ht
  have hlast := congrArg List.getLast? ht
  rw [List.getLast?_concat, List.getLast?_append] at hlast
  exact (Option.some.inj hlast).symm

/-- **When the sequence is recognised.**  Up to and including the first call that returns 1, a call
returns 1 exactly when the last nine keys are the sequence, if and only if the keys before each such
nine are failed attempts: a mismatch throws away also those keys that could have begun the
sequence. -/
theorem recognises_iff (calls : List Call) (h : (after calls.dropLast).launched = false) :
    Recognises calls ↔ AttemptsFail calls := by
  refine forall_congr' fun pre => forall_congr' fun c => forall_congr' fun hpre => ?_
  have hbefore : pre <+: calls.dropLast := by
    have hlen := hpre.length_le
    rw [List.length_append, List.length_singleton] at hlen
    refine List.prefix_of_prefix_length_le ((List.prefix_append pre [c]).trans hpre)
      calls.dropLast_prefix ?_
    rw [List.length_dropLast]
    omega
  rw [activates_iff_completed (not_launched_mono hbefore h) c]
  constructor
  · intro hiff hpower hsuffix
    exact (hiff.mpr ⟨hpower, hsuffix⟩).2
  · intro hattempts
    constructor
    · rintro ⟨hkey, hdone⟩
      exact ⟨power_of_suffix hkey hdone.suffix, hdone.suffix⟩
    · rintro ⟨hpower, hsuffix⟩
      exact ⟨by rw [hpower]; decide, hattempts hpower hsuffix⟩

theorem recognises_sequence : Recognises (presses sequence) := by
  refine (recognises_iff (presses sequence) (by decide)).mpr fun pre c hpre _ hsuffix => ?_
  have hkeys : (keyDowns (pre ++ [c])).length ≤ ((pre ++ [c]).map Call.r).length :=
    List.length_filter_le _ _
  have hnine : sequence.length ≤ (keyDowns (pre ++ [c])).length := hsuffix.length_le
  rw [List.length_map] at hkeys
  have hall : pre ++ [c] = presses sequence := hpre.eq_of_length_le (Nat.le_trans hnine hkeys)
  rw [hall]
  exact ⟨[], by simp, rfl⟩

/-- A third volume up before the sequence: the last nine keys are the sequence, and nothing is
launched. -/
def upOnceMore : List Call := presses (eventVolumeupKeyDown :: sequence)

theorem upOnceMore_missed : (after upOnceMore.dropLast).launched = false ∧
    ¬ Recognises upOnceMore := by
  refine ⟨by decide, fun h => ?_⟩
  have hiff := h upOnceMore.dropLast ⟨eventPowerKeyDown, fun _ => 0⟩ List.prefix_rfl
  have hlast : sequence <:+ keyDowns (upOnceMore.dropLast ++ [⟨eventPowerKeyDown, fun _ => 0⟩]) :=
    ⟨[eventVolumeupKeyDown], by decide⟩
  exact absurd (hiff.mpr ⟨rfl, hlast⟩) (by decide)

end Omap4.ChargeOnly.Launch
