import Mathlib.Data.Int.Basic
import Omap4.Machine

/-!
# Omap4.Audio.Mute — in-call muting through the ALSA mixer (`audio/wrapper.c`)

During a call the wrapper mutes by setting the mixer control `MUTE_CTL` to `MUTE_VALUE`, and keeps
the value the control had in `last_mute_ctl_value` (-1: nothing saved).  Three entry points take
part: `wrapper_set_mic_mute`, `wrapper_set_mode` and `wrapper_out_set_parameters` (whose blob call
may change the control, after which `restore_mute` mutes again).

A mute request acts on the control only if it is made during the call: a call starts unmuted,
whatever was requested before it (`muteThenCall_unmuted`).  Within a call the last request holds
(`mute_holds_in_call`).
-/

namespace Omap4.Audio.Mute

open Omap4.Machine

/-- `audio_mode_t`. -/
inductive AudioMode
  | invalid
  | current
  | normal
  | ringtone
  | inCall
  | inCommunication
  deriving DecidableEq, Repr

/-- The outcomes of the mixer calls. -/
structure MixerRes where
  mixerOpen : Bool
  getCtlByName : Bool
  /-- what a failing `mixer_ctl_get_value` returns, `none` if it reads the control -/
  getError : Option ℤ
  setCtl : Bool
  /-- the item that a negative value leaves the control at, if `mixer_ctl_set_value` takes it -/
  negItem : ℕ
  deriving DecidableEq, Repr

def MixerRes.ok : MixerRes := ⟨true, true, none, true, 0⟩

structure State where
  halAudioMode : AudioMode
  lastMuteCtlValue : ℤ
  /-- the item the control `MUTE_CTL` is set to -/
  ctl : ℕ
  /-- the state last requested through `wrapper_set_mic_mute` (not in the code) -/
  requested : Bool
  /-- the state last requested since the mode became `AUDIO_MODE_IN_CALL` (not in the code) -/
  callRequested : Bool
  deriving DecidableEq, Repr

def State.init (ctl : ℕ) : State := ⟨.normal, -1, ctl, false, false⟩

section Model

-- the number of the item `MUTE_VALUE` of the control
variable (off : ℕ)

def alsaSetMicMute (r : MixerRes) (state : Bool) (s : State) : Bool × State :=
  if state = false ∧ s.lastMuteCtlValue = -1 then (false, s)
  else if r.mixerOpen = false then (false, s)
  else if r.getCtlByName = false then (false, s)
  else if state then
    let s := if s.lastMuteCtlValue = -1
      then { s with lastMuteCtlValue := r.getError.getD s.ctl } else s
    if r.setCtl then (true, { s with ctl := off }) else (false, s)
  else if r.setCtl then
    (true, { s with
      ctl := if 0 ≤ s.lastMuteCtlValue then s.lastMuteCtlValue.toNat else r.negItem
      lastMuteCtlValue := -1 })
  else (false, { s with lastMuteCtlValue := -1 })

def wrapperSetMicMute (r : MixerRes) (state : Bool) (s : State) : State :=
  let s := { s with requested := state }
  if s.halAudioMode = .inCall then (alsaSetMicMute off r state { s with callRequested := state }).2
  else s

def wrapperSetMode (r : MixerRes) (mode : AudioMode) (s : State) : State :=
  let s :=
    if s.halAudioMode = .inCall ∧ mode ≠ .inCall ∧ s.lastMuteCtlValue ≠ -1
      then { (alsaSetMicMute off r false s).2 with lastMuteCtlValue := -1 } else s
  { s with
    halAudioMode := mode
    callRequested := s.callRequested && decide (s.halAudioMode = .inCall ∧ mode = .inCall) }

def restoreMute (r : MixerRes) (s : State) : State :=
  if s.halAudioMode = .inCall ∧ s.lastMuteCtlValue ≠ -1 then (alsaSetMicMute off r true s).2 else s

/-- `found`: the stream is registered; `ctl`: the item the blob leaves the control at. -/
def wrapperOutSetParameters (r : MixerRes) (found : Bool) (ctl : ℕ) (s : State) : State :=
  if found then restoreMute off r { s with ctl := ctl } else s

inductive Act
  | setMode (r : MixerRes) (mode : AudioMode)
  | setMicMute (r : MixerRes) (state : Bool)
  | outSetParameters (r : MixerRes) (found : Bool) (ctl : ℕ)
  deriving DecidableEq, Repr

def Act.mixer : Act → MixerRes
  | .setMode r _ => r
  | .setMicMute r _ => r
  | .outSetParameters r _ _ => r

def step (s : State) : Act → Option State
  | .setMode r mode => some (wrapperSetMode off r mode s)
  | .setMicMute r state => some (wrapperSetMicMute off r state s)
  | .outSetParameters r found ctl => some (wrapperOutSetParameters off r found ctl s)

end Model

/-! ## The invariant -/

variable {off : ℕ}

/-- The control is held at `MUTE_VALUE`, with a value to go back to, exactly while the last request
of the running call is to mute. -/
def Inv (off : ℕ) (s : State) : Prop :=
  if s.callRequested then
    s.halAudioMode = .inCall ∧ s.requested = true ∧ s.ctl = off ∧ 0 ≤ s.lastMuteCtlValue
  else s.lastMuteCtlValue = -1

theorem Inv.saved_iff {s : State} (h : Inv off s) :
    s.lastMuteCtlValue ≠ -1 ↔ s.callRequested = true := by
  unfold Inv at h
  split_ifs at h with hc
  · exact ⟨fun _ => hc, fun _ => by omega⟩
  · exact ⟨fun hne => absurd h hne, fun hc' => absurd hc' hc⟩

/-- Muting with a working mixer: the control is muted and a value is saved. -/
theorem alsaSetMicMute_true (off : ℕ) (s : State)
    (h : s.lastMuteCtlValue = -1 ∨ 0 ≤ s.lastMuteCtlValue) :
    ∃ v : ℤ, 0 ≤ v ∧
      (alsaSetMicMute off .ok true s).2 = { s with ctl := off, lastMuteCtlValue := v } := by
  by_cases hl : s.lastMuteCtlValue = -1
  · exact ⟨s.ctl, by omega, by simp [alsaSetMicMute, MixerRes.ok, hl]⟩
  · exact ⟨s.lastMuteCtlValue, by omega, by simp [alsaSetMicMute, MixerRes.ok, hl]⟩

/-- Unmuting leaves nothing saved. -/
theorem alsaSetMicMute_false (off : ℕ) (s : State) :
    ∃ c : ℕ, (alsaSetMicMute off .ok false s).2 = { s with ctl := c, lastMuteCtlValue := -1 } := by
  by_cases hl : s.lastMuteCtlValue = -1
  · have hs : (alsaSetMicMute off .ok false s).2 = s := by simp [alsaSetMicMute, hl]
    exact ⟨s.ctl, by rw [hs, ← hl]⟩
  · by_cases h0 : 0 ≤ s.lastMuteCtlValue
    · exact ⟨s.lastMuteCtlValue.toNat, by simp [alsaSetMicMute, MixerRes.ok, hl, h0]⟩
    · exact ⟨0, by simp [alsaSetMicMute, MixerRes.ok, hl, h0]⟩

theorem setMicMute_inv {s : State} (hI : Inv off s) (state : Bool) :
    Inv off (wrapperSetMicMute off .ok state s) := by
  unfold wrapperSetMicMute
  by_cases hm : s.halAudioMode = .inCall
  · rw [if_pos hm]
    cases state with
    | false =>
      obtain ⟨c, hc⟩ := alsaSetMicMute_false off
        { s with requested := false, callRequested := false }
      rw [hc]
      simp [Inv]
    | true =>
      have hl : s.lastMuteCtlValue = -1 ∨ 0 ≤ s.lastMuteCtlValue := by
        unfold Inv at hI
        split_ifs at hI
        · exact Or.inr hI.2.2.2
        · exact Or.inl hI
      obtain ⟨v, hv, hs⟩ := alsaSetMicMute_true off
        { s with requested := true, callRequested := true } hl
      rw [hs]
      simp [Inv, hm, hv]
  · -- outside a call the request is passed to the blob only
    have hc : s.callRequested ≠ true := by
      intro hc
      unfold Inv at hI
      rw [if_pos hc] at hI
      exact hm hI.1
    rw [if_neg hm]
    simpa [Inv, hc] using hI

theorem setMode_inv {s : State} (hI : Inv off s) (mode : AudioMode) :
    Inv off (wrapperSetMode off .ok mode s) := by
  unfold wrapperSetMode
  by_cases hleave : s.halAudioMode = .inCall ∧ mode ≠ .inCall ∧ s.lastMuteCtlValue ≠ -1
  · simp only [if_pos hleave]
    simp [Inv, hleave.2.1]
  · simp only [if_neg hleave]
    by_cases hc : s.callRequested = true
    · -- the mode stays in call, else a value would be saved
      have hsaved := hI.saved_iff.mpr hc
      unfold Inv at hI
      rw [if_pos hc] at hI
      have hstay : mode = .inCall := by
        by_contra hne
        exact hleave ⟨hI.1, hne, hsaved⟩
      simpa [Inv, hc, hI.1, hstay] using hI.2
    · simpa [Inv, hc] using hI

theorem outSetParameters_inv {s : State} (hI : Inv off s) (found : Bool) (ctl : ℕ) :
    Inv off (wrapperOutSetParameters off .ok found ctl s) := by
  unfold wrapperOutSetParameters restoreMute
  cases found with
  | false => exact hI
  | true =>
    by_cases hc : s.callRequested = true
    · have hsaved := hI.saved_iff.mpr hc
      unfold Inv at hI
      rw [if_pos hc] at hI
      obtain ⟨v, hv, hs⟩ := alsaSetMicMute_true off { s with ctl := ctl } (Or.inr hI.2.2.2)
      simp only [if_true, if_pos (And.intro hI.1 hsaved), hs]
      simp [Inv, hc, hI.1, hI.2.1, hv]
    · have hsaved : s.lastMuteCtlValue = -1 := by
        by_contra hne
        exact hc (hI.saved_iff.mp hne)
      simp [Inv, hc, hsaved]

theorem step_inv (s : State) (a : Act) (s' : State) (hI : Inv off s) (ha : a.mixer = .ok)
    (h : step off s a = some s') : Inv off s' := by
  cases a with
  | setMode r mode =>
    obtain rfl : r = .ok := ha
    exact Option.some.inj h ▸ setMode_inv hI mode
  | setMicMute r state =>
    obtain rfl : r = .ok := ha
    exact Option.some.inj h ▸ setMicMute_inv hI state
  | outSetParameters r found ctl =>
    obtain rfl : r = .ok := ha
    exact Option.some.inj h ▸ outSetParameters_inv hI found ctl

/-- **In-call mute**: while a call is on and the last request made in it is to mute, the control is
at `MUTE_VALUE`; out of a call, or when the last request or the last request of the call is not to
mute, the wrapper does not hold the control. -/
theorem mute_holds_in_call (off ctl : ℕ) (acts : List Act) (s : State)
    (hok : ∀ a ∈ acts, a.mixer = .ok) (h : exec (step off) (State.init ctl) acts = some s) :
    (s.halAudioMode = .inCall ∧ s.callRequested = true → s.ctl = off) ∧
    (s.halAudioMode ≠ .inCall ∨ s.requested = false ∨ s.callRequested = false →
      s.lastMuteCtlValue = -1) := by
  have hI : Inv off s := by
    refine exec_inv_along (C := fun _ a => a.mixer = .ok) step_inv acts (State.init ctl) s ?_
      (along_of_forall acts _ fun a ha _ => hok a ha) h
    simp [Inv, State.init]
  unfold Inv at hI
  by_cases hc : s.callRequested = true
  · rw [if_pos hc] at hI
    refine ⟨fun _ => hI.2.2.1, fun hor => ?_⟩
    rcases hor with hm | hr | hc'
    · exact absurd hI.1 hm
    · rw [hI.2.1] at hr
      cases hr
    · rw [hc] at hc'
      cases hc'
  · rw [if_neg hc] at hI
    exact ⟨fun hm => absurd hm.2 hc, fun _ => hI⟩

/-- A mute during a call survives the blob's change of the control. -/
theorem mute_survives_parameters :
    ∃ s, exec (step 0) (State.init 3)
        [.setMode .ok .inCall, .setMicMute .ok true, .outSetParameters .ok true 5] = some s ∧
      s.halAudioMode = .inCall ∧ s.callRequested = true ∧ s.ctl = 0 :=
  ⟨_, rfl, rfl, rfl, (mute_holds_in_call 0 3
    [.setMode .ok .inCall, .setMicMute .ok true, .outSetParameters .ok true 5] _ (by decide)
    rfl).1 ⟨rfl, rfl⟩⟩

/-- A mute requested before the call is not applied when the call begins. -/
theorem muteThenCall_unmuted :
    ∃ s, exec (step 0) (State.init 3) [.setMicMute .ok true, .setMode .ok .inCall] = some s ∧
      s.halAudioMode = .inCall ∧ s.requested = true ∧ s.ctl ≠ 0 :=
  ⟨_, rfl, rfl, rfl, by decide⟩

end Omap4.Audio.Mute
