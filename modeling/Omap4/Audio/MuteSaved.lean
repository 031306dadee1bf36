import Omap4.Audio.Mute

/-!
# Omap4.Audio.MuteSaved — what becomes of the saved value of the control

`last_mute_ctl_value` is what an unmute, or the end of the call, puts back.  `Tracked` carries next
to the state the value the control had when the wrapper first muted it, for as long as the wrapper
has not put a value back; `Saved` says that the code still knows it.

The value is lost in four ways, and in no other (`saved_iff_keeps`): an unmute whose
`mixer_ctl_set_value` fails forgets it; so does any failure while the call is left; of a failing
`mixer_ctl_get_value` the error number is saved instead; and if the first
`mixer_ctl_set_enum_by_string` of a mute failed, the value saved then may no longer be the one of
the control when a later one succeeds.
-/

namespace Omap4.Audio.Mute

open Omap4.Machine

structure Tracked where
  state : State
  /-- the value the control had when the wrapper muted it, until it is put back -/
  muted : Option ℕ
  deriving DecidableEq, Repr

def Tracked.init (ctl : ℕ) : Tracked := ⟨State.init ctl, none⟩

/-- The code knows what to put back. -/
def Saved (t : Tracked) : Prop := ∀ v, t.muted = some v → t.state.lastMuteCtlValue = v

section Track

variable (off : ℕ)

/-- `alsa_set_mic_mute` returns 1 just if it set the control. -/
def trackAlsa (r : MixerRes) (state : Bool) (s : State) (muted : Option ℕ) : Option ℕ :=
  if (alsaSetMicMute off r state s).1 then if state then some (muted.getD s.ctl) else none
  else muted

def trackMuted (t : Tracked) : Act → Option ℕ
  | .setMode r mode =>
    if t.state.halAudioMode = .inCall ∧ mode ≠ .inCall ∧ t.state.lastMuteCtlValue ≠ -1
    then trackAlsa off r false t.state t.muted else t.muted
  | .setMicMute r state =>
    if t.state.halAudioMode = .inCall
    then trackAlsa off r state
      { t.state with requested := state, callRequested := state } t.muted else t.muted
  | .outSetParameters r found ctl =>
    if found ∧ t.state.halAudioMode = .inCall ∧ t.state.lastMuteCtlValue ≠ -1
    then trackAlsa off r true { t.state with ctl := ctl } t.muted else t.muted

def trackedStep (t : Tracked) (a : Act) : Option Tracked :=
  (step off t.state a).map fun s => ⟨s, trackMuted off t a⟩

end Track

variable {off : ℕ}

/-! ## The steps that keep the value -/

/-- The mixer can be opened and has the control. -/
def MixerRes.opens (r : MixerRes) : Prop := r.mixerOpen = true ∧ r.getCtlByName = true

instance (r : MixerRes) : Decidable r.opens := inferInstanceAs (Decidable (_ ∧ _))

/-- If the control is set to `MUTE_VALUE` for the first time, what is saved is its value: nothing is
saved and `mixer_ctl_get_value` returns it now, or what an earlier mute that failed has saved is
it. -/
def KeepsMute (r : MixerRes) (ctl : ℕ) (t : Tracked) : Prop :=
  r.opens → r.setCtl = true → t.muted = none →
    t.state.lastMuteCtlValue = -1 ∧ r.getError.getD ctl = ctl ∨ t.state.lastMuteCtlValue = ctl

/-- In a call: a first mute saves the value of the control, an unmute that reaches the control sets
it, and the call is not left with a failing mixer while the control is muted. -/
def Keeps (t : Tracked) : Act → Prop
  | .setMicMute r true => t.state.halAudioMode = .inCall → KeepsMute r t.state.ctl t
  | .setMicMute r false =>
    t.state.halAudioMode = .inCall → t.muted ≠ none → r.opens → r.setCtl = true
  | .setMode r mode => t.state.halAudioMode = .inCall → mode ≠ .inCall → t.muted ≠ none →
      r.opens ∧ r.setCtl = true
  | .outSetParameters r found ctl => found = true → t.state.halAudioMode = .inCall →
      t.state.lastMuteCtlValue ≠ -1 → KeepsMute r ctl t

/-! ## One call of `alsa_set_mic_mute` -/

section Alsa

variable {r : MixerRes} {s : State} {muted : Option ℕ}

theorem alsaSetMicMute_of_not_opens (h : ¬ r.opens) (state : Bool) :
    alsaSetMicMute off r state s = (false, s) := by
  unfold alsaSetMicMute
  unfold MixerRes.opens at h
  by_cases ho : r.mixerOpen = true
  · have hc : r.getCtlByName = false := by simpa [ho] using h
    simp [ho, hc]
  · simp [ho]

theorem alsaSetMicMute_mute (h : r.opens) :
    alsaSetMicMute off r true s =
      (r.setCtl, { s with
        lastMuteCtlValue := if s.lastMuteCtlValue = -1 then r.getError.getD s.ctl
          else s.lastMuteCtlValue
        ctl := if r.setCtl then off else s.ctl }) := by
  unfold alsaSetMicMute
  by_cases hl : s.lastMuteCtlValue = -1
  · cases r.setCtl <;> simp [h.1, h.2, hl]
  · cases r.setCtl <;> simp [h.1, h.2, hl]

theorem alsaSetMicMute_unmute {v : ℕ} (h : r.opens) (hv : s.lastMuteCtlValue = v) :
    alsaSetMicMute off r false s =
      (r.setCtl, { s with lastMuteCtlValue := -1, ctl := if r.setCtl then v else s.ctl }) := by
  unfold alsaSetMicMute
  cases r.setCtl <;> simp [h.1, h.2, hv]

theorem mute_saved_iff (hs : Saved ⟨s, muted⟩) :
    Saved ⟨(alsaSetMicMute off r true s).2, trackAlsa off r true s muted⟩ ↔
      KeepsMute r s.ctl ⟨s, muted⟩ := by
  unfold trackAlsa KeepsMute
  by_cases ho : r.opens
  · rw [alsaSetMicMute_mute ho]
    rcases muted with - | v
    · cases hset : r.setCtl with
      | false => simp [Saved]
      | true =>
        by_cases hl : s.lastMuteCtlValue = -1
        · have hneg : ¬ (-1 = (s.ctl : ℤ)) := by omega
          simp [Saved, ho, hl, hneg]
        · simp [Saved, ho, hl]
    · -- a control that is muted already has its value saved, and keeps it
      have hv : s.lastMuteCtlValue = v := hs v rfl
      cases hset : r.setCtl with
      | false => simp [Saved, hv]
      | true => simp [Saved, hv]
  · rw [alsaSetMicMute_of_not_opens ho]
    simp [hs, ho]

theorem unmute_saved_iff (hs : Saved ⟨s, muted⟩) :
    Saved ⟨(alsaSetMicMute off r false s).2, trackAlsa off r false s muted⟩ ↔
      (muted ≠ none → r.opens → r.setCtl = true) := by
  unfold trackAlsa
  rcases muted with - | v
  · simp [Saved]
  · have hv : s.lastMuteCtlValue = v := hs v rfl
    by_cases ho : r.opens
    · rw [alsaSetMicMute_unmute ho hv]
      cases hset : r.setCtl with
      | false => simp [Saved, ho]
      | true => simp [Saved]
    · rw [alsaSetMicMute_of_not_opens ho]
      simp [hs, ho]

/-- At the end of a call nothing is saved any more, so the control has to be set. -/
theorem leave_saved_iff (hs : Saved ⟨s, muted⟩) (s' : State) (hs' : s'.lastMuteCtlValue = -1) :
    Saved ⟨s', trackAlsa off r false s muted⟩ ↔ (muted ≠ none → r.opens ∧ r.setCtl = true) := by
  unfold trackAlsa
  rcases muted with - | v
  · simp [Saved]
  · have hv : s.lastMuteCtlValue = v := hs v rfl
    by_cases ho : r.opens
    · rw [alsaSetMicMute_unmute ho hv]
      cases hset : r.setCtl with
      | false => simp [Saved, hs']
      | true => simp [Saved, ho]
    · rw [alsaSetMicMute_of_not_opens ho]
      simp [Saved, hs', ho]

end Alsa

/-! ## Runs -/

section Step

variable {s : State} {muted : Option ℕ}

theorem setMode_saved_iff (hs : Saved ⟨s, muted⟩) (r : MixerRes) (mode : AudioMode) :
    Saved ⟨wrapperSetMode off r mode s, trackMuted off ⟨s, muted⟩ (.setMode r mode)⟩ ↔
      Keeps ⟨s, muted⟩ (.setMode r mode) := by
  unfold trackMuted wrapperSetMode
  by_cases hleave : s.halAudioMode = .inCall ∧ mode ≠ .inCall ∧ s.lastMuteCtlValue ≠ -1
  · simp only [if_pos hleave]
    rw [leave_saved_iff hs _ rfl]
    exact ⟨fun h _ _ => h, fun h => h hleave.1 hleave.2.1⟩
  · simp only [if_neg hleave]
    refine ⟨fun _ hcall hmode hmuted => ?_, fun _ => hs⟩
    -- nothing is saved, so the control is not muted
    obtain ⟨v, hv⟩ := Option.ne_none_iff_exists'.mp hmuted
    have hlast : s.lastMuteCtlValue = v := hs v hv
    exact absurd ⟨hcall, hmode, by omega⟩ hleave

theorem setMicMute_saved_iff (hs : Saved ⟨s, muted⟩) (r : MixerRes) (state : Bool) :
    Saved ⟨wrapperSetMicMute off r state s, trackMuted off ⟨s, muted⟩ (.setMicMute r state)⟩ ↔
      Keeps ⟨s, muted⟩ (.setMicMute r state) := by
  unfold trackMuted wrapperSetMicMute
  by_cases hcall : s.halAudioMode = .inCall
  · have hs' : Saved ⟨{ s with requested := state, callRequested := state }, muted⟩ := hs
    simp only [if_pos hcall]
    cases state with
    | false =>
      rw [unmute_saved_iff hs']
      exact ⟨fun h _ => h, fun h => h hcall⟩
    | true =>
      rw [mute_saved_iff hs']
      exact ⟨fun h _ => h, fun h => h hcall⟩
  · simp only [if_neg hcall]
    cases state with
    | false => exact ⟨fun _ hcall' => absurd hcall' hcall, fun _ => hs⟩
    | true => exact ⟨fun _ hcall' => absurd hcall' hcall, fun _ => hs⟩

theorem outSetParameters_saved_iff (hs : Saved ⟨s, muted⟩) (r : MixerRes) (found : Bool) (ctl : ℕ) :
    Saved ⟨wrapperOutSetParameters off r found ctl s,
        trackMuted off ⟨s, muted⟩ (.outSetParameters r found ctl)⟩ ↔
      Keeps ⟨s, muted⟩ (.outSetParameters r found ctl) := by
  unfold trackMuted wrapperOutSetParameters restoreMute
  cases found with
  | false => exact ⟨fun _ hfound => absurd hfound Bool.false_ne_true, fun _ => hs⟩
  | true =>
    by_cases hmute : s.halAudioMode = .inCall ∧ s.lastMuteCtlValue ≠ -1
    · have hs' : Saved ⟨{ s with ctl := ctl }, muted⟩ := hs
      simp only [true_and, if_true, if_pos hmute]
      rw [mute_saved_iff hs']
      exact ⟨fun h _ _ _ => h, fun h => h rfl hmute.1 hmute.2⟩
    · simp only [true_and, if_true, if_neg hmute]
      exact ⟨fun _ _ hcall hlast => absurd ⟨hcall, hlast⟩ hmute, fun _ => hs⟩

end Step

theorem trackedStep_saved_iff (t : Tracked) (a : Act) (t' : Tracked) (hs : Saved t)
    (h : trackedStep off t a = some t') : Saved t' ↔ Keeps t a := by
  cases a with
  | setMode r mode => exact Option.some.inj h ▸ setMode_saved_iff hs r mode
  | setMicMute r state => exact Option.some.inj h ▸ setMicMute_saved_iff hs r state
  | outSetParameters r found ctl =>
    exact Option.some.inj h ▸ outSetParameters_saved_iff hs r found ctl

theorem trackedStep_ne_none (t : Tracked) (a : Act) : trackedStep off t a ≠ none := by
  cases a <;> simp [trackedStep, step]

/-- **The saved value of the control**: in a run of the wrapper the value the control had when it
was first muted is known in every state in which it has not been put back, if and only if every step
keeps it. -/
theorem saved_iff_keeps (off ctl : ℕ) (acts : List Act) :
    (∀ pre t, pre <+: acts → exec (trackedStep off) (.init ctl) pre = some t → Saved t) ↔
      Along (trackedStep off) Keeps (.init ctl) acts := by
  refine forall_exec_iff_along (fun t a h => absurd h (trackedStep_ne_none t a))
    trackedStep_saved_iff acts (.init ctl) ?_
  intro v hv
  cases hv

/-- A read that fails with -1 has saved nothing, and the next mute saves the value. -/
example : (exec (trackedStep 0) (.init 3) [.setMode .ok .inCall,
      .setMicMute ⟨true, true, some (-1), false, 0⟩ true, .setMicMute .ok true]).map
    (·.state.lastMuteCtlValue) = some 3 := rfl

/-- The mixer is opened and the control found, but setting it fails. -/
def setFails : MixerRes := ⟨true, true, none, false, 0⟩

/-- A mute, then an unmute that fails: the control stays muted, and the value 3 is forgotten. -/
theorem failedUnmute_loses :
    ∃ t, exec (trackedStep 0) (.init 3)
        [.setMode .ok .inCall, .setMicMute .ok true, .setMicMute setFails false] = some t ∧
      t.muted = some 3 ∧ t.state.ctl = 0 ∧ t.state.lastMuteCtlValue = -1 ∧ ¬ Saved t := by
  refine ⟨_, rfl, rfl, rfl, rfl, fun hs => ?_⟩
  have hlast := hs 3 rfl
  exact absurd hlast (by decide)

end Omap4.Audio.Mute
