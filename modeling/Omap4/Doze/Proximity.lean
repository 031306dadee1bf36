import Mathlib.Data.Int.Basic
import Mathlib.Data.List.TakeWhile
import Omap4.Machine

/-!
# Omap4.Doze.Proximity — the gestures of the doze service (`MotoDozeService.java`)

The proximity sensor is listened to while the display is off.  A far event behind a near one
launches a pulse, if the time between the two fits the gestures that are enabled.  `mSawNear` and
`mInPocketTime` carry the history: the first survives a period in which the listener is disabled,
the second is overwritten by every near event.  `pulseLaw_iff` says what this costs.

A run takes the transitions of the display, changes of the preferences that leave a gesture enabled,
and events with increasing timestamps that are delivered while the listener is registered.
-/

namespace Omap4.Doze

open Machine

/-! ## The code -/

/-- A `SensorEvent`; `near` is `values[0] < getMaximumRange()`. -/
structure Event where
  near : Bool
  timestamp : ℕ
  deriving DecidableEq, Repr

/-- `mHandwaveGestureEnabled` and `mPocketGestureEnabled`, one of which is set. -/
structure Gestures where
  handwave : Bool
  pocket : Bool
  enabled : handwave = true ∨ pocket = true
  deriving DecidableEq, Repr

/-- The service with its sensor.  The last four fields are not in the code. -/
structure State where
  gestures : Gestures
  sawNear : Bool
  inPocketTime : ℕ
  /-- the listener is registered with the `SensorManager` -/
  registered : Bool
  displayOn : Bool
  /-- every event that was delivered, the last one first -/
  delivered : List Event
  /-- those since the last `enable` -/
  sinceEnable : List Event
  /-- the timestamps to come are not below this one -/
  clock : ℕ
  deriving DecidableEq, Repr

/-- `POCKET_DELTA_NS`. -/
def pocketDeltaNs : ℤ := 1000000000

def shouldPulse (handwave pocket : Bool) (inPocketTime timestamp : ℕ) : Bool :=
  if handwave && pocket then true
  else if handwave && !pocket then (timestamp : ℤ) - inPocketTime < pocketDeltaNs
  else if !handwave && pocket then (timestamp : ℤ) - inPocketTime ≥ pocketDeltaNs
  else false

/-- Whether `onSensorChanged` launches a pulse. -/
def pulses (s : State) (e : Event) : Bool :=
  s.sawNear && !e.near &&
    shouldPulse s.gestures.handwave s.gestures.pocket s.inPocketTime e.timestamp

def onSensorChanged (s : State) (e : Event) : State :=
  { s with
    inPocketTime := if s.sawNear && !e.near then s.inPocketTime else e.timestamp
    sawNear := e.near
    delivered := e :: s.delivered
    sinceEnable := e :: s.sinceEnable
    clock := e.timestamp + 1 }

/-- `enable` of the sensor. -/
def enable (s : State) : State :=
  if s.gestures.handwave || s.gestures.pocket then { s with registered := true, sinceEnable := [] }
    else s

/-- `disable` of the sensor. -/
def disable (s : State) : State := { s with registered := false }

def onDisplayOn (s : State) : State := { disable s with displayOn := true }

/-- `doze` is what `isDozeEnabled` answers. -/
def onDisplayOff (doze : Bool) (s : State) : State :=
  if doze then { enable s with displayOn := false } else { s with displayOn := false }

/-- `onCreate`. -/
def onCreate (gestures : Gestures) (interactive doze : Bool) : State :=
  if !interactive && doze then enable ⟨gestures, false, 0, false, interactive, [], [], 0⟩
  else ⟨gestures, false, 0, false, interactive, [], [], 0⟩

/-! ## Runs -/

inductive Act
  | screenOn
  | screenOff (doze : Bool)
  /-- `onSharedPreferenceChanged` for `GESTURE_HAND_WAVE_KEY` -/
  | handwaveChanged (value : Bool)
  /-- `onSharedPreferenceChanged` for `GESTURE_POCKET_KEY` -/
  | pocketChanged (value : Bool)
  | sensor (e : Event)
  deriving DecidableEq, Repr

def step (s : State) : Act → Option State
  | .screenOn => if s.displayOn then none else some (onDisplayOn s)
  | .screenOff doze => if s.displayOn then some (onDisplayOff doze s) else none
  | .handwaveChanged value =>
    if h : value = true ∨ s.gestures.pocket = true then
      some { s with gestures := ⟨value, s.gestures.pocket, h⟩ }
    else none
  | .pocketChanged value =>
    if h : s.gestures.handwave = true ∨ value = true then
      some { s with gestures := ⟨s.gestures.handwave, value, h⟩ }
    else none
  | .sensor e => if s.registered ∧ s.clock ≤ e.timestamp then some (onSensorChanged s e) else none

/-! ## What the gestures are for -/

/-- The time from near to far fits the enabled gestures. -/
def Gestures.Fits (g : Gestures) (elapsed : ℤ) : Prop :=
  (g.handwave = true ∧ g.pocket = true) ∨
    (g.handwave = true ∧ g.pocket = false ∧ elapsed < pocketDeltaNs) ∨
      (g.handwave = false ∧ g.pocket = true ∧ pocketDeltaNs ≤ elapsed)

/-- The near events since the last `enable` that no far event follows, the last one first. -/
def nearPeriod (s : State) : List Event := s.sinceEnable.takeWhile Event.near

/-- A pulse is due: a far event ends a near period, and the time since its first event fits. -/
def PulseDue (s : State) (e : Event) : Prop :=
  e.near = false ∧ ∃ first, (nearPeriod s).getLast? = some first ∧
    s.gestures.Fits ((e.timestamp : ℤ) - first.timestamp)

/-- At an event that is delivered, a pulse is launched exactly when it is due. -/
def PulseLaw (s : State) : Act → Prop
  | .sensor e => step s (.sensor e) ≠ none → (pulses s e = true ↔ PulseDue s e)
  | _ => True

/-- A far event is the first event since the last `enable`, and the time since a near event that was
delivered last before it fits. -/
def StaleNear (s : State) (e : Event) : Prop :=
  e.near = false ∧ s.sinceEnable = [] ∧ ∃ last, s.delivered.head? = some last ∧ last.near = true ∧
    s.gestures.Fits ((e.timestamp : ℤ) - last.timestamp)

/-- Only one gesture is enabled, and a far event comes less than a second after the last event of
the near period but not after its first. -/
def LongPeriod (s : State) (e : Event) : Prop :=
  e.near = false ∧ s.gestures.handwave ≠ s.gestures.pocket ∧
    ∃ last first, (nearPeriod s).head? = some last ∧ (nearPeriod s).getLast? = some first ∧
      (e.timestamp : ℤ) - last.timestamp < pocketDeltaNs ∧
      pocketDeltaNs ≤ (e.timestamp : ℤ) - first.timestamp

/-- No delivered event meets the stale near event or the long near period. -/
def HistoryFits (s : State) : Act → Prop
  | .sensor e => step s (.sensor e) ≠ none → ¬ StaleNear s e ∧ ¬ LongPeriod s e
  | _ => True

/-! ## The invariant -/

/-- What the fields of the code say about the history. -/
structure Inv (s : State) : Prop where
  sawNear : s.sawNear = true ↔ ∃ last, s.delivered.head? = some last ∧ last.near = true
  inPocket : ∀ last, s.delivered.head? = some last → last.near = true →
    s.inPocketTime = last.timestamp
  recent : s.sinceEnable <+: s.delivered
  before : ∀ e ∈ s.delivered, e.timestamp < s.clock
  ordered : s.delivered.Pairwise fun a b => b.timestamp < a.timestamp

theorem shouldPulse_iff (g : Gestures) (u t : ℕ) :
    shouldPulse g.handwave g.pocket u t = true ↔ g.Fits ((t : ℤ) - u) := by
  obtain ⟨handwave, pocket, h⟩ := g
  cases handwave <;> cases pocket <;> simp [shouldPulse, Gestures.Fits]

theorem onCreate_inv (g : Gestures) (interactive doze : Bool) :
    Inv (onCreate g interactive doze) := by
  unfold onCreate enable
  split_ifs <;> exact ⟨by simp, by simp, List.prefix_rfl, by simp, by simp⟩

theorem onSensorChanged_inv {s : State} (hI : Inv s) {e : Event} (he : s.clock ≤ e.timestamp) :
    Inv (onSensorChanged s e) where
  sawNear := by simp [onSensorChanged]
  inPocket := by
    intro last hlast hnear
    obtain rfl : e = last := Option.some.inj hlast
    simp [onSensorChanged, hnear]
  recent := List.cons_prefix_cons.mpr ⟨rfl, hI.recent⟩
  before := by
    intro d hd
    show d.timestamp < e.timestamp + 1
    rcases List.mem_cons.mp hd with rfl | hd
    · omega
    · have := hI.before d hd
      omega
  ordered := by
    refine List.pairwise_cons.mpr ⟨fun d hd => ?_, hI.ordered⟩
    have := hI.before d hd
    omega

theorem enable_inv {s : State} (hI : Inv s) : Inv (enable s) := by
  unfold enable
  split_ifs
  · exact ⟨hI.sawNear, hI.inPocket, List.nil_prefix, hI.before, hI.ordered⟩
  · exact hI

theorem step_inv (s : State) (a : Act) (s' : State) (hI : Inv s)
    (h : step s a = some s') : Inv s' := by
  have hsame : ∀ t : State, t.sawNear = s.sawNear → t.inPocketTime = s.inPocketTime →
      t.delivered = s.delivered → t.sinceEnable = s.sinceEnable → t.clock = s.clock → Inv t := by
    intro t h₁ h₂ h₃ h₄ h₅
    exact ⟨by rw [h₁, h₃]; exact hI.sawNear, by rw [h₂, h₃]; exact hI.inPocket,
      by rw [h₃, h₄]; exact hI.recent, by rw [h₃, h₅]; exact hI.before,
      by rw [h₃]; exact hI.ordered⟩
  cases a with
  | screenOn =>
    simp only [step] at h
    split_ifs at h
    exact Option.some.inj h ▸ hsame _ rfl rfl rfl rfl rfl
  | screenOff doze =>
    simp only [step, onDisplayOff] at h
    split_ifs at h
    · have hE := enable_inv hI
      exact Option.some.inj h ▸ ⟨hE.sawNear, hE.inPocket, hE.recent, hE.before, hE.ordered⟩
    · exact Option.some.inj h ▸ hsame _ rfl rfl rfl rfl rfl
  | handwaveChanged value =>
    simp only [step] at h
    split_ifs at h
    exact Option.some.inj h ▸ hsame _ rfl rfl rfl rfl rfl
  | pocketChanged value =>
    simp only [step] at h
    split_ifs at h
    exact Option.some.inj h ▸ hsame _ rfl rfl rfl rfl rfl
  | sensor e =>
    simp only [step] at h
    split_ifs at h with hd
    exact Option.some.inj h ▸ onSensorChanged_inv hI hd.2

/-! ## One event -/

theorem Gestures.fits_iff_of_le {g : Gestures} {a b : ℤ} (hab : a ≤ b) :
    (g.Fits a ↔ g.Fits b) ↔ ¬ (g.handwave ≠ g.pocket ∧ a < pocketDeltaNs ∧ pocketDeltaNs ≤ b) := by
  obtain ⟨handwave, pocket, h⟩ := g
  cases handwave <;> cases pocket
  · simp at h
  · simp only [Gestures.Fits]
    simp
    omega
  · simp only [Gestures.Fits]
    simp
    omega
  · simp [Gestures.Fits]

/-- At a far event the code looks at the event delivered last, and at nothing before it. -/
theorem Inv.pulses_iff {s : State} (hI : Inv s) {e : Event} (hfar : e.near = false) :
    pulses s e = true ↔ ∃ last, s.delivered.head? = some last ∧ last.near = true ∧
      s.gestures.Fits ((e.timestamp : ℤ) - last.timestamp) := by
  simp only [pulses, hfar, Bool.not_false, Bool.and_true, Bool.and_eq_true]
  rw [hI.sawNear, shouldPulse_iff]
  constructor
  · rintro ⟨⟨last, hlast, hnear⟩, hfits⟩
    rw [hI.inPocket last hlast hnear] at hfits
    exact ⟨last, hlast, hnear, hfits⟩
  · rintro ⟨last, hlast, hnear, hfits⟩
    rw [hI.inPocket last hlast hnear]
    exact ⟨⟨last, hlast, hnear⟩, hfits⟩

/-- The first event of a near period is not later than its last. -/
theorem Inv.first_le_last {s : State} (hI : Inv s) {last first : Event}
    (hhead : (nearPeriod s).head? = some last) (hfirst : (nearPeriod s).getLast? = some first) :
    first.timestamp ≤ last.timestamp := by
  have hperiod : nearPeriod s <+: s.delivered := (List.takeWhile_prefix _).trans hI.recent
  have hordered := hI.ordered.sublist hperiod.sublist
  cases hlist : nearPeriod s with
  | nil => rw [hlist] at hhead; cases hhead
  | cons d ds =>
    rw [hlist] at hhead hfirst hordered
    obtain rfl : d = last := Option.some.inj hhead
    rcases List.mem_cons.mp (List.mem_of_getLast? hfirst) with rfl | hmem
    · exact le_rfl
    · exact le_of_lt (List.rel_of_pairwise_cons hordered hmem)

/-- Outside of a near period no pulse is due, and there is no long one. -/
theorem not_due_of_nearPeriod_nil {s : State} (hperiod : nearPeriod s = []) (e : Event) :
    ¬ PulseDue s e ∧ ¬ LongPeriod s e := by
  constructor
  · rintro ⟨-, first, hfirst, -⟩
    rw [hperiod] at hfirst
    cases hfirst
  · rintro ⟨-, -, last, -, hlast, -⟩
    rw [hperiod] at hlast
    cases hlast

/-- Without an event since the last `enable` no pulse is due. -/
theorem pulse_iff_of_none {s : State} (hI : Inv s) {e : Event} (hfar : e.near = false)
    (hsince : s.sinceEnable = []) :
    (pulses s e = true ↔ PulseDue s e) ↔ ¬ StaleNear s e ∧ ¬ LongPeriod s e := by
  have hperiod : nearPeriod s = [] := by rw [nearPeriod, hsince]; rfl
  obtain ⟨hdue, hlong⟩ := not_due_of_nearPeriod_nil hperiod e
  have hstale : StaleNear s e ↔ pulses s e = true := by
    rw [hI.pulses_iff hfar]
    exact ⟨fun h => h.2.2, fun h => ⟨hfar, hsince, h⟩⟩
  rw [hstale]
  exact ⟨fun hiff => ⟨fun hp => hdue (hiff.mp hp), hlong⟩, fun hp => iff_of_false hp.1 hdue⟩

/-- With a near event as the last one since the last `enable`, the first and the last event of the
period have to agree on the gesture. -/
theorem pulse_iff_of_near {s : State} (hI : Inv s) {e last : Event} (hfar : e.near = false)
    (hdelivered : s.delivered.head? = some last) (hlast : (nearPeriod s).head? = some last) :
    (pulses s e = true ↔ PulseDue s e) ↔ ¬ LongPeriod s e := by
  obtain ⟨first, hfirst⟩ : ∃ first, (nearPeriod s).getLast? = some first := by
    refine Option.ne_none_iff_exists'.mp fun hnone => ?_
    rw [List.getLast?_eq_none_iff.mp hnone] at hlast
    cases hlast
  have hnear : last.near = true := List.mem_takeWhile_imp (List.mem_of_mem_head? hlast)
  have hpulses : pulses s e = true ↔ s.gestures.Fits ((e.timestamp : ℤ) - last.timestamp) := by
    rw [hI.pulses_iff hfar]
    constructor
    · rintro ⟨d, hd, -, hfits⟩
      exact Option.some.inj (hd.symm.trans hdelivered) ▸ hfits
    · exact fun hfits => ⟨last, hdelivered, hnear, hfits⟩
  have hdue : PulseDue s e ↔ s.gestures.Fits ((e.timestamp : ℤ) - first.timestamp) := by
    constructor
    · rintro ⟨-, d, hd, hfits⟩
      exact Option.some.inj (hd.symm.trans hfirst) ▸ hfits
    · exact fun hfits => ⟨hfar, first, hfirst, hfits⟩
  have hle := hI.first_le_last hlast hfirst
  rw [hpulses, hdue, Gestures.fits_iff_of_le (by omega), not_iff_not]
  constructor
  · rintro ⟨hone, hshort, hlong⟩
    exact ⟨hfar, hone, last, first, hlast, hfirst, hshort, hlong⟩
  · rintro ⟨-, hone, l, f, hl, hf, hshort, hlong⟩
    obtain rfl : l = last := Option.some.inj (hl.symm.trans hlast)
    obtain rfl : f = first := Option.some.inj (hf.symm.trans hfirst)
    exact ⟨hone, hshort, hlong⟩

theorem pulse_iff_of_far {s : State} (hI : Inv s) {e : Event} (hfar : e.near = false) :
    (pulses s e = true ↔ PulseDue s e) ↔ ¬ StaleNear s e ∧ ¬ LongPeriod s e := by
  cases hsince : s.sinceEnable with
  | nil => exact pulse_iff_of_none hI hfar hsince
  | cons last rest =>
    have hdelivered : s.delivered.head? = some last := by
      obtain ⟨older, holder⟩ := hI.recent
      rw [← holder, hsince]
      rfl
    have hstale : ¬ StaleNear s e := by
      rintro ⟨-, hnil, -⟩
      rw [hsince] at hnil
      cases hnil
    rw [and_iff_right hstale]
    by_cases hnear : last.near = true
    · refine pulse_iff_of_near hI hfar hdelivered ?_
      rw [nearPeriod, hsince, List.takeWhile_cons_of_pos hnear]
      rfl
    · have hperiod : nearPeriod s = [] := by
        rw [nearPeriod, hsince, List.takeWhile_cons_of_neg hnear]
      obtain ⟨hdue, hlong⟩ := not_due_of_nearPeriod_nil hperiod e
      have hquiet : ¬ pulses s e = true := by
        rw [hI.pulses_iff hfar]
        rintro ⟨d, hd, hdnear, -⟩
        exact hnear (Option.some.inj (hd.symm.trans hdelivered) ▸ hdnear)
      exact iff_of_true (iff_of_false hquiet hdue) hlong

theorem pulseLaw_iff_historyFits (s : State) (a : Act) (hI : Inv s) :
    PulseLaw s a ↔ HistoryFits s a := by
  cases a with
  | sensor e =>
    refine forall_congr' fun _ => ?_
    cases hnear : e.near with
    | false => exact pulse_iff_of_far hI hnear
    | true =>
      -- a near event launches nothing, and none of the conditions is about it
      have hfar : e.near ≠ false := by rw [hnear]; decide
      refine iff_of_true (iff_of_false ?_ fun h => hfar h.1) ⟨fun h => hfar h.1, fun h => hfar h.1⟩
      simp [pulses, hnear]
  | screenOn => exact Iff.rfl
  | screenOff doze => exact Iff.rfl
  | handwaveChanged value => exact Iff.rfl
  | pocketChanged value => exact Iff.rfl

/-- **When the pulses are those that are due.**  In every run from the creation of the service,
every delivered event launches a pulse exactly when one is due, if and only if no far event of the
run comes first after an `enable` at a fitting distance from a near event before it, or ends a near
period on which its first and its last event disagree. -/
theorem pulseLaw_iff (g : Gestures) (interactive doze : Bool) (acts : List Act) :
    Along step PulseLaw (onCreate g interactive doze) acts ↔
      Along step HistoryFits (onCreate g interactive doze) acts :=
  along_iff_of_inv step_inv pulseLaw_iff_historyFits acts _ (onCreate_inv g interactive doze)

/-- Only the hand wave is enabled. -/
def waveOnly : Gestures := ⟨true, false, .inl rfl⟩

/-- The hand stays over the sensor for two seconds and is reported twice. -/
def heldTwoSeconds : List Act :=
  [.sensor ⟨true, 0⟩, .sensor ⟨true, 1900000000⟩, .sensor ⟨false, 2000000000⟩]

/-- Near before the display goes on, far after it has gone off again. -/
def staleHand : List Act :=
  [.sensor ⟨true, 0⟩, .screenOn, .screenOff true, .sensor ⟨false, 500000000⟩]

theorem pulses_not_due :
    ¬ Along step PulseLaw (onCreate waveOnly false true) heldTwoSeconds ∧
      ¬ Along step PulseLaw (onCreate waveOnly false true) staleHand := by
  constructor
  · rintro ⟨-, hrest⟩
    obtain ⟨-, hrest⟩ := hrest _ rfl
    obtain ⟨hlaw, -⟩ := hrest _ rfl
    obtain ⟨-, first, hfirst, hfits⟩ := (hlaw (by decide)).mp (by decide)
    obtain rfl : ⟨true, 0⟩ = first := Option.some.inj hfirst
    rcases hfits with ⟨-, hboth⟩ | ⟨-, -, hshort⟩ | ⟨hnone, -⟩
    · cases hboth
    · exact absurd hshort (by decide)
    · cases hnone
  · rintro ⟨-, hrest⟩
    obtain ⟨-, hrest⟩ := hrest _ rfl
    obtain ⟨-, hrest⟩ := hrest _ rfl
    obtain ⟨hlaw, -⟩ := hrest _ rfl
    obtain ⟨-, first, hfirst, -⟩ := (hlaw (by decide)).mp (by decide)
    cases hfirst

end Omap4.Doze
