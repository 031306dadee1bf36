import Omap4.ChargeOnly.Alarm

/-!
# Omap4.ChargeOnly.Display — the main loop of `charge_only_mode` (`main.c`)

Four callbacks run the display: the animation sets itself again, the two steps of the brightness
follow each other and end with a blanked display, and the power key reboots the phone.  The alarms
are those of `Omap4.ChargeOnly.Queue`, which `alarm.c` implements (`alarm_refines_queue`).

What the clock shows and what `get_device_state` reads is input, and so are the events.  A power-off
that works ends the run; here it returns.  The drawing, the LEDs, the marker file and the test that
a sequence of keys starts are left out, since no timer depends on them.

`TimersOk` holds at the top of the loop.  In a callback it holds for the alarms that are left once
the one that fired is taken out, so each callback has a lemma with what it finds.
-/

namespace Omap4.ChargeOnly

/-! ## The code -/

inductive Callback
  | animationAlarm
  | screenBrightnessAnimationAlarm1
  | screenBrightnessAnimationAlarm2
  | powerKeyAlarm
  deriving DecidableEq, Repr

/-- What `power_event` uses of `struct device_state`. -/
structure DeviceState where
  isPluggedIntoAc : Bool
  isPluggedIntoUsb : Bool
  voltageLevel : ℤ
  deriving DecidableEq, Repr

/-- What one callback or one event reads: the clock, at most twice, and the device; and whether the
reboot of the power key works. -/
structure Readings where
  now : Timeval
  now2 : Timeval
  device : DeviceState
  rebootOk : Bool
  deriving DecidableEq, Repr

structure Com where
  queue : List (Alarm Callback Unit)
  /-- the number of alarms set so far -/
  made : ℕ
  /-- `blank` of `screen.c` -/
  blank : Bool
  quit : Bool
  shutdown : Bool
  powerup : Bool
  /-- the power key's alarm has fired -/
  powerKeyFired : Bool
  deriving DecidableEq, Repr

def alarmSet (f : Callback) (ms : ℤ) (now : Timeval) (s : Com) : Com :=
  { s with queue := Queue.insert ⟨s.made, alarmTime now ms, f, ()⟩ s.queue, made := s.made + 1 }

def alarmUnset (f : Callback) (s : Com) : Com := { s with queue := Queue.cancel f s.queue }

/-- The alarms of `f` in the queue. -/
def Com.count (s : Com) (f : Callback) : ℕ := s.queue.countP (·.f = f)

/-- `ANIMATION_TIMEOUT`. -/
def animationTimeout : ℤ := 500

def powerupVoltage : ℤ := 3600000

def screenBrightnessAnimationAlarm2 (s : Com) : Com :=
  { alarmUnset .animationAlarm s with blank := true }

def screenBrightnessAnimationAlarm1 (r : Readings) (s : Com) : Com :=
  alarmSet .screenBrightnessAnimationAlarm2 10000 r.now s

def screenBrightnessAnimationStart (timeout : ℤ) (r : Readings) (s : Com) : Com :=
  alarmSet .animationAlarm timeout r.now2
    (alarmSet .screenBrightnessAnimationAlarm1 5000 r.now { s with blank := false })

/-- The shutdown when the charger is unplugged. -/
def shutdownDisplay (s : Com) : Com :=
  screenBrightnessAnimationAlarm2 (alarmUnset .screenBrightnessAnimationAlarm1
    (alarmUnset .screenBrightnessAnimationAlarm2 { s with shutdown := true }))

def powerEvent (r : Readings) (s : Com) : Com :=
  if ¬ s.shutdown ∧ ¬ r.device.isPluggedIntoAc ∧ ¬ r.device.isPluggedIntoUsb then
    shutdownDisplay { s with powerup := powerupVoltage ≤ r.device.voltageLevel }
  else { s with powerup := powerupVoltage ≤ r.device.voltageLevel }

def animationAlarm (r : Readings) (s : Com) : Com :=
  powerEvent r (alarmSet .animationAlarm animationTimeout r.now s)

def powerKeyAlarm (r : Readings) (s : Com) : Com :=
  { alarmUnset .animationAlarm (alarmUnset .screenBrightnessAnimationAlarm1
      (alarmUnset .screenBrightnessAnimationAlarm2 s)) with
    quit := s.quit || r.rebootOk, powerKeyFired := true }

def callback (f : Callback) (r : Readings) (s : Com) : Com :=
  match f with
  | .animationAlarm => animationAlarm r s
  | .screenBrightnessAnimationAlarm1 => screenBrightnessAnimationAlarm1 r s
  | .screenBrightnessAnimationAlarm2 => screenBrightnessAnimationAlarm2 s
  | .powerKeyAlarm => powerKeyAlarm r s

/-- The first alarm is not later than `now`. -/
def Com.isDue (now : Timeval) (s : Com) : Bool := s.queue.head?.any fun a => ¬ now.before a.time

/-- `alarm_process`, with the readings for each callback in turn; there is no result as long as they
do not suffice for it to return. -/
def alarmProcess (now : Timeval) : List Readings → Com → Option Com
  | [], s => if s.isDue now then none else some s
  | r :: rs, s =>
    match s.queue with
    | [] => some s
    | a :: q =>
      if now.before a.time then some s
        else alarmProcess now rs (callback a.f r { s with queue := q })

/-- What follows when `alarm_cancel` has returned the number of alarms of the first step. -/
def toggleScreen (r : Readings) (s : Com) : Com :=
  if 0 < s.count .screenBrightnessAnimationAlarm1 then
    screenBrightnessAnimationAlarm2 (alarmUnset .screenBrightnessAnimationAlarm1 s)
  else screenBrightnessAnimationStart animationTimeout r
    (alarmUnset .screenBrightnessAnimationAlarm1 s)

def updateScreenOnWakeupKey (r : Readings) (s : Com) : Com :=
  toggleScreen r (alarmUnset .animationAlarm (alarmUnset .screenBrightnessAnimationAlarm2 s))

def updateScreenOnWakeupKey2 (r : Readings) (s : Com) : Com :=
  screenBrightnessAnimationStart animationTimeout r (alarmUnset .animationAlarm
    (alarmUnset .screenBrightnessAnimationAlarm1 (alarmUnset .screenBrightnessAnimationAlarm2 s)))

/-- What `ev_get` returns. -/
inductive ComEvent
  | quit
  | battery
  | powerKeyDown
  | powerKeyUp
  | volumedownKeyDown
  | volumeupKeyDown
  | cameraKeyDown
  | other
  deriving DecidableEq, Repr

def handleEvent (ev : ComEvent) (r : Readings) (s : Com) : Com :=
  match ev with
  | .powerKeyDown => if s.powerup then alarmSet .powerKeyAlarm 1000 r.now s else s
  | .powerKeyUp => updateScreenOnWakeupKey r (alarmUnset .powerKeyAlarm s)
  | .volumedownKeyDown | .volumeupKeyDown | .cameraKeyDown => updateScreenOnWakeupKey2 r s
  | .battery => powerEvent r s
  | .quit => { s with quit := true }
  | .other => s

/-- `alarm_get_time_until_next`, in integers of 32 bits. -/
def alarmGetTimeUntilNext (q : List (Alarm Callback Unit)) (now : Timeval) : ℤ :=
  match q with
  | [] => 2147483647
  | a :: _ => wrap32 (wrap32 (wrap32 (a.time.sec - now.sec) * 1000) +
      (wrap32 (a.time.usec - now.usec)).tdiv 1000)

/-- An iteration of the loop: the reading that decides on it, and what it reads then. -/
inductive ComIter
  | process (clock now : Timeval) (rs : List Readings)
  | event (clock : Timeval) (ev : ComEvent) (r : Readings)

def comStep (s : Com) (i : ComIter) : Option Com :=
  if s.quit then none
  else match i with
    | .process clock now rs =>
      if alarmGetTimeUntilNext s.queue clock < 1 then alarmProcess now rs s else none
    | .event clock ev r =>
      if alarmGetTimeUntilNext s.queue clock < 1 then none else some (handleEvent ev r s)

/-- `main` up to the loop. -/
def comStart (r : Readings) : Com :=
  screenBrightnessAnimationStart 1500 r
    { queue := [], made := 0, blank := true, quit := false, shutdown := false, powerup := false,
      powerKeyFired := false }

/-! ## Counting alarms -/

theorem Queue.countP_insert (a : Alarm Callback Unit) (q : List (Alarm Callback Unit))
    (f : Callback) :
    (Queue.insert a q).countP (·.f = f) = q.countP (·.f = f) + if a.f = f then 1 else 0 := by
  rw [(Queue.insert_perm a q).countP_eq, List.countP_cons]
  simp

theorem Queue.countP_cancel (f g : Callback) (q : List (Alarm Callback Unit)) :
    (Queue.cancel g q).countP (·.f = f) = if g = f then 0 else q.countP (·.f = f) := by
  rw [Queue.cancel, List.countP_filter]
  split_ifs with h
  · simp [h]
  · refine List.countP_congr fun x _ => ?_
    simp only [Bool.and_eq_true, decide_eq_true_eq, and_iff_left_iff_imp]
    rintro rfl
    exact Ne.symm h

@[simp] theorem count_alarmSet (f g : Callback) (ms : ℤ) (now : Timeval) (s : Com) :
    (alarmSet g ms now s).count f = s.count f + if g = f then 1 else 0 :=
  Queue.countP_insert _ _ f

@[simp] theorem count_alarmUnset (f g : Callback) (s : Com) :
    (alarmUnset g s).count f = if g = f then 0 else s.count f :=
  Queue.countP_cancel f g _

/-! ## The timers -/

def TimersOk (s : Com) : Prop :=
  (s.blank = false ∧ s.count .animationAlarm = 1 ∧
      s.count .screenBrightnessAnimationAlarm1 + s.count .screenBrightnessAnimationAlarm2 = 1) ∨
    (s.blank = true ∧ s.count .animationAlarm = 0 ∧ s.count .screenBrightnessAnimationAlarm1 = 0 ∧
      s.count .screenBrightnessAnimationAlarm2 = 0)

variable {s : Com} {r : Readings}

/-- The second step blanks the display, once the alarms of the two steps are gone. -/
theorem alarm2_timersOk (h1 : s.count .screenBrightnessAnimationAlarm1 = 0)
    (h2 : s.count .screenBrightnessAnimationAlarm2 = 0) :
    TimersOk (screenBrightnessAnimationAlarm2 s) := by
  refine .inr ⟨rfl, ?_, ?_, ?_⟩
  · exact count_alarmUnset _ _ _
  · exact (count_alarmUnset _ _ _).trans h1
  · exact (count_alarmUnset _ _ _).trans h2

theorem alarm1_timersOk (hb : s.blank = false) (ha : s.count .animationAlarm = 1)
    (h1 : s.count .screenBrightnessAnimationAlarm1 = 0)
    (h2 : s.count .screenBrightnessAnimationAlarm2 = 0) :
    TimersOk (screenBrightnessAnimationAlarm1 r s) := by
  refine .inl ⟨hb, ?_, ?_⟩
  · exact (count_alarmSet _ _ _ _ _).trans (by simp [ha])
  · simp [screenBrightnessAnimationAlarm1, h1, h2]

/-- A start is right when none of the three alarms is pending. -/
theorem start_timersOk (timeout : ℤ) (ha : s.count .animationAlarm = 0)
    (h1 : s.count .screenBrightnessAnimationAlarm1 = 0)
    (h2 : s.count .screenBrightnessAnimationAlarm2 = 0) :
    TimersOk (screenBrightnessAnimationStart timeout r s) := by
  have hblank : ∀ f, Com.count { s with blank := false } f = s.count f := fun _ => rfl
  refine .inl ⟨rfl, ?_, ?_⟩
  · simp [screenBrightnessAnimationStart, hblank, ha]
  · simp [screenBrightnessAnimationStart, hblank, h1, h2]

theorem shutdownDisplay_timersOk (s : Com) : TimersOk (shutdownDisplay s) := by
  refine alarm2_timersOk ?_ ?_
  · simp
  · simp

theorem powerEvent_timersOk (h : TimersOk s) : TimersOk (powerEvent r s) := by
  unfold powerEvent
  split_ifs
  · exact shutdownDisplay_timersOk _
  · exact h

theorem animationAlarm_timersOk (hb : s.blank = false) (ha : s.count .animationAlarm = 0)
    (hs : s.count .screenBrightnessAnimationAlarm1 + s.count .screenBrightnessAnimationAlarm2 = 1) :
    TimersOk (animationAlarm r s) := by
  refine powerEvent_timersOk (.inl ⟨hb, ?_, ?_⟩)
  · simp [ha]
  · simpa using hs

theorem updateScreenOnWakeupKey2_timersOk (s : Com) : TimersOk (updateScreenOnWakeupKey2 r s) :=
  start_timersOk _ (by simp) (by simp) (by simp)

theorem updateScreenOnWakeupKey_timersOk (s : Com) : TimersOk (updateScreenOnWakeupKey r s) := by
  unfold updateScreenOnWakeupKey toggleScreen
  split_ifs
  · exact alarm2_timersOk (by simp) (by simp)
  · exact start_timersOk _ (by simp) (by simp) (by simp)

/-! ## The loop -/

/-- **A callback restores what the alarm that fired leaves.** -/
theorem callback_timersOk {a : Alarm Callback Unit} {q : List (Alarm Callback Unit)}
    (hq : s.queue = a :: q) (ha : a.f ≠ .powerKeyAlarm) (h : TimersOk s) :
    TimersOk (callback a.f r { s with queue := q }) := by
  have hcount : ∀ f, s.count f = Com.count { s with queue := q } f + if a.f = f then 1 else 0 := by
    intro f
    simp [Com.count, hq, List.countP_cons]
  unfold TimersOk at h
  simp only [hcount] at h
  cases hf : a.f with
  | animationAlarm =>
    simp only [hf, if_true, reduceCtorEq, if_false] at h
    obtain ⟨hb, h1, h2⟩ | ⟨-, h1, -, -⟩ := h
    · exact animationAlarm_timersOk hb (by omega) (by omega)
    · exact h1.elim
  | screenBrightnessAnimationAlarm1 =>
    simp only [hf, if_true, reduceCtorEq, if_false] at h
    obtain ⟨hb, h1, h2⟩ | ⟨-, -, h1, -⟩ := h
    · exact alarm1_timersOk hb (by omega) (by omega) (by omega)
    · exact h1.elim
  | screenBrightnessAnimationAlarm2 =>
    simp only [hf, if_true, reduceCtorEq, if_false] at h
    obtain ⟨hb, h1, h2⟩ | ⟨-, -, -, h1⟩ := h
    · exact alarm2_timersOk (by omega) (by omega)
    · exact h1.elim
  | powerKeyAlarm => exact absurd hf ha

theorem powerEvent_powerKeyFired (r : Readings) (s : Com) :
    (powerEvent r s).powerKeyFired = s.powerKeyFired := by
  unfold powerEvent
  split_ifs <;> rfl

theorem callback_powerKeyFired (f : Callback) (r : Readings) (s : Com) :
    (callback f r s).powerKeyFired = (s.powerKeyFired || f = .powerKeyAlarm) := by
  cases f with
  | animationAlarm => simp [callback, animationAlarm, powerEvent_powerKeyFired, alarmSet]
  | screenBrightnessAnimationAlarm1 => simp [callback, screenBrightnessAnimationAlarm1, alarmSet]
  | screenBrightnessAnimationAlarm2 => simp [callback, screenBrightnessAnimationAlarm2, alarmUnset]
  | powerKeyAlarm => simp [callback, powerKeyAlarm]

/-- The timers are as they should be, unless the power key's alarm has fired. -/
def TimersInv (s : Com) : Prop := s.powerKeyFired = false → TimersOk s

theorem alarmProcess_timersInv {now : Timeval} {rs : List Readings} {s s' : Com} (h : TimersInv s)
    (hp : alarmProcess now rs s = some s') : TimersInv s' := by
  induction rs generalizing s with
  | nil =>
    simp only [alarmProcess] at hp
    split_ifs at hp
    exact Option.some.inj hp ▸ h
  | cons r rs ih =>
    simp only [alarmProcess] at hp
    split at hp
    · exact Option.some.inj hp ▸ h
    · next a q hq =>
      split_ifs at hp
      · exact Option.some.inj hp ▸ h
      · refine ih (fun hfired => ?_) hp
        simp only [callback_powerKeyFired, Bool.or_eq_false_iff, decide_eq_false_iff_not] at hfired
        exact callback_timersOk hq hfired.2 (h hfired.1)

theorem handleEvent_timersInv (ev : ComEvent) (r : Readings) (h : TimersInv s) :
    TimersInv (handleEvent ev r s) := by
  cases ev with
  | powerKeyDown =>
    simp only [handleEvent]
    split_ifs
    · intro hfired
      have hset : ∀ f, f ≠ .powerKeyAlarm →
          (alarmSet .powerKeyAlarm 1000 r.now s).count f = s.count f := by
        intro f hf
        simp [hf.symm]
      unfold TimersOk
      rw [hset _ (by decide), hset _ (by decide), hset _ (by decide)]
      exact h hfired
    · exact h
  | powerKeyUp => exact fun _ => updateScreenOnWakeupKey_timersOk _
  | volumedownKeyDown | volumeupKeyDown | cameraKeyDown =>
    exact fun _ => updateScreenOnWakeupKey2_timersOk _
  | battery =>
    exact fun hfired => powerEvent_timersOk (h ((powerEvent_powerKeyFired r s).symm.trans hfired))
  | quit | other => exact h

theorem comStep_timersInv {i : ComIter} {s s' : Com} (h : TimersInv s)
    (hstep : comStep s i = some s') :
    TimersInv s' := by
  unfold comStep at hstep
  split_ifs at hstep
  cases i with
  | process clock now rs =>
    simp only at hstep
    split_ifs at hstep
    exact alarmProcess_timersInv h hstep
  | event clock ev r =>
    simp only at hstep
    split_ifs at hstep
    exact Option.some.inj hstep ▸ handleEvent_timersInv ev r h

/-- **The display and its timers agree** at the top of the loop, in every run in which the power
key's alarm has not fired: the display is on with one alarm of the animation and one of the two
steps of the brightness, or it is blanked and none of the three alarms is set. -/
theorem display_timers {r : Readings} {l : List ComIter} {s : Com}
    (h : Machine.exec comStep (comStart r) l = some s) (hkey : s.powerKeyFired = false) :
    (s.blank = false ∧ s.count .animationAlarm = 1 ∧
      s.count .screenBrightnessAnimationAlarm1 + s.count .screenBrightnessAnimationAlarm2 = 1) ∨
    (s.blank = true ∧ s.count .animationAlarm = 0 ∧ s.count .screenBrightnessAnimationAlarm1 = 0 ∧
      s.count .screenBrightnessAnimationAlarm2 = 0) := by
  have hstart : TimersInv (comStart r) := fun _ => start_timersOk _ rfl rfl rfl
  exact Machine.exec_inv (P := TimersInv) (fun _ _ _ => comStep_timersInv) hstart h hkey

/-- The charger is unplugged when the animation fires for the first time. -/
theorem display_timers_unplugged :
    ∃ s, Machine.exec comStep (comStart ⟨⟨10, 0⟩, ⟨10, 0⟩, ⟨true, true, 4000000⟩, false⟩)
        [.process ⟨11, 500000⟩ ⟨11, 500000⟩ [⟨⟨11, 500000⟩, ⟨11, 500000⟩, ⟨false, false, 4000000⟩, false⟩]] =
          some s ∧
      s.shutdown = true ∧ s.blank = true ∧ s.count .animationAlarm = 0 := by
  obtain ⟨s, hrun, hs, hb, hk⟩ : ∃ s, Machine.exec comStep
      (comStart ⟨⟨10, 0⟩, ⟨10, 0⟩, ⟨true, true, 4000000⟩, false⟩)
      [.process ⟨11, 500000⟩ ⟨11, 500000⟩ [⟨⟨11, 500000⟩, ⟨11, 500000⟩, ⟨false, false, 4000000⟩, false⟩]] =
        some s ∧ s.shutdown = true ∧ s.blank = true ∧ s.powerKeyFired = false :=
        ⟨_, rfl, rfl, rfl, rfl⟩
  obtain ⟨hlit, -⟩ | ⟨-, ha, -⟩ := display_timers hrun hk
  · rw [hb] at hlit
    cases hlit
  · exact ⟨s, hrun, hs, hb, ha⟩

end Omap4.ChargeOnly
