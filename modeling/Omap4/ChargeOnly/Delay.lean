import Omap4.ChargeOnly.Display

/-!
# Omap4.ChargeOnly.Delay — how long `main` sleeps (`alarm_get_time_until_next`)

Before it waits for an event, `main` asks how many milliseconds are left until the first alarm, and
calls `alarm_process` when there is none left.  The milliseconds are computed in 32 bits, and the
comparison in `alarm_process` is one of the seconds and the microseconds.

`DelayOk` says that the two agree.  They do as long as the distance in milliseconds (`msUntil`) fits
an `int`; `delayOk_iff` says exactly for which distances they do.  A clock that is set forward by 25
days gives a delay of weeks for an alarm that is long due (`delay_after_clock_set`).
-/

namespace Omap4.ChargeOnly

/-! ## Distances in time -/

/-- The microseconds of a time as `gettimeofday` gives it. -/
structure Timeval.Valid (t : Timeval) : Prop where
  usecMin : 0 ≤ t.usec
  usecMax : t.usec < 1000000

/-- The time from `now` to `t` in microseconds. -/
def usecUntil (t now : Timeval) : ℤ := (t.sec - now.sec) * 1000000 + (t.usec - now.usec)

/-- The milliseconds that `alarm_get_time_until_next` computes, without the limits of its types. -/
def msUntil (t now : Timeval) : ℤ := (t.sec - now.sec) * 1000 + (t.usec - now.usec).tdiv 1000

/-- The milliseconds are the microseconds, up to less than one millisecond in either direction. -/
theorem usecUntil_eq (t now : Timeval) :
    ∃ r, usecUntil t now = msUntil t now * 1000 + r ∧ -1000 < r ∧ r < 1000 := by
  refine ⟨(t.usec - now.usec).tmod 1000, ?_, Int.lt_tmod_of_pos _ (by omega),
    Int.tmod_lt_of_pos _ (by omega)⟩
  have hdiv := Int.tdiv_mul_add_tmod (t.usec - now.usec) 1000
  unfold usecUntil msUntil
  omega

theorem before_iff_usecUntil {t now : Timeval} (ht : t.Valid) (hn : now.Valid) :
    now.before t ↔ 0 < usecUntil t now := by
  obtain ⟨ht₀, ht₁⟩ := ht
  obtain ⟨hn₀, hn₁⟩ := hn
  unfold Timeval.before usecUntil
  omega

/-- Only the last of the overflows matters. -/
theorem alarmGetTimeUntilNext_eq {a : Alarm Callback Unit} {q : List (Alarm Callback Unit)}
    {now : Timeval} (ht : a.time.Valid) (hn : now.Valid) :
    alarmGetTimeUntilNext (a :: q) now = wrap32 (msUntil a.time now) := by
  obtain ⟨ht₀, ht₁⟩ := ht
  obtain ⟨hn₀, hn₁⟩ := hn
  have husec : wrap32 (a.time.usec - now.usec) = a.time.usec - now.usec := by
    rw [wrap32, Int.bmod_def]
    omega
  show wrap32 (wrap32 (wrap32 (a.time.sec - now.sec) * 1000) +
    (wrap32 (a.time.usec - now.usec)).tdiv 1000) = wrap32 (msUntil a.time now)
  rw [husec]
  unfold wrap32 msUntil
  simp

/-! ## When the delay agrees with the comparison -/

/-- For the alarm `x` at the head: if `alarm_process` would fire it, `main` does not sleep; and if
the delay is positive, the alarm is not due, and what is left until it is the delay up to a
millisecond. -/
structure DelayOk (now : Timeval) (x : Alarm Callback Unit) (s : Com) : Prop where
  due : s.isDue now = true →
    alarmGetTimeUntilNext s.queue now < 1 ∧ ∀ ev r, comStep s (.event now ev r) = none
  sleeps : 1 ≤ alarmGetTimeUntilNext s.queue now → s.isDue now = false ∧
    -1000 < usecUntil x.time now - alarmGetTimeUntilNext s.queue now * 1000 ∧
    usecUntil x.time now - alarmGetTimeUntilNext s.queue now * 1000 < 1000

section Head

variable {s : Com} {x : Alarm Callback Unit} {q : List (Alarm Callback Unit)} {now : Timeval}

theorem isDue_iff (hq : s.queue = x :: q) : s.isDue now = true ↔ ¬ now.before x.time := by
  unfold Com.isDue
  simp [hq]

/-- `isDue` decides whether `alarm_process` fires the alarm at the head. -/
theorem alarmProcess_head (hq : s.queue = x :: q) (r : Readings) (rs : List Readings) :
    alarmProcess now (r :: rs) s =
      if s.isDue now then alarmProcess now rs (callback x.f r { s with queue := q })
      else some s := by
  have hdue : s.isDue now = true ↔ _ := isDue_iff hq
  rw [alarmProcess]
  simp only [hq]
  by_cases hb : now.before x.time
  · rw [if_pos hb, if_neg (by rw [hdue]; exact not_not_intro hb)]
  · rw [if_neg hb, if_pos (hdue.mpr hb)]

theorem comStep_event_of_lt (h : alarmGetTimeUntilNext s.queue now < 1) (ev : ComEvent)
    (r : Readings) :
    comStep s (.event now ev r) = none := by
  unfold comStep
  split_ifs
  · rfl
  · exact if_pos h

/-- `DelayOk` in terms of the delay that is returned. -/
theorem delayOk_iff_wrap (hq : s.queue = x :: q) (ht : x.time.Valid) (hn : now.Valid) :
    DelayOk now x s ↔
      (usecUntil x.time now ≤ 0 → wrap32 (msUntil x.time now) < 1) ∧
      (1 ≤ wrap32 (msUntil x.time now) →
        -1000 < usecUntil x.time now - wrap32 (msUntil x.time now) * 1000 ∧
        usecUntil x.time now - wrap32 (msUntil x.time now) * 1000 < 1000) := by
  have hdelay : alarmGetTimeUntilNext s.queue now = wrap32 (msUntil x.time now) := by
    rw [hq, alarmGetTimeUntilNext_eq ht hn]
  have hdue : s.isDue now = true ↔ usecUntil x.time now ≤ 0 := by
    rw [isDue_iff hq, before_iff_usecUntil ht hn]
    omega
  constructor
  · rintro ⟨hlt, hsleeps⟩
    rw [hdelay] at hlt hsleeps
    exact ⟨fun hle => (hlt (hdue.mpr hle)).1, fun hpos => (hsleeps hpos).2⟩
  · rintro ⟨hlt, hsleeps⟩
    rw [← hdelay] at hlt hsleeps
    refine ⟨fun h => ?_, fun hpos => ⟨?_, hsleeps hpos⟩⟩
    · have hnext := hlt (hdue.mp h)
      exact ⟨hnext, comStep_event_of_lt hnext⟩
    · -- an alarm that is due has no positive delay
      rw [← Bool.not_eq_true, hdue]
      intro hle
      have hnext := hlt hle
      omega

end Head

/-- **No sleeping on an alarm that is due**: `main` does with the alarm at the head what its time
asks for if and only if the distance in milliseconds is a positive `int`, or does not become one by
the overflow. -/
theorem delayOk_iff (s : Com) (x : Alarm Callback Unit) (q : List (Alarm Callback Unit))
    (now : Timeval) (hq : s.queue = x :: q) (ht : x.time.Valid) (hn : now.Valid) :
    DelayOk now x s ↔
      (1 ≤ msUntil x.time now ∧ msUntil x.time now < 2147483648) ∨
      ¬ (1 ≤ msUntil x.time now % 4294967296 ∧ msUntil x.time now % 4294967296 < 2147483648) := by
  rw [delayOk_iff_wrap hq ht hn]
  obtain ⟨r, hr, hr₀, hr₁⟩ := usecUntil_eq x.time now
  rw [hr]
  generalize msUntil x.time now = m
  rw [wrap32, Int.bmod_def]
  omega

/-- The animation is to go on at `t`. -/
def animationAt (t : Timeval) : Com where
  queue := [⟨0, t, .animationAlarm, ()⟩]
  made := 1
  blank := false
  quit := false
  shutdown := false
  powerup := false
  powerKeyFired := false

theorem delayOk_animation :
    DelayOk ⟨100, 700000⟩ ⟨0, ⟨102, 200000⟩, .animationAlarm, ()⟩ (animationAt ⟨102, 200000⟩) :=
  (delayOk_iff _ _ [] _ rfl ⟨by decide, by decide⟩ ⟨by decide, by decide⟩).mpr (.inl (by decide))

/-- The clock is set forward by 25 days: the alarm is due, and `main` sleeps for more than 24
days. -/
theorem delay_after_clock_set :
    (animationAt ⟨100, 0⟩).isDue ⟨2160100, 0⟩ = true ∧
    alarmGetTimeUntilNext (animationAt ⟨100, 0⟩).queue ⟨2160100, 0⟩ = 2134967296 ∧
    ¬ DelayOk ⟨2160100, 0⟩ ⟨0, ⟨100, 0⟩, .animationAlarm, ()⟩ (animationAt ⟨100, 0⟩) := by
  have hdue : (animationAt ⟨100, 0⟩).isDue ⟨2160100, 0⟩ = true := by decide
  have hdelay : alarmGetTimeUntilNext (animationAt ⟨100, 0⟩).queue ⟨2160100, 0⟩ = 2134967296 := by
    decide
  refine ⟨hdue, hdelay, fun hok => ?_⟩
  have hlt := (hok.due hdue).1
  rw [hdelay] at hlt
  omega

end Omap4.ChargeOnly
