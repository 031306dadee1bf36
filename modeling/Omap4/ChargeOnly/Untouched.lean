import Omap4.ChargeOnly.Delay

/-!
# Omap4.ChargeOnly.Untouched — a display that nobody touches goes dark (`main.c`)

The animation sets its own alarm again each time, so a lit display has timers to come at any time.
Still only `timersLeft` of them fire before the display is blanked: the animation is set half a
second ahead of the clock, so it gets behind the step of the brightness that is pending, and there
are two of these steps.

`fire` is what `alarm_process` does with one alarm (`alarmProcess_fires`), `fire_step` is what it
does to a lit display, and `untouched_goes_dark` is about the main loop.
-/

namespace Omap4.ChargeOnly

/-! ## Times in microseconds -/

def Timeval.usecs (t : Timeval) : ℤ := t.sec * 1000000 + t.usec

/-- What a clock shows that is not within ten seconds of the end of `time_t`. -/
structure Timeval.Shown (t : Timeval) : Prop extends t.Valid where
  secMin : -2147483648 ≤ t.sec
  secMax : t.sec < 2147483637

theorem Timeval.before_iff {s t : Timeval} (hs : s.Valid) (ht : t.Valid) :
    s.before t ↔ s.usecs < t.usecs := by
  rw [before_iff_usecUntil ht hs]
  unfold usecUntil usecs
  omega

/-- A deadline at most ten seconds ahead is computed without an overflow. -/
theorem alarmTime_ahead {now : Timeval} {ms : ℤ} (hnow : now.Shown) (h₀ : 0 ≤ ms)
    (h₁ : ms ≤ 10000) :
    (alarmTime now ms).Valid ∧ (alarmTime now ms).usecs = now.usecs + ms * 1000 := by
  obtain ⟨⟨hu₀, hu₁⟩, hs₀, hs₁⟩ := hnow
  obtain ⟨hv₀, hv₁⟩ := alarmTime_usec h₀ (by omega) hu₀ hu₁
  refine ⟨⟨hv₀, hv₁⟩, ?_⟩
  have hms : wrap32 (ms * 1000) = ms * 1000 := wrap32_of_lt (by omega) (by omega)
  have hsum : wrap32 (now.usec + ms * 1000) = now.usec + ms * 1000 :=
    wrap32_of_lt (by omega) (by omega)
  unfold alarmTime carryUsec
  rw [hms, hsum]
  split_ifs
  · have hdiv : (now.usec + ms * 1000).tdiv 1000000 = (now.usec + ms * 1000) / 1000000 :=
      Int.tdiv_eq_ediv_of_nonneg (by omega)
    have hmod : (now.usec + ms * 1000).tmod 1000000 = (now.usec + ms * 1000) % 1000000 :=
      Int.tmod_eq_emod_of_nonneg (by omega)
    have hsec : wrap32 (now.sec + (now.usec + ms * 1000) / 1000000) =
        now.sec + (now.usec + ms * 1000) / 1000000 := by
      rw [wrap32, Int.bmod_def]
      omega
    simp only [Timeval.usecs, hdiv, hmod, hsec]
    omega
  · simp only [Timeval.usecs]
    omega

variable {s s' : Com} {r : Readings}

/-! ## One timer -/

/-- The first alarm fires; the clock has reached it when its callback reads the clock. -/
def fire (s : Com) (r : Readings) : Option Com :=
  match s.queue with
  | [] => none
  | a :: q => if r.now.before a.time then none else some (callback a.f r { s with queue := q })

/-- `alarm_process` fires timers, as long as its clock does not go back. -/
theorem alarmProcess_fires {now : Timeval} {rs : List Readings} {s s' : Com}
    (hnow : ∀ r ∈ rs, ¬ r.now.before now) (hp : alarmProcess now rs s = some s') :
    ∃ k, Machine.exec fire s (rs.take k) = some s' := by
  induction rs generalizing s with
  | nil =>
    simp only [alarmProcess] at hp
    split_ifs at hp
    exact ⟨0, hp⟩
  | cons r rs ih =>
    cases hq : s.queue with
    | nil =>
      simp only [alarmProcess, hq] at hp
      exact ⟨0, hp⟩
    | cons a q =>
      rw [alarmProcess_head hq] at hp
      split_ifs at hp with hdue
      · obtain ⟨k, hk⟩ := ih (fun r' hr' => hnow r' (List.mem_cons_of_mem _ hr')) hp
        have hreached : ¬ r.now.before a.time := by
          rw [isDue_iff hq] at hdue
          have hlater := hnow r (List.mem_cons_self ..)
          intro hbefore
          exact hdue (Timeval.before_of_not_of_before hlater hbefore)
        refine ⟨k + 1, ?_⟩
        rw [List.take_succ_cons, Machine.exec_cons, fire, hq]
        simp only [hreached, if_false]
        exact hk
      · exact ⟨0, hp⟩

/-- The timers of a lit display: the animation and one of the steps of the brightness. -/
def LitQueue (q : List (Alarm Callback Unit)) : Prop :=
  ∃ x y, q = [x, y] ∧ x.time.Valid ∧ y.time.Valid ∧
    ((x.f = .animationAlarm ∧ y.f ≠ .animationAlarm) ∨
      (x.f ≠ .animationAlarm ∧ y.f = .animationAlarm)) ∧
    x.f ≠ .powerKeyAlarm ∧ y.f ≠ .powerKeyAlarm

/-- How many timers fire before the display is dark, when the clock shows `now`. -/
def timersLeft (now : Timeval) : List (Alarm Callback Unit) → ℕ
  | [x, y] =>
    (if x.f = .animationAlarm then
      ((y.time.usecs - max x.time.usecs now.usecs) / 500000).toNat + 1 else 0) +
    if x.f = .screenBrightnessAnimationAlarm1 ∨ y.f = .screenBrightnessAnimationAlarm1 then
      23 else 1
  | _ => 0

theorem insert_single (a y : Alarm Callback Unit) :
    Queue.insert a [y] = if a.time.before y.time then [a, y] else [y, a] := by
  unfold Queue.insert Queue.upTo
  split_ifs with h
  · simp [h]
  · simp [h]

theorem shutdownDisplay_dark (h : ∀ a ∈ s.queue, a.f ≠ .powerKeyAlarm) :
    (shutdownDisplay s).blank = true ∧ (shutdownDisplay s).queue = [] := by
  refine ⟨rfl, List.eq_nil_iff_forall_not_mem.mpr fun a ha => ?_⟩
  simp only [shutdownDisplay, screenBrightnessAnimationAlarm2, alarmUnset, Queue.cancel,
    List.mem_filter, decide_eq_true_eq] at ha
  obtain ⟨⟨⟨ha, h2⟩, h1⟩, h0⟩ := ha
  have hkey := h a ha
  cases hf : a.f with
  | animationAlarm => exact h0 hf
  | screenBrightnessAnimationAlarm1 => exact h1 hf
  | screenBrightnessAnimationAlarm2 => exact h2 hf
  | powerKeyAlarm => exact hkey hf

/-- The display is lit with fewer than `n` timers to fire, or it is dark and none is set. -/
def Within (n : ℕ) (now : Timeval) (s : Com) : Prop :=
  (s.blank = false ∧ LitQueue s.queue ∧ timersLeft now s.queue < n) ∨
    (s.blank = true ∧ s.queue = [] ∧ 0 < n)

variable {x y : Alarm Callback Unit} {now : Timeval}

/-- The animation is set again half a second ahead. -/
theorem animationAlarm_within (hblank : s.blank = false) (hq : s.queue = [y])
    (hx : x.time.Valid) (hy : y.time.Valid) (hxf : x.f = .animationAlarm)
    (hyf : y.f ≠ .animationAlarm) (hykey : y.f ≠ .powerKeyAlarm) (hnow : now.Valid)
    (hr : r.now.Shown) (hlater : ¬ r.now.before now) (hdue : ¬ r.now.before x.time) :
    Within (timersLeft now [x, y]) r.now (animationAlarm r s) := by
  obtain ⟨hvalid, husecs⟩ : (alarmTime r.now animationTimeout).Valid ∧
      (alarmTime r.now animationTimeout).usecs = r.now.usecs + animationTimeout * 1000 :=
    alarmTime_ahead hr (by decide) (by decide)
  rw [Timeval.before_iff hr.toValid hnow] at hlater
  rw [Timeval.before_iff hr.toValid hx] at hdue
  have hset : (alarmSet .animationAlarm animationTimeout r.now s).queue =
      Queue.insert ⟨s.made, alarmTime r.now animationTimeout, .animationAlarm, ()⟩ [y] :=
    congrArg (Queue.insert _) hq
  unfold animationAlarm powerEvent
  split_ifs with hunplugged
  · have hmem : ∀ a ∈ (alarmSet .animationAlarm animationTimeout r.now s).queue,
        a.f ≠ .powerKeyAlarm := by
      intro a ha
      rw [hset] at ha
      obtain rfl | ha := List.mem_cons.mp ((Queue.insert_perm _ _).mem_iff.mp ha)
      · exact fun h => by cases h
      · exact List.mem_singleton.mp ha ▸ hykey
    refine .inr ⟨(shutdownDisplay_dark hmem).1, (shutdownDisplay_dark hmem).2, ?_⟩
    simp only [timersLeft, hxf, if_true]
    omega
  · refine .inl ⟨hblank, ?_⟩
    show LitQueue (alarmSet _ _ _ _).queue ∧ timersLeft _ (alarmSet _ _ _ _).queue < _
    rw [hset, insert_single]
    have htimeout : animationTimeout = 500 := rfl
    split_ifs with hbefore
    · refine ⟨⟨_, _, rfl, hvalid, hy, .inl ⟨rfl, hyf⟩,
        (fun h => by cases h), hykey⟩, ?_⟩
      rw [Timeval.before_iff hvalid hy] at hbefore
      simp only [timersLeft, hxf, if_true, reduceCtorEq, false_or]
      omega
    · refine ⟨⟨_, _, rfl, hy, hvalid, .inr ⟨hyf, rfl⟩, hykey, (fun h => by cases h)⟩, ?_⟩
      simp only [timersLeft, hxf, hyf, if_true, if_false, reduceCtorEq, false_or, or_false]
      omega

/-- The second step of the brightness is set ten seconds ahead. -/
theorem alarm1_within (hblank : s.blank = false) (hq : s.queue = [y]) (hy : y.time.Valid)
    (hxf : x.f = .screenBrightnessAnimationAlarm1) (hyf : y.f = .animationAlarm)
    (hr : r.now.Shown) :
    Within (timersLeft now [x, y]) r.now (screenBrightnessAnimationAlarm1 r s) := by
  obtain ⟨hvalid, husecs⟩ : (alarmTime r.now 10000).Valid ∧
      (alarmTime r.now 10000).usecs = r.now.usecs + 10000 * 1000 :=
    alarmTime_ahead hr (by decide) (by decide)
  refine .inl ⟨hblank, ?_⟩
  have hset : (screenBrightnessAnimationAlarm1 r s).queue =
      Queue.insert ⟨s.made, alarmTime r.now 10000, .screenBrightnessAnimationAlarm2, ()⟩ [y] :=
    congrArg (Queue.insert _) hq
  rw [hset, insert_single]
  split_ifs with hbefore
  · refine ⟨⟨_, _, rfl, hvalid, hy, .inr ⟨(fun h => by cases h), hyf⟩,
      (fun h => by cases h), (fun h => by cases hyf.symm.trans h)⟩, ?_⟩
    simp [timersLeft, hxf, hyf]
  · refine ⟨⟨_, _, rfl, hy, hvalid, .inl ⟨hyf, (fun h => by cases h)⟩,
      (fun h => by cases hyf.symm.trans h), (fun h => by cases h)⟩, ?_⟩
    simp only [timersLeft, hxf, hyf, if_true, if_false, reduceCtorEq, or_false]
    omega

/-- **One timer** of a lit display leaves fewer to come, or blanks it. -/
theorem fire_step (hblank : s.blank = false) (hlit : LitQueue s.queue) (hnow : now.Valid)
    (hr : r.now.Shown) (hlater : ¬ r.now.before now) (h : fire s r = some s') :
    Within (timersLeft now s.queue) r.now s' := by
  obtain ⟨x, y, hq, hx, hy, hkinds, hxkey, hykey⟩ := hlit
  rw [fire, hq] at h
  simp only at h
  split_ifs at h with hdue
  obtain rfl := Option.some.inj h
  rw [hq]
  cases hxf : x.f with
  | animationAlarm =>
    obtain ⟨-, hyf⟩ | ⟨hne, -⟩ := hkinds
    · exact animationAlarm_within hblank rfl hx hy hxf hyf hykey hnow hr hlater hdue
    · exact absurd hxf hne
  | screenBrightnessAnimationAlarm1 =>
    obtain ⟨hne, -⟩ | ⟨-, hyf⟩ := hkinds
    · rw [hxf] at hne
      cases hne
    · exact alarm1_within hblank rfl hy hxf hyf hr
  | screenBrightnessAnimationAlarm2 =>
    obtain ⟨hne, -⟩ | ⟨-, hyf⟩ := hkinds
    · rw [hxf] at hne
      cases hne
    · refine .inr ⟨rfl, ?_, ?_⟩
      · show Queue.cancel .animationAlarm [y] = []
        simp [Queue.cancel, hyf]
      · simp [timersLeft, hxf, hyf]
  | powerKeyAlarm => exact absurd hxf hxkey

/-! ## The loop -/

/-- The clock shows `now` and does not go back from reading to reading. -/
def Forward (now : Timeval) : List Readings → Prop
  | [] => True
  | r :: rs => r.now.Shown ∧ ¬ r.now.before now ∧ Forward r.now rs

theorem fires_within {rs : List Readings} (hnow : now.Valid) (hblank : s.blank = false)
    (hlit : LitQueue s.queue) (hrs : Forward now rs) (h : Machine.exec fire s rs = some s') :
    rs.length ≤ timersLeft now s.queue ∧
      ((s'.blank = false ∧ LitQueue s'.queue) ∨ (s'.blank = true ∧ s'.queue = [])) := by
  induction rs generalizing now s with
  | nil =>
    obtain rfl := Option.some.inj h
    exact ⟨Nat.zero_le _, .inl ⟨hblank, hlit⟩⟩
  | cons r rs ih =>
    obtain ⟨s₁, hfire, hrest⟩ := Machine.exec_cons_some h
    obtain ⟨hr, hlater, hrs⟩ := hrs
    obtain ⟨hblank₁, hlit₁, hlt⟩ | ⟨hdark, hempty, hpos⟩ :=
      fire_step hblank hlit hnow hr hlater hfire
    · obtain ⟨hlen, hs'⟩ := ih hr.toValid hblank₁ hlit₁ hrs hrest
      refine ⟨?_, hs'⟩
      rw [List.length_cons]
      omega
    · -- no timer fires after that
      cases rs with
      | nil =>
        obtain rfl := Option.some.inj hrest
        exact ⟨hpos, .inr ⟨hdark, hempty⟩⟩
      | cons r' rs' =>
        obtain ⟨s₂, hnone, -⟩ := Machine.exec_cons_some hrest
        rw [fire, hempty] at hnone
        cases hnone

/-- The readings of the callbacks. -/
def ComIter.readings : ComIter → List Readings
  | .process _ _ rs => rs
  | .event _ _ _ => []

/-- Nothing happens but timers, and `alarm_process` reads the clock before its callbacks do. -/
def ComIter.Idle : ComIter → Prop
  | .process _ now rs => ∀ r ∈ rs, ¬ r.now.before now
  | .event _ ev _ => ev = .other

theorem idle_fires {l : List ComIter} (hidle : ∀ i ∈ l, i.Idle)
    (h : Machine.exec comStep s l = some s') :
    ∃ rs, rs.Sublist (l.flatMap ComIter.readings) ∧ Machine.exec fire s rs = some s' := by
  induction l generalizing s with
  | nil => exact ⟨[], List.nil_sublist _, h⟩
  | cons i l ih =>
    obtain ⟨s₁, hstep, hrest⟩ := Machine.exec_cons_some h
    obtain ⟨rs, hsub, hrs⟩ := ih (fun j hj => hidle j (List.mem_cons_of_mem _ hj)) hrest
    have hi := hidle i (List.mem_cons_self ..)
    rw [List.flatMap_cons]
    cases i with
    | process clock now rs₀ =>
      unfold comStep at hstep
      simp only at hstep
      split_ifs at hstep
      obtain ⟨k, hk⟩ := alarmProcess_fires hi hstep
      refine ⟨rs₀.take k ++ rs, (List.take_sublist k rs₀).append hsub, ?_⟩
      rw [Machine.exec_append, hk]
      exact hrs
    | event clock ev r =>
      obtain rfl := hi
      unfold comStep at hstep
      simp only [handleEvent] at hstep
      split_ifs at hstep
      obtain rfl := Option.some.inj hstep
      exact ⟨rs, hsub, hrs⟩

theorem Forward.sublist {now now' : Timeval} {rs rs' : List Readings} (hsub : rs'.Sublist rs)
    (hback : ¬ now.before now') (h : Forward now rs) : Forward now' rs' := by
  induction hsub generalizing now now' with
  | slnil => trivial
  | cons r _ ih =>
    exact ih (fun hbefore => h.2.1 (Timeval.before_of_before_of_not hbefore hback)) h.2.2
  | cons_cons r _ ih =>
    refine ⟨h.1, fun hbefore => h.2.1 (Timeval.before_of_before_of_not hbefore hback), ?_⟩
    exact ih (fun hbefore => Timeval.not_before_of_before hbefore hbefore) h.2.2

theorem length_eq_counts (q : List (Alarm Callback Unit)) :
    q.length = q.countP (·.f = .animationAlarm) +
    q.countP (·.f = .screenBrightnessAnimationAlarm1) +
      q.countP (·.f = .screenBrightnessAnimationAlarm2) + q.countP (·.f = .powerKeyAlarm) := by
  induction q with
  | nil => rfl
  | cons a q ih =>
    simp only [List.length_cons, List.countP_cons, ih]
    cases a.f <;> simp <;> omega

/-- The timers of the display, when the power key is not held. -/
theorem TimersOk.queue (h : TimersOk s) (hkey : s.count .powerKeyAlarm = 0)
    (hvalid : ∀ a ∈ s.queue, a.time.Valid) :
    (s.blank = false ∧ LitQueue s.queue) ∨ (s.blank = true ∧ s.queue = []) := by
  have hlen := length_eq_counts s.queue
  unfold TimersOk at h
  unfold Com.count at h hkey
  obtain ⟨hblank, ha, hsteps⟩ | ⟨hblank, ha, h1, h2⟩ := h
  · refine .inl ⟨hblank, ?_⟩
    obtain ⟨x, y, hq⟩ := List.length_eq_two.mp (show s.queue.length = 2 by omega)
    rw [hq] at ha hsteps hkey hvalid
    simp only [List.countP_cons, List.countP_nil, decide_eq_true_eq] at ha hsteps hkey
    refine ⟨x, y, hq, hvalid x (by simp), hvalid y (by simp), ?_, fun hx => ?_, fun hy => ?_⟩
    · split_ifs at ha with hy hx hx
      · omega
      · exact .inr ⟨hx, hy⟩
      · exact .inl ⟨hx, hy⟩
      · omega
    · rw [if_pos hx] at hkey
      omega
    · rw [if_pos hy] at hkey
      omega
  · exact .inr ⟨hblank, List.length_eq_zero_iff.mp (by omega)⟩

/-- **A display that nobody touches goes dark.**  From any state of the loop in which the display is
lit and the power key is not held, as long as no event comes and the clock does not go back, at most
`timersLeft` timers fire, and none is set any more just when the display is blanked. -/
theorem untouched_goes_dark {r₀ : Readings} {l l' : List ComIter} {s s' : Com} {now : Timeval}
    (h : Machine.exec comStep (comStart r₀) l = some s) (hfired : s.powerKeyFired = false)
    (hkey : s.count .powerKeyAlarm = 0) (hvalid : ∀ a ∈ s.queue, a.time.Valid)
    (hlit : s.blank = false) (hnow : now.Valid) (hidle : ∀ i ∈ l', i.Idle)
    (hforward : Forward now (l'.flatMap ComIter.readings))
    (h' : Machine.exec comStep s l' = some s') :
    ∃ rs, Machine.exec fire s rs = some s' ∧ rs.length ≤ timersLeft now s.queue ∧
      (s'.blank = true ↔ s'.queue = []) := by
  obtain ⟨-, hqueue⟩ | ⟨hdark, -⟩ := TimersOk.queue (display_timers h hfired) hkey hvalid
  · obtain ⟨rs, hsub, hrs⟩ := idle_fires hidle h'
    have hback : ¬ now.before now := fun hbefore => Timeval.not_before_of_before hbefore hbefore
    obtain ⟨hlen, hs'⟩ := fires_within hnow hlit hqueue (hforward.sublist hsub hback) hrs
    refine ⟨rs, hrs, hlen, ?_⟩
    obtain ⟨hblank, x, y, hq, -⟩ | ⟨hblank, hq⟩ := hs'
    · simp [hblank, hq]
    · simp [hblank, hq]
  · rw [hlit] at hdark
    cases hdark

/-- When the display has just been lit, these are the eight timers of five seconds, the first step,
the 21 of ten seconds and the second step. -/
example : timersLeft ⟨10, 0⟩ (comStart ⟨⟨10, 0⟩, ⟨10, 0⟩, ⟨true, true, 4000000⟩, false⟩).queue =
    31 := by decide

end Omap4.ChargeOnly
