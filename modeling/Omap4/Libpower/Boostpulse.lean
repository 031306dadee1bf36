import Omap4.CString
import Omap4.FdTable
import Omap4.Monitor

/-!
# Omap4.Libpower.Boostpulse — hints from many threads (`omap_power_hint`, `boostpulse_open`)

`boostpulse_open` opens the boostpulse file on demand and keeps the descriptor in `boostpulse_fd`.
`omap_power_hint` writes to it, and closes it when a write fails.  Both change the module under its
lock, but the descriptor is read once more behind `unlock`, and again for the `write`.

A `Pc` is the next thing a thread does: one access to the module or one system call.  The table of
descriptors is that of the process, in which other code opens and closes as well.

No order of the steps makes the module close a descriptor of somebody else or lose its own
(`boostpulse_owned`), and it tells of a failing `open` once (`openError_once`).  A `write` can still
hit the descriptor of somebody else: `write_reaches_other`.
-/

namespace Omap4.Libpower.Boostpulse

open Monitor

/-! ## The module and its process -/

/-- Whose descriptor it is. -/
inductive Owner where
  | boostpulse
  | other
  deriving DecidableEq, Repr

inductive Event where
  /-- `Error opening` -/
  | openError
  | opened (fd : ℕ)
  | wrote (fd : ℕ) (text : CStr)
  /-- `Error writing to` -/
  | writeError
  /-- a hint whose `write` failed has set `boostpulse_fd` to -1 and `boostpulse_warned` to 0 -/
  | reset
  deriving DecidableEq, Repr

/-- `omap_power_module` (a negative `boostpulse_fd` is `none`), the descriptors of the process and
what happened, the last first. -/
structure Module where
  inited : Bool
  boostpulseFd : Option ℕ
  boostpulseWarned : Bool
  fds : FdTable Owner
  log : List Event
  deriving DecidableEq, Repr

/-- `HAL_MODULE_INFO_SYM` in a process that has opened `fds`. -/
def Module.start (fds : FdTable Owner) : Module := ⟨false, none, false, fds, []⟩

/-- `power_hint_t`, as far as `omap_power_hint` tells the hints apart. -/
inductive Hint where
  | interaction
  | cpuBoost
  | launchBoost
  | vsync
  | other
  deriving DecidableEq, Repr

def Hint.boosts : Hint → Bool
  | .interaction | .cpuBoost | .launchBoost => true
  | .vsync | .other => false

/-! ## The steps -/

inductive Pc where
  | idle
  /-- `boostpulse_open`: `pthread_mutex_lock` -/
  | locking
  | checking
  | opening
  /-- the result of `open` is stored -/
  | storing (r : Option ℕ)
  | testing
  | asking
  | logging
  | warning
  | unwarning
  | unlocking
  /-- `return omap_device->boostpulse_fd` -/
  | returning
  /-- the argument of `write` is read -/
  | loading
  | writing (fd : Option ℕ)
  | failing
  /-- `omap_power_hint`: `pthread_mutex_lock` -/
  | relocking
  | closing
  | dropping
  | resetting
  | leaving
  deriving DecidableEq, Repr

structure Thread where
  pc : Pc
  duration : ℤ
  deriving DecidableEq, Repr

def Thread.start : Thread := ⟨.idle, 1⟩

/-- The thread has the lock. -/
def Pc.holds : Pc → Bool
  | .idle | .locking | .returning | .loading | .writing _ | .failing | .relocking => false
  | _ => true

inductive Input where
  | call (hint : Hint) (data : Option ℤ)
  /-- the next step, in which an `open` or a `write` succeeds or not -/
  | go (ok : Bool)
  deriving DecidableEq, Repr

/-- `snprintf(buf, sizeof(buf), "%d", duration)`. -/
def durationText (duration : ℤ) : CStr := CStr.snprintf 80 (CStr.decInt duration)

/-- `close(boostpulse_fd)`: closing −1 does nothing. -/
def Module.closeFd (x : Module) : FdTable Owner := x.boostpulseFd.elim x.fds x.fds.close

/-- The next step of a thread that is at `pc` in a hint for `duration`. -/
def advance (duration : ℤ) (x : Module) (ok : Bool) : Pc → Option (Pc × Module)
  | .idle => none
  | .locking => some (.checking, x)
  | .checking => some (if x.boostpulseFd = none then .opening else .unlocking, x)
  | .opening =>
    some (if ok then (.storing (some x.fds.lowest),
      { x with fds := x.fds.openFd .boostpulse, log := .opened x.fds.lowest :: x.log })
    else (.storing none, x))
  | .storing r => some (.testing, { x with boostpulseFd := r })
  | .testing => some (if x.boostpulseFd = none then .asking else .unwarning, x)
  | .asking => some (if x.boostpulseWarned then .unlocking else .logging, x)
  | .logging => some (.warning, { x with log := .openError :: x.log })
  | .warning => some (.unlocking, { x with boostpulseWarned := true })
  | .unwarning => some (.unlocking, { x with boostpulseWarned := false })
  | .unlocking => some (.returning, x)
  | .returning => some (if x.boostpulseFd = none then .idle else .loading, x)
  | .loading => some (.writing x.boostpulseFd, x)
  | .writing none => if ok then none else some (.failing, x)
  | .writing (some fd) =>
    if ok then
      if x.fds.get fd = none then none
      else some (.idle, { x with log := .wrote fd (durationText duration) :: x.log })
    else some (.failing, x)
  | .failing => some (.relocking, { x with log := .writeError :: x.log })
  | .relocking => some (.closing, x)
  | .closing => some (.dropping, { x with fds := x.closeFd })
  | .dropping => some (.resetting, { x with boostpulseFd := none })
  | .resetting => some (.leaving, { x with boostpulseWarned := false, log := .reset :: x.log })
  | .leaving => some (.idle, x)

/-- `omap_power_hint`, step by step. -/
def hintStep (p : Thread) (x : Module) : Input → Option (Thread × Module)
  | .call hint data =>
    if p.pc ≠ .idle then none
    else if x.inited && hint.boosts then some (⟨.locking, data.getD 1⟩, x)
    else some (p, x)
  | .go ok => (advance p.duration x ok p.pc).map fun r => (⟨r.1, p.duration⟩, r.2)

/-- What the rest of the process does. -/
inductive Other where
  /-- `omap_power_init` succeeds -/
  | init
  | openFd
  | closeFd (fd : ℕ)
  deriving DecidableEq, Repr

def otherStep (x : Module) : Other → Option Module
  | .init => some { x with inited := true }
  | .openFd => some { x with fds := x.fds.openFd .other }
  | .closeFd fd =>
    if x.fds.get fd = some .other then some { x with fds := x.fds.close fd } else none

def powerHint : Program Thread Module Input Other where
  holds p := p.pc.holds
  step := hintStep
  env := otherStep

/-- No call is going on, and no descriptor is the module's. -/
def start (fds : FdTable Owner) : Monitor.State Thread Module :=
  ⟨fun _ => .start, none, Module.start fds⟩

/-! ## What the lock protects -/

/-- The newest message about `open` has not been followed by a success of `open` or a reset. -/
def reported : List Event → Bool
  | [] => false
  | .openError :: _ => true
  | .opened _ :: _ => false
  | .reset :: _ => false
  | .wrote _ _ :: l => reported l
  | .writeError :: l => reported l

/-- A message about `open` is only given when the last one is over. -/
def Spaced : List Event → Prop
  | [] => True
  | .openError :: l => reported l = false ∧ Spaced l
  | .opened _ :: l => Spaced l
  | .reset :: l => Spaced l
  | .wrote _ _ :: l => Spaced l
  | .writeError :: l => Spaced l

/-- The descriptors of the module that are open. -/
def Owns (x : Module) (fd : Option ℕ) : Prop := ∀ n, x.fds.get n = some .boostpulse ↔ fd = some n

def Told (x : Module) : Prop := x.boostpulseWarned = reported x.log

/-- What a thread that is at `pc` with the lock knows. -/
def Holding : Pc → Module → Prop
  | .opening, x => x.boostpulseFd = none ∧ Owns x none ∧ Told x
  | .storing r, x =>
    x.boostpulseFd = none ∧ Owns x r ∧ if r = none then Told x else reported x.log = false
  | .testing, x =>
    Owns x x.boostpulseFd ∧ if x.boostpulseFd = none then Told x else reported x.log = false
  | .logging, x => Owns x x.boostpulseFd ∧ x.boostpulseWarned = false ∧ Told x
  | .warning, x => Owns x x.boostpulseFd ∧ reported x.log = true
  | .unwarning, x => Owns x x.boostpulseFd ∧ reported x.log = false
  | .dropping, x => Owns x none ∧ Told x
  | _, x => Owns x x.boostpulseFd ∧ Told x

/-- Beside the lock, the module owns `boostpulse_fd` and nothing else, and it has warned if the
newest message is not over. -/
def Unlocked (x : Module) : Prop := Spaced x.log ∧ Owns x x.boostpulseFd ∧ Told x

def Locked (p : Thread) (x : Module) : Prop := Spaced x.log ∧ Holding p.pc x

section
variable {x x' : Module} {pc pc' : Pc} {duration : ℤ} {ok : Bool}

theorem owns_openFd (h : Owns x none) (l : List Event) :
    Owns { x with fds := x.fds.openFd .boostpulse, log := l } (some x.fds.lowest) := by
  intro n
  show (x.fds.openFd .boostpulse).get n = _ ↔ _
  by_cases hn : n = x.fds.lowest
  · rw [hn]
    exact iff_of_true (FdTable.get_openFd_self _ _) rfl
  · rw [FdTable.get_openFd_of_ne _ _ hn, h n, Option.some.injEq]
    exact iff_of_false (fun h => by cases h) (Ne.symm hn)

theorem owns_closeFd (h : Owns x x.boostpulseFd) : Owns { x with fds := x.closeFd } none := by
  intro n
  show x.closeFd.get n = _ ↔ _
  have hold := h n
  unfold Module.closeFd
  cases hfd : x.boostpulseFd with
  | none =>
    rw [hfd] at hold
    exact hold
  | some fd =>
    refine iff_of_false (fun hget => ?_) (fun h => by cases h)
    rw [Option.elim_some] at hget
    by_cases hn : n = fd
    · rw [hn, FdTable.get_close_self] at hget
      cases hget
    · rw [FdTable.get_close_of_ne _ hn, hold, hfd, Option.some.injEq] at hget
      exact hn hget.symm

/-- What `Holding` and `Unlocked` read of the module. -/
structure Agrees (x x' : Module) : Prop where
  owned : ∀ n, x'.fds.get n = some .boostpulse ↔ x.fds.get n = some .boostpulse
  fd : x'.boostpulseFd = x.boostpulseFd
  warned : x'.boostpulseWarned = x.boostpulseWarned
  reported : reported x'.log = reported x.log
  spaced : Spaced x.log → Spaced x'.log

theorem Agrees.owns (h : Agrees x x') {fd : Option ℕ} (hold : Owns x fd) : Owns x' fd :=
  fun n => (h.owned n).trans (hold n)

theorem Agrees.told (h : Agrees x x') (hold : Told x) : Told x' := by
  rw [Told, h.warned, h.reported]
  exact hold

theorem Agrees.locked (h : Agrees x x') {p : Thread} (hold : Locked p x) : Locked p x' := by
  refine ⟨h.spaced hold.1, ?_⟩
  obtain ⟨-, hpc⟩ := hold
  revert hpc
  cases p.pc with
  | opening => exact fun hpc => ⟨h.fd.trans hpc.1, h.owns hpc.2.1, h.told hpc.2.2⟩
  | storing r =>
    rintro ⟨hfd, howns, htold⟩
    refine ⟨h.fd.trans hfd, h.owns howns, ?_⟩
    split_ifs at htold ⊢ with hr
    · exact h.told htold
    · exact h.reported.trans htold
  | testing =>
    rintro ⟨howns, htold⟩
    rw [Holding, h.fd]
    refine ⟨h.owns howns, ?_⟩
    split_ifs at htold ⊢ with hr
    · exact h.told htold
    · exact h.reported.trans htold
  | logging => exact fun hpc => ⟨h.fd ▸ h.owns hpc.1, h.warned.trans hpc.2.1, h.told hpc.2.2⟩
  | warning => exact fun hpc => ⟨h.fd ▸ h.owns hpc.1, h.reported.trans hpc.2⟩
  | unwarning => exact fun hpc => ⟨h.fd ▸ h.owns hpc.1, h.reported.trans hpc.2⟩
  | dropping => exact fun hpc => ⟨h.owns hpc.1, h.told hpc.2⟩
  | _ => exact fun hpc => ⟨h.fd ▸ h.owns hpc.1, h.told hpc.2⟩

theorem Agrees.unlocked (h : Agrees x x') (hold : Unlocked x) : Unlocked x' :=
  ⟨h.spaced hold.1, h.fd ▸ h.owns hold.2.1, h.told hold.2.2⟩

theorem Agrees.rfl : Agrees x x := ⟨fun _ => .rfl, Eq.refl _, Eq.refl _, Eq.refl _, id⟩

/-- Steps beside the lock do not touch what it protects. -/
theorem agrees_of_outside (hout : pc.holds = false)
    (h : advance duration x ok pc = some (pc', x')) :
    Agrees x x' := by
  cases pc with
  | writing fd =>
    cases fd with
    | none =>
      rw [advance] at h
      split_ifs at h
      cases h
      exact Agrees.rfl
    | some fd =>
      rw [advance] at h
      split_ifs at h
      · cases h
        exact ⟨fun _ => .rfl, rfl, rfl, rfl, id⟩
      · cases h
        exact Agrees.rfl
  | failing =>
    cases h
    exact ⟨fun _ => .rfl, rfl, rfl, rfl, id⟩
  | idle => cases h
  | locking | returning | loading | relocking =>
    cases h
    exact Agrees.rfl
  | _ => cases hout

/-- A step with the lock, up to the one that gives it back. -/
theorem holding_advance (hin : pc.holds = true) (h : advance duration x ok pc = some (pc', x'))
    (hspaced : Spaced x.log) (hold : Holding pc x) :
    Spaced x'.log ∧ if pc'.holds then Holding pc' x' else Owns x' x'.boostpulseFd ∧ Told x' := by
  cases pc with
  | checking =>
    cases h
    refine ⟨hspaced, ?_⟩
    by_cases hfd : x.boostpulseFd = none
    · simp only [hfd, if_true, Pc.holds]
      exact ⟨hfd, hfd ▸ hold.1, hold.2⟩
    · simp only [hfd, if_false, Pc.holds]
      exact hold
  | opening =>
    obtain ⟨hfd, howns, htold⟩ := hold
    cases ok with
    | true =>
      cases h
      exact ⟨hspaced, hfd, owns_openFd howns _, rfl⟩
    | false =>
      cases h
      exact ⟨hspaced, hfd, howns, htold⟩
  | storing r =>
    obtain ⟨hfd, howns, htold⟩ := hold
    cases h
    exact ⟨hspaced, howns, htold⟩
  | testing =>
    obtain ⟨howns, htold⟩ := hold
    cases h
    refine ⟨hspaced, ?_⟩
    by_cases hfd : x.boostpulseFd = none
    · simp only [hfd, if_true, Pc.holds] at htold ⊢
      exact ⟨howns, htold⟩
    · simp only [hfd, if_false, Pc.holds] at htold ⊢
      exact ⟨howns, htold⟩
  | asking =>
    cases h
    refine ⟨hspaced, ?_⟩
    cases hwarned : x.boostpulseWarned with
    | true => exact hold
    | false => exact ⟨hold.1, hwarned, hold.2⟩
  | logging =>
    obtain ⟨howns, hwarned, htold⟩ := hold
    cases h
    exact ⟨⟨htold.symm.trans hwarned, hspaced⟩, howns, rfl⟩
  | warning =>
    obtain ⟨howns, hreported⟩ := hold
    cases h
    exact ⟨hspaced, howns, hreported.symm⟩
  | unwarning =>
    obtain ⟨howns, hreported⟩ := hold
    cases h
    exact ⟨hspaced, howns, hreported.symm⟩
  | closing =>
    cases h
    exact ⟨hspaced, owns_closeFd hold.1, hold.2⟩
  | dropping =>
    cases h
    exact ⟨hspaced, hold⟩
  | resetting =>
    cases h
    exact ⟨hspaced, hold.1, rfl⟩
  | unlocking | leaving =>
    cases h
    exact ⟨hspaced, hold⟩
  | _ => cases hin

theorem agrees_of_other {o : Other} (h : otherStep x o = some x') : Agrees x x' := by
  cases o with
  | init =>
    cases h
    exact ⟨fun _ => .rfl, rfl, rfl, rfl, id⟩
  | openFd =>
    cases h
    refine ⟨fun n => ?_, rfl, rfl, rfl, id⟩
    show (x.fds.openFd .other).get n = _ ↔ _
    by_cases hn : n = x.fds.lowest
    · rw [hn, FdTable.get_openFd_self, FdTable.get_lowest]
      exact iff_of_false (fun h => by cases h) (fun h => by cases h)
    · rw [FdTable.get_openFd_of_ne _ _ hn]
  | closeFd fd =>
    rw [otherStep] at h
    split_ifs at h with hget
    cases h
    refine ⟨fun n => ?_, rfl, rfl, rfl, id⟩
    show (x.fds.close fd).get n = _ ↔ _
    by_cases hn : n = fd
    · rw [hn, FdTable.get_close_self, hget]
      exact iff_of_false (fun h => by cases h) (fun h => by cases h)
    · rw [FdTable.get_close_of_ne _ hn]

end

/-- A step of a thread is an `advance`, or a call starts (or has nothing to do) beside the lock. -/
theorem hintStep_cases {p p' : Thread} {x x' : Module} {i : Input}
    (h : hintStep p x i = some (p', x')) :
    (∃ ok, i = .go ok ∧ advance p.duration x ok p.pc = some (p'.pc, x') ∧
    p'.duration = p.duration) ∨
      (p.pc = .idle ∧ p'.pc.holds = false ∧ x' = x) := by
  cases i with
  | call hint data =>
    rw [hintStep] at h
    split_ifs at h with hpc hcall
    · cases h
      exact .inr ⟨not_not.mp hpc, rfl, rfl⟩
    · cases h
      refine .inr ⟨not_not.mp hpc, ?_, rfl⟩
      rw [not_not.mp hpc]
      rfl
  | go ok =>
    rw [hintStep, Option.map_eq_some_iff] at h
    obtain ⟨⟨pc', y⟩, hadvance, h⟩ := h
    cases h
    exact .inl ⟨ok, rfl, hadvance, rfl⟩

/-- Taking the lock does nothing else. -/
theorem advance_take {pc pc' : Pc} {x x' : Module} {duration : ℤ} {ok : Bool}
    (hout : pc.holds = false) (hin : pc'.holds = true)
    (h : advance duration x ok pc = some (pc', x')) :
    x' = x ∧ (pc' = .checking ∨ pc' = .closing) := by
  cases pc with
  | idle => cases h
  | locking =>
    cases h
    exact ⟨rfl, .inl rfl⟩
  | relocking =>
    cases h
    exact ⟨rfl, .inr rfl⟩
  | returning =>
    cases h
    split_ifs at hin
    · cases hin
    · cases hin
  | writing fd =>
    cases fd with
    | none =>
      rw [advance] at h
      split_ifs at h
      cases h
      cases hin
    | some fd =>
      rw [advance] at h
      split_ifs at h
      · cases h
        cases hin
      · cases h
        cases hin
  | loading | failing =>
    cases h
    cases hin
  | _ => cases hout

theorem keeps : Keeps powerHint Unlocked Locked where
  take := by
    intro p p' x x' i h hout hin hold
    rcases hintStep_cases h with ⟨ok, -, hadvance, -⟩ | ⟨-, hout', -⟩
    · obtain ⟨rfl, hpc⟩ := advance_take hout hin hadvance
      refine ⟨hold.1, ?_⟩
      rcases hpc with hpc | hpc
      · rw [hpc]
        exact hold.2
      · rw [hpc]
        exact hold.2
    · exact absurd (hout'.symm.trans hin) Bool.false_ne_true
  inside := by
    intro p p' x x' i h hin hin' hold
    rcases hintStep_cases h with ⟨ok, -, hadvance, -⟩ | ⟨hidle, -, -⟩
    · have hnext := holding_advance hin hadvance hold.1 hold.2
      rw [show p'.pc.holds = true from hin', if_pos rfl] at hnext
      exact hnext
    · rw [show powerHint.holds p = p.pc.holds from rfl, hidle] at hin
      cases hin
  drop := by
    intro p p' x x' i h hin hout hold
    rcases hintStep_cases h with ⟨ok, -, hadvance, -⟩ | ⟨hidle, -, -⟩
    · have hnext := holding_advance hin hadvance hold.1 hold.2
      rw [show p'.pc.holds = false from hout, if_neg Bool.false_ne_true] at hnext
      exact hnext
    · rw [show powerHint.holds p = p.pc.holds from rfl, hidle] at hin
      cases hin
  outside := by
    intro p p' x x' i h hout hout'
    have hagrees : Agrees x x' := by
      rcases hintStep_cases h with ⟨ok, -, hadvance, -⟩ | ⟨-, -, hx⟩
      · exact agrees_of_outside hout hadvance
      · rw [hx]
        exact Agrees.rfl
    exact ⟨hagrees.unlocked, fun q => hagrees.locked⟩
  env := by
    intro x x' o h
    have hagrees := agrees_of_other h
    exact ⟨hagrees.unlocked, fun q => hagrees.locked⟩

theorem inv_of_exec {fds : FdTable Owner} (hfds : ∀ n, fds.get n ≠ some .boostpulse)
    {l : List (Action Input Other)} {s : Monitor.State Thread Module}
    (h : Machine.exec powerHint.next (start fds) l = some s) : Inv powerHint Unlocked Locked s := by
  have hfree : Unlocked (start fds).shared :=
    ⟨trivial, fun n => iff_of_false (hfds n) (fun h => by cases h), rfl⟩
  exact keeps.run (inv_start (fun t => rfl) rfl hfree) h

/-- Two hints in a process that has a descriptor open: the first one has opened the file and is
about to write while the second one has the lock. -/
def twoHints : List (Action Input Other) :=
  [.env .openFd, .env .init, .run 0 (.call .launchBoost (some 250)),
    .run 1 (.call .interaction none)] ++ List.replicate 7 (.run 0 (.go true)) ++
    List.replicate 2 (.run 1 (.go true)) ++
    List.replicate 2 (.run 0 (.go true))

theorem twoHints_runs : (Machine.exec powerHint.next (start ⟨[]⟩) twoHints).map
    (fun s => (s.lock, (s.threads 0).pc, (s.threads 1).pc, s.shared)) =
      some (some 1, .writing (some 1), .unlocking,
        ⟨true, some 1, false, ⟨[(1, .boostpulse), (0, .other)]⟩, [.opened 1]⟩) := by
  decide +kernel

/-! ## Descriptors -/

/-- Wherever the holder of the lock is, the module owns one descriptor at most. -/
theorem holding_owns {pc : Pc} {x : Module} (h : Holding pc x) : ∃ fd, Owns x fd := by
  cases pc with
  | opening => exact ⟨none, h.2.1⟩
  | storing r => exact ⟨r, h.2.1⟩
  | dropping => exact ⟨none, h.1⟩
  | _ => exact ⟨x.boostpulseFd, h.1⟩

/-- No step of a hint touches the descriptor of somebody else, as long as what it closes is the
module's. -/
theorem other_advance {x x' : Module} {pc pc' : Pc} {duration : ℤ} {ok : Bool}
    (h : advance duration x ok pc = some (pc', x'))
    (hclosing : pc = .closing → Owns x x.boostpulseFd) {n : ℕ}
    (hn : x.fds.get n = some .other) : x'.fds.get n = some .other := by
  cases pc with
  | opening =>
    cases ok with
    | true =>
      cases h
      exact FdTable.get_openFd _ hn
    | false =>
      cases h
      exact hn
  | closing =>
    cases h
    show x.closeFd.get n = _
    unfold Module.closeFd
    cases hfd : x.boostpulseFd with
    | none => exact hn
    | some fd =>
      have hown := (hclosing rfl fd).mpr hfd
      have hne : n ≠ fd := by
        rintro rfl
        rw [hown] at hn
        cases hn
      rw [Option.elim_some, FdTable.get_close_of_ne _ hne]
      exact hn
  | writing fd =>
    cases fd with
    | none =>
      rw [advance] at h
      split_ifs at h
      cases h
      exact hn
    | some fd =>
      rw [advance] at h
      split_ifs at h
      · cases h
        exact hn
      · cases h
        exact hn
  | idle => cases h
  | _ =>
    cases h
    exact hn

/-- **Descriptors**: whatever the order of the steps, one thread at most is between `lock` and
`unlock`; the module has one open descriptor at most, and it is `boostpulse_fd` whenever the lock is
free; and no step of a hint closes or replaces a descriptor of the rest of the process. -/
theorem boostpulse_owned {fds : FdTable Owner} (hfds : ∀ n, fds.get n ≠ some .boostpulse)
    {l : List (Action Input Other)} {s : Monitor.State Thread Module}
    (h : Machine.exec powerHint.next (start fds) l = some s) :
    (∀ t u, (s.threads t).pc.holds = true → (s.threads u).pc.holds = true → t = u) ∧
    (∀ m n, s.shared.fds.get m = some .boostpulse → s.shared.fds.get n = some .boostpulse → m = n) ∧
    (s.lock = none → ∀ n, s.shared.fds.get n = some .boostpulse ↔ s.shared.boostpulseFd = some n) ∧
    ∀ t i s', powerHint.next s (.run t i) = some s' →
      ∀ n, s.shared.fds.get n = some .other → s'.shared.fds.get n = some .other := by
  have hinv := inv_of_exec hfds h
  refine ⟨fun t u => hinv.exclusive, ?_, fun hlock => (hinv.free hlock).2.1, ?_⟩
  · intro m n hm hn
    have howns : ∃ fd, Owns s.shared fd := by
      cases hlock : s.lock with
      | none => exact ⟨_, (hinv.free hlock).2.1⟩
      | some t => exact holding_owns (hinv.held t hlock).2
    obtain ⟨fd, howns⟩ := howns
    exact Option.some.inj (((howns m).mp hm).symm.trans ((howns n).mp hn))
  · intro t i s' hs' n hn
    obtain ⟨p', hstep, -, -⟩ := Program.next_run hs'
    rcases hintStep_cases hstep with ⟨ok, -, hadvance, -⟩ | ⟨-, -, hx⟩
    · refine other_advance hadvance (fun hpc => ?_) hn
      have hin : powerHint.holds (s.threads t) = true := by
        show (s.threads t).pc.holds = true
        rw [hpc]
        rfl
      have hlocked := (hinv.held t ((hinv.holder t).mp hin)).2
      rw [hpc] at hlocked
      exact hlocked.1
    · rw [hx]
      exact hn

theorem boostpulse_owned_twoHints :
    (∃ s, Machine.exec powerHint.next (start ⟨[]⟩) twoHints = some s ∧
      (∀ t, (s.threads t).pc.holds = true → t = 1) ∧
      (∀ n, s.shared.fds.get n = some .boostpulse → n = 1) ∧
      ∀ t i s', powerHint.next s (.run t i) = some s' → s'.shared.fds.get 0 = some .other) ∧
    ∃ s, Machine.exec powerHint.next (start ⟨[]⟩) (twoHints ++ [.run 1 (.go true)]) = some s ∧
      (s.threads 0).pc = .writing (some 1) ∧ (s.threads 1).pc = .returning ∧
      ∀ n, s.shared.fds.get n = some .boostpulse ↔ n = 1 := by
  constructor
  · obtain ⟨s, hs, hstate⟩ := Option.map_eq_some_iff.mp twoHints_runs
    simp only [Prod.mk.injEq] at hstate
    obtain ⟨-, -, hpc, hshared⟩ := hstate
    obtain ⟨hexclusive, hone, -, hothers⟩ := boostpulse_owned (fun n h => by cases h) hs
    refine ⟨s, hs, fun t ht => hexclusive t 1 ht ?_, fun n hn => hone n 1 hn ?_,
      fun t i s' hs' => hothers t i s' hs' 0 ?_⟩
    · rw [hpc]
      rfl
    · rw [hshared]
      rfl
    · rw [hshared]
      rfl
  · have hrun : (Machine.exec powerHint.next (start ⟨[]⟩) (twoHints ++ [.run 1 (.go true)])).map
        (fun s => (s.lock, (s.threads 0).pc, (s.threads 1).pc, s.shared.boostpulseFd)) =
          some (none, .writing (some 1), .returning, some 1) := by decide +kernel
    obtain ⟨s, hs, hstate⟩ := Option.map_eq_some_iff.mp hrun
    simp only [Prod.mk.injEq] at hstate
    obtain ⟨hlock, hfirst, hsecond, hfd⟩ := hstate
    refine ⟨s, hs, hfirst, hsecond, fun n => ?_⟩
    rw [(boostpulse_owned (fun n h => by cases h) hs).2.2.1 hlock n, hfd, Option.some.injEq]
    exact eq_comm

/-! ## Messages -/

/-- What stands between two messages about `open`. -/
theorem reported_append {l mid : List Event} (h : reported (mid ++ .openError :: l) = false) :
    ∃ e ∈ mid, e = .reset ∨ ∃ fd, e = .opened fd := by
  induction mid with
  | nil => cases h
  | cons e mid ih =>
    cases e with
    | opened fd => exact ⟨_, List.mem_cons_self, .inr ⟨fd, rfl⟩⟩
    | reset => exact ⟨_, List.mem_cons_self, .inl rfl⟩
    | openError => cases h
    | wrote fd text =>
      obtain ⟨e, he, hkind⟩ := ih h
      exact ⟨e, List.mem_cons_of_mem _ he, hkind⟩
    | writeError =>
      obtain ⟨e, he, hkind⟩ := ih h
      exact ⟨e, List.mem_cons_of_mem _ he, hkind⟩

theorem Spaced.of_append {a l : List Event} (h : Spaced (a ++ l)) : Spaced l := by
  induction a with
  | nil => exact h
  | cons e a ih =>
    cases e with
    | openError => exact ih h.2
    | _ => exact ih h

/-- **Messages**: between two messages about a failing `open` the file was opened, or a hint whose
`write` failed has reset the module; and whenever the lock is free, `boostpulse_warned` says that
the last message is not over. -/
theorem openError_once {fds : FdTable Owner} (hfds : ∀ n, fds.get n ≠ some .boostpulse)
    {l : List (Action Input Other)} {s : Monitor.State Thread Module}
    (h : Machine.exec powerHint.next (start fds) l = some s) :
    (∀ later mid earlier, s.shared.log = later ++ .openError :: (mid ++ .openError :: earlier) →
      ∃ e ∈ mid, e = .reset ∨ ∃ fd, e = .opened fd) ∧
    (s.lock = none → s.shared.boostpulseWarned = reported s.shared.log) := by
  have hinv := inv_of_exec hfds h
  refine ⟨fun later mid earlier hlog => ?_, fun hlock => (hinv.free hlock).2.2⟩
  have hspaced : Spaced s.shared.log := by
    cases hlock : s.lock with
    | none => exact (hinv.free hlock).1
    | some t => exact (hinv.held t hlock).1
  rw [hlog] at hspaced
  exact reported_append hspaced.of_append.1

/-- Two hints fail to write.  The first one closes the descriptor, and a third one cannot open the
file; then the second one resets the module once more, and the fourth one's message follows. -/
def twoMessages : List (Action Input Other) :=
  [.env .init, .run 0 (.call .launchBoost (some 250)), .run 1 (.call .interaction none)] ++
    List.replicate 9 (.run 0 (.go true)) ++ List.replicate 5 (.run 1 (.go true)) ++
    List.replicate 7 (.run 0 (.go false)) ++ List.replicate 2 (.run 1 (.go false)) ++
    .run 0 (.call .interaction none) :: List.replicate 10 (.run 0 (.go false)) ++
    List.replicate 5 (.run 1 (.go true)) ++
    .run 0 (.call .interaction none) :: List.replicate 9 (.run 0 (.go false))

theorem openError_once_twoMessages :
    ∃ s, Machine.exec powerHint.next (start ⟨[]⟩) twoMessages = some s ∧
    s.shared.log = [.openError, .reset, .openError, .writeError, .reset, .writeError, .opened 0] ∧
    (∃ e ∈ [Event.reset], e = .reset ∨ ∃ fd, e = .opened fd) ∧
    s.shared.boostpulseWarned = true := by
  have hrun : (Machine.exec powerHint.next (start ⟨[]⟩) twoMessages).map
      (fun s => (s.lock, s.shared.log)) =
      some (none, [.openError, .reset, .openError, .writeError, .reset, .writeError, .opened 0]) := by
    decide +kernel
  obtain ⟨s, hs, hstate⟩ := Option.map_eq_some_iff.mp hrun
  obtain ⟨hlock, hlog⟩ := Prod.mk.inj hstate
  obtain ⟨hspaced, hwarned⟩ := openError_once (fun n h => by cases h) hs
  refine ⟨s, hs, hlog, hspaced [] [.reset] _ hlog, ?_⟩
  rw [hwarned hlock, hlog]
  rfl

/-! ## Calls end -/

/-- The steps that a thread can still take in its call. -/
def Pc.rank : Pc → ℕ
  | .idle => 0
  | .leaving => 1
  | .resetting => 2
  | .dropping => 3
  | .closing => 4
  | .relocking => 5
  | .failing => 6
  | .writing _ => 7
  | .loading => 8
  | .returning => 9
  | .unlocking => 10
  | .warning | .unwarning => 11
  | .logging => 12
  | .asking => 13
  | .testing => 14
  | .storing _ => 15
  | .opening => 16
  | .checking => 17
  | .locking => 18

theorem rank_le (pc : Pc) : pc.rank ≤ 18 := by
  cases pc with
  | storing r => exact Nat.le_add_right 15 3
  | writing fd => exact Nat.le_add_right 7 11
  | _ => decide

theorem rank_advance {x x' : Module} {pc pc' : Pc} {duration : ℤ} {ok : Bool}
    (h : advance duration x ok pc = some (pc', x')) : pc'.rank < pc.rank := by
  cases pc with
  | idle => cases h
  | checking | testing | asking | returning =>
    cases h
    split_ifs
    · decide
    · decide
  | opening =>
    cases ok with
    | true =>
      cases h
      exact Nat.lt_succ_self 15
    | false =>
      cases h
      exact Nat.lt_succ_self 15
  | writing fd =>
    cases fd with
    | none =>
      rw [advance] at h
      split_ifs at h
      cases h
      exact Nat.lt_succ_self 6
    | some fd =>
      rw [advance] at h
      split_ifs at h
      · cases h
        exact Nat.succ_pos 6
      · cases h
        exact Nat.lt_succ_self 6
  | storing r =>
    cases h
    exact Nat.lt_succ_self 14
  | loading =>
    cases h
    exact Nat.lt_succ_self 7
  | _ =>
    cases h
    decide

/-- A step whose calls fail is always there. -/
theorem advance_false {pc : Pc} (hpc : pc ≠ .idle) (duration : ℤ) (x : Module) :
    (advance duration x false pc).isSome = true := by
  cases pc with
  | idle => exact absurd rfl hpc
  | writing fd =>
    cases fd with
    | none => rfl
    | some fd => rfl
  | _ => rfl

/-- **Calls end**: while a thread is in a hint, it or the thread that has the lock can go on; and it
returns after 18 steps of its own at the latest, whatever happens in between. -/
theorem hint_ends {fds : FdTable Owner} (hfds : ∀ n, fds.get n ≠ some .boostpulse)
    {l : List (Action Input Other)} {s : Monitor.State Thread Module}
    (h : Machine.exec powerHint.next (start fds) l = some s) (t : ℕ) :
    ((s.threads t).pc ≠ .idle → ∃ u i, (s.threads u).pc ≠ .idle ∧ (u = t ∨ s.lock = some u) ∧
      (powerHint.next s (.run u i)).isSome = true) ∧
    ∀ l' s', Machine.exec powerHint.next s l' = some s' →
      Machine.Along powerHint.next (fun r a => stepsOf t [a] = 1 → (r.threads t).pc ≠ .idle) s l' →
      stepsOf t l' ≤ 18 := by
  have hinv := inv_of_exec hfds h
  constructor
  · refine hinv.progress (fun p : Thread => p.pc = .idle) (fun p hin hidle => ?_) (fun p x hp => ?_)
    · rw [show powerHint.holds p = p.pc.holds from rfl, hidle] at hin
      cases hin
    · obtain ⟨r, hr⟩ := Option.isSome_iff_exists.mp (advance_false hp p.duration x)
      refine ⟨.go false, (⟨r.1, p.duration⟩, r.2), ?_⟩
      show (advance p.duration x false p.pc).map _ = _
      rw [hr]
      rfl
  · intro l' s' hrun hbusy
    have hle := stepsOf_le (fun p : Thread => p.pc.rank) (fun p : Thread => p.pc = .idle)
      (fun {p p' x x' i} hp hstep => ?_) t l' hrun hbusy
    · have := rank_le (s.threads t).pc
      omega
    · rcases hintStep_cases hstep with ⟨ok, -, hadvance, -⟩ | ⟨hidle, -, -⟩
      · exact rank_advance hadvance
      · exact absurd hidle hp

/-- The first hint is about to write, and the second one has the lock. -/
theorem hint_ends_twoHints : ∃ s, Machine.exec powerHint.next (start ⟨[]⟩) twoHints = some s ∧
    (s.threads 0).pc = .writing (some 1) ∧ s.lock = some 1 ∧
    (∃ u i, (s.threads u).pc ≠ .idle ∧ (u = 0 ∨ s.lock = some u) ∧
      (powerHint.next s (.run u i)).isSome = true) ∧
    ∀ l' s', Machine.exec powerHint.next s l' = some s' →
      Machine.Along powerHint.next (fun r a => stepsOf 0 [a] = 1 → (r.threads 0).pc ≠ .idle) s l' →
      stepsOf 0 l' ≤ 18 := by
  obtain ⟨s, hs, hstate⟩ := Option.map_eq_some_iff.mp twoHints_runs
  simp only [Prod.mk.injEq] at hstate
  obtain ⟨hlock, hpc, -, -⟩ := hstate
  obtain ⟨hprogress, hbound⟩ := hint_ends (fun n h => by cases h) hs 0
  refine ⟨s, hs, hpc, hlock, hprogress ?_, hbound⟩
  rw [hpc]
  exact fun h => by cases h

/-! ## Whose descriptor is written -/

/-- Where a thread only gets after its `write` failed. -/
def Pc.late : Pc → Bool
  | .relocking | .closing | .dropping | .resetting | .leaving => true
  | _ => false

/-- As long as no `write` failed, a thread is about to write to `boostpulse_fd`. -/
def Prompt (pc : Pc) (x : Module) : Prop :=
  pc.late = false ∧ ∀ n, pc = .writing (some n) → x.boostpulseFd = some n

/-- As long as no `write` failed, `boostpulse_fd` is open, and it is what was written to. -/
structure Lasting (x : Module) : Prop where
  owned : ∀ n, x.boostpulseFd = some n → x.fds.get n = some .boostpulse
  wrote : ∀ n text, .wrote n text ∈ x.log → x.boostpulseFd = some n

theorem prompt_of_ne {pc : Pc} {x : Module} (hlate : pc.late = false)
    (hpc : ∀ n, pc ≠ .writing (some n)) :
    Prompt pc x :=
  ⟨hlate, fun n h => absurd h (hpc n)⟩

/-- Nothing that `Prompt` and `Lasting` read gets lost in a step before the first failing
`write`. -/
theorem lasting_advance {x x' : Module} {pc pc' : Pc} {duration : ℤ} {ok : Bool}
    (h : advance duration x ok pc = some (pc', x')) (hlog : .writeError ∉ x'.log)
    (hprompt : Prompt pc x) (hlast : Lasting x) (hhold : pc.holds = true → Holding pc x) :
    Prompt pc' x' ∧ Lasting x' ∧ (x.boostpulseFd = none ∨ x'.boostpulseFd = x.boostpulseFd) := by
  cases pc with
  | idle => cases h
  | relocking | closing | dropping | resetting | leaving => cases hprompt.1
  | opening =>
    cases ok with
    | true =>
      cases h
      refine ⟨prompt_of_ne rfl (fun n h => by cases h), ⟨fun n hn => ?_, fun n text hmem => ?_⟩,
        .inr rfl⟩
      · exact FdTable.get_openFd _ (hlast.owned n hn)
      · exact hlast.wrote n text (by simpa using hmem)
    | false =>
      cases h
      exact ⟨prompt_of_ne rfl (fun n h => by cases h), hlast, .inr rfl⟩
  | storing r =>
    obtain ⟨hfd, howns, -⟩ := hhold rfl
    cases h
    refine ⟨prompt_of_ne rfl (fun n h => by cases h),
      ⟨fun n hn => (howns n).mpr hn, fun n text hmem => ?_⟩, .inl hfd⟩
    have hold := hlast.wrote n text hmem
    rw [hfd] at hold
    cases hold
  | logging =>
    cases h
    refine ⟨prompt_of_ne rfl (fun n h => by cases h), ⟨hlast.owned, fun n text hmem => ?_⟩,
      .inr rfl⟩
    exact hlast.wrote n text (by simpa using hmem)
  | loading =>
    cases h
    refine ⟨⟨rfl, fun n hn => ?_⟩, hlast, .inr rfl⟩
    exact Pc.writing.inj hn
  | writing fd =>
    cases fd with
    | none =>
      rw [advance] at h
      split_ifs at h
      cases h
      exact ⟨prompt_of_ne rfl (fun n h => by cases h), hlast, .inr rfl⟩
    | some fd =>
      rw [advance] at h
      split_ifs at h
      · cases h
        refine ⟨prompt_of_ne rfl (fun n h => by cases h), ⟨hlast.owned, fun n text hmem => ?_⟩,
          .inr rfl⟩
        rcases List.mem_cons.mp hmem with hnew | hold
        · cases hnew
          exact hprompt.2 fd rfl
        · exact hlast.wrote n text hold
      · cases h
        exact ⟨prompt_of_ne rfl (fun n h => by cases h), hlast, .inr rfl⟩
  | failing =>
    cases h
    exact absurd List.mem_cons_self hlog
  | checking | testing | asking | returning =>
    cases h
    refine ⟨prompt_of_ne ?_ (fun n h => ?_), hlast, .inr rfl⟩
    · split_ifs
      · rfl
      · rfl
    · split_ifs at h
  | locking | warning | unwarning | unlocking =>
    cases h
    exact ⟨prompt_of_ne rfl (fun n h => by cases h), ⟨hlast.owned, hlast.wrote⟩, .inr rfl⟩

/-- The log only grows. -/
theorem log_advance {x x' : Module} {pc pc' : Pc} {duration : ℤ} {ok : Bool}
    (h : advance duration x ok pc = some (pc', x')) : x.log <:+ x'.log := by
  cases pc with
  | idle => cases h
  | opening =>
    cases ok with
    | true =>
      cases h
      exact List.suffix_cons _ _
    | false =>
      cases h
      exact List.suffix_rfl
  | writing fd =>
    cases fd with
    | none =>
      rw [advance] at h
      split_ifs at h
      cases h
      exact List.suffix_rfl
    | some fd =>
      rw [advance] at h
      split_ifs at h
      · cases h
        exact List.suffix_cons _ _
      · cases h
        exact List.suffix_rfl
  | logging | failing | resetting =>
    cases h
    exact List.suffix_cons _ _
  | _ =>
    cases h
    exact List.suffix_rfl

theorem log_other {x x' : Module} {o : Other} (h : otherStep x o = some x') : x'.log = x.log := by
  cases o with
  | init | openFd =>
    cases h
    rfl
  | closeFd fd =>
    rw [otherStep] at h
    split_ifs at h
    cases h
    rfl

theorem lasting_other {x x' : Module} {o : Other} (h : otherStep x o = some x')
    (hlast : Lasting x) :
    Lasting x' ∧ x'.boostpulseFd = x.boostpulseFd := by
  have hagrees := agrees_of_other h
  refine ⟨⟨fun n hn => ?_, fun n text hmem => ?_⟩, hagrees.fd⟩
  · rw [hagrees.fd] at hn
    exact (hagrees.owned n).mpr (hlast.owned n hn)
  · rw [log_other h] at hmem
    exact hagrees.fd.trans (hlast.wrote n text hmem)

/-- A call that starts has nothing to write yet. -/
theorem prompt_of_call {p p' : Thread} {x x' : Module} {i : Input}
    (h : hintStep p x i = some (p', x')) (hidle : p.pc = .idle) : Prompt p'.pc x := by
  cases i with
  | call hint data =>
    rw [hintStep] at h
    split_ifs at h
    · cases h
      exact prompt_of_ne rfl (fun n h => by cases h)
    · cases h
      rw [hidle]
      exact prompt_of_ne rfl (fun n h => by cases h)
  | go ok =>
    rw [hintStep, hidle] at h
    cases h

/-- What a run keeps until the first failing `write`. -/
def Quiet (s : Monitor.State Thread Module) : Prop :=
  .writeError ∉ s.shared.log → (∀ t, Prompt (s.threads t).pc s.shared) ∧ Lasting s.shared

theorem quiet_start (fds : FdTable Owner) : Quiet (start fds) := by
  intro _
  refine ⟨fun t => prompt_of_ne rfl (fun n h => by cases h),
    ⟨fun n hn => ?_, fun n text hmem => ?_⟩⟩
  · cases hn
  · cases hmem

theorem quiet_run {s s' : Monitor.State Thread Module} {t : ℕ} {i : Input}
    (hinv : Inv powerHint Unlocked Locked s) (hquiet : Quiet s)
    (h : powerHint.next s (.run t i) = some s') :
    Quiet s' := by
  intro hlog
  obtain ⟨p', hp', hthreads, -⟩ := Program.next_run h
  have hself : s'.threads t = p' := by rw [hthreads, Function.update_self]
  have hother : ∀ u, u ≠ t → s'.threads u = s.threads u :=
    fun u h => by rw [hthreads, Function.update_of_ne h]
  rcases hintStep_cases hp' with ⟨ok, -, hadvance, -⟩ | ⟨hidle, -, hx⟩
  · obtain ⟨hprompt, hlast⟩ := hquiet fun hmem => hlog ((log_advance hadvance).subset hmem)
    obtain ⟨hprompt', hlast', hfd⟩ := lasting_advance hadvance hlog (hprompt t) hlast fun hin =>
      (hinv.held t ((hinv.holder t).mp hin)).2
    refine ⟨fun u => ?_, hlast'⟩
    by_cases hu : u = t
    · rw [hu, hself]
      exact hprompt'
    · rw [hother u hu]
      refine ⟨(hprompt u).1, fun n hn => ?_⟩
      have hold := (hprompt u).2 n hn
      -- a thread that is about to write has seen a descriptor, so nobody is opening one
      rcases hfd with hnone | hsame
      · rw [hnone] at hold
        cases hold
      · exact hsame.trans hold
  · rw [hx] at hlog ⊢
    obtain ⟨hprompt, hlast⟩ := hquiet hlog
    refine ⟨fun u => ?_, hlast⟩
    by_cases hu : u = t
    · rw [hu, hself]
      exact prompt_of_call hp' hidle
    · rw [hother u hu]
      exact hprompt u

theorem quiet_env {s s' : Monitor.State Thread Module} {o : Other} (hquiet : Quiet s)
    (h : powerHint.next s (.env o) = some s') : Quiet s' := by
  intro hlog
  obtain ⟨henv, hthreads, -⟩ := Program.next_env h
  rw [log_other henv] at hlog
  obtain ⟨hprompt, hlast⟩ := hquiet hlog
  obtain ⟨hlast', hfd⟩ := lasting_other henv hlast
  refine ⟨fun u => ?_, hlast'⟩
  rw [hthreads]
  exact ⟨(hprompt u).1, fun n hn => hfd.trans ((hprompt u).2 n hn)⟩

/-- **Writes**: until the first `write` fails, every `write` goes to `boostpulse_fd`, and that is
open. -/
theorem writes_own_until_failure {fds : FdTable Owner} (hfds : ∀ n, fds.get n ≠ some .boostpulse)
    {l : List (Action Input Other)} {s : Monitor.State Thread Module}
    (h : Machine.exec powerHint.next (start fds) l = some s) (hlog : .writeError ∉ s.shared.log)
    {fd : ℕ} {text : CStr} (hwrote : .wrote fd text ∈ s.shared.log) :
    s.shared.boostpulseFd = some fd ∧ s.shared.fds.get fd = some .boostpulse := by
  have hkept : Inv powerHint Unlocked Locked s ∧ Quiet s := by
    refine Machine.exec_inv (P := fun s => Inv powerHint Unlocked Locked s ∧ Quiet s)
      (fun s a s' hs hstep => ?_) ⟨inv_of_exec hfds (l := []) rfl, quiet_start fds⟩ h
    cases a with
    | run t i => exact ⟨keeps.step_run hs.1 hstep, quiet_run hs.1 hs.2 hstep⟩
    | env o => exact ⟨keeps.step_env hs.1 hstep, quiet_env hs.2 hstep⟩
  have hlast := (hkept.2 hlog).2
  have hfd := hlast.wrote fd text hwrote
  exact ⟨hfd, hlast.owned fd hfd⟩

/-- The first hint has written, and the second one is about to. -/
theorem writes_own_until_failure_twoHints : ∃ s, Machine.exec powerHint.next (start ⟨[]⟩)
      (twoHints ++ .run 0 (.go true) :: List.replicate 3 (.run 1 (.go true))) = some s ∧
    (s.threads 1).pc = .writing (some 1) ∧
    s.shared.boostpulseFd = some 1 ∧ s.shared.fds.get 1 = some .boostpulse := by
  have hrun : (Machine.exec powerHint.next (start ⟨[]⟩)
      (twoHints ++ .run 0 (.go true) :: List.replicate 3 (.run 1 (.go true)))).map
      (fun s => ((s.threads 1).pc, s.shared.log)) =
        some (.writing (some 1), [.wrote 1 "250".toList, .opened 1]) := by decide +kernel
  obtain ⟨s, hs, hstate⟩ := Option.map_eq_some_iff.mp hrun
  obtain ⟨hpc, hlog⟩ := Prod.mk.inj hstate
  refine ⟨s, hs, hpc,
    writes_own_until_failure (fun n h => by cases h) hs ?_
    (?_ : .wrote 1 "250".toList ∈ s.shared.log)⟩
  · rw [hlog]
    decide +kernel
  · rw [hlog]
    exact List.mem_cons_self

/-- Two hints run side by side.  The second one's `write` fails and it closes the descriptor,
another file gets the number, and the first one writes there. -/
theorem write_reaches_other :
    (Machine.exec powerHint.next (start ⟨[]⟩)
      ([.env .init, .run 0 (.call .interaction none), .run 1 (.call .launchBoost (some 250))] ++
        List.replicate 9 (.run 0 (.go true)) ++ List.replicate 5 (.run 1 (.go true)) ++
        List.replicate 7 (.run 1 (.go false)) ++ [.env .openFd, .run 0 (.go true)])).map
      (fun s => (s.shared.log.head?, s.shared.fds.get 0)) =
        some (some (.wrote 0 "1".toList), some .other) := by
  decide +kernel

end Omap4.Libpower.Boostpulse
