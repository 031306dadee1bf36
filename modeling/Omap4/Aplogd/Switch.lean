import Omap4.Aplogd.Agreement
import Omap4.Aplogd.Lossless

/-!
# Omap4.Aplogd.Switch — a switch of the storage that fails (`switch_storage`)

`switch_storage` sets the size limit of the new storage and closes the outputs before it knows
whether the new storage can be used.  If the setup of the new storage fails, the old one is opened
again, and `SwitchedBack` says what a caller may expect then: the state of the old storage and
nothing else.

The outputs do come back (`switchStorage_reopened`).  The limit stays the one of the new storage,
and the files that the failing setup had opened are never closed: their descriptors are overwritten
(`switchStorage_switchedBack_iff`).
-/

namespace Omap4.Aplogd

variable {cfg : Config}

/-- The state in which `switch_storage` starts to open the new storage. -/
def switchClosed (cfg : Config) (new : Storage) (s : State) : State :=
  aplogdCloseOutput { s with logfileMax := aplogdGetFilesize cfg new }

/-- The descriptors that the setup of the new storage opened. -/
def OpenedByAttempt (cfg : Config) (r : SwitchRes) (new : Storage) (s : State) (fd : ℕ) : Prop :=
  (switchClosed cfg new s).kern.get fd = none ∧
    (aplogdOutputSetup cfg r.new new (switchClosed cfg new s)).kern.get fd ≠ none

/-- A switch that fell back to the old storage left the daemon as a daemon on the old storage. -/
structure SwitchedBack (cfg : Config) (r : SwitchRes) (old new : Storage)
    (s s' : State) : Prop where
  storage : s'.currentStorage = old
  outputs : ∀ i, ∃ fd, s'.outputFd i = some fd ∧
    s'.kern.get fd = some (.file (cfg.outputPath old) i true)
  limit : s'.logfileMax = aplogdGetFilesize cfg old
  released : ∀ fd, OpenedByAttempt cfg r new s fd → s'.kern.get fd = none

/-! ## What a setup does to the descriptors -/

theorem openOutput_kern_of_not {i : Stream} {dir : CStr} (s : State) :
    (openOutput dir false i s).kern = s.kern := rfl

/-- A setup closes nothing. -/
theorem openOutput_get_some {dir : CStr} (ok : Bool) (i : Stream) {s : State} {fd : ℕ} {d : Desc}
    (h : s.kern.get fd = some d) : (openOutput dir ok i s).kern.get fd = some d := by
  unfold openOutput
  split_ifs
  · exact FdTable.get_openFd _ h
  · exact h

theorem openOutputs_get_some {dir : CStr} (opens : Stream → Bool) {fd : ℕ} {d : Desc} :
    ∀ (L : List Stream) (s : State), s.kern.get fd = some d →
      (L.foldl (fun s i => openOutput dir (opens i) i s) s).kern.get fd = some d
  | [], _, h => h
  | i :: L, _, h => openOutputs_get_some opens L _ (openOutput_get_some (opens i) i h)

theorem aplogdOutputSetup_get_some (r : SetupRes) (st : Storage) {s : State} {fd : ℕ} {d : Desc}
    (h : s.kern.get fd = some d) : (aplogdOutputSetup cfg r st s).kern.get fd = some d := by
  unfold aplogdOutputSetup
  split_ifs
  · exact openOutputs_get_some r.opens Stream.all s h
  · exact h

theorem openOutputs_kern {dir : CStr} {opens : Stream → Bool} (h : ∀ i, opens i = false) :
    ∀ (L : List Stream) (s : State),
      (L.foldl (fun s i => openOutput dir (opens i) i s) s).kern = s.kern
  | [], _ => rfl
  | i :: L, s => by
    rw [List.foldl_cons, openOutputs_kern h L, h i, openOutput_kern_of_not]

/-- A setup that opens a file uses a descriptor that was free. -/
theorem openOutputs_opened {dir : CStr} {opens : Stream → Bool} {i : Stream} (h : opens i = true) :
    ∀ (L : List Stream) (s : State), i ∈ L → ∃ fd, s.kern.get fd = none ∧
      (L.foldl (fun s i => openOutput dir (opens i) i s) s).kern.get fd ≠ none
  | k :: L, s, hi => by
    rw [List.foldl_cons]
    cases hk : opens k with
    | true =>
      have hget : (openOutput dir true k s).kern.get s.kern.lowest = some (.file dir k true) :=
        FdTable.get_openFd_self s.kern _
      refine ⟨s.kern.lowest, s.kern.get_lowest, ?_⟩
      rw [openOutputs_get_some opens L _ hget]
      simp
    | false =>
      have hik : i ≠ k := by
        rintro rfl
        rw [h] at hk
        cases hk
      have hL : i ∈ L := (List.mem_cons.mp hi).resolve_left hik
      exact openOutputs_opened h L (openOutput dir false k s) hL

/-! ## The failing switch -/

section Failed

variable {r : SwitchRes} {old new : Storage} {s : State}

theorem switchStorage_failed (h : r.new.succeeds = false) :
    switchStorage cfg r old new s =
      { aplogdOutputSetup cfg r.old old (aplogdOutputSetup cfg r.new new (switchClosed cfg new s)) with
        currentStorage := old } := by
  unfold switchStorage
  rw [if_neg (by simp [h])]
  rfl

theorem aplogdOutputSetup_logfileMax (r : SetupRes) (st : Storage) (s : State) :
    (aplogdOutputSetup cfg r st s).logfileMax = s.logfileMax := by
  unfold aplogdOutputSetup
  split_ifs
  · induction Stream.all generalizing s with
    | nil => rfl
    | cons i L ih =>
      rw [List.foldl_cons, ih]
      unfold openOutput
      split_ifs <;> rfl
  · rfl

/-- The limit is the one of the storage that could not be used. -/
theorem switchStorage_logfileMax (h : r.new.succeeds = false) :
    (switchStorage cfg r old new s).logfileMax = aplogdGetFilesize cfg new := by
  rw [switchStorage_failed h]
  show (aplogdOutputSetup cfg r.old old _).logfileMax = _
  rw [aplogdOutputSetup_logfileMax, aplogdOutputSetup_logfileMax]
  rfl

theorem switchStorage_reopened (h : r.new.succeeds = false) (hold : r.old.succeeds = true)
    (i : Stream) :
    ∃ fd, (switchStorage cfg r old new s).outputFd i = some fd ∧
      (switchStorage cfg r old new s).kern.get fd = some (.file (cfg.outputPath old) i true) := by
  have hsome : ((switchStorage cfg r old new s).outputFd i).isSome := by
    rw [switchStorage_failed h]
    exact aplogdOutputSetup_isSome hold old _ i
  obtain ⟨fd, hfd⟩ := Option.isSome_iff_exists.mp hsome
  exact ⟨fd, hfd, switchStorage_outOn_old h (SetupRes.access_of_succeeds hold) i fd hfd⟩

/-- What the failing setup opened is still open. -/
theorem OpenedByAttempt.remains {fd : ℕ} (h : r.new.succeeds = false)
    (hfd : OpenedByAttempt cfg r new s fd) :
    (switchStorage cfg r old new s).kern.get fd ≠ none := by
  obtain ⟨d, hd⟩ := Option.ne_none_iff_exists'.mp hfd.2
  rw [switchStorage_failed h]
  show (aplogdOutputSetup cfg r.old old _).kern.get fd ≠ none
  rw [aplogdOutputSetup_get_some r.old old hd]
  simp

/-- The failing setup opened nothing: the directory cannot be used, or no file in it. -/
theorem not_openedByAttempt_iff :
    (∀ fd, ¬OpenedByAttempt cfg r new s fd) ↔
      r.new.access = false ∨ ∀ i, r.new.opens i = false := by
  unfold OpenedByAttempt
  constructor
  · intro hnone
    by_contra hcon
    rw [not_or, not_forall] at hcon
    obtain ⟨hacc, i, hi⟩ := hcon
    rw [Bool.not_eq_false] at hacc hi
    have hopened : ∃ fd, (switchClosed cfg new s).kern.get fd = none ∧
        (aplogdOutputSetup cfg r.new new (switchClosed cfg new s)).kern.get fd ≠ none := by
      unfold aplogdOutputSetup
      rw [if_pos hacc]
      exact openOutputs_opened hi Stream.all _ i.mem_all
    obtain ⟨fd, hfd⟩ := hopened
    exact hnone fd hfd
  · rintro (hacc | hopens) fd ⟨hfree, hopen⟩
    · rw [aplogdOutputSetup_of_not_access hacc] at hopen
      exact hopen hfree
    · unfold aplogdOutputSetup at hopen
      split_ifs at hopen
      · rw [openOutputs_kern hopens] at hopen
        exact hopen hfree
      · exact hopen hfree

end Failed

/-- **A failing switch of the storage** leaves the daemon as it was on the old storage if and only
if the two storages have the same size limit and the setup of the new one opened no file. -/
theorem switchStorage_switchedBack_iff (cfg : Config) (r : SwitchRes)
    (old new : Storage) (s : State) (hnew : r.new.succeeds = false) (hold : r.old.succeeds = true) :
    SwitchedBack cfg r old new s (switchStorage cfg r old new s) ↔
      aplogdGetFilesize cfg new = aplogdGetFilesize cfg old ∧
        (r.new.access = false ∨ ∀ i, r.new.opens i = false) := by
  have hiff := @not_openedByAttempt_iff cfg r new s
  rw [← hiff]
  constructor
  · intro h
    refine ⟨?_, fun fd hfd => hfd.remains hnew (h.released fd hfd)⟩
    rw [← h.limit, switchStorage_logfileMax hnew]
  · rintro ⟨hsize, hnone⟩
    refine ⟨?_, switchStorage_reopened hnew hold, ?_, fun fd hfd => absurd hfd (hnone fd)⟩
    · rw [switchStorage_failed hnew]
    · rw [switchStorage_logfileMax hnew, hsize]

/-- The daemon with its outputs open in the internal storage. -/
def onUserdata (cfg : Config) : State :=
  aplogdOutputSetup cfg .ok .userdata (.start stdio fun _ _ => none)

/-- The external storage cannot be used; with a limit of 10 MB both storages have the same one. -/
theorem switchStorage_switchedBack_small :
    SwitchedBack { cardConfig with usrCfgSize := 10 } ⟨.noAccess, .ok⟩ .userdata .external
      (onUserdata cardConfig)
      (switchStorage { cardConfig with usrCfgSize := 10 } ⟨.noAccess, .ok⟩ .userdata .external
        (onUserdata cardConfig)) :=
  (switchStorage_switchedBack_iff _ _ _ _ _ rfl rfl).mpr ⟨rfl, .inl rfl⟩

/-- The kernel log of the external storage cannot be opened. -/
def kernelFails : SwitchRes := ⟨⟨true, fun i => i ≠ .kernel⟩, .ok⟩

/-- The daemon goes on in the internal storage, with the limit of the external one and with
descriptors that nothing refers to any more. -/
theorem switchStorage_leaves :
    kernelFails.new.succeeds = false ∧ kernelFails.old.succeeds = true ∧
    (switchStorage cardConfig kernelFails .userdata .external (onUserdata cardConfig)).logfileMax ≠
      aplogdGetFilesize cardConfig .userdata ∧
    OpenedByAttempt cardConfig kernelFails .external (onUserdata cardConfig) 3 ∧
    (switchStorage cardConfig kernelFails .userdata .external (onUserdata cardConfig)).kern.get
    3 ≠ none ∧
    ¬SwitchedBack cardConfig kernelFails .userdata .external (onUserdata cardConfig)
      (switchStorage cardConfig kernelFails .userdata .external (onUserdata cardConfig)) := by
  have hnew : kernelFails.new.succeeds = false := by decide
  have hlimit : (switchStorage cardConfig kernelFails .userdata .external
      (onUserdata cardConfig)).logfileMax ≠ aplogdGetFilesize cardConfig .userdata := by
    rw [switchStorage_logfileMax hnew]
    decide
  have hopened : OpenedByAttempt cardConfig kernelFails .external (onUserdata cardConfig) 3 :=
    ⟨rfl, fun h => by cases h⟩
  exact ⟨hnew, by decide, hlimit, hopened, hopened.remains hnew, fun h => hlimit h.limit⟩

end Omap4.Aplogd
