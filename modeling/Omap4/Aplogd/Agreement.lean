import Omap4.Aplogd.Descriptors

/-!
# Omap4.Aplogd.Agreement — the outputs and the current storage

A rotation renames the files in the directory of `g_current_storage`.  `outputs_agree` says that
these are the files the output descriptors refer to, at the top of the main loop, as long as every
step meets `Agrees`.  Three things break the agreement:

* a configuration reload whose switch fails after it closed the outputs: `switch_storage` reopens
  the old storage, then `aplogd_config_load` sets `g_current_storage` to the preferred one
  (`ReloadAgrees`);
* a failing switch that opened some files of the new storage, if the old one cannot be opened any
  more: these files stay open under the old storage's name (`SwitchAgrees`);
* `aplogd_log_save` of the storage in use, on a message that it was mounted, if no switch follows:
  the open files are compressed and lose their names (`SaveAgrees`).
-/

namespace Omap4.Aplogd

/-- The output descriptors refer to the files in the directory of the current storage. -/
def State.Agree (cfg : Config) (s : State) : Prop :=
  s.fds.OutOn (cfg.outputPath s.currentStorage)

/-! ## When the steps keep the agreement -/

/-- A switch succeeds, or reopens the old storage, or left nothing open in the new one. -/
def SwitchAgrees (cfg : Config) (r : SwitchRes) (old new : Storage) : Prop :=
  r.new.succeeds = true ∨ r.old.access = true ∨ r.new.access = false ∨
    (∀ i, r.new.opens i = false) ∨ cfg.outputPath new = cfg.outputPath old

/-- The save compresses no file that is open as an output. -/
def SaveAgrees (cfg : Config) (r : SaveRes) (st : Storage) (s : State) : Prop :=
  s.backupFlag st = true ∨ r.access = false ∨ cfg.outputPath st ≠ cfg.outputPath s.currentStorage ∨
    ∀ i, (s.outputFd i).isSome = true → r.gzip i = false

def MountAgrees (cfg : Config) (r : MountRes) (st : Storage) (switches : Bool) (s : State) : Prop :=
  if switches then SwitchAgrees cfg r.switch s.currentStorage st else SaveAgrees cfg r.save st s

/-- The four branches of `aplogd_io_read_data` for vold, each in the state in which it is
reached. -/
structure VoldAgrees (cfg : Config) (r : VoldRes) (s : State) : Prop where
  secMounted : isTransToMounted cfg .secondary r.msg = true →
    MountAgrees cfg r.secMounted .secondary (aplogdCalcStoragePref cfg = .secondary) s
  secUnmounted : (secondaryMounted cfg r s).currentStorage = .secondary →
    (isTransToUnmounted cfg .secondary r.msg || isBadRemoval cfg .secondary r.msg) = true →
    r.secUnmounted.new.succeeds = true ∨ SwitchAgrees cfg r.secFallback .secondary .userdata
  extMounted : isTransToMounted cfg .external r.msg = true →
    MountAgrees cfg r.extMounted .external
      (aplogdCalcStoragePref cfg ≠ .userdata ∧
        (secondaryUnmounted cfg r (secondaryMounted cfg r s)).currentStorage = .userdata)
      (secondaryUnmounted cfg r (secondaryMounted cfg r s))
  extUnmounted :
    (externalMounted cfg r (secondaryUnmounted cfg r (secondaryMounted cfg r s))).currentStorage =
      .external →
    (isTransToUnmounted cfg .external r.msg || isBadRemoval cfg .external r.msg) = true →
    SwitchAgrees cfg r.extUnmounted .external .userdata

/-- A reload has nothing to switch, or its switch succeeds, or nothing is open in the old storage
afterwards. -/
def ReloadAgrees (cfg : Config) (r : SwitchRes) (s : State) : Prop :=
  s.currentStorage = aplogdCalcStoragePref cfg ∨ r.new.succeeds = true ∨ r.old.access = false ∨
    (∀ i, r.old.opens i = false) ∨
    cfg.outputPath s.currentStorage = cfg.outputPath (aplogdCalcStoragePref cfg)

/-- The message from vold, if there is one, in the state in which its slot is reached. -/
def SlotsAgree (cfg : Config) (rev : Slot → Revents) (d : Reads) : List Slot → State → Prop
  | [], _ => True
  | slot :: L, s =>
    (slot = .vold → (s.pollFd .vold).isSome = true → (rev .vold).pollin = true →
      VoldAgrees cfg d.vold s) ∧
    ∀ s', aplogdIoHandlePoll cfg d (rev slot) slot s = some s' → SlotsAgree cfg rev d L s'

structure Agrees (cfg : Config) (s : State) (it : Iter) : Prop where
  reload : ∀ r, it.reload = some r → ReloadAgrees cfg r s
  noHangup : it.poll.NoHangup
  vold : ∀ rev d, it.poll = .ready rev d → SlotsAgree cfg rev d Slot.all (reloadConfig cfg it s)

/-! ## Switches -/

variable {cfg : Config}

theorem outOn_of_none {t : Fds} (h : ∀ i, t.outputFd i = none) (dir : CStr) : t.OutOn dir :=
  fun i fd hi => by rw [h i] at hi; cases hi

/-- After a setup only the files that were opened are. -/
theorem aplogdOutputSetup_opens {r : SetupRes} (h : r.access = true) {st : Storage} {s : State}
    {i : Stream} (hi : r.opens i = false) : (aplogdOutputSetup cfg r st s).outputFd i = none := by
  have key : ∀ (L : List Stream) (s : State), (i ∈ L ∨ s.outputFd i = none) →
      (L.foldl (fun s k => openOutput (cfg.outputPath st) (r.opens k) k s) s).outputFd i =
        none := by
    intro L
    induction L with
    | nil => exact fun s hs => by simpa using hs
    | cons k L ih =>
      intro s hs
      refine ih _ ?_
      by_cases hik : i = k
      · subst hik
        exact .inr (by simp [openOutput, hi])
      · exact hs.imp (fun hL => by simpa [hik] using hL) fun hs =>
          (openOutput_outputFd_of_ne hik _ s).trans hs
  unfold aplogdOutputSetup
  rw [if_pos h]
  exact key _ s (.inl i.mem_all)

theorem switchStorage_currentStorage (r : SwitchRes) (old new : Storage) (s : State) :
    (switchStorage cfg r old new s).currentStorage = if r.new.succeeds then new else old := by
  unfold switchStorage
  split_ifs <;> rfl

section Switch

variable {r : SwitchRes} {old new : Storage} {s : State}

theorem switchStorage_outOn_new (h : r.new.succeeds = true) :
    (switchStorage cfg r old new s).fds.OutOn (cfg.outputPath new) := by
  unfold switchStorage
  rw [if_pos h]
  exact aplogdOutputSetup_outOn (SetupRes.access_of_succeeds h) new _

theorem switchStorage_outOn_old (h : r.new.succeeds = false) (hold : r.old.access = true) :
    (switchStorage cfg r old new s).fds.OutOn (cfg.outputPath old) := by
  unfold switchStorage
  rw [if_neg (by simp [h])]
  exact aplogdOutputSetup_outOn hold old _

/-- If both setups fail before their `open`s, nothing is open. -/
theorem switchStorage_none (h : r.new.access = false) (hold : r.old.access = false) (i : Stream) :
    (switchStorage cfg r old new s).outputFd i = none := by
  have hnew : r.new.succeeds = false := by simp [SetupRes.succeeds, h]
  unfold switchStorage
  rw [if_neg (by simp [hnew]), aplogdOutputSetup_of_not_access hold,
    aplogdOutputSetup_of_not_access h]
  exact aplogdCloseOutput_outputFd _ i

/-- If the old storage cannot be used, what was opened in the new one stays. -/
theorem switchStorage_fds_of_not_access (h : r.new.succeeds = false) (hold : r.old.access = false) :
    (switchStorage cfg r old new s).fds = (aplogdOutputSetup cfg r.new new
      (aplogdCloseOutput { s with logfileMax := aplogdGetFilesize cfg new })).fds := by
  unfold switchStorage
  rw [if_neg (by simp [h]), aplogdOutputSetup_of_not_access hold]
  rfl

theorem switchStorage_agree (h : SwitchAgrees cfg r old new) :
    (switchStorage cfg r old new s).Agree cfg := by
  unfold State.Agree
  rw [switchStorage_currentStorage]
  cases hnew : r.new.succeeds with
  | true => exact switchStorage_outOn_new hnew
  | false =>
    rw [if_neg (by simp)]
    cases hold : r.old.access with
    | true => exact switchStorage_outOn_old hnew hold
    | false =>
      cases hacc : r.new.access with
      | false => exact outOn_of_none (switchStorage_none hacc hold) _
      | true =>
        -- only what was opened in the new storage is open
        rw [switchStorage_fds_of_not_access hnew hold]
        rcases h with h | h | h | h | h
        · simp [hnew] at h
        · simp [hold] at h
        · simp [hacc] at h
        · exact outOn_of_none (fun i => aplogdOutputSetup_opens hacc (h i)) _
        · rw [← h]
          exact aplogdOutputSetup_outOn hacc new _

theorem configChanged_agree (hs : s.Agree cfg) (h : ReloadAgrees cfg r s) :
    (configChanged cfg r s).Agree cfg := by
  show (State.fds (if _ then _ else _)).OutOn (cfg.outputPath (aplogdCalcStoragePref cfg))
  split_ifs with hcur
  · rw [← hcur]
    exact hs
  · cases hnew : r.new.succeeds with
    | true => exact switchStorage_outOn_new hnew
    | false =>
      cases hold : r.old.access with
      | false =>
        cases hacc : r.new.access with
        | false => exact outOn_of_none (switchStorage_none hacc hold) _
        | true =>
          rw [switchStorage_fds_of_not_access hnew hold]
          exact aplogdOutputSetup_outOn hacc _ _
      | true =>
        rcases h with h | h | h | h | h
        · exact absurd h hcur
        · simp [hnew] at h
        · simp [hold] at h
        · refine outOn_of_none (fun i => ?_) _
          show (switchStorage cfg r _ _ s).outputFd i = none
          unfold switchStorage
          rw [if_neg (by simp [hnew])]
          exact aplogdOutputSetup_opens hold (h i)
        · rw [← h]
          exact switchStorage_outOn_old hnew hold

end Switch

/-! ## Messages from vold -/

theorem gzipOutput_outOn {dir dir' : CStr} {i : Stream} {s : State} (hs : s.fds.OutOn dir')
    (h : dir ≠ dir' ∨ s.outputFd i = none) : (gzipOutput dir i s).fds.OutOn dir' := by
  intro j fd hj
  have hj' : s.outputFd j = some fd := hj
  have hget : s.kern.get fd = some (.file dir' j true) := hs j fd hj
  show (s.kern.map _).get fd = _
  rw [FdTable.get_map, hget, Option.map_some, if_neg]
  intro he
  obtain ⟨hdir, hji, -⟩ := Desc.file.inj he
  rcases h with h | h
  · exact h hdir.symm
  · rw [hji, h] at hj'
    cases hj'

/-- A save leaves the agreement with `dir'` alone, if it is about another directory or compresses no
file that is open. -/
theorem saveOutputs_outOn {dir dir' : CStr} {r : SaveRes} {s : State} (hs : s.fds.OutOn dir')
    (h : dir ≠ dir' ∨ ∀ i, (s.outputFd i).isSome = true → r.gzip i = false) :
    (saveOutputs dir r s).fds.OutOn dir' := by
  refine (List.foldlRecOn Stream.all (fun (s : State) i =>
    if (s.files dir (.output i)).isSome && r.gzip i then gzipOutput dir i s else s)
    (motive := fun s' => s'.fds.OutOn dir' ∧ s'.outputFd = s.outputFd) ⟨hs, rfl⟩
    fun s' hs' i _ => ?_).1
  split_ifs with hgz
  · refine ⟨gzipOutput_outOn hs'.1 (h.imp_right fun h => ?_), hs'.2⟩
    rw [hs'.2]
    cases ho : s.outputFd i with
    | none => rfl
    | some fd => simp [h i (by simp [ho])] at hgz
  · exact hs'

theorem saveOutputs_currentStorage (dir : CStr) (r : SaveRes) (s : State) :
    (saveOutputs dir r s).currentStorage = s.currentStorage := by
  refine List.foldlRecOn Stream.all (fun (s : State) i =>
    if (s.files dir (.output i)).isSome && r.gzip i then gzipOutput dir i s else s)
    (motive := fun s' => s'.currentStorage = s.currentStorage) rfl fun s' hs' i _ => ?_
  split_ifs
  · exact hs'
  · exact hs'

theorem saveCard_currentStorage (r : SaveRes) (st : Storage) (s : State) :
    (saveCard cfg r st s).currentStorage = s.currentStorage := by
  unfold saveCard
  split_ifs
  · rfl
  · rfl
  · exact saveOutputs_currentStorage _ _ s

theorem aplogdLogSave_currentStorage (r : SaveRes) (st : Storage) (s : State) :
    (aplogdLogSave cfg r st s).currentStorage = s.currentStorage := by
  cases st with
  | userdata => exact saveOutputs_currentStorage _ _ s
  | external => exact saveCard_currentStorage r .external s
  | secondary => exact saveCard_currentStorage r .secondary s

/-- A move changes files and descriptors only. -/
theorem aplogdMoveLogs_frame (o : Stream → MoveOpens) (old new : Storage) (s : State) :
    ∃ kern files, aplogdMoveLogs cfg o old new s = { s with kern := kern, files := files } := by
  unfold aplogdMoveLogs
  split_ifs
  · exact ⟨s.kern, s.files, rfl⟩
  · refine List.foldlRecOn Stream.all
      (fun s i => moveLog (cfg.outputPath old) (cfg.outputPath new) (o i) i s)
      (motive := fun s' => ∃ kern files, s' = { s with kern := kern, files := files })
      ⟨s.kern, s.files, rfl⟩ fun s' hs' i _ => ?_
    obtain ⟨kern, files, rfl⟩ := hs'
    unfold moveLog
    split
    · exact ⟨kern, files, rfl⟩
    · exact ⟨kern, files, rfl⟩
    · exact ⟨kern.openFd .other, files, rfl⟩
    · exact ⟨kern, _, rfl⟩

theorem saveCard_agree {r : SaveRes} {st : Storage} {s : State} (hs : s.Agree cfg)
    (h : SaveAgrees cfg r st s) : (saveCard cfg r st s).Agree cfg := by
  unfold State.Agree
  rw [saveCard_currentStorage]
  unfold saveCard
  split_ifs with hflag hlogs
  · exact hs
  · exact hs
  · refine saveOutputs_outOn hs ?_
    rcases h with h | h | h | h
    · simp [h] at hflag
    · simp [h] at hflag
    · exact .inl h
    · exact .inr h

theorem storageMounted_agree {r : MountRes} {st : Storage} {b : Bool} {s : State}
    (hst : st ≠ .userdata) (hs : s.Agree cfg) (h : MountAgrees cfg r st b s) :
    (storageMounted cfg r st b s).Agree cfg := by
  unfold storageMounted
  unfold MountAgrees at h
  split_ifs at h ⊢
  · unfold moveAndSwitch
    rw [aplogdLogSave_currentStorage]
    split_ifs <;> exact switchStorage_agree h
  · cases st with
    | userdata => exact absurd rfl hst
    | external => exact saveCard_agree hs h
    | secondary => exact saveCard_agree hs h

theorem leaveSecondary_agree {r : VoldRes} {s : State}
    (h : r.secUnmounted.new.succeeds = true ∨ SwitchAgrees cfg r.secFallback .secondary .userdata) :
    (leaveSecondary cfg r s).Agree cfg := by
  unfold leaveSecondary
  rw [switchStorage_currentStorage]
  cases hnew : r.secUnmounted.new.succeeds with
  | true => exact switchStorage_agree (.inl hnew)
  | false => exact switchStorage_agree (h.resolve_left (by simp [hnew]))

theorem readVold_agree {r : VoldRes} {s : State} (hs : s.Agree cfg) (h : VoldAgrees cfg r s) :
    (readVold cfg r s).Agree cfg := by
  have h₁ : (secondaryMounted cfg r s).Agree cfg := by
    unfold secondaryMounted
    split_ifs with hm
    · exact storageMounted_agree (by simp) hs (h.secMounted hm)
    · exact hs
  have h₂ : (secondaryUnmounted cfg r (secondaryMounted cfg r s)).Agree cfg := by
    unfold secondaryUnmounted
    split_ifs with hm
    · exact leaveSecondary_agree (h.secUnmounted hm.2 hm.1)
    · exact h₁
  have h₃ : (externalMounted cfg r (secondaryUnmounted cfg r (secondaryMounted cfg r s))).Agree
      cfg := by
    unfold externalMounted
    split_ifs with hm
    · exact storageMounted_agree (by simp) h₂ (h.extMounted hm)
    · exact h₂
  unfold readVold externalUnmounted
  split_ifs with hm
  · exact switchStorage_agree (h.extUnmounted hm.2 hm.1)
  · exact h₃

/-! ## Runs -/

theorem Outs.agree {s s' : State} (h : Flushes cfg s s') (hs : s.Agree cfg) : s'.Agree cfg := by
  unfold State.Agree
  rw [h.storage]
  exact h.run.outOn hs

theorem openInput_agree (slot : Slot) (ok : Bool) {s : State} (hs : s.Agree cfg) :
    (openInput slot ok s).Agree cfg := by
  unfold openInput
  split_ifs
  · exact fun i fd hi => FdTable.get_openFd _ (hs i fd hi)
  · exact hs

theorem aplogdIoReadData_agree {d : Reads} {slot : Slot} {s s' : State} (hs : s.Agree cfg)
    (hv : slot = .vold → VoldAgrees cfg d.vold s) (h : aplogdIoReadData cfg d slot s = some s') :
    s'.Agree cfg := by
  cases slot with
  | vold =>
    obtain rfl := Option.some.inj h
    exact readVold_agree hs (hv rfl)
  | log i =>
    cases i with
    | kernel =>
      obtain rfl := Option.some.inj h
      exact (readKernel_flushes d.kernel s).agree hs
    | _ => exact (readLog_flushes h).agree hs

theorem handlePollRes_agree {p : PollRes} {s s' : State} (hp : p.NoHangup) (hs : s.Agree cfg)
    (hv : ∀ rev d, p = .ready rev d → SlotsAgree cfg rev d Slot.all s)
    (h : handlePollRes cfg p s = some s') : s'.Agree cfg := by
  obtain ⟨r, rfl, rfl⟩ | ⟨rfl, rfl⟩ | ⟨rev, d, rfl, h⟩ := handlePollRes_cases h
  · exact (flushAll_flushes r s).agree hs
  · exact hs
  · refine (handleSlots_inv (P := fun L s => s.Agree cfg ∧ SlotsAgree cfg rev d L s)
      (fun slot L s s' hP h => ?_) Slot.all s s' ⟨hs, hv rev d rfl⟩ h).1
    refine ⟨?_, hP.2.2 s' h⟩
    rcases aplogdIoHandlePoll_cases (hp slot).1 (hp slot).2 h with ⟨rfl, -⟩ | ⟨hfd, hin, h⟩
    · exact hP.1
    · exact aplogdIoReadData_agree hP.1 (fun hslot => by subst hslot; exact hP.2.1 rfl hfd hin) h

theorem aplogdLogIo_agree {s s' : State} {it : Iter} (hs : s.Agree cfg) (hit : Agrees cfg s it)
    (h : aplogdLogIo cfg s it = some s') : s'.Agree cfg := by
  refine aplogdLogIo_rule (P := fun s => s.Agree cfg) hs ?_ ?_ ?_ h
  · intro r hr
    exact configChanged_agree hs (hit.reload r hr)
  · intro hreload s₁ h₁
    exact handlePollRes_agree hit.noHangup hreload hit.vold h₁
  · intro s₁ h₁
    exact openInput_agree .vold it.connect h₁

/-- Before it opens the inputs, the daemon has set up the outputs of the storage it settled for. -/
theorem aplogdIoBootFinish_setup {r : BootRes} {s s' : State}
    (h : aplogdIoBootFinish cfg r s = some s') :
    ∃ (r' : SetupRes) (s₁ : State), r'.succeeds = true ∧
      s' = aplogdInputSetup r (aplogdOutputSetup cfg r' s₁.currentStorage s₁) := by
  obtain ⟨h, -⟩ := Option.filter_eq_some_iff.mp h
  obtain ⟨s₃, h₃, rfl⟩ := Option.map_eq_some_iff.mp h
  set s₀ := aplogdConfigLoad cfg (aplogdLogSave cfg r.saveUserdata .userdata
    (aplogdLogSave cfg r.saveSecondary .secondary s))
  have h₁ : (bootSecondary cfg r s₀).currentStorage = .secondary → ∃ (r' : SetupRes) (s₁ : State),
      r'.succeeds = true ∧ bootSecondary cfg r s₀ = aplogdOutputSetup cfg r'
      s₁.currentStorage s₁ := by
    unfold bootSecondary
    split_ifs with hsec _ hok
    · exact fun he => absurd he hsec
    · exact fun he => by cases he
    · refine fun _ => ⟨r.setupSecondary, aplogdLogSave cfg r.saveSecondary2 .secondary s₀, hok, ?_⟩
      rw [aplogdLogSave_currentStorage, not_not.mp hsec]
    · exact fun he => by cases he
  set s₁ := bootSecondary cfg r s₀
  have h₂ : (bootExternal cfg r s₁).currentStorage ≠ .userdata → ∃ (r' : SetupRes) (s₂ : State),
      r'.succeeds = true ∧ bootExternal cfg r s₁ = aplogdOutputSetup cfg r'
      s₂.currentStorage s₂ := by
    unfold bootExternal
    split_ifs with hext hok
    · intro huser
      refine h₁ ?_
      cases hc : s₁.currentStorage with
      | userdata => exact absurd hc huser
      | external => exact absurd hc hext
      | secondary => rfl
    · refine fun _ => ⟨r.setupExternal, aplogdLogSave cfg r.saveExternal .external s₁, hok, ?_⟩
      rw [aplogdLogSave_currentStorage, not_not.mp hext]
    · exact fun he => absurd rfl he
  unfold bootUserdata at h₃
  split_ifs at h₃ with huser hok
  · obtain rfl := Option.some.inj h₃
    obtain ⟨r', s₂, hr', he⟩ := h₂ huser
    exact ⟨r', s₂, hr', by rw [he]⟩
  · obtain rfl := Option.some.inj h₃
    exact ⟨r.setupUserdata, _, hok, by rw [not_not.mp huser]⟩

theorem aplogdIoBootFinish_agree {r : BootRes} {s s' : State}
    (h : aplogdIoBootFinish cfg r s = some s') : s'.Agree cfg := by
  obtain ⟨r', s₁, hr', rfl⟩ := aplogdIoBootFinish_setup h
  refine aplogdInputSetup_inv (fun slot ok s hs => openInput_agree slot ok hs) r ?_
  unfold State.Agree
  rw [(aplogdOutputSetup_outs _ _ _).storage]
  exact aplogdOutputSetup_outOn (SetupRes.access_of_succeeds hr') _ _

/-- **Storage agreement.**  In a run whose steps meet `Agrees`, every output descriptor refers to
the file of its stream in the directory of the current storage. -/
theorem outputs_agree (cfg : Config) (r : BootRes) (kern : FdTable Desc)
    (files : CStr → FileMap LogFile Bytes) (its : List Iter) (s₀ s : State)
    (hboot : aplogdIoBootFinish cfg r (.start kern files) = some s₀)
    (hrun : Machine.exec (aplogdLogIo cfg) s₀ its = some s)
    (hC : Machine.Along (aplogdLogIo cfg) (Agrees cfg) s₀ its) (i : Stream) (fd : ℕ)
    (hfd : s.outputFd i = some fd) :
    s.kern.get fd = some (.file (cfg.outputPath s.currentStorage) i true) := by
  have hs : s.Agree cfg :=
    Machine.exec_inv_along (fun s it s' hs hit h => aplogdLogIo_agree hs hit h) its s₀ s
      (aplogdIoBootFinish_agree hboot) hC hrun
  exact hs i fd hfd

/-! ### A reload whose switch fails -/

/-- `SIGUSR1` while the secondary card is missing: its directory cannot be used, the external one is
reopened. -/
def failedReload : Iter := readyIter (some ⟨.noAccess, .ok⟩) .vold ⟨false, false, false⟩

/-- The daemon runs on the external card because there was no secondary card when it started.  After
the reload the outputs are still there, but the current storage is the secondary one. -/
theorem failedReload_disagrees :
    ∃ s₀ s, aplogdIoBootFinish cardConfig (bootOk false) (.start stdio fun _ _ => none) = some s₀ ∧
      Machine.exec (aplogdLogIo cardConfig) s₀ [failedReload] = some s ∧
      s.outputFd .main = some 3 ∧
      s.kern.get 3 = some (.file "/storage/sdcard0/logger".toList .main true) ∧
      cardConfig.outputPath s.currentStorage = "/storage/sdcard1/logger".toList :=
  ⟨_, _, rfl, rfl, by decide, by decide, by decide⟩

/-- A reload whose switch succeeds. -/
def goodReload : Iter := readyIter (some .ok) .vold ⟨false, false, false⟩

theorem agrees_goodReload (s : State) : Agrees cardConfig s goodReload := by
  refine ⟨?_, ?_, ?_⟩
  · intro r hr
    obtain rfl := Option.some.inj hr
    exact .inr (.inl rfl)
  · intro slot
    dsimp only
    split_ifs <;> exact ⟨rfl, rfl⟩
  · intro rev d hd
    have hrev : (rev .vold).pollin = false := by
      obtain ⟨rfl, -⟩ := PollRes.ready.inj hd
      rfl
    have key : ∀ (L : List Slot) (s : State), SlotsAgree cardConfig rev d L s := by
      intro L
      induction L with
      | nil => exact fun _ => trivial
      | cons slot L ih => exact fun s => ⟨fun _ _ hin => by simp [hrev] at hin, fun s' _ => ih s'⟩
    exact key _ _

theorem outputs_agree_goodReload :
    ∃ s₀ s, aplogdIoBootFinish cardConfig (bootOk false) (.start stdio fun _ _ => none) = some s₀ ∧
      Machine.exec (aplogdLogIo cardConfig) s₀ [goodReload] = some s ∧
      s.outputFd .main = some 3 ∧
      s.kern.get 3 = some (.file (cardConfig.outputPath s.currentStorage) .main true) :=
  ⟨_, _, rfl, rfl, by decide, outputs_agree cardConfig (bootOk false) stdio (fun _ _ => none)
    [goodReload] _ _ rfl rfl ⟨agrees_goodReload _, fun _ _ => trivial⟩ .main 3 (by decide)⟩

end Omap4.Aplogd
