import Mathlib.Logic.Relation
import Omap4.Aplogd.LogIo
import Omap4.Machine

/-!
# Omap4.Aplogd.Descriptors — what the descriptors of aplogd refer to

`descriptors_open` is about the state at the top of the main loop: every input descriptor, in
`aplogd_io_array` and in the poll set, is open and refers to the input of its slot.  It holds as
long as `poll` reports no `POLLERR` or `POLLHUP`: `aplogd_io_handle_pollerr` closes the descriptor
and leaves it in `aplogd_io_array` (`hangupRun_closed`).

What the functions that write, rotate and reopen can do to the descriptors is said once, by
`OutStep`. `Omap4.Aplogd.Agreement` derives from it what the output descriptors refer to.
-/

namespace Omap4.Aplogd

/-- The descriptors the daemon keeps, and the kernel's. -/
structure Fds where
  inputFd : Slot → Option ℕ
  pollFd : Slot → Option ℕ
  outputFd : Stream → Option ℕ
  kern : FdTable Desc

def State.fds (s : State) : Fds := ⟨s.inputFd, s.pollFd, s.outputFd, s.kern⟩

/-- What is done to output descriptors in the directory `dir`. -/
inductive OutStep (dir : CStr) (t : Fds) : Fds → Prop
  | drop (i : Stream) : OutStep dir t { t with outputFd := Function.update t.outputFd i none }
  | close (i : Stream) (fd : ℕ) (h : t.outputFd i = some fd) :
    OutStep dir t { t with outputFd := Function.update t.outputFd i none, kern := t.kern.close fd }
  | opened (i : Stream) :
    OutStep dir t { t with
      outputFd := Function.update t.outputFd i (some t.kern.lowest)
      kern := t.kern.openFd (.file dir i true) }

abbrev OutRun (dir : CStr) : Fds → Fds → Prop := Relation.ReflTransGen (OutStep dir)

/-! ## The two properties -/

/-- Input descriptors are open and refer to the input of their slot, output descriptors refer to a
file of their stream. -/
structure Fds.Sound (t : Fds) : Prop where
  inputs : ∀ slot fd, t.inputFd slot = some fd → t.kern.get fd = some (.input slot)
  polls : ∀ slot fd, t.pollFd slot = some fd → t.kern.get fd = some (.input slot)
  outs : ∀ i fd, t.outputFd i = some fd → ∃ dir b, t.kern.get fd = some (.file dir i b)

/-- The output descriptors refer to the files in `dir`. -/
def Fds.OutOn (dir : CStr) (t : Fds) : Prop :=
  ∀ i fd, t.outputFd i = some fd → t.kern.get fd = some (.file dir i true)

section OutStep

variable {dir : CStr} {t t' : Fds}

theorem update_none_eq_some {α β : Type} [DecidableEq α] {f : α → Option β} {a b : α} {x : β}
    (h : Function.update f a none b = some x) : b ≠ a ∧ f b = some x := by
  by_cases hb : b = a
  · rw [hb, Function.update_self] at h
    cases h
  · exact ⟨hb, by rwa [Function.update_of_ne hb] at h⟩

theorem update_some_eq_some {α β : Type} [DecidableEq α] {f : α → Option β} {a b : α} {v x : β}
    (h : Function.update f a (some v) b = some x) : (b = a ∧ v = x) ∨ f b = some x := by
  by_cases hb : b = a
  · rw [hb, Function.update_self, Option.some.injEq] at h
    exact .inl ⟨hb, h⟩
  · exact .inr (by rwa [Function.update_of_ne hb] at h)

theorem OutStep.sound (h : OutStep dir t t') (hs : t.Sound) : t'.Sound := by
  cases h with
  | drop i => exact ⟨hs.inputs, hs.polls, fun j fd hj => hs.outs j fd (update_none_eq_some hj).2⟩
  | close i fd hi =>
    obtain ⟨d, b, hd⟩ := hs.outs i fd hi
    -- the closed descriptor is a file of stream `i`, so nothing else that is kept
    have hkeep : ∀ (n : ℕ) (x : Desc), t.kern.get n = some x → x ≠ .file d i b →
        (t.kern.close fd).get n = some x := by
      intro n x hn hx
      rw [FdTable.get_close_of_ne _ fun hfd => hx ?_, hn]
      rw [hfd, hd] at hn
      exact (Option.some.inj hn).symm
    refine ⟨fun slot n hn => hkeep n _ (hs.inputs slot n hn) (by simp),
      fun slot n hn => hkeep n _ (hs.polls slot n hn) (by simp), fun j n hj => ?_⟩
    obtain ⟨hji, hj⟩ := update_none_eq_some hj
    obtain ⟨d', b', hd'⟩ := hs.outs j n hj
    exact ⟨d', b', hkeep n _ hd' (by simp [hji])⟩
  | opened i =>
    refine ⟨fun slot n hn => FdTable.get_openFd _ (hs.inputs slot n hn),
      fun slot n hn => FdTable.get_openFd _ (hs.polls slot n hn), fun j n hj => ?_⟩
    rcases update_some_eq_some hj with ⟨rfl, rfl⟩ | hj
    · exact ⟨dir, true, FdTable.get_openFd_self _ _⟩
    · obtain ⟨d, b, hd⟩ := hs.outs j n hj
      exact ⟨d, b, FdTable.get_openFd _ hd⟩

theorem OutStep.outOn (h : OutStep dir t t') (hs : t.OutOn dir) : t'.OutOn dir := by
  intro j n hj
  cases h with
  | drop i => exact hs j n (update_none_eq_some hj).2
  | close i fd hi =>
    obtain ⟨hji, hj⟩ := update_none_eq_some hj
    have hn := hs j n hj
    rw [FdTable.get_close_of_ne _ fun hfd => ?_, hn]
    rw [hfd, hs i fd hi] at hn
    exact hji (by simpa using hn.symm)
  | opened i =>
    rcases update_some_eq_some hj with ⟨rfl, rfl⟩ | hj
    · exact FdTable.get_openFd_self _ _
    · exact FdTable.get_openFd _ (hs j n hj)

theorem OutRun.sound (h : OutRun dir t t') (hs : t.Sound) : t'.Sound := by
  induction h with
  | refl => exact hs
  | tail _ h ih => exact h.sound ih

theorem OutRun.outOn (h : OutRun dir t t') (hs : t.OutOn dir) : t'.OutOn dir := by
  induction h with
  | refl => exact hs
  | tail _ h ih => exact h.outOn ih

end OutStep

/-! ## What the functions do to the descriptors -/

/-- From `s` to `s'` the output descriptors change by steps in `dir`, and the storage does not. -/
structure Outs (dir : CStr) (s s' : State) : Prop where
  storage : s'.currentStorage = s.currentStorage
  run : OutRun dir s.fds s'.fds

theorem Outs.refl (dir : CStr) (s : State) : Outs dir s s := ⟨rfl, .refl⟩

theorem Outs.trans {dir : CStr} {s s' s'' : State} (h : Outs dir s s') (h' : Outs dir s' s'') :
    Outs dir s s'' :=
  ⟨h'.storage.trans h.storage, Relation.ReflTransGen.trans h.run h'.run⟩

theorem Outs.step {dir : CStr} {s s' : State} (hst : s'.currentStorage = s.currentStorage)
    (h : OutStep dir s.fds s'.fds) : Outs dir s s' := ⟨hst, .single h⟩

/-- The steps of a flush: those in the directory of the current storage. -/
abbrev Flushes (cfg : Config) (s s' : State) : Prop := Outs (cfg.outputPath s.currentStorage) s s'

theorem Flushes.trans {cfg : Config} {s s' s'' : State} (h : Flushes cfg s s')
    (h' : Flushes cfg s' s'') : Flushes cfg s s'' := by
  unfold Flushes at h'
  rw [h.storage] at h'
  exact Outs.trans h h'

section Runs

variable {cfg : Config} {dir : CStr}

theorem closeFd_outs (i : Stream) (s : State) : Outs dir s (closeFd i s) := by
  refine .step rfl ?_
  unfold closeFd State.fds
  cases h : s.outputFd i with
  | none => exact .drop i
  | some fd =>
    cases fd with
    | zero => exact .drop i
    | succ n => exact .close i (n + 1) h

theorem aplogdCloseOutput_outs (s : State) : Outs dir s (aplogdCloseOutput s) :=
  List.foldlRecOn Stream.all _ (motive := Outs dir s) (Outs.refl dir s)
    fun s' h i _ => h.trans (closeFd_outs i s')

theorem openOutput_outs (ok : Bool) (i : Stream) (s : State) :
    Outs dir s (openOutput dir ok i s) := by
  unfold openOutput
  cases ok with
  | true => exact .step rfl (.opened i)
  | false => exact .step rfl (.drop i)

theorem aplogdOutputSetup_outs (r : SetupRes) (st : Storage) (s : State) :
    Outs (cfg.outputPath st) s (aplogdOutputSetup cfg r st s) := by
  unfold aplogdOutputSetup
  split_ifs
  · exact List.foldlRecOn Stream.all _ (motive := Outs (cfg.outputPath st) s) (Outs.refl _ s)
      fun s' h i _ => h.trans (openOutput_outs (r.opens i) i s')
  · exact Outs.refl _ s

theorem writeFd_outs (fd : ℕ) (b : Bytes) (s : State) : Outs dir s (writeFd fd b s) := ⟨rfl, .refl⟩

theorem writeLoop_outs (fd : ℕ) (i : Stream) :
    ∀ (ws : List WriteRes) (need : ℕ) (s : State), Outs dir s (writeLoop fd i ws need s).2
  | [], need, s => by
    unfold writeLoop
    split_ifs
    · exact Outs.refl dir s
    · exact writeFd_outs fd _ s
  | w :: ws, need, s => by
    unfold writeLoop
    split_ifs
    · exact Outs.refl dir s
    · cases w with
      | wrote n => exact (writeFd_outs fd _ s).trans (writeLoop_outs fd i ws _ _)
      | enospc => exact aplogdCloseOutput_outs s
      | ebadf => exact .step rfl (.drop i)
      | error => exact Outs.refl dir s

theorem rotateOutputs_flushes (r : OutRes) (s : State) : Flushes cfg s (rotateOutputs cfg r s) := by
  obtain ⟨hcst, hcrun⟩ : Outs (cfg.outputPath s.currentStorage) s (aplogdCloseOutput s) :=
    aplogdCloseOutput_outs s
  have hclose : Flushes cfg s (backupOutputs cfg r (aplogdCloseOutput s)) := ⟨hcst, hcrun⟩
  obtain ⟨hst, hrun⟩ : Outs (cfg.outputPath s.currentStorage)
    (backupOutputs cfg r (aplogdCloseOutput s))
      (aplogdOutputSetup cfg r.setup s.currentStorage (backupOutputs cfg r (aplogdCloseOutput s))) :=
    aplogdOutputSetup_outs r.setup s.currentStorage _
  exact hclose.trans ⟨hst, hrun⟩

theorem clearBuf_flushes (i : Stream) (s : State) : Flushes cfg s (clearBuf i s) := ⟨rfl, .refl⟩

theorem aplogdRambufOutput_flushes (r : OutRes) (i : Stream) (s : State) :
    Flushes cfg s (aplogdRambufOutput cfg r i s) := by
  unfold aplogdRambufOutput
  split_ifs
  · exact Outs.refl _ s
  · split
    · exact clearBuf_flushes i s
    · rename_i fd _
      have hw : Flushes cfg s _ := writeLoop_outs fd i r.writes (s.inputBuf i).length s
      generalize writeLoop fd i r.writes (s.inputBuf i).length s = x at hw ⊢
      obtain ⟨done, s'⟩ := x
      cases done with
      | false => exact hw
      | true =>
        have hc := hw.trans (clearBuf_flushes i s')
        simp only [afterWrites]
        split_ifs
        · exact hc.trans (rotateOutputs_flushes r _)
        · exact hc

theorem aplogdRambufOutputall_flushes (r : FlushRes) (s : State) :
    Flushes cfg s (aplogdRambufOutputall cfg r s) :=
  List.foldlRecOn Stream.all _ (motive := Flushes cfg s) (Outs.refl _ s)
    fun s' h i _ => h.trans (aplogdRambufOutput_flushes (r i) i s')

theorem flushAll_flushes (r : FlushRes) (s : State) : Flushes cfg s (flushAll cfg r s) := by
  obtain ⟨hst, hrun⟩ : Flushes cfg s (aplogdRambufOutputall cfg r s) :=
    aplogdRambufOutputall_flushes r s
  exact ⟨hst, hrun⟩

theorem countUnwritten_flushes (r : FlushRes) (ret : ℕ) (s : State) :
    Flushes cfg s (countUnwritten cfg r ret s) := by
  unfold countUnwritten
  split_ifs
  · exact flushAll_flushes r s
  · exact ⟨rfl, .refl⟩

theorem logfilterAndBuffering_flushes (i : Stream) (e : LogEntry) (s : State) :
    Flushes cfg s (logfilterAndBuffering i e s).2 := by
  unfold logfilterAndBuffering
  cases e with
  | line b =>
    simp only
    split_ifs <;> exact ⟨rfl, .refl⟩
  | _ => exact Outs.refl _ s

theorem readLog_flushes {i : Stream} :
    ∀ {rs : List (LogRead × FlushRes)} {n : ℤ} {s s' : State}, readLog cfg i rs n s = some s' →
      Flushes cfg s s'
  | [], n, s, s', h => by
    obtain rfl := Option.some.inj h
    exact Outs.refl _ s
  | (r, fl) :: rs, n, s, s', h => by
    unfold readLog at h
    split_ifs at h
    · obtain rfl := Option.some.inj h
      exact Outs.refl _ s
    · cases r with
      | eintr => exact readLog_flushes h
      | eagain =>
        obtain rfl := Option.some.inj h
        exact Outs.refl _ s
      | fatal => cases h
      | entry e =>
        have he : Flushes cfg s (logfilterAndBuffering i e s).2 :=
          logfilterAndBuffering_flushes i e s
        cases e with
        | unparsed =>
          obtain rfl := Option.some.inj h
          exact Outs.refl _ s
        | _ =>
          simp only at h
          rcases hl : logfilterAndBuffering i _ s with ⟨ret, s₁⟩
          rw [hl] at h he
          cases ret with
          | none =>
            obtain rfl := Option.some.inj h
            exact he
          | some n => exact (he.trans (countUnwritten_flushes fl n s₁)).trans (readLog_flushes h)

theorem readKernel_flushes :
    ∀ (rs : List (KernelRead × FlushRes)) (s : State), Flushes cfg s (readKernel cfg rs s)
  | [], s => Outs.refl _ s
  | (⟨b, _⟩, fl) :: rs, s => by
    unfold readKernel
    split_ifs
    · exact Outs.refl _ s
    · have hb : Flushes cfg s (bufferBytes .kernel b (acceptBytes .kernel b s)) := ⟨rfl, .refl⟩
      exact (hb.trans (countUnwritten_flushes fl b.length _)).trans (readKernel_flushes rs _)
    · exact ⟨rfl, .refl⟩

theorem aplogdCloseOutput_outputFd (s : State) (i : Stream) :
    (aplogdCloseOutput s).outputFd i = none := by
  cases i <;> rfl

theorem openOutput_outputFd_of_ne {i k : Stream} (h : i ≠ k) (ok : Bool) (s : State) :
    (openOutput dir ok k s).outputFd i = s.outputFd i := by
  unfold openOutput
  split_ifs <;> exact Function.update_of_ne h _ _

theorem openOutput_get {ok : Bool} {i k : Stream} {s : State} {fd : ℕ}
    (h : (openOutput dir ok k s).outputFd i = some fd)
    (hs : i ≠ k → s.outputFd i = some fd → s.kern.get fd = some (.file dir i true)) :
    (openOutput dir ok k s).kern.get fd = some (.file dir i true) := by
  unfold openOutput at h ⊢
  split_ifs at h ⊢
  · by_cases hik : i = k
    · subst hik
      simp only [Function.update_self, Option.some.injEq] at h
      rw [← h]
      exact FdTable.get_openFd_self _ _
    · simp only [Function.update_of_ne hik] at h
      exact FdTable.get_openFd _ (hs hik h)
  · obtain ⟨hik, h⟩ := update_none_eq_some h
    exact hs hik h

/-- Whatever was open before: after a setup that gets to the `open`s, what is open is in its
directory. -/
theorem aplogdOutputSetup_outOn {r : SetupRes} (h : r.access = true) (st : Storage) (s : State) :
    (aplogdOutputSetup cfg r st s).fds.OutOn (cfg.outputPath st) := by
  -- after the streams before `L`, the ones outside `L` are as they should be
  have key : ∀ (L : List Stream) (s : State),
      (∀ i ∉ L, ∀ fd, s.outputFd i = some fd →
        s.kern.get fd = some (.file (cfg.outputPath st) i true)) →
      (L.foldl (fun s i => openOutput (cfg.outputPath st) (r.opens i) i s) s).fds.OutOn
        (cfg.outputPath st) := by
    intro L
    induction L with
    | nil => exact fun s hs i fd hi => hs i (by simp) fd hi
    | cons k L ih =>
      intro s hs
      exact ih _ fun i hi fd hfd => openOutput_get hfd fun hik h => hs i (by simp [hik, hi]) fd h
  unfold aplogdOutputSetup
  rw [if_pos h]
  exact key _ s fun i hi => absurd i.mem_all hi

/-- A setup that cannot use the directory changes nothing. -/
theorem aplogdOutputSetup_of_not_access {r : SetupRes} (h : r.access = false)
    (st : Storage) (s : State) :
    aplogdOutputSetup cfg r st s = s := by
  unfold aplogdOutputSetup
  rw [if_neg (by simp [h])]

theorem SetupRes.access_of_succeeds {r : SetupRes} (h : r.succeeds = true) : r.access = true := by
  unfold SetupRes.succeeds at h
  exact (Bool.and_eq_true_iff.mp h).1

theorem switchStorage_sound (r : SwitchRes) (old new : Storage) {s : State} (hs : s.fds.Sound) :
    (switchStorage cfg r old new s).fds.Sound := by
  have hsetup : ∀ (r : SetupRes) (st : Storage) {s : State}, s.fds.Sound →
      (aplogdOutputSetup cfg r st s).fds.Sound := by
    intro r st s hs
    exact (aplogdOutputSetup_outs r st s).run.sound hs
  have hclose : (aplogdCloseOutput { s with logfileMax := aplogdGetFilesize cfg new }).fds.Sound :=
    (aplogdCloseOutput_outs _ : Outs [] _ _).run.sound hs
  unfold switchStorage
  split_ifs
  · exact hsetup r.new new hclose
  · exact hsetup r.old old (hsetup r.new new hclose)

theorem gzipOutput_sound (i : Stream) {s : State} (hs : s.fds.Sound) :
    (gzipOutput dir i s).fds.Sound := by
  have hget : ∀ (fd : ℕ) (d : Desc), s.kern.get fd = some d → (gzipOutput dir i s).kern.get fd =
      some (if d = .file dir i true then .file dir i false else d) := by
    intro fd d h
    rw [gzipOutput, FdTable.get_map, h]
    rfl
  refine ⟨?_, ?_, ?_⟩
  · intro slot fd h
    exact (hget fd _ (hs.inputs slot fd h)).trans (by simp)
  · intro slot fd h
    exact (hget fd _ (hs.polls slot fd h)).trans (by simp)
  · intro j fd h
    obtain ⟨d, b, hd⟩ := hs.outs j fd h
    have := hget fd _ hd
    split_ifs at this with he
    · obtain ⟨-, rfl, -⟩ := Desc.file.inj he
      exact ⟨dir, false, this⟩
    · exact ⟨d, b, this⟩

theorem saveOutputs_sound (r : SaveRes) {s : State} (hs : s.fds.Sound) :
    (saveOutputs dir r s).fds.Sound := by
  refine List.foldlRecOn Stream.all (fun (s : State) i =>
    if (s.files dir (.output i)).isSome && r.gzip i then gzipOutput dir i s else s)
    (motive := fun s : State => s.fds.Sound) hs fun s' h i _ => ?_
  split_ifs
  · exact gzipOutput_sound i h
  · exact h

theorem aplogdLogSave_sound (r : SaveRes) (st : Storage) {s : State} (hs : s.fds.Sound) :
    (aplogdLogSave cfg r st s).fds.Sound := by
  have hcard : ∀ st, (saveCard cfg r st s).fds.Sound := by
    intro st
    unfold saveCard
    split_ifs
    · exact hs
    · exact hs
    · exact saveOutputs_sound r hs
  cases st with
  | userdata => exact saveOutputs_sound r hs
  | external => exact hcard .external
  | secondary => exact hcard .secondary

theorem aplogdMoveLogs_sound (o : Stream → MoveOpens) (old new : Storage) {s : State}
    (hs : s.fds.Sound) :
    (aplogdMoveLogs cfg o old new s).fds.Sound := by
  unfold aplogdMoveLogs
  split_ifs
  · exact hs
  · refine List.foldlRecOn Stream.all (fun s i => moveLog (cfg.outputPath old) (cfg.outputPath new)
      (o i) i s) (motive := fun s : State => s.fds.Sound) hs fun s' h i _ => ?_
    unfold moveLog
    split
    · exact h
    · exact h
    · exact ⟨fun slot fd hfd => FdTable.get_openFd _ (h.inputs slot fd hfd),
        fun slot fd hfd => FdTable.get_openFd _ (h.polls slot fd hfd), fun j fd hfd =>
        (h.outs j fd hfd).imp fun d => Exists.imp fun b => FdTable.get_openFd _⟩
    · exact h

theorem moveAndSwitch_sound (r : MountRes) (st : Storage) {s : State} (hs : s.fds.Sound) :
    (moveAndSwitch cfg r st s).fds.Sound := by
  unfold moveAndSwitch
  split_ifs
  · exact switchStorage_sound _ _ _ (aplogdMoveLogs_sound _ _ _ hs)
  · exact switchStorage_sound _ _ _ hs

theorem storageMounted_sound (r : MountRes) (st : Storage) (b : Bool) {s : State}
    (hs : s.fds.Sound) :
    (storageMounted cfg r st b s).fds.Sound := by
  have hsave : (aplogdLogSave cfg r.save st s).fds.Sound := aplogdLogSave_sound r.save st hs
  unfold storageMounted
  split_ifs
  · exact moveAndSwitch_sound r st hsave
  · exact hsave

theorem readVold_sound (r : VoldRes) {s : State} (hs : s.fds.Sound) :
    (readVold cfg r s).fds.Sound := by
  have h₁ : (secondaryMounted cfg r s).fds.Sound := by
    unfold secondaryMounted
    split_ifs
    · exact storageMounted_sound _ _ _ hs
    · exact hs
  have h₂ : (secondaryUnmounted cfg r (secondaryMounted cfg r s)).fds.Sound := by
    unfold secondaryUnmounted leaveSecondary
    split_ifs
    · exact switchStorage_sound _ _ _ (switchStorage_sound _ _ _ h₁)
    · exact switchStorage_sound _ _ _ h₁
    · exact h₁
  have h₃ : (externalMounted cfg r (secondaryUnmounted cfg r (secondaryMounted cfg r s))).fds.Sound := by
    unfold externalMounted
    split_ifs
    · exact storageMounted_sound _ _ _ h₂
    · exact h₂
  unfold readVold externalUnmounted
  split_ifs
  · exact switchStorage_sound _ _ _ h₃
  · exact h₃

theorem openInput_sound (slot : Slot) (ok : Bool) {s : State} (hs : s.fds.Sound) :
    (openInput slot ok s).fds.Sound := by
  unfold openInput
  split_ifs
  · have hnew : ∀ (f : Slot → Option ℕ), (∀ k fd, f k = some fd → s.kern.get fd = some (.input k)) →
        ∀ k fd, Function.update f slot (some s.kern.lowest) k = some fd →
          (s.kern.openFd (.input slot)).get fd = some (.input k) := by
      intro f hf k fd h
      rcases update_some_eq_some h with ⟨rfl, rfl⟩ | h
      · exact FdTable.get_openFd_self _ _
      · exact FdTable.get_openFd _ (hf k fd h)
    refine ⟨hnew _ hs.inputs, hnew _ hs.polls, fun j fd h => ?_⟩
    obtain ⟨d, b, hd⟩ := hs.outs j fd h
    exact ⟨d, b, FdTable.get_openFd _ hd⟩
  · exact hs

/-- The data that is read leaves the descriptors in order, whatever it is. -/
theorem aplogdIoReadData_sound {d : Reads} {slot : Slot} {s s' : State} (hs : s.fds.Sound)
    (h : aplogdIoReadData cfg d slot s = some s') : s'.fds.Sound := by
  cases slot with
  | vold =>
    obtain rfl := Option.some.inj h
    exact readVold_sound _ hs
  | log i =>
    cases i with
    | kernel =>
      obtain rfl := Option.some.inj h
      exact (readKernel_flushes _ s).run.sound hs
    | _ => exact (readLog_flushes h).run.sound hs

/-- A descriptor that a reload puts into the poll set is the one in the array, or was there
before. -/
theorem reloadPollSet_sound {s : State} (hs : s.fds.Sound) : (reloadPollSet s).fds.Sound := by
  refine ⟨hs.inputs, fun slot fd h => ?_, hs.outs⟩
  cases slot with
  | vold => exact hs.polls .vold fd h
  | log i =>
    simp only [reloadPollSet, State.fds] at h
    split_ifs at h
    rcases Option.or_eq_some_iff.mp h with h | ⟨-, h⟩
    · exact hs.inputs (.log i) fd h
    · exact hs.polls (.log i) fd h

theorem configChanged_sound (r : SwitchRes) {s : State} (hs : s.fds.Sound) :
    (configChanged cfg r s).fds.Sound := by
  refine reloadPollSet_sound (s := aplogdConfigLoad cfg _) ?_
  show (State.fds (if _ then _ else _)).Sound
  split_ifs
  · exact hs
  · exact switchStorage_sound r _ _ hs

/-- A slot without an error is skipped or read. -/
theorem aplogdIoHandlePoll_cases {d : Reads} {rev : Revents} {slot : Slot} {s s' : State}
    (herr : rev.pollerr = false) (hhup : rev.pollhup = false)
    (h : aplogdIoHandlePoll cfg d rev slot s = some s') :
    (s' = s ∧ ¬ ((s.pollFd slot).isSome ∧ rev.pollin = true)) ∨
      ((s.pollFd slot).isSome ∧ rev.pollin = true ∧ aplogdIoReadData cfg d slot s = some s') := by
  unfold aplogdIoHandlePoll at h
  simp only [herr, hhup, Bool.or_false, Bool.false_eq_true, if_false, Option.map_id'] at h
  split_ifs at h with hfd hin
  · exact .inl ⟨(Option.some.inj h).symm, fun hready => by simp [Option.isNone_iff_eq_none.mp hfd] at hready⟩
  · exact .inr ⟨by simpa [Option.isSome_iff_ne_none] using hfd, hin, h⟩
  · exact .inl ⟨(Option.some.inj h).symm, fun hready => hin hready.2⟩

/-- Invariant rule for the loop over the slots; `P` may depend on the slots that are left. -/
theorem handleSlots_inv {rev : Slot → Revents} {d : Reads} {P : List Slot → State → Prop}
    (hstep : ∀ slot L s s', P (slot :: L) s → aplogdIoHandlePoll cfg d (rev slot) slot s = some s' →
      P L s') :
    ∀ (L : List Slot) (s s' : State), P L s → handleSlots cfg rev d L s = some s' → P [] s'
  | [], s, s', hP, h => by
    obtain rfl := Option.some.inj h
    exact hP
  | slot :: L, s, s', hP, h => by
    obtain ⟨s₁, h₁, h₂⟩ := Option.bind_eq_some_iff.mp h
    exact handleSlots_inv hstep L s₁ s' (hstep slot L s s₁ hP h₁) h₂

/-- What follows a call of `poll`: a flush, nothing, or the loop over the slots. -/
theorem handlePollRes_cases {p : PollRes} {s s' : State} (h : handlePollRes cfg p s = some s') :
    (∃ r, p = .timeout r ∧ s' = flushAll cfg r s) ∨ (p = .failed ∧ s' = s) ∨
      ∃ rev d, p = .ready rev d ∧ handleSlots cfg rev d Slot.all s = some s' := by
  cases p with
  | timeout r =>
    unfold handlePollRes at h
    split_ifs at h
    exact .inl ⟨r, rfl, (Option.some.inj h).symm⟩
  | failed => exact .inr (.inl ⟨rfl, (Option.some.inj h).symm⟩)
  | ready rev d => exact .inr (.inr ⟨rev, d, rfl, h⟩)

/-- Rule for an iteration: the reload, the call of `poll`, and the connection to vold. -/
theorem aplogdLogIo_rule {P : State → Prop} {it : Iter} {s s' : State} (hs : P s)
    (hreload : ∀ r, it.reload = some r → P (configChanged cfg r s))
    (hpoll : P (reloadConfig cfg it s) →
      ∀ s₁, handlePollRes cfg it.poll (reloadConfig cfg it s) = some s₁ → P s₁)
    (hconnect : ∀ s, P s → P (openInput .vold it.connect s))
    (h : aplogdLogIo cfg s it = some s') : P s' := by
  obtain ⟨s₁, h₁, rfl⟩ := Option.map_eq_some_iff.mp h
  have h₀ : P (reloadConfig cfg it s) := by
    unfold reloadConfig
    split
    · next r hr => exact hreload r hr
    · exact hs
  unfold connectVold
  split_ifs
  · exact hconnect s₁ (hpoll h₀ s₁ h₁)
  · exact hpoll h₀ s₁ h₁

end Runs

/-! ## Open descriptors -/

/-- No slot is reported with `POLLERR` or `POLLHUP`. -/
def PollRes.NoHangup : PollRes → Prop
  | .ready rev _ => ∀ slot, (rev slot).pollerr = false ∧ (rev slot).pollhup = false
  | _ => True

variable {cfg : Config}

theorem handlePollRes_sound {p : PollRes} (hp : p.NoHangup) {s s' : State} (hs : s.fds.Sound)
    (h : handlePollRes cfg p s = some s') : s'.fds.Sound := by
  obtain ⟨r, rfl, rfl⟩ | ⟨rfl, rfl⟩ | ⟨rev, d, rfl, h⟩ := handlePollRes_cases h
  · exact (flushAll_flushes r s).run.sound hs
  · exact hs
  · refine handleSlots_inv (P := fun _ s => s.fds.Sound) (fun slot L s s' hs h => ?_) _ s s' hs h
    rcases aplogdIoHandlePoll_cases (hp slot).1 (hp slot).2 h with ⟨rfl, -⟩ | ⟨-, -, h⟩
    · exact hs
    · exact aplogdIoReadData_sound hs h

theorem aplogdLogIo_sound {it : Iter} (hp : it.poll.NoHangup) {s s' : State} (hs : s.fds.Sound)
    (h : aplogdLogIo cfg s it = some s') : s'.fds.Sound := by
  refine aplogdLogIo_rule (P := fun s => s.fds.Sound) hs
    (fun r _ => configChanged_sound r hs) ?_ ?_ h
  · intro hreload s₁ h₁
    exact handlePollRes_sound hp hreload h₁
  · intro s₁ h₁
    exact openInput_sound .vold it.connect h₁

theorem aplogdInputSetup_inv {P : State → Prop}
    (hinput : ∀ slot ok s, P s → P (openInput slot ok s)) (r : BootRes) {s : State} (hs : P s) :
    P (aplogdInputSetup r s) := by
  refine hinput .vold r.vold _ (List.foldlRecOn Stream.all (fun (s : State) i =>
    if s.collectFlag i && (s.inputFd (.log i)).isNone then openInput (.log i) (r.inputs i) s else s)
    (motive := P) hs fun s' h i _ => ?_)
  split_ifs
  · exact hinput _ _ _ h
  · exact h

/-- Invariant rule for the start. -/
theorem aplogdIoBootFinish_inv {P : State → Prop} {r : BootRes}
    (hsave : ∀ r st s, P s → P (aplogdLogSave cfg r st s))
    (hsetup : ∀ r st s, P s → P (aplogdOutputSetup cfg r st s))
    (hload : ∀ s, P s → P (aplogdConfigLoad cfg s)) (hset : ∀ st s, P s → P (setStorage st s))
    (hinput : ∀ slot ok s, P s → P (openInput slot ok s)) {s s' : State} (hs : P s)
    (h : aplogdIoBootFinish cfg r s = some s') : P s' := by
  obtain ⟨h, -⟩ := Option.filter_eq_some_iff.mp h
  obtain ⟨s₃, h₃, rfl⟩ := Option.map_eq_some_iff.mp h
  have h₀ := hload _ (hsave r.saveUserdata .userdata _ (hsave r.saveSecondary .secondary s hs))
  set s₀ := aplogdConfigLoad cfg (aplogdLogSave cfg r.saveUserdata .userdata
    (aplogdLogSave cfg r.saveSecondary .secondary s))
  have h₁ : P (bootSecondary cfg r s₀) := by
    unfold bootSecondary
    split_ifs
    · exact h₀
    · exact hset _ _ h₀
    · exact hsetup _ _ _ (hsave _ _ _ h₀)
    · exact hset _ _ (hsetup _ _ _ (hsave _ _ _ h₀))
  have h₂ : P (bootExternal cfg r (bootSecondary cfg r s₀)) := by
    unfold bootExternal
    split_ifs
    · exact h₁
    · exact hsetup _ _ _ (hsave _ _ _ h₁)
    · exact hset _ _ (hsetup _ _ _ (hsave _ _ _ h₁))
  have h₃' : P s₃ := by
    unfold bootUserdata at h₃
    split_ifs at h₃
    · obtain rfl := Option.some.inj h₃
      exact h₂
    · obtain rfl := Option.some.inj h₃
      exact hsetup _ _ _ h₂
  exact aplogdInputSetup_inv hinput r h₃'

theorem aplogdIoBootFinish_sound {r : BootRes} {s s' : State} (hs : s.fds.Sound)
    (h : aplogdIoBootFinish cfg r s = some s') : s'.fds.Sound :=
  aplogdIoBootFinish_inv (P := fun s => s.fds.Sound) (fun r st _ hs => aplogdLogSave_sound r st hs)
    (fun r st s hs => (aplogdOutputSetup_outs r st s).run.sound hs) (fun _ hs => hs)
    (fun _ _ hs => hs)
    (fun slot ok _ hs => openInput_sound slot ok hs) hs h

theorem start_sound (kern : FdTable Desc) (files : CStr → FileMap LogFile Bytes) :
    (State.start kern files).fds.Sound :=
  ⟨nofun, nofun, nofun⟩

/-- **The descriptor table.**  In a run in which `poll` reports no `POLLERR` and no `POLLHUP`, every
input descriptor in `aplogd_io_array` and in the poll set is open, and refers to the input of its
slot. -/
theorem descriptors_open (cfg : Config) (r : BootRes) (kern : FdTable Desc)
    (files : CStr → FileMap LogFile Bytes) (its : List Iter) (s₀ s : State)
    (hboot : aplogdIoBootFinish cfg r (.start kern files) = some s₀)
    (hrun : Machine.exec (aplogdLogIo cfg) s₀ its = some s) (hp : ∀ it ∈ its, it.poll.NoHangup)
    (slot : Slot) (fd : ℕ) :
    (s.inputFd slot = some fd → s.kern.get fd = some (.input slot)) ∧
    (s.pollFd slot = some fd → s.kern.get fd = some (.input slot)) := by
  have hs : s.fds.Sound :=
    Machine.exec_inv_along (C := fun _ it => it.poll.NoHangup) (P := fun s => s.fds.Sound)
      (fun s it s' hs hit h => aplogdLogIo_sound hit hs h) its s₀ s
      (aplogdIoBootFinish_sound (start_sound kern files) hboot)
      (Machine.along_of_forall its s₀ fun it hit _ => hp it hit) hrun
  exact ⟨hs.inputs slot fd, hs.polls slot fd⟩

/-! ### A run with hang-ups -/

def SetupRes.ok : SetupRes := ⟨true, fun _ => true⟩

def SetupRes.noAccess : SetupRes := ⟨false, fun _ => false⟩

def SaveRes.noAccess : SaveRes := ⟨false, fun _ => false, fun _ => false⟩

def SwitchRes.ok : SwitchRes := ⟨.ok, .ok⟩

/-- The default configuration on a device with two cards. -/
def cardConfig : Config where
  storagePath
    | .userdata => some "/data".toList
    | .external => some "/storage/sdcard0".toList
    | .secondary => some "/storage/sdcard1".toList
  usrCfgCollect := "mrsek".toList
  usrCfgSize := 50
  usrCfgSeq := true
  usrCfgExt := true

/-- A start in which everything works; `writable` says whether the secondary card is there. -/
def bootOk (writable : Bool) : BootRes where
  saveSecondary := .noAccess
  saveUserdata := .noAccess
  writable := writable
  saveSecondary2 := .noAccess
  setupSecondary := .ok
  saveExternal := .noAccess
  setupExternal := .ok
  setupUserdata := .ok
  inputs _ := true
  vold := true

def stdio : FdTable Desc := ⟨[(0, .other), (1, .other), (2, .other)]⟩

def noReads : Reads where
  log _ := (0, [])
  kernel := []
  vold := ⟨[], ⟨.noAccess, fun _ => .ok, .ok⟩, .ok, .ok, ⟨.noAccess, fun _ => .ok, .ok⟩, .ok⟩

/-- An iteration in which `poll` reports the slot `slot`, with nothing to read. -/
def readyIter (reload : Option SwitchRes) (slot : Slot) (rev : Revents) : Iter where
  reload := reload
  poll := .ready (fun k => if k = slot then rev else ⟨false, false, false⟩) noReads
  connect := true

/-- An error on the radio log and a hang-up of vold, then a configuration reload. -/
def hangupRun : List Iter :=
  [readyIter none (.log .radio) ⟨false, true, false⟩, readyIter none .vold ⟨true, false, true⟩,
    readyIter (some .ok) .vold ⟨false, false, false⟩]

/-- The array keeps both descriptors, which are closed; the reload puts one of them back into the
poll set, and vold is never connected again. -/
theorem hangupRun_closed :
    ∃ s₀ s, aplogdIoBootFinish cardConfig (bootOk true) (.start stdio fun _ _ => none) = some s₀ ∧
      Machine.exec (aplogdLogIo cardConfig) s₀ hangupRun = some s ∧
      s.inputFd .vold = some 13 ∧ s.kern.get 13 = none ∧
      s.pollFd (.log .radio) = some 9 ∧ s.kern.get 9 = none :=
  ⟨_, _, rfl, rfl, by decide, by decide, by decide, by decide⟩

/-- The run with a reload and nothing else keeps them open. -/
theorem descriptors_open_reload :
    ∃ s₀ s, aplogdIoBootFinish cardConfig (bootOk true) (.start stdio fun _ _ => none) = some s₀ ∧
      Machine.exec (aplogdLogIo cardConfig) s₀
        [readyIter (some .ok) .vold ⟨true, false, false⟩] = some s ∧
      (s.inputFd .vold = some 13 → s.kern.get 13 = some (.input .vold)) :=
  ⟨_, _, rfl, rfl, (descriptors_open cardConfig (bootOk true) stdio (fun _ _ => none)
    [readyIter (some .ok) .vold ⟨true, false, false⟩] _ _ rfl rfl
    (fun it hit => by
      rw [List.mem_singleton.mp hit]
      intro slot
      dsimp only
      split_ifs <;> exact ⟨rfl, rfl⟩) .vold 13).1⟩

end Omap4.Aplogd
