import Omap4.Aplogd.Agreement

/-!
# Omap4.Aplogd.Lossless — no log entry is lost, duplicated or reordered

For every stream, what its rotations took over, followed by its output file, followed by its RAM
buffer, is what the stream accepted (`nothing_lost`): in every run without a switch of the storage
in which the writes are complete, the setups succeed and no formatted entry is longer than
`aplogd_output_buffering`.

The five buffers of 8192 bytes share one counter, `unwritten_bytes`, and all of them are flushed
when it reaches 4096.  The invariant (`Inv`) is that no buffer holds more than the counter says and
the counter is below 4096 between two reads; so a buffer always has room for 4096 more bytes.  A
rotation in the middle of a flush closes and reopens all outputs; it keeps the law
(`rotateOutputs_law`) and the buffers of the streams that are still to be flushed.
-/

namespace Omap4.Aplogd

variable {cfg : Config}

/-- The bytes of the current output file of a stream. -/
def State.outputBytes (cfg : Config) (s : State) (i : Stream) : Bytes :=
  (s.files (cfg.outputPath s.currentStorage) (.output i)).getD []

/-- The fields about buffered and accepted bytes. -/
structure Logs where
  inputBuf : Stream → Bytes
  accepted : Stream → Bytes
  handed : Stream → Bytes
  noSpace : Bool
  unwrittenBytes : ℕ

def State.logs (s : State) : Logs := ⟨s.inputBuf, s.accepted, s.handed, s.noSpace, s.unwrittenBytes⟩

/-! ## Setup of the outputs -/

theorem openOutput_logs (dir : CStr) (ok : Bool) (i : Stream) (s : State) :
    (openOutput dir ok i s).logs = s.logs := by
  unfold openOutput
  split_ifs <;> rfl

theorem aplogdOutputSetup_logs (r : SetupRes) (st : Storage) (s : State) :
    (aplogdOutputSetup cfg r st s).logs = s.logs := by
  unfold aplogdOutputSetup
  split_ifs
  · exact List.foldlRecOn Stream.all _ (motive := fun s' => s'.logs = s.logs) rfl
      fun s' h i _ => (openOutput_logs _ _ i s').trans h
  · rfl

/-- Opening an output creates the file if need be and changes the content of none. -/
theorem openOutput_files (dir dir' : CStr) (ok : Bool) (i : Stream) (f : LogFile) (s : State) :
    ((openOutput dir ok i s).files dir' f).getD [] = (s.files dir' f).getD [] := by
  unfold openOutput
  split_ifs
  · by_cases hd : dir' = dir
    · subst hd
      by_cases hf : f = .output i
      · simp [hf]
      · simp [Function.update_of_ne hf]
    · simp [Function.update_of_ne hd]
  · rfl

theorem aplogdOutputSetup_files (r : SetupRes) (st : Storage) (s : State) (dir : CStr)
    (f : LogFile) :
    ((aplogdOutputSetup cfg r st s).files dir f).getD [] = (s.files dir f).getD [] := by
  unfold aplogdOutputSetup
  split_ifs
  · exact List.foldlRecOn Stream.all _
      (motive := fun s' => (s'.files dir f).getD [] = (s.files dir f).getD []) rfl
      fun s' h i _ => (openOutput_files _ dir _ i f s').trans h
  · rfl

/-- A setup that succeeds leaves every output open. -/
theorem aplogdOutputSetup_isSome {r : SetupRes} (h : r.succeeds = true) (st : Storage) (s : State)
    (i : Stream) : ((aplogdOutputSetup cfg r st s).outputFd i).isSome = true := by
  obtain ⟨hacc, hopens⟩ := Bool.and_eq_true_iff.mp h
  have key : ∀ (L : List Stream) (s : State), (i ∈ L ∨ (s.outputFd i).isSome = true) →
      ((L.foldl (fun s k => openOutput (cfg.outputPath st) (r.opens k) k s) s).outputFd i).isSome =
        true := by
    intro L
    induction L with
    | nil => exact fun s hs => by simpa using hs
    | cons k L ih =>
      intro s hs
      refine ih _ ?_
      by_cases hik : i = k
      · subst hik
        exact .inr (by simp [openOutput, List.all_eq_true.mp hopens i i.mem_all])
      · refine hs.imp (fun hL => by simpa [hik] using hL) fun hs => ?_
        rw [openOutput_outputFd_of_ne hik]
        exact hs
  unfold aplogdOutputSetup
  rw [if_pos hacc]
  exact key _ s (.inl i.mem_all)

/-! ## Flushing -/

/-- The outputs are open and nothing is lost. -/
structure Kept (cfg : Config) (init : Stream → Bytes) (s : State) : Prop where
  noSpace : s.noSpace = false
  isOpen : ∀ i, (s.outputFd i).isSome = true
  agree : s.Agree cfg
  law : ∀ i, s.handed i ++ s.outputBytes cfg i ++ s.inputBuf i = init i ++ s.accepted i

/-- Every write is complete and every setup succeeds. -/
def OutRes.Complete (r : OutRes) : Prop := r.writes = [] ∧ r.setup.succeeds = true

/-- Whatever its calls return, a rotation takes over what it removes from an output. -/
theorem backupOutputs_law (r : OutRes) (s : State) (i : Stream) :
    (backupOutputs cfg r s).handed i ++ (backupOutputs cfg r s).outputBytes cfg i =
      s.handed i ++ s.outputBytes cfg i := by
  have hfile : (backupOutputs cfg r s).outputBytes cfg i =
      ((backedUp cfg r s).2 (.output i)).getD [] := by
    simp [State.outputBytes, backupOutputs]
  rw [hfile]
  simp only [backupOutputs, State.outputBytes]
  rcases backupall_output r.backup (s.backupCount, s.files (cfg.outputPath s.currentStorage))
    i with h | h
  · simp [backedUp, h]
  · cases hf : s.files (cfg.outputPath s.currentStorage) (.output i) with
    | none => simp [backedUp, h, hf]
    | some b => simp [backedUp, h, hf]

variable (cfg) in
theorem rotateOutputs_logs (r : OutRes) (s : State) :
    (rotateOutputs cfg r s).logs = (backupOutputs cfg r (aplogdCloseOutput s)).logs :=
  aplogdOutputSetup_logs r.setup s.currentStorage _

theorem rotateOutputs_inputBuf (r : OutRes) (s : State) :
    (rotateOutputs cfg r s).inputBuf = s.inputBuf :=
  congrArg Logs.inputBuf (rotateOutputs_logs cfg r s)

theorem rotateOutputs_law (r : OutRes) (s : State) (i : Stream) :
    (rotateOutputs cfg r s).handed i ++ (rotateOutputs cfg r s).outputBytes cfg i =
      s.handed i ++ s.outputBytes cfg i := by
  have hfile : (rotateOutputs cfg r s).outputBytes cfg i =
      (backupOutputs cfg r (aplogdCloseOutput s)).outputBytes cfg i := by
    unfold State.outputBytes
    rw [(rotateOutputs_flushes r s).storage]
    exact aplogdOutputSetup_files r.setup s.currentStorage _ _ _
  have hhanded : (rotateOutputs cfg r s).handed =
      (backupOutputs cfg r (aplogdCloseOutput s)).handed :=
    congrArg Logs.handed (rotateOutputs_logs cfg r s)
  rw [hfile, hhanded, backupOutputs_law]
  rfl

theorem rotateOutputs_kept {init : Stream → Bytes} {r : OutRes} {s : State} (hr : r.Complete)
    (h : Kept cfg init s) : Kept cfg init (rotateOutputs cfg r s) := by
  have hlogs := rotateOutputs_logs cfg r s
  refine ⟨(congrArg Logs.noSpace hlogs).trans h.noSpace, aplogdOutputSetup_isSome hr.2 _ _,
    (rotateOutputs_flushes r s).agree h.agree, fun i => ?_⟩
  have hacc : (rotateOutputs cfg r s).accepted = s.accepted := congrArg Logs.accepted hlogs
  rw [rotateOutputs_law, rotateOutputs_inputBuf, hacc]
  exact h.law i

/-- A complete write of a buffer moves it to the end of the output file. -/
theorem writeBuf_kept {init : Stream → Bytes} {s : State} {i : Stream} {fd : ℕ}
    (hfd : s.outputFd i = some fd) (h : Kept cfg init s) :
    Kept cfg init (clearBuf i (writeFd fd (s.inputBuf i) s)) := by
  refine ⟨h.noSpace, h.isOpen, h.agree, fun j => ?_⟩
  have hget : s.kern.get fd = some (.file (cfg.outputPath s.currentStorage) i true) :=
    h.agree i fd hfd
  have hlaw := h.law j
  simp only [State.outputBytes] at hlaw
  simp only [clearBuf, writeFd, State.outputBytes, hget, appendTo, Function.update_self]
  by_cases hji : j = i
  · subst hji
    simpa using hlaw
  · rw [Function.update_of_ne (by simpa using hji), Function.update_of_ne hji]
    exact hlaw

/-- **Flushing one stream** empties its buffer, and only that. -/
theorem aplogdRambufOutput_kept {init : Stream → Bytes} {r : OutRes} (hr : r.Complete) {i : Stream}
    {s : State} (h : Kept cfg init s) :
    Kept cfg init (aplogdRambufOutput cfg r i s) ∧
      (aplogdRambufOutput cfg r i s).inputBuf = Function.update s.inputBuf i [] := by
  unfold aplogdRambufOutput
  split_ifs with hbuf
  · exact ⟨h, by rw [← hbuf, Function.update_eq_self]⟩
  · obtain ⟨fd, hfd⟩ := Option.isSome_iff_exists.mp (h.isOpen i)
    have hwrite : writeLoop fd i r.writes (s.inputBuf i).length s =
        (true, writeFd fd (s.inputBuf i) s) := by
      rw [hr.1, writeLoop, if_neg (by simpa using hbuf), List.take_length]
    have hk := writeBuf_kept hfd h
    rw [hfd]
    simp only [hwrite, afterWrites]
    split_ifs
    · exact ⟨rotateOutputs_kept hr hk, rotateOutputs_inputBuf r _⟩
    · exact ⟨hk, rfl⟩

/-- A flush with complete outcomes keeps everything and empties all buffers. -/
theorem aplogdRambufOutputall_kept {init : Stream → Bytes} {r : FlushRes} (hr : ∀ i, (r i).Complete)
    {s : State} (h : Kept cfg init s) :
    Kept cfg init (aplogdRambufOutputall cfg r s) ∧
      ∀ i, (aplogdRambufOutputall cfg r s).inputBuf i = [] := by
  have key : ∀ (L : List Stream) (s : State), Kept cfg init s →
      Kept cfg init (L.foldl (fun s i => aplogdRambufOutput cfg (r i) i s) s) ∧
        ∀ j, (j ∈ L ∨ s.inputBuf j = []) →
          (L.foldl (fun s i => aplogdRambufOutput cfg (r i) i s) s).inputBuf j = [] := by
    intro L
    induction L with
    | nil => exact fun s h => ⟨h, fun j hj => by simpa using hj⟩
    | cons i L ih =>
      intro s h
      obtain ⟨hk, hbuf⟩ := aplogdRambufOutput_kept (hr i) (i := i) h
      refine (ih _ hk).imp_right fun hL j hj => hL j ?_
      rw [hbuf]
      by_cases hji : j = i
      · subst hji
        exact .inr (Function.update_self _ _ _)
      · rw [Function.update_of_ne hji]
        exact hj.imp_left fun hj => by simpa [hji] using hj
  exact (key _ s h).imp_right fun hL i => hL i (.inl i.mem_all)

/-! ## Reading -/

/-- **The invariant**: the counter is below the threshold, and no buffer holds more than it says. -/
structure Inv (cfg : Config) (init : Stream → Bytes) (s : State) : Prop where
  kept : Kept cfg init s
  unwritten : s.unwrittenBytes < aplogdOutputBuffering
  buf : ∀ i, (s.inputBuf i).length ≤ s.unwrittenBytes

section Reading

variable {init : Stream → Bytes} {s : State}

theorem flushAll_inv {r : FlushRes} (hr : ∀ i, (r i).Complete) (h : Kept cfg init s) :
    Inv cfg init (flushAll cfg r s) := by
  obtain ⟨hk, hbuf⟩ := aplogdRambufOutputall_kept hr h
  refine ⟨⟨hk.noSpace, hk.isOpen, hk.agree, hk.law⟩, (by decide : 0 < aplogdOutputBuffering),
    fun i => ?_⟩
  show (State.inputBuf (aplogdRambufOutputall cfg r s) i).length ≤ 0
  rw [hbuf i, List.length_nil]

theorem countUnwritten_inv {r : FlushRes} (hr : ∀ i, (r i).Complete) {ret : ℕ} (h : Kept cfg init s)
    (hbuf : ∀ i, (s.inputBuf i).length ≤ s.unwrittenBytes + ret) :
    Inv cfg init (countUnwritten cfg r ret s) := by
  unfold countUnwritten
  split_ifs with hlim
  · exact flushAll_inv hr h
  · exact ⟨⟨h.noSpace, h.isOpen, h.agree, h.law⟩, not_le.mp hlim, hbuf⟩

theorem bufferBytes_kept (i : Stream) (b : Bytes) (h : Kept cfg init s) :
    Kept cfg init (bufferBytes i b (acceptBytes i b s)) := by
  refine ⟨h.noSpace, h.isOpen, h.agree, fun j => ?_⟩
  have hlaw := h.law j
  simp only [State.outputBytes] at hlaw
  simp only [bufferBytes, acceptBytes, State.outputBytes]
  by_cases hji : j = i
  · subst hji
    simp only [Function.update_self]
    rw [← List.append_assoc, hlaw, List.append_assoc]
  · rw [Function.update_of_ne hji, Function.update_of_ne hji]
    exact hlaw

theorem bufferBytes_buf (h : Inv cfg init s) (i : Stream) (b : Bytes) (j : Stream) :
    ((bufferBytes i b (acceptBytes i b s)).inputBuf j).length ≤ s.unwrittenBytes + b.length := by
  have hj := h.buf j
  by_cases hji : j = i
  · subst hji
    simp only [bufferBytes, acceptBytes, Function.update_self, List.length_append]
    omega
  · simp only [bufferBytes, acceptBytes, Function.update_of_ne hji]
    omega

/-- Between two reads a buffer has room for what the threshold allows. -/
theorem Inv.space (h : Inv cfg init s) (i : Stream) :
    aplogdRambufSpace i s = 8192 - ((s.inputBuf i).length : ℤ) ∧ (s.inputBuf i).length < 4096 := by
  have hbuf := h.buf i
  have hlim : s.unwrittenBytes < 4096 := h.unwritten
  refine ⟨?_, by omega⟩
  unfold aplogdRambufSpace aplogdRamBuffSize
  rw [if_neg (by omega)]
  rfl

/-- The entries read from a logger device are short enough, and the flushes complete. -/
def LogReadsFit (rs : List (LogRead × FlushRes)) : Prop :=
  ∀ x ∈ rs, (∀ b, x.1 = .entry (.line b) → b.length ≤ 4096) ∧ ∀ i, (x.2 i).Complete

theorem logfilterAndBuffering_line (h : Inv cfg init s) (i : Stream) {b : Bytes}
    (hb : b.length ≤ 4096) :
    logfilterAndBuffering i (.line b) s = (some b.length, bufferBytes i b (acceptBytes i b s)) := by
  obtain ⟨hsp, hlen⟩ := h.space i
  unfold logfilterAndBuffering
  rw [hsp]
  simp only
  rw [if_pos (by omega)]

/-- An entry that fits is buffered, a filtered one is skipped; the third outcome changes nothing. -/
theorem logfilterAndBuffering_cases (h : Inv cfg init s) (i : Stream) (e : LogEntry)
    (he : ∀ b, e = .line b → b.length ≤ 4096) :
    (∃ b, logfilterAndBuffering i e s = (some b.length, bufferBytes i b (acceptBytes i b s))) ∨
      logfilterAndBuffering i e s = (some 0, s) ∨ logfilterAndBuffering i e s = (none, s) := by
  cases e with
  | line b => exact .inl ⟨b, logfilterAndBuffering_line h i (he b rfl)⟩
  | filtered => exact .inr (.inl rfl)
  | formatFailed => exact .inr (.inr rfl)
  | unparsed => exact .inr (.inr rfl)

theorem readLog_inv {i : Stream} :
    ∀ {rs : List (LogRead × FlushRes)} {n : ℤ} {s s' : State}, LogReadsFit rs → Inv cfg init s →
      readLog cfg i rs n s = some s' → Inv cfg init s'
  | [], n, s, s', _, hs, h => by
    obtain rfl := Option.some.inj h
    exact hs
  | (r, fl) :: rs, n, s, s', hfit, hs, h => by
    obtain ⟨hline, hfl⟩ := hfit (r, fl) (by simp)
    have hrs : LogReadsFit rs := fun x hx => hfit x (by simp [hx])
    unfold readLog at h
    split_ifs at h
    · obtain rfl := Option.some.inj h
      exact hs
    · cases r with
      | eintr => exact readLog_inv hrs hs h
      | eagain =>
        obtain rfl := Option.some.inj h
        exact hs
      | fatal => cases h
      | entry e =>
        have hcases := logfilterAndBuffering_cases hs i e fun b hb => hline b (by rw [hb])
        cases e with
        | unparsed =>
          obtain rfl := Option.some.inj h
          exact hs
        | _ =>
          simp only at h
          rcases hcases with ⟨b, hb⟩ | hb | hb
          · rw [hb] at h
            exact readLog_inv hrs (countUnwritten_inv hfl (bufferBytes_kept i b hs.kept)
              (bufferBytes_buf hs i b)) h
          · rw [hb] at h
            exact readLog_inv hrs (countUnwritten_inv hfl hs.kept hs.buf) h
          · rw [hb] at h
            obtain rfl := Option.some.inj h
            exact hs

theorem readKernel_inv :
    ∀ {rs : List (KernelRead × FlushRes)} {s : State}, (∀ x ∈ rs, ∀ i, (x.2 i).Complete) →
      Inv cfg init s → Inv cfg init (readKernel cfg rs s)
  | [], s, _, hs => hs
  | (⟨b, hb⟩, fl) :: rs, s, hfl, hs => by
    obtain ⟨hsp, hlen⟩ := hs.space .kernel
    unfold readKernel
    split_ifs with h0 hspace
    · exact hs
    · exact readKernel_inv (fun x hx => hfl x (by simp [hx])) (countUnwritten_inv
        (hfl (⟨b, hb⟩, fl) (by simp)) (bufferBytes_kept .kernel b hs.kept)
        (bufferBytes_buf hs .kernel b))
    · rw [hsp] at hspace
      exact absurd ⟨by omega, by omega, hb⟩ hspace

end Reading

/-! ## Runs -/

/-- A message from vold that is about no storage. -/
def VoldRes.Idle (cfg : Config) (r : VoldRes) : Prop :=
  ∀ st : Storage, isTransToMounted cfg st r.msg = false ∧ isTransToUnmounted cfg st r.msg = false ∧
    isBadRemoval cfg st r.msg = false

theorem readVold_idle {r : VoldRes} (h : r.Idle cfg) (s : State) : readVold cfg r s = s := by
  simp [readVold, secondaryMounted, secondaryUnmounted, externalMounted, externalUnmounted,
    h .secondary, h .external]

/-- The results of `poll` in question: flushes are complete, entries fit, there is no hang-up and
vold has nothing to say about the storages. -/
def PollRes.Plain (cfg : Config) : PollRes → Prop
  | .timeout r => ∀ i, (r i).Complete
  | .failed => True
  | .ready rev d => (∀ slot, (rev slot).pollerr = false ∧ (rev slot).pollhup = false) ∧
      (∀ i, LogReadsFit (d.log i).2) ∧ (∀ x ∈ d.kernel, ∀ i, (x.2 i).Complete) ∧
      ((rev .vold).pollin = true → d.vold.Idle cfg)

/-- An iteration in which the storage is not switched. -/
structure Unswitched (cfg : Config) (s : State) (it : Iter) : Prop where
  reload : it.reload ≠ none → s.currentStorage = aplogdCalcStoragePref cfg
  plain : it.poll.Plain cfg

section Run

variable {init : Stream → Bytes} {s s' : State}

theorem aplogdIoReadData_inv {d : Reads} {slot : Slot} (hlog : ∀ i, LogReadsFit (d.log i).2)
    (hkernel : ∀ x ∈ d.kernel, ∀ i, (x.2 i).Complete) (hvold : slot = .vold → d.vold.Idle cfg)
    (hs : Inv cfg init s) (h : aplogdIoReadData cfg d slot s = some s') : Inv cfg init s' := by
  cases slot with
  | vold =>
    obtain rfl := Option.some.inj h
    rw [readVold_idle (hvold rfl)]
    exact hs
  | log i =>
    cases i with
    | kernel =>
      obtain rfl := Option.some.inj h
      exact readKernel_inv hkernel hs
    | _ => exact readLog_inv (hlog _) hs h

theorem handlePollRes_inv {p : PollRes} (hp : p.Plain cfg) (hs : Inv cfg init s)
    (h : handlePollRes cfg p s = some s') : Inv cfg init s' := by
  obtain ⟨r, rfl, rfl⟩ | ⟨rfl, rfl⟩ | ⟨rev, d, rfl, h⟩ := handlePollRes_cases h
  · exact flushAll_inv hp hs.kept
  · exact hs
  · obtain ⟨hrev, hlog, hkernel, hvold⟩ := hp
    refine handleSlots_inv (P := fun _ s => Inv cfg init s) (fun slot L s s' hs h => ?_) _ s s' hs h
    rcases aplogdIoHandlePoll_cases (hrev slot).1 (hrev slot).2 h with ⟨rfl, -⟩ | ⟨-, hin, h⟩
    · exact hs
    · exact aplogdIoReadData_inv hlog hkernel (fun hslot => hvold (by rw [← hslot]; exact hin)) hs h

/-- A reload that does not switch the storage touches neither buffers nor outputs. -/
theorem configChanged_inv (r : SwitchRes) (hs : Inv cfg init s)
    (h : s.currentStorage = aplogdCalcStoragePref cfg) : Inv cfg init (configChanged cfg r s) := by
  have hk := hs.kept
  simp only [configChanged, if_pos h]
  refine ⟨⟨hk.noSpace, hk.isOpen, ?_, ?_⟩, hs.unwritten, hs.buf⟩
  · have hagree := hk.agree
    unfold State.Agree at hagree
    rw [h] at hagree
    exact hagree
  · intro i
    have hlaw := hk.law i
    unfold State.outputBytes at hlaw
    rw [h] at hlaw
    exact hlaw

theorem openInput_inv (slot : Slot) (ok : Bool) (hs : Inv cfg init s) :
    Inv cfg init (openInput slot ok s) := by
  have hagree := openInput_agree slot ok hs.kept.agree
  unfold openInput at hagree ⊢
  split_ifs at hagree ⊢
  · exact ⟨⟨hs.kept.noSpace, hs.kept.isOpen, hagree, hs.kept.law⟩, hs.unwritten, hs.buf⟩
  · exact hs

theorem aplogdLogIo_inv {it : Iter} (hs : Inv cfg init s) (hit : Unswitched cfg s it)
    (h : aplogdLogIo cfg s it = some s') : Inv cfg init s' := by
  refine aplogdLogIo_rule (P := Inv cfg init) hs ?_ ?_ ?_ h
  · intro r hr
    exact configChanged_inv r hs (hit.reload (by simp [hr]))
  · intro hreload s₁ h₁
    exact handlePollRes_inv hit.plain hreload h₁
  · intro s₁ h₁
    exact openInput_inv .vold it.connect h₁

theorem saveOutputs_logs (dir : CStr) (r : SaveRes) (s : State) :
    (saveOutputs dir r s).logs = s.logs := by
  refine List.foldlRecOn Stream.all (fun (s : State) i =>
    if (s.files dir (.output i)).isSome && r.gzip i then gzipOutput dir i s else s)
    (motive := fun s' => s'.logs = s.logs) rfl fun s' hs' i _ => ?_
  split_ifs
  · exact hs'
  · exact hs'

theorem aplogdLogSave_logs (r : SaveRes) (st : Storage) (s : State) :
    (aplogdLogSave cfg r st s).logs = s.logs := by
  have hcard : ∀ st, (saveCard cfg r st s).logs = s.logs := by
    intro st
    unfold saveCard
    split_ifs
    · rfl
    · rfl
    · exact saveOutputs_logs _ r s
  cases st with
  | userdata => exact saveOutputs_logs _ r s
  | external => exact hcard .external
  | secondary => exact hcard .secondary

theorem openInput_logs (slot : Slot) (ok : Bool) (s : State) :
    (openInput slot ok s).logs = s.logs := by
  unfold openInput
  split_ifs <;> rfl

theorem aplogdIoBootFinish_logs {r : BootRes} (h : aplogdIoBootFinish cfg r s = some s') :
    s'.logs = s.logs :=
  aplogdIoBootFinish_inv (P := fun s' => s'.logs = s.logs)
    (fun r st s hs => (aplogdLogSave_logs r st s).trans hs)
    (fun r st s hs => (aplogdOutputSetup_logs r st s).trans hs) (fun _ hs => hs) (fun _ _ hs => hs)
    (fun slot ok s hs => (openInput_logs slot ok s).trans hs) rfl h

/-- The daemon enters its loop with empty buffers and all outputs open. -/
theorem aplogdIoBootFinish_loopInv {r : BootRes} {kern : FdTable Desc}
    {files : CStr → FileMap LogFile Bytes}
    (h : aplogdIoBootFinish cfg r (.start kern files) = some s) :
    Inv cfg (s.outputBytes cfg) s := by
  have hlogs := aplogdIoBootFinish_logs h
  have hbuf : ∀ i, s.inputBuf i = [] := congrFun (congrArg Logs.inputBuf hlogs)
  have hacc : ∀ i, s.accepted i = [] := congrFun (congrArg Logs.accepted hlogs)
  have hhanded : ∀ i, s.handed i = [] := congrFun (congrArg Logs.handed hlogs)
  have hunwritten : s.unwrittenBytes = 0 := congrArg Logs.unwrittenBytes hlogs
  refine ⟨⟨congrArg Logs.noSpace hlogs, ?_, aplogdIoBootFinish_agree h, ?_⟩, ?_, ?_⟩
  · obtain ⟨r', s₁, hr', rfl⟩ := aplogdIoBootFinish_setup h
    refine aplogdInputSetup_inv (P := fun s => ∀ i, (s.outputFd i).isSome = true)
      (fun slot ok s hs i => ?_) r (aplogdOutputSetup_isSome hr' _ _)
    unfold openInput
    split_ifs <;> exact hs i
  · intro i
    rw [hbuf, hacc, hhanded]
    simp
  · rw [hunwritten]
    decide
  · intro i
    rw [hbuf]
    exact Nat.zero_le _

end Run

/-- **aplogd loses, duplicates and reorders nothing.**  In every run without a switch of the
storage, with complete writes, setups that succeed and formatted entries of at most 4096 bytes, the
branches for a full buffer are not taken, and for every stream the bytes its rotations took over,
its output file and its buffer are together what the output file held when the loop started and what
the stream accepted since. -/
theorem nothing_lost (cfg : Config) (r : BootRes) (kern : FdTable Desc)
    (files : CStr → FileMap LogFile Bytes) (its : List Iter) (s₀ s : State)
    (hboot : aplogdIoBootFinish cfg r (.start kern files) = some s₀)
    (hrun : Machine.exec (aplogdLogIo cfg) s₀ its = some s)
    (hC : Machine.Along (aplogdLogIo cfg) (Unswitched cfg) s₀ its) :
    s.noSpace = false ∧
    ∀ i, s.handed i ++ s.outputBytes cfg i ++ s.inputBuf i = s₀.outputBytes cfg i ++
    s.accepted i := by
  have hs : Inv cfg (s₀.outputBytes cfg) s :=
    Machine.exec_inv_along (fun s it s' hs hit h => aplogdLogIo_inv hs hit h) its s₀ s
      (aplogdIoBootFinish_loopInv hboot) hC hrun
  exact ⟨hs.kept.noSpace, hs.kept.law⟩

/-! ### A run with two entries and a flush -/

def OutRes.ok : OutRes := ⟨[], fun _ => .ok, .ok⟩

/-- The radio log has two entries and, between them, one that is filtered. -/
def radioIter : Iter where
  reload := none
  poll := .ready (fun k => ⟨k = .log .radio, false, false⟩)
    { noReads with log := fun _ => (3, [(.entry (.line [97, 98]), fun _ => .ok),
        (.entry .filtered, fun _ => .ok), (.entry (.line [99]), fun _ => .ok)]) }
  connect := true

def flushIter : Iter := ⟨none, .timeout fun _ => .ok, true⟩

theorem unswitched_radioIter (s : State) : Unswitched cfg s radioIter := by
  refine ⟨fun h => absurd rfl h, fun _ => ⟨rfl, rfl⟩, fun _ x hx => ?_, nofun, fun h => by cases h⟩
  simp only [List.mem_cons, List.not_mem_nil, or_false] at hx
  rcases hx with rfl | rfl | rfl
  · refine ⟨fun b hb => ?_, fun _ => ⟨rfl, rfl⟩⟩
    obtain rfl : [97, 98] = b := by simpa using hb
    decide
  · exact ⟨fun b hb => (by cases hb), fun _ => ⟨rfl, rfl⟩⟩
  · refine ⟨fun b hb => ?_, fun _ => ⟨rfl, rfl⟩⟩
    obtain rfl : [99] = b := by simpa using hb
    decide

theorem unswitched_flushIter (s : State) : Unswitched cfg s flushIter :=
  ⟨fun h => absurd rfl h, fun _ => ⟨rfl, rfl⟩⟩

theorem nothing_lost_radio :
    ∃ s₀ s, aplogdIoBootFinish cardConfig (bootOk true) (.start stdio fun _ _ => none) = some s₀ ∧
      Machine.exec (aplogdLogIo cardConfig) s₀ [radioIter, flushIter] = some s ∧
      s.accepted .radio = [97, 98, 99] ∧ s.inputBuf .radio = [] ∧
      s.handed .radio ++ s.outputBytes cardConfig .radio ++ s.inputBuf .radio =
        s₀.outputBytes cardConfig .radio ++ s.accepted .radio :=
  ⟨_, _, rfl, rfl, by decide, by decide, (nothing_lost cardConfig (bootOk true) stdio (fun _ _ => none)
    [radioIter, flushIter] _ _ rfl rfl ⟨unswitched_radioIter _, fun s _ =>
      ⟨unswitched_flushIter s, fun _ _ => trivial⟩⟩).2 .radio⟩

end Omap4.Aplogd
