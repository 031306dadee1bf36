import Omap4.Aplogd.Lossless

/-!
# Omap4.Aplogd.Accepted — what a stream accepts is what was read for it

`accepted` is not a variable of the daemon, and `nothing_lost` is about it.  Here it is computed
from what the run reads alone: `takenLog` and `takenKernel` are the bytes that one call of a read
loop takes up, and `takenRun` puts together those of all iterations in which `poll` reports the
stream (`accepted_eq_takenRun`).
-/

namespace Omap4.Aplogd

variable {cfg : Config} {init : Stream → Bytes} {s s' : State} {i : Stream}

/-! ## What a read loop takes up -/

/-- The formatted entries up to the read that ends the loop over a logger device: an error, an entry
that is not parsed or formatted, or the end of `readable_log_size`. -/
def takenLog : List (LogRead × FlushRes) → ℤ → Bytes
  | [], _ => []
  | (r, _) :: rs, readableLogSize =>
    if readableLogSize ≤ 0 then []
    else match r with
      | .eintr | .entry .filtered => takenLog rs readableLogSize
      | .entry (.line b) => b ++ takenLog rs (readableLogSize - b.length)
      | _ => []

/-- The reads from `/proc/kmsg` up to the first empty one. -/
def takenKernel : List (KernelRead × FlushRes) → Bytes
  | [] => []
  | (⟨b, _⟩, _) :: rs => if b.length = 0 then [] else b ++ takenKernel rs

/-- What the slot of the stream `i` has to read. -/
def Reads.taken (d : Reads) : Stream → Bytes
  | .kernel => takenKernel d.kernel
  | i => takenLog (d.log i).2 (d.log i).1

/-- What the stream `i` takes up in an iteration that starts in `s`. -/
def Iter.taken (cfg : Config) (s : State) (it : Iter) (i : Stream) : Bytes :=
  match it.poll with
  | .ready rev d =>
    if ((reloadConfig cfg it s).pollFd (.log i)).isSome ∧ (rev (.log i)).pollin = true then
      d.taken i else []
  | _ => []

/-- The iterations from `s` on, one after the other. -/
def takenRun (cfg : Config) : State → List Iter → Stream → Bytes
  | _, [], _ => []
  | s, it :: its, i =>
    it.taken cfg s i ++ (aplogdLogIo cfg s it).elim [] fun s' => takenRun cfg s' its i

/-! ## What a flush leaves alone -/

theorem OutRun.pollFd {dir : CStr} {t t' : Fds} (h : OutRun dir t t') : t'.pollFd = t.pollFd := by
  induction h with
  | refl => rfl
  | tail _ hstep ih => cases hstep <;> exact ih

theorem Outs.pollFd {dir : CStr} (h : Outs dir s s') : s'.pollFd = s.pollFd := h.run.pollFd

theorem writeLoop_accepted (fd : ℕ) (i : Stream) :
    ∀ (ws : List WriteRes) (need : ℕ) (s : State),
      (writeLoop fd i ws need s).2.accepted = s.accepted
  | [], need, s => by
    unfold writeLoop
    split_ifs <;> rfl
  | w :: ws, need, s => by
    unfold writeLoop
    split_ifs
    · rfl
    · cases w with
      | wrote n => exact writeLoop_accepted fd i ws _ _
      | enospc | ebadf | error => rfl

theorem aplogdRambufOutput_accepted (r : OutRes) (i : Stream) (s : State) :
    (aplogdRambufOutput cfg r i s).accepted = s.accepted := by
  unfold aplogdRambufOutput
  split_ifs
  · rfl
  · split
    · rfl
    · rename_i fd _
      have hloop := writeLoop_accepted fd i r.writes (s.inputBuf i).length s
      generalize writeLoop fd i r.writes (s.inputBuf i).length s = x at hloop ⊢
      obtain ⟨done, s'⟩ := x
      cases done with
      | false => exact hloop
      | true =>
        simp only [afterWrites]
        split_ifs
        · exact (congrArg Logs.accepted (rotateOutputs_logs cfg r (clearBuf i s'))).trans hloop
        · exact hloop

theorem flushAll_accepted (r : FlushRes) (s : State) : (flushAll cfg r s).accepted = s.accepted :=
  List.foldlRecOn Stream.all (fun s i => aplogdRambufOutput cfg (r i) i s)
    (motive := fun s' : State => s'.accepted = s.accepted) rfl
    fun s' h i _ => (aplogdRambufOutput_accepted (r i) i s').trans h

theorem countUnwritten_accepted (r : FlushRes) (ret : ℕ) (s : State) :
    (countUnwritten cfg r ret s).accepted = s.accepted := by
  unfold countUnwritten
  split_ifs
  · exact flushAll_accepted r s
  · rfl

/-! ## The read loops -/

theorem bufferBytes_accepted (i : Stream) (b : Bytes) (s : State) :
    (bufferBytes i b (acceptBytes i b s)).accepted =
      Function.update s.accepted i (s.accepted i ++ b) := rfl

/-- The bytes `b` and then the bytes `c`. -/
theorem update_append (f : Stream → Bytes) (i : Stream) (b c : Bytes) :
    Function.update (Function.update f i (f i ++ b)) i (Function.update f i (f i ++ b) i ++ c) =
      Function.update f i (f i ++ (b ++ c)) := by
  rw [Function.update_self, Function.update_idem, List.append_assoc]

theorem readLog_accepted {i : Stream} :
    ∀ {rs : List (LogRead × FlushRes)} {n : ℤ} {s s' : State}, LogReadsFit rs → Inv cfg init s →
      readLog cfg i rs n s = some s' →
      s'.accepted = Function.update s.accepted i (s.accepted i ++ takenLog rs n)
  | [], n, s, s', _, hs, h => by
    obtain rfl := Option.some.inj h
    simp [takenLog]
  | (r, fl) :: rs, n, s, s', hfit, hs, h => by
    obtain ⟨hline, hfl⟩ := hfit (r, fl) (by simp)
    have hrs : LogReadsFit rs := fun x hx => hfit x (by simp [hx])
    unfold readLog at h
    unfold takenLog
    split_ifs at h ⊢
    · obtain rfl := Option.some.inj h
      simp
    · cases r with
      | eintr => exact readLog_accepted hrs hs h
      | eagain =>
        obtain rfl := Option.some.inj h
        simp
      | fatal => cases h
      | entry e =>
        cases e with
        | unparsed | formatFailed =>
          obtain rfl := Option.some.inj h
          simp
        | filtered =>
          have hrest := readLog_accepted hrs (countUnwritten_inv hfl hs.kept hs.buf) h
          rw [countUnwritten_accepted] at hrest
          simpa using hrest
        | line b =>
          simp only [logfilterAndBuffering_line hs i (hline b rfl)] at h
          have hrest := readLog_accepted hrs (countUnwritten_inv hfl (bufferBytes_kept i b hs.kept)
            (bufferBytes_buf hs i b)) h
          rw [countUnwritten_accepted, bufferBytes_accepted, update_append] at hrest
          exact hrest

theorem readKernel_accepted :
    ∀ {rs : List (KernelRead × FlushRes)} {s : State}, (∀ x ∈ rs, ∀ i, (x.2 i).Complete) →
      Inv cfg init s →
      (readKernel cfg rs s).accepted =
        Function.update s.accepted .kernel (s.accepted .kernel ++ takenKernel rs)
  | [], s, _, hs => by simp [readKernel, takenKernel]
  | (⟨b, hb⟩, fl) :: rs, s, hfl, hs => by
    obtain ⟨hsp, hlen⟩ := hs.space .kernel
    unfold readKernel takenKernel
    split_ifs with h0 hspace
    · simp
    · have hrs : ∀ x ∈ rs, ∀ i, (x.2 i).Complete := fun x hx => hfl x (by simp [hx])
      have hrest := readKernel_accepted hrs (countUnwritten_inv
        (hfl (⟨b, hb⟩, fl) (by simp)) (bufferBytes_kept .kernel b hs.kept)
        (bufferBytes_buf hs .kernel b))
      rw [countUnwritten_accepted, bufferBytes_accepted, update_append] at hrest
      exact hrest
    · rw [hsp] at hspace
      exact absurd ⟨by omega, by omega, hb⟩ hspace

/-! ## Runs -/

/-- What the slot `slot` adds to the stream `i`. -/
theorem aplogdIoReadData_accepted {d : Reads} {slot : Slot} (hlog : ∀ i, LogReadsFit (d.log i).2)
    (hkernel : ∀ x ∈ d.kernel, ∀ i, (x.2 i).Complete) (hvold : slot = .vold → d.vold.Idle cfg)
    (hs : Inv cfg init s) (h : aplogdIoReadData cfg d slot s = some s') :
    s'.pollFd = s.pollFd ∧
      ∀ i, s'.accepted i = s.accepted i ++ if slot = .log i then d.taken i else [] := by
  have hupdate : ∀ (k i : Stream) (b : Bytes), Function.update s.accepted k (s.accepted k ++ b) i =
      s.accepted i ++ if k = i then b else [] := by
    intro k i b
    by_cases hki : k = i
    · subst hki
      simp
    · rw [Function.update_of_ne (Ne.symm hki), if_neg hki, List.append_nil]
  cases slot with
  | vold =>
    obtain rfl := Option.some.inj h
    rw [readVold_idle (hvold rfl)]
    exact ⟨rfl, fun i => by simp⟩
  | log k =>
    simp only [Slot.log.injEq]
    cases k with
    | kernel =>
      obtain rfl := Option.some.inj h
      have hflushes : Flushes cfg s (readKernel cfg d.kernel s) := readKernel_flushes d.kernel s
      refine ⟨hflushes.pollFd, fun i => ?_⟩
      rw [readKernel_accepted hkernel hs, hupdate]
      split_ifs with hki
      · subst hki
        rfl
      · rfl
    | _ =>
      refine ⟨(readLog_flushes h).pollFd, fun i => ?_⟩
      rw [readLog_accepted (hlog _) hs h, hupdate]
      split_ifs with hki
      · subst hki
        rfl
      · rfl

/-- The loop over the slots `L`: each stream among them takes up what its slot has to read. -/
theorem handleSlots_accepted {rev : Slot → Revents} {d : Reads}
    (hrev : ∀ slot, (rev slot).pollerr = false ∧ (rev slot).pollhup = false)
    (hlog : ∀ i, LogReadsFit (d.log i).2) (hkernel : ∀ x ∈ d.kernel, ∀ i, (x.2 i).Complete)
    (hvold : (rev .vold).pollin = true → d.vold.Idle cfg)
    (i : Stream) : ∀ {L : List Slot} {s s' : State}, L.Nodup → Inv cfg init s →
    handleSlots cfg rev d L s = some s' →
      s'.accepted i = s.accepted i ++
        if .log i ∈ L ∧ (s.pollFd (.log i)).isSome ∧ (rev (.log i)).pollin = true then
        d.taken i else []
  | [], s, s', _, hs, h => by
    obtain rfl := Option.some.inj h
    simp
  | slot :: L, s, s', hL, hs, h => by
    obtain ⟨s₁, h₁, h₂⟩ := Option.bind_eq_some_iff.mp h
    obtain ⟨hslot, hL⟩ := List.nodup_cons.mp hL
    rcases aplogdIoHandlePoll_cases (hrev slot).1 (hrev slot).2 h₁ with
      ⟨rfl, hskip⟩ | ⟨hfd, hin, hread⟩
    · rw [handleSlots_accepted hrev hlog hkernel hvold i hL hs h₂]
      by_cases hi : slot = .log i
      · subst hi
        simp [hslot, hskip]
      · have hmem : .log i ∈ slot :: L ↔ .log i ∈ L := by simp [Ne.symm hi]
        simp only [hmem]
    · have hidle : slot = .vold → d.vold.Idle cfg := fun hv => hvold (by rw [← hv]; exact hin)
      obtain ⟨hpoll, hacc⟩ := aplogdIoReadData_accepted hlog hkernel hidle hs hread
      have hs₁ := aplogdIoReadData_inv hlog hkernel hidle hs hread
      rw [handleSlots_accepted hrev hlog hkernel hvold i hL hs₁ h₂, hacc i, hpoll]
      by_cases hi : slot = .log i
      · subst hi
        simp [hslot, hfd, hin]
      · have hmem : .log i ∈ slot :: L ↔ .log i ∈ L := by simp [Ne.symm hi]
        simp only [hmem, if_neg hi, List.append_nil]

/-- **One iteration**: the stream accepts what it takes up. -/
theorem aplogdLogIo_accepted {it : Iter} (hs : Inv cfg init s) (hit : Unswitched cfg s it)
    (h : aplogdLogIo cfg s it = some s') (i : Stream) :
    s'.accepted i = s.accepted i ++ it.taken cfg s i := by
  obtain ⟨s₁, h₁, rfl⟩ := Option.map_eq_some_iff.mp h
  have hconnect : (connectVold it s₁).accepted = s₁.accepted := by
    unfold connectVold
    split_ifs
    · exact congrArg Logs.accepted (openInput_logs _ _ _)
    · rfl
  have hreload : (reloadConfig cfg it s).accepted = s.accepted ∧
      Inv cfg init (reloadConfig cfg it s) := by
    unfold reloadConfig
    split
    · next r hr =>
      have hsame := hit.reload (by simp [hr])
      refine ⟨?_, configChanged_inv r hs hsame⟩
      simp only [configChanged, if_pos hsame]
      rfl
    · exact ⟨rfl, hs⟩
  have hplain := hit.plain
  unfold Iter.taken
  rw [hconnect, ← hreload.1]
  obtain ⟨r, hp, rfl⟩ | ⟨hp, rfl⟩ | ⟨rev, d, hp, hslots⟩ := handlePollRes_cases h₁
  · rw [hp, flushAll_accepted, List.append_nil]
  · rw [hp, List.append_nil]
  · rw [hp] at hplain ⊢
    obtain ⟨hrev, hlog, hkernel, hvold⟩ := hplain
    rw [handleSlots_accepted hrev hlog hkernel hvold i (by decide) hreload.2 hslots]
    have hmem : Slot.log i ∈ Slot.all := List.mem_append_left _ (List.mem_map_of_mem i.mem_all)
    simp only [hmem, true_and]

theorem exec_accepted {its : List Iter} (hs : Inv cfg init s)
    (hC : Machine.Along (aplogdLogIo cfg) (Unswitched cfg) s its)
    (hrun : Machine.exec (aplogdLogIo cfg) s its = some s') (i : Stream) :
    s'.accepted i = s.accepted i ++ takenRun cfg s its i := by
  induction its generalizing s with
  | nil =>
    obtain rfl := Option.some.inj hrun
    rw [takenRun, List.append_nil]
  | cons it its ih =>
    obtain ⟨s₁, hstep, hrest⟩ := Machine.exec_cons_some hrun
    rw [ih (aplogdLogIo_inv hs hC.1 hstep) (hC.2 s₁ hstep) hrest,
      aplogdLogIo_accepted hs hC.1 hstep, takenRun, hstep, List.append_assoc]
    rfl

/-- **What a stream accepts is what was read for it**, in the runs of `nothing_lost`: together, what
its rotations took over, its output file and its buffer are what the output file held when the loop
started and then the entries that the run read from its device, each once and in order. -/
theorem accepted_eq_takenRun (cfg : Config) (r : BootRes) (kern : FdTable Desc)
    (files : CStr → FileMap LogFile Bytes) (its : List Iter) (s₀ s : State)
    (hboot : aplogdIoBootFinish cfg r (.start kern files) = some s₀)
    (hrun : Machine.exec (aplogdLogIo cfg) s₀ its = some s)
    (hC : Machine.Along (aplogdLogIo cfg) (Unswitched cfg) s₀ its) (i : Stream) :
    s.accepted i = takenRun cfg s₀ its i ∧
      s.handed i ++ s.outputBytes cfg i ++ s.inputBuf i =
        s₀.outputBytes cfg i ++ takenRun cfg s₀ its i := by
  have hloop := aplogdIoBootFinish_loopInv hboot
  have hnone : s₀.accepted i = [] :=
    congrFun (congrArg Logs.accepted (aplogdIoBootFinish_logs hboot)) i
  have hacc : s.accepted i = takenRun cfg s₀ its i := by
    rw [exec_accepted hloop hC hrun i, hnone, List.nil_append]
  have hs : Inv cfg (s₀.outputBytes cfg) s :=
    Machine.exec_inv_along (fun s it s' hs hit h => aplogdLogIo_inv hs hit h) its s₀ s hloop hC hrun
  exact ⟨hacc, hacc ▸ hs.kept.law i⟩

end Omap4.Aplogd
