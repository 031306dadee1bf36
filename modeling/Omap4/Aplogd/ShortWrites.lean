import Omap4.Aplogd.Lossless
import Omap4.Transfer

/-!
# Omap4.Aplogd.ShortWrites — what a flush puts into the output file when writes are short

`aplogd_rambuf_output` counts down what is left to write, but starts each `write` at
`input_buf_base`.  A first write that takes the whole buffer hides this; after a short one the loop
appends the beginning of the buffer again (`resend`).  The flush appends the buffer if and only if
what it writes again is what was due (`rambufOutput_appends_iff`).
-/

namespace Omap4.Aplogd

variable {cfg : Config} {s : State} {i : Stream} {fd : ℕ}

theorem writeFd_outputBytes
    (hget : s.kern.get fd = some (.file (cfg.outputPath s.currentStorage) i true))
    (data : Bytes) : (writeFd fd data s).outputBytes cfg i = s.outputBytes cfg i ++ data := by
  simp [writeFd, State.outputBytes, hget, appendTo]

/-- **The write loop** runs to its end if no write fails, and appends what the writes took from the
beginning of the buffer. -/
theorem writeLoop_wrote (ns : List ℕ) (need : ℕ)
    (hget : s.kern.get fd = some (.file (cfg.outputPath s.currentStorage) i true)) :
    ∃ t, writeLoop fd i (ns.map .wrote) need s = (true, t) ∧ t.handed = s.handed ∧
      t.outputBytes cfg i = s.outputBytes cfg i ++ Transfer.resend (s.inputBuf i) ns need := by
  induction ns generalizing need s with
  | nil =>
    by_cases hneed : need = 0
    · refine ⟨s, ?_, rfl, ?_⟩
      · simp [writeLoop, hneed]
      · simp [Transfer.resend, hneed]
    · refine ⟨writeFd fd ((s.inputBuf i).take need) s, ?_, rfl, writeFd_outputBytes hget _⟩
      simp [writeLoop, hneed]
  | cons n ns ih =>
    by_cases hneed : need = 0
    · refine ⟨s, ?_, rfl, ?_⟩
      · simp [writeLoop, hneed]
      · rw [hneed, Transfer.resend_zero, List.append_nil]
    · obtain ⟨t, ht, hhanded, hout⟩ := ih (s := writeFd fd ((s.inputBuf i).take (min n need)) s)
        (need - min n need) hget
      refine ⟨t, ?_, hhanded, ?_⟩
      · rw [List.map_cons, writeLoop, if_neg hneed]
        exact ht
      · rw [hout, writeFd_outputBytes hget, List.append_assoc]
        rfl

/-- What a flush of an open output appends, if no write fails; what a rotation takes over afterwards
counts as appended. -/
theorem rambufOutput_appended {r : OutRes} {ns : List ℕ} (hfd : s.outputFd i = some fd)
    (hget : s.kern.get fd = some (.file (cfg.outputPath s.currentStorage) i true))
    (hwrites : r.writes = ns.map .wrote) :
    (aplogdRambufOutput cfg r i s).handed i ++ (aplogdRambufOutput cfg r i s).outputBytes cfg i =
      s.handed i ++ s.outputBytes cfg i ++ Transfer.resend (s.inputBuf i) ns
      (s.inputBuf i).length := by
  unfold aplogdRambufOutput
  split_ifs with hbuf
  · rw [hbuf, List.length_nil, Transfer.resend_zero, List.append_nil]
  · obtain ⟨t, ht, hhanded, hout⟩ := writeLoop_wrote ns (s.inputBuf i).length hget
    have happended : (clearBuf i t).handed i ++ (clearBuf i t).outputBytes cfg i = s.handed i ++
        s.outputBytes cfg i ++ Transfer.resend (s.inputBuf i) ns (s.inputBuf i).length := by
      show t.handed i ++ t.outputBytes cfg i = _
      rw [hhanded, hout, List.append_assoc]
    rw [hfd, hwrites]
    simp only [ht, afterWrites]
    split_ifs
    · rw [rotateOutputs_law]
      exact happended
    · exact happended

/-- **When a flush survives short writes.**  Whatever the buffer holds and however many bytes the
writes take, the bytes appended to the output are the buffered bytes, once each and in order, if and
only if each write after the first takes a piece of the buffer that repeats its beginning; so they
are where the first write takes all. -/
theorem rambufOutput_appends_iff {cfg : Config} {s : State} {i : Stream} {fd : ℕ} {r : OutRes}
    {ns : List ℕ} (hfd : s.outputFd i = some fd)
    (hget : s.kern.get fd = some (.file (cfg.outputPath s.currentStorage) i true))
    (hwrites : r.writes = ns.map .wrote) :
    (aplogdRambufOutput cfg r i s).handed i ++ (aplogdRambufOutput cfg r i s).outputBytes cfg i =
        s.handed i ++ s.outputBytes cfg i ++ s.inputBuf i ↔
      Transfer.Repeats (s.inputBuf i) ns 0 := by
  rw [rambufOutput_appended hfd hget hwrites, List.append_right_inj,
    ← Transfer.resend_eq_iff (Nat.zero_le (s.inputBuf i).length), List.drop_zero, Nat.sub_zero]

/-- A start, and the entries of `radioIter` in the buffer of the radio log. -/
def BufferedRadio (s : State) : Prop :=
  ∃ s₀, aplogdIoBootFinish cardConfig (bootOk true) (.start stdio fun _ _ => none) = some s₀ ∧
    Machine.exec (aplogdLogIo cardConfig) s₀ [radioIter] = some s

theorem rambufOutput_appends_whole :
    ∃ s, BufferedRadio s ∧ s.inputBuf .radio = [97, 98, 99] ∧
      (aplogdRambufOutput cardConfig { OutRes.ok with writes := [.wrote 3] } .radio s).handed
      .radio ++
        (aplogdRambufOutput cardConfig { OutRes.ok with writes := [.wrote 3] } .radio s).outputBytes
          cardConfig .radio =
            s.handed .radio ++ s.outputBytes cardConfig .radio ++ s.inputBuf .radio := by
  obtain ⟨s, hs, hbuf, hfd, hget⟩ : ∃ s, BufferedRadio s ∧ s.inputBuf .radio = [97, 98, 99] ∧
      s.outputFd .radio = some 4 ∧
      s.kern.get 4 = some (.file (cardConfig.outputPath s.currentStorage) .radio true) :=
    ⟨_, ⟨_, rfl, rfl⟩, by decide, by decide, by decide⟩
  have hwrites : (OutRes.mk [.wrote 3] OutRes.ok.backup OutRes.ok.setup).writes =
      List.map WriteRes.wrote [3] := rfl
  refine ⟨s, hs, hbuf, (rambufOutput_appends_iff hfd hget hwrites).mpr ?_⟩
  rw [hbuf]
  exact ⟨rfl, rfl⟩

/-- Three bytes `abc` and a first write that takes one: the file gets `aab`. -/
theorem short_write_repeated :
    ¬ ∀ (s : State) (fd : ℕ) (r : OutRes) (ns : List ℕ), BufferedRadio s →
    s.outputFd .radio = some fd →
      s.kern.get fd = some (.file (cardConfig.outputPath s.currentStorage) .radio true) →
      r.writes = ns.map .wrote → (∀ n ∈ ns, 0 < n) →
      (aplogdRambufOutput cardConfig r .radio s).handed .radio ++
        (aplogdRambufOutput cardConfig r .radio s).outputBytes cardConfig .radio =
          s.handed .radio ++ s.outputBytes cardConfig .radio ++ s.inputBuf .radio := by
  intro h
  obtain ⟨s, hs, hbuf, hfd, hget, hout, hwrote⟩ : ∃ s, BufferedRadio s ∧
    s.inputBuf .radio = [97, 98, 99] ∧
      s.outputFd .radio = some 4 ∧
      s.kern.get 4 = some (.file (cardConfig.outputPath s.currentStorage) .radio true) ∧
      s.handed .radio ++ s.outputBytes cardConfig .radio = [] ∧
      (aplogdRambufOutput cardConfig { OutRes.ok with writes := [.wrote 1] } .radio s).handed
        .radio ++ (aplogdRambufOutput cardConfig { OutRes.ok with writes := [.wrote 1] } .radio s).outputBytes
          cardConfig .radio = [97, 97, 98] :=
    ⟨_, ⟨_, rfl, rfl⟩, by decide, by decide, by decide, by decide, by decide⟩
  have hbad := h s 4 { OutRes.ok with writes := [.wrote 1] } [1] hs hfd hget rfl (by simp)
  rw [hwrote, hout, hbuf] at hbad
  revert hbad
  decide

end Omap4.Aplogd
