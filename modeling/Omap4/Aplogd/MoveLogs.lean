import Omap4.Aplogd.Descriptors

/-!
# Omap4.Aplogd.MoveLogs — moving the logs to another storage (`aplogd_move_logs`)

In `Omap4.Aplogd.LogIo` a file is moved as a whole.  Here is the copy itself: reads of at most 4095
bytes, each of them followed by a `write` whose result nobody looks at, until a read returns
nothing, at the end of the file or on an error.  Then the source is unlinked.  The outcomes of the
calls are input; a copy whose outcomes do not suffice for it to return has no result.

If the two storages have different directories, no read fails and every write takes all it is given,
the copy is the one of `Omap4.Aplogd.LogIo` (`moveFile_refines`).  These conditions are also
necessary: a source with bytes in it is unlinked and its bytes are saved in no other case
(`unlinked_saved_iff`).
-/

namespace Omap4.Aplogd.Move

abbrev Files := CStr → FileMap LogFile Bytes

/-- The bytes of the output file of stream `i` in `dir`. -/
def fileBytes (dir : CStr) (i : Stream) (fs : Files) : Bytes := (fs dir (.output i)).getD []

def setOutput (dir : CStr) (i : Stream) (o : Option Bytes) (fs : Files) : Files :=
  Function.update fs dir (Function.update (fs dir) (.output i) o)

/-! ## The code -/

/-- One pass of the loop: a `read` that returns up to `n + 1` bytes, with what the `write` after it
returns (`none` for an error), or a `read` that fails. -/
inductive CopyStep
  | chunk (n : ℕ) (w : Option ℕ)
  | readError
  deriving DecidableEq, Repr

/-- `read(sfd, buf, 4095)` at the position `off` of a file with the bytes `b`. -/
def readChunk (n off : ℕ) (b : Bytes) : Bytes := (b.drop off).take (min (n + 1) 4095)

/-- The `while` loop, with the position in the source.  Source and destination may be the same
file. -/
def copyLoop (src dst : CStr) (i : Stream) : List CopyStep → ℕ → Files → Option Files
  | [], off, fs => if (fileBytes src i fs).length ≤ off then some fs else none
  | step :: steps, off, fs =>
    if (fileBytes src i fs).length ≤ off then some fs
    else match step with
      | .readError => some fs
      | .chunk n w =>
        copyLoop src dst i steps (off + (readChunk n off (fileBytes src i fs)).length)
          (setOutput dst i
            (some (fileBytes dst i fs ++ (readChunk n off (fileBytes src i fs)).take (w.getD 0)))
            fs)

/-- The outcomes for one file. -/
structure MoveRes where
  srcOpen : Bool
  dstOpen : Bool
  steps : List CopyStep
  unlinkOk : Bool
  deriving DecidableEq, Repr

/-- The body of the loop over the streams: whether the source was unlinked, and the files. -/
def moveFile (src dst : CStr) (r : MoveRes) (i : Stream) (fs : Files) : Option (Bool × Files) :=
  if (fs src (.output i)).isNone ∨ ¬ r.srcOpen ∨ ¬ r.dstOpen then some (false, fs)
  else (copyLoop src dst i r.steps 0 (setOutput dst i (some (fileBytes dst i fs)) fs)).map
    fun fs' =>
    (r.unlinkOk, if r.unlinkOk then setOutput src i none fs' else fs')

/-- The streams whose source was unlinked, and the files. -/
def moveStreams (src dst : CStr) (r : Stream → MoveRes) :
    List Stream → Files → Option (List Stream × Files)
  | [], fs => some ([], fs)
  | i :: L, fs => (moveFile src dst (r i) i fs).bind fun x =>
      (moveStreams src dst r L x.2).map fun y => (if x.1 then i :: y.1 else y.1, y.2)

def aplogdMoveLogs (cfg : Config) (r : Stream → MoveRes) (old new : Storage) (fs : Files) :
    Option (List Stream × Files) :=
  if (cfg.storagePath old).isNone || (cfg.storagePath new).isNone then some ([], fs)
  else moveStreams (cfg.outputPath old) (cfg.outputPath new) r Stream.all fs

/-! ## Files -/

section Files

variable {dir dir' : CStr} {i j : Stream} {fs : Files}

@[simp] theorem setOutput_self (o : Option Bytes) : setOutput dir i o fs dir (.output i) = o := by
  simp [setOutput]

theorem setOutput_of_stream_ne (h : j ≠ i) (o : Option Bytes) (d : CStr) :
    setOutput dir i o fs d (.output j) = fs d (.output j) := by
  unfold setOutput
  by_cases hd : d = dir
  · subst hd
    rw [Function.update_self, Function.update_of_ne (by simpa using h)]
  · rw [Function.update_of_ne hd]

theorem setOutput_of_dir_ne (h : dir' ≠ dir) (o : Option Bytes) :
    setOutput dir i o fs dir' = fs dir' :=
  Function.update_of_ne h _ _

theorem setOutput_setOutput (o o' : Option Bytes) :
    setOutput dir i o (setOutput dir i o' fs) = setOutput dir i o fs := by
  simp [setOutput]

theorem setOutput_eq_self {o : Option Bytes} (h : fs dir (.output i) = o) :
    setOutput dir i o fs = fs := by
  rw [← h]
  simp [setOutput]

end Files

/-! ## The copy -/

/-- What is appended to the destination when a file with the bytes `b` is copied from `off` on. -/
def copied (b : Bytes) : List CopyStep → ℕ → Bytes
  | [], _ => []
  | step :: steps, off =>
    if b.length ≤ off then []
    else match step with
      | .readError => []
      | .chunk n w =>
        (readChunk n off b).take (w.getD 0) ++ copied b steps (off + (readChunk n off b).length)

/-- No read fails before the end of the file, and every write takes all it is given. -/
def CopyOk (b : Bytes) : List CopyStep → ℕ → Prop
  | [], off => b.length ≤ off
  | step :: steps, off => b.length ≤ off ∨
      match step with
      | .readError => False
      | .chunk n w =>
        (readChunk n off b).length ≤ w.getD 0 ∧ CopyOk b steps (off + (readChunk n off b).length)

theorem drop_readChunk (n off : ℕ) (b : Bytes) :
    b.drop off = readChunk n off b ++ b.drop (off + (readChunk n off b).length) := by
  unfold readChunk
  rw [← List.drop_drop, List.length_take]
  have hdrop : (b.drop off).drop (min (min (n + 1) 4095) (b.drop off).length) =
      (b.drop off).drop (min (n + 1) 4095) := by
    rcases Nat.le_total (min (n + 1) 4095) (b.drop off).length with hle | hle
    · rw [Nat.min_eq_left hle]
    · rw [Nat.min_eq_right hle, List.drop_length, List.drop_of_length_le hle]
  rw [hdrop, List.take_append_drop]

theorem length_copied_le (b : Bytes) (steps : List CopyStep) (off : ℕ) :
    (copied b steps off).length ≤ (b.drop off).length := by
  induction steps generalizing off with
  | nil => exact Nat.zero_le _
  | cons step steps ih =>
    unfold copied
    split_ifs
    · exact Nat.zero_le _
    · cases step with
      | readError => exact Nat.zero_le _
      | chunk n w =>
        have hrest := ih (off + (readChunk n off b).length)
        have hsplit := congrArg List.length (drop_readChunk n off b)
        rw [List.length_append] at hsplit ⊢
        rw [List.length_take]
        omega

/-- **The copy is complete** if and only if nothing fails in it and no write is short: a byte that
is missed is never made up for. -/
theorem copied_eq_iff (b : Bytes) (steps : List CopyStep) (off : ℕ) :
    copied b steps off = b.drop off ↔ CopyOk b steps off := by
  induction steps generalizing off with
  | nil =>
    rw [copied, CopyOk, eq_comm]
    exact List.drop_eq_nil_iff
  | cons step steps ih =>
    unfold copied CopyOk
    split_ifs with hend
    · rw [List.drop_of_length_le hend]
      exact iff_of_true rfl (.inl hend)
    · have hne : b.drop off ≠ [] := fun hnil => hend (List.drop_eq_nil_iff.mp hnil)
      cases step with
      | readError =>
        exact iff_of_false (fun h => hne h.symm) (by rintro (h | h); exacts [hend h, h])
      | chunk n w =>
        dsimp only
        rw [← ih, or_iff_right hend]
        constructor
        · intro heq
          have hfull : (readChunk n off b).length ≤ w.getD 0 := by
            have hlen := congrArg List.length heq
            have hsplit := congrArg List.length (drop_readChunk n off b)
            have hrest := length_copied_le b steps (off + (readChunk n off b).length)
            rw [List.length_append, List.length_take] at hlen
            rw [List.length_append] at hsplit
            omega
          refine ⟨hfull, ?_⟩
          rw [List.take_of_length_le hfull, drop_readChunk n off b] at heq
          exact List.append_cancel_left heq
        · rintro ⟨hfull, hrest⟩
          rw [List.take_of_length_le hfull, hrest, ← drop_readChunk]

/-- **What the loop does** to two files: the source stays as it is, and the destination grows. -/
theorem copyLoop_eq {src dst : CStr} {i : Stream} (hne : src ≠ dst) {steps : List CopyStep}
    {off : ℕ} {fs fs' : Files} {d : Bytes} (hd : fs dst (.output i) = some d)
    (h : copyLoop src dst i steps off fs = some fs') :
    fs' = setOutput dst i (some (d ++ copied (fileBytes src i fs) steps off)) fs := by
  have hself : fs = setOutput dst i (some (d ++ [])) fs := by
    rw [List.append_nil, setOutput_eq_self hd]
  induction steps generalizing off fs d with
  | nil =>
    unfold copyLoop at h
    split_ifs at h
    rw [Option.some.injEq] at h
    rw [copied, ← h]
    exact hself
  | cons step steps ih =>
    unfold copyLoop at h
    unfold copied
    split_ifs at h ⊢ with hend
    · rw [Option.some.injEq] at h
      rw [← h]
      exact hself
    · cases step with
      | readError =>
        rw [← Option.some.inj h]
        exact hself
      | chunk n w =>
        have hsrc : ∀ o, fileBytes src i (setOutput dst i o fs) = fileBytes src i fs := by
          intro o
          unfold fileBytes
          rw [setOutput_of_dir_ne hne]
        have hdst : fileBytes dst i fs = d := by rw [fileBytes, hd, Option.getD_some]
        have hnext := ih (setOutput_self _) h
          (by rw [List.append_nil, setOutput_eq_self (setOutput_self _)])
        rw [hnext, hsrc, hdst, setOutput_setOutput, List.append_assoc]

theorem copyLoop_frame {src dst : CStr} {i j : Stream} (hj : j ≠ i) {steps : List CopyStep}
    {off : ℕ} {fs fs' : Files} (h : copyLoop src dst i steps off fs = some fs') (dir : CStr) :
    fs' dir (.output j) = fs dir (.output j) := by
  induction steps generalizing off fs with
  | nil =>
    unfold copyLoop at h
    split_ifs at h
    rw [Option.some.inj h]
  | cons step steps ih =>
    unfold copyLoop at h
    split_ifs at h
    · rw [Option.some.inj h]
    · cases step with
      | readError => rw [Option.some.inj h]
      | chunk n w => rw [ih h, setOutput_of_stream_ne hj]

/-! ## One file -/

section File

variable {src dst : CStr} {r : MoveRes} {i : Stream} {fs fs' : Files}

/-- What a call can do to one file: nothing, or a copy of a source that exists. -/
theorem moveFile_cases {x : Bool × Files} (h : moveFile src dst r i fs = some x) :
    x = (false, fs) ∨ ∃ b fs'', fs src (.output i) = some b ∧
      copyLoop src dst i r.steps 0 (setOutput dst i (some (fileBytes dst i fs)) fs) = some fs'' ∧
      x = (r.unlinkOk, if r.unlinkOk then setOutput src i none fs'' else fs'') := by
  unfold moveFile at h
  by_cases hopen : (fs src (.output i)).isNone ∨ ¬ r.srcOpen ∨ ¬ r.dstOpen
  · rw [if_pos hopen] at h
    exact .inl (Option.some.inj h).symm
  · rw [if_neg hopen] at h
    obtain ⟨fs'', hcopy, heq⟩ := Option.map_eq_some_iff.mp h
    rw [not_or, Option.isNone_iff_eq_none] at hopen
    obtain ⟨b, hb⟩ := Option.ne_none_iff_exists'.mp hopen.1
    exact .inr ⟨b, fs'', hb, hcopy, heq.symm⟩

theorem moveFile_frame {x : Bool × Files} (h : moveFile src dst r i fs = some x)
    {j : Stream} (hj : j ≠ i) (dir : CStr) : x.2 dir (.output j) = fs dir (.output j) := by
  obtain rfl | ⟨b, fs'', -, hcopy, rfl⟩ := moveFile_cases h
  · rfl
  · have hframe := copyLoop_frame hj hcopy dir
    rw [setOutput_of_stream_ne hj] at hframe
    dsimp only
    split_ifs
    · rw [setOutput_of_stream_ne hj, hframe]
    · exact hframe

theorem copyOk_nil (steps : List CopyStep) : CopyOk [] steps 0 := by
  cases steps with
  | nil => exact Nat.le_refl 0
  | cons step steps => exact .inl (Nat.le_refl 0)

/-- What is in the files when a source was unlinked. -/
theorem moveFile_unlinked (h : moveFile src dst r i fs = some (true, fs')) :
    ∃ b fs'', fs src (.output i) = some b ∧
      copyLoop src dst i r.steps 0 (setOutput dst i (some (fileBytes dst i fs)) fs) = some fs'' ∧
      fs' = setOutput src i none fs'' := by
  obtain heq | ⟨b, fs'', hb, hcopy, heq⟩ := moveFile_cases h
  · cases congrArg Prod.fst heq
  · obtain ⟨hok, hfs⟩ := Prod.mk.inj heq
    rw [if_pos hok.symm] at hfs
    exact ⟨b, fs'', hb, hcopy, hfs⟩

theorem moveFile_saved_iff (h : moveFile src dst r i fs = some (true, fs')) :
    fileBytes dst i fs' = fileBytes dst i fs ++ fileBytes src i fs ↔
      fileBytes src i fs = [] ∨ src ≠ dst ∧ CopyOk (fileBytes src i fs) r.steps 0 := by
  obtain ⟨-, fs'', -, hcopy, rfl⟩ := moveFile_unlinked h
  by_cases hne : src = dst
  · -- the destination is unlinked with the source
    subst hne
    have hgone : fileBytes src i (setOutput src i none fs'') = [] := by simp [fileBytes]
    rw [hgone]
    simp
  · have hsrc : fileBytes src i (setOutput dst i (some (fileBytes dst i fs)) fs) =
        fileBytes src i fs := by
      rw [fileBytes, setOutput_of_dir_ne hne, fileBytes]
    have hdst : fileBytes dst i (setOutput src i none fs'') =
        fileBytes dst i fs ++ copied (fileBytes src i fs) r.steps 0 := by
      rw [fileBytes, setOutput_of_dir_ne (Ne.symm hne), copyLoop_eq hne (setOutput_self _) hcopy,
        setOutput_self, Option.getD_some, hsrc]
    have hcopied := copied_eq_iff (fileBytes src i fs) r.steps 0
    rw [List.drop_zero] at hcopied
    rw [hdst, List.append_right_inj, hcopied]
    constructor
    · exact fun hok => .inr ⟨hne, hok⟩
    · rintro (hnil | ⟨-, hok⟩)
      · rw [hnil]
        exact copyOk_nil _
      · exact hok

/-- **Refinement**: a complete copy between two directories is the move of `Omap4.Aplogd.LogIo`. -/
theorem moveFile_refines {s : State} (hfs : s.files = fs) (hne : src ≠ dst)
    (hok : CopyOk (fileBytes src i fs) r.steps 0) (h : moveFile src dst r i fs = some (true, fs')) :
    fs' = (moveLog src dst .ok i s).files := by
  obtain ⟨b, fs'', hb, hcopy, rfl⟩ := moveFile_unlinked h
  have hsrc : fileBytes src i (setOutput dst i (some (fileBytes dst i fs)) fs) = b := by
    rw [fileBytes, setOutput_of_dir_ne hne, hb, Option.getD_some]
  have hcopied := (copied_eq_iff (fileBytes src i fs) r.steps 0).mpr hok
  rw [List.drop_zero, fileBytes, hb, Option.getD_some] at hcopied
  rw [copyLoop_eq hne (setOutput_self _) hcopy, hsrc, hcopied, setOutput_setOutput]
  subst hfs
  unfold moveLog
  rw [hb]
  rfl

end File

/-! ## All files -/

theorem moveStreams_cons {src dst : CStr} {r : Stream → MoveRes} {j : Stream} {L U : List Stream}
    {fs fs' : Files} (h : moveStreams src dst r (j :: L) fs = some (U, fs')) :
    ∃ u fs₁ U₁, moveFile src dst (r j) j fs = some (u, fs₁) ∧
      moveStreams src dst r L fs₁ = some (U₁, fs') ∧ U = if u then j :: U₁ else U₁ := by
  obtain ⟨⟨u, fs₁⟩, hmove, hrest⟩ := Option.bind_eq_some_iff.mp h
  obtain ⟨⟨U₁, fs₂⟩, hstreams, heq⟩ := Option.map_eq_some_iff.mp hrest
  obtain ⟨hU, rfl⟩ := Prod.mk.inj heq
  exact ⟨u, fs₁, U₁, hmove, hstreams, hU.symm⟩

theorem moveStreams_frame {src dst : CStr} {r : Stream → MoveRes} {L U : List Stream}
    {fs fs' : Files} (h : moveStreams src dst r L fs = some (U, fs')) {i : Stream} (hi : i ∉ L)
    (dir : CStr) :
    fs' dir (.output i) = fs dir (.output i) ∧ i ∉ U := by
  induction L generalizing fs U with
  | nil =>
    obtain ⟨rfl, rfl⟩ := Prod.mk.inj (Option.some.inj h)
    exact ⟨rfl, hi⟩
  | cons j L ih =>
    rw [List.mem_cons, not_or] at hi
    obtain ⟨u, fs₁, U₁, hmove, hstreams, rfl⟩ := moveStreams_cons h
    obtain ⟨hfs, hU⟩ := ih hstreams hi.2
    refine ⟨hfs.trans (moveFile_frame hmove hi.1 dir), ?_⟩
    split_ifs
    · rw [List.mem_cons, not_or]
      exact ⟨hi.1, hU⟩
    · exact hU

theorem moveStreams_saved_iff {src dst : CStr} {r : Stream → MoveRes} {L U : List Stream}
    (hL : L.Nodup) {fs fs' : Files} (h : moveStreams src dst r L fs = some (U, fs')) {i : Stream}
    (hi : i ∈ U) :
    fileBytes dst i fs' = fileBytes dst i fs ++ fileBytes src i fs ↔
      fileBytes src i fs = [] ∨ src ≠ dst ∧ CopyOk (fileBytes src i fs) (r i).steps 0 := by
  induction L generalizing fs U with
  | nil =>
    obtain ⟨rfl, rfl⟩ := Prod.mk.inj (Option.some.inj h)
    cases hi
  | cons j L ih =>
    obtain ⟨hj, hL⟩ := List.nodup_cons.mp hL
    obtain ⟨u, fs₁, U₁, hmove, hstreams, rfl⟩ := moveStreams_cons h
    by_cases hij : i = j
    · -- the file of this pass, which the later ones leave alone
      subst hij
      obtain ⟨hframe, hU⟩ := moveStreams_frame hstreams hj dst
      cases u with
      | false => exact absurd hi hU
      | true =>
        rw [← moveFile_saved_iff hmove, fileBytes, hframe]
        rfl
    · have hdst : fs₁ dst (.output i) = fs dst (.output i) := moveFile_frame hmove hij dst
      have hsrc : fs₁ src (.output i) = fs src (.output i) := moveFile_frame hmove hij src
      have hU : i ∈ U₁ := by
        split_ifs at hi
        · exact (List.mem_cons.mp hi).resolve_left hij
        · exact hi
      have hnext := ih hL hstreams hU
      unfold fileBytes at hnext ⊢
      rw [hdst, hsrc] at hnext
      exact hnext

/-- **When moving destroys nothing.**  In a call of `aplogd_move_logs`, every source that is
unlinked has all of its bytes, in order and once each, at the end of its destination if and only if
each of these sources is empty or is moved to another directory with no failed read and no short or
failed write. -/
theorem unlinked_saved_iff {cfg : Config} {r : Stream → MoveRes} {old new : Storage}
    {fs fs' : Files} {unlinked : List Stream}
    (h : aplogdMoveLogs cfg r old new fs = some (unlinked, fs')) :
    (∀ i ∈ unlinked, fileBytes (cfg.outputPath new) i fs' =
        fileBytes (cfg.outputPath new) i fs ++ fileBytes (cfg.outputPath old) i fs) ↔
      ∀ i ∈ unlinked, fileBytes (cfg.outputPath old) i fs = [] ∨
        cfg.outputPath old ≠ cfg.outputPath new ∧
          CopyOk (fileBytes (cfg.outputPath old) i fs) (r i).steps 0 := by
  refine forall₂_congr fun i hi => ?_
  unfold aplogdMoveLogs at h
  split_ifs at h
  · obtain ⟨rfl, rfl⟩ := Prod.mk.inj (Option.some.inj h)
    cases hi
  · exact moveStreams_saved_iff (by decide) h hi

/-! ## A card that is full -/

/-- A radio log of three bytes on the user data, and nothing else. -/
def radioLog : Files :=
  setOutput (cardConfig.outputPath .userdata) .radio (some [97, 98, 99]) fun _ _ => none

/-- A copy whose first write returns `w`. -/
def copyRes (w : Option ℕ) : MoveRes := ⟨true, true, [.chunk 4094 w], true⟩

theorem unlinked_saved_radio :
    ∃ fs', aplogdMoveLogs cardConfig (fun _ => copyRes (some 3)) .userdata .external radioLog =
        some ([.radio], fs') ∧
      fileBytes (cardConfig.outputPath .external) .radio fs' = [97, 98, 99] := by
  obtain ⟨fs', h, hsrc⟩ : ∃ fs', aplogdMoveLogs cardConfig
    (fun _ => copyRes (some 3)) .userdata .external
      radioLog = some ([.radio], fs') ∧
      fileBytes (cardConfig.outputPath .userdata) .radio radioLog = [97, 98, 99] := ⟨_, rfl, rfl⟩
  refine ⟨fs', h, (unlinked_saved_iff h).mpr (fun i hi => ?_) .radio (by simp)⟩
  rw [List.mem_singleton.mp hi]
  refine .inr ⟨by decide, ?_⟩
  rw [hsrc]
  exact .inr ⟨by decide, Nat.le_refl 3⟩

/-- The card takes one of the three bytes, and the source is unlinked. -/
theorem short_write_destroys :
    ¬ ∀ (r : Stream → MoveRes) (fs' : Files) (unlinked : List Stream),
      aplogdMoveLogs cardConfig r .userdata .external radioLog = some (unlinked, fs') →
      ∀ i ∈ unlinked, fileBytes (cardConfig.outputPath .external) i fs' =
        fileBytes (cardConfig.outputPath .external) i radioLog ++
          fileBytes (cardConfig.outputPath .userdata) i radioLog := by
  intro h
  obtain ⟨fs', hmove, hlost⟩ : ∃ fs', aplogdMoveLogs cardConfig
    (fun _ => copyRes (some 1)) .userdata .external
      radioLog = some ([.radio], fs') ∧
      fileBytes (cardConfig.outputPath .external) .radio fs' = [97] := ⟨_, rfl, rfl⟩
  have hsaved := h _ fs' _ hmove .radio (by simp)
  rw [hlost] at hsaved
  revert hsaved
  decide

end Omap4.Aplogd.Move
