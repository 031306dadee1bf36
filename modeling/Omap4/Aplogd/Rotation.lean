import Omap4.Aplogd.Basic
import Omap4.FileMap
import Mathlib.Tactic.IntervalCases

/-!
# Omap4.Aplogd.Rotation — rotating the output files (`aplogd_io_file_backup`)

A rotation shifts every backup of a stream by one (`backup.(k-1)` becomes `backup.k`, from the top
down), renames the output file to `backup.0.<name>` and compresses it.  The shift starts at a
counter that all streams share and that grows by one with every file, so it starts far above the
backups that exist; the renames of missing files fail and are followed by an `unlink`.

The functions are generic in the names (`nm`).  `backups_kept` is about the names the code prints,
in a directory whose paths fit `MAX_PATH_LEN`: after `r` rotations, `backup.j` is what the output
file held at the rotation `r - j`, and there is no other backup.
-/

namespace Omap4.Aplogd

/-! ## The functions -/

/-- The outcomes of the calls made for one stream: the renames and unlinks of the shift (by the
number of the source), the unlink of a stale copy, the rename and unlink of the output, the
`gzip`. -/
structure BackupRes where
  renameOld : ℕ → Bool
  unlinkOld : ℕ → Bool
  unlinkStale : Bool
  renameLog : Bool
  unlinkLog : Bool
  gzip : Bool

def BackupRes.ok : BackupRes := ⟨fun _ => true, fun _ => true, true, true, true, true⟩

section Model

variable {π : Type} [DecidableEq π] (nm : LogFile → π)

/-- The `while(i>0)` loop. -/
def shiftBackups (r : BackupRes) (i : Stream) : ℕ → FileMap π Bytes → FileMap π Bytes
  | 0, fs => fs
  | k + 1, fs => shiftBackups r i k (FileMap.renameOrUnlink (r.renameOld k) (r.unlinkOld k)
      (nm (.backupGz k i)) (nm (.backupGz (k + 1) i)) fs)

/-- `aplogd_util_gzip`; a compressed file is represented by what it decompresses to. -/
def aplogdUtilGzip (ok : Bool) (src dst : π) (fs : FileMap π Bytes) : FileMap π Bytes :=
  (FileMap.rename ok src dst fs).2

/-- `n` is the value of the static counter at the call, which increments it. -/
def aplogdIoFileBackup (r : BackupRes) (i : Stream) (n : ℕ) (fs : FileMap π Bytes) :
    FileMap π Bytes :=
  let fs := shiftBackups nm r i n fs
  let fs := if (fs (nm (.backup i))).isSome then FileMap.unlink r.unlinkStale (nm (.backup i)) fs
    else fs
  let fs := FileMap.renameOrUnlink r.renameLog r.unlinkLog (nm (.output i)) (nm (.backup i)) fs
  aplogdUtilGzip r.gzip (nm (.backup i)) (nm (.backupGz 0 i)) fs

/-- The loop of `aplogd_io_backupall` over the streams `L`. -/
def backupStreams (r : Stream → BackupRes) : List Stream → ℕ × FileMap π Bytes → ℕ × FileMap π Bytes
  | [], x => x
  | i :: L, x => backupStreams r L (x.1 + 1, aplogdIoFileBackup nm (r i) i x.1 x.2)

def aplogdIoBackupall (r : Stream → BackupRes) (x : ℕ × FileMap π Bytes) : ℕ × FileMap π Bytes :=
  backupStreams nm r Stream.all x

/-- What happens between two rotations: the output file of stream `i` comes to hold `c i`. -/
def setOutputs (c : Stream → Option Bytes) (fs : FileMap π Bytes) : FileMap π Bytes := fun x =>
  match Stream.all.find? fun i => nm (.output i) = x with
  | some i => c i
  | none => fs x

/-- The counter and the directory after `r` rotations; at rotation `k` (from 0) the output file of
stream `i` holds `c k i`. -/
def rotations (c : ℕ → Stream → Option Bytes) : ℕ → ℕ × FileMap π Bytes → ℕ × FileMap π Bytes
  | 0, x => x
  | r + 1, x =>
    let x := rotations c r x
    aplogdIoBackupall nm (fun _ => .ok) (x.1, setOutputs nm (c r) x.2)

end Model

/-! ## One stream -/

section Frame

variable {π : Type} [DecidableEq π] {nm : LogFile → π} {x : π}

/-- The shift from `k` touches only the backups `0..k` of its stream. -/
theorem shiftBackups_frame (r : BackupRes) (i : Stream) :
    ∀ (k : ℕ) (fs : FileMap π Bytes), (∀ j ≤ k, x ≠ nm (.backupGz j i)) →
      shiftBackups nm r i k fs x = fs x
  | 0, _, _ => rfl
  | k + 1, fs, hne => by
    rw [shiftBackups, shiftBackups_frame r i k _ fun j hj => hne j (by omega)]
    exact FileMap.renameOrUnlink_of_ne _ _ (hne k (by omega)) (hne (k + 1) le_rfl)

/-- A rotation of one stream touches only the files of that stream. -/
theorem fileBackup_frame (r : BackupRes) {i : Stream} {n : ℕ} (fs : FileMap π Bytes)
    (ho : x ≠ nm (.output i)) (hb : x ≠ nm (.backup i)) (hgz : ∀ j ≤ n, x ≠ nm (.backupGz j i)) :
    aplogdIoFileBackup nm r i n fs x = fs x := by
  simp only [aplogdIoFileBackup, aplogdUtilGzip]
  rw [FileMap.rename_of_ne _ hb (hgz 0 (Nat.zero_le n)), FileMap.renameOrUnlink_of_ne _ _ ho hb]
  split_ifs
  · rw [FileMap.unlink_of_ne _ hb]
    exact shiftBackups_frame r i n fs hgz
  · exact shiftBackups_frame r i n fs hgz

end Frame

/-- Whatever fails, a rotation of one stream leaves an output file alone or removes it. -/
theorem fileBackup_output (r : BackupRes) (i j : Stream) (n : ℕ) (fs : FileMap LogFile Bytes) :
    aplogdIoFileBackup id r i n fs (.output j) = none ∨
      aplogdIoFileBackup id r i n fs (.output j) = fs (.output j) := by
  by_cases hij : j = i
  · subst hij
    have hshift : shiftBackups id r j n fs (.output j) = fs (.output j) :=
      shiftBackups_frame r j n fs fun k _ => by simp
    simp only [aplogdIoFileBackup, aplogdUtilGzip, id_eq]
    rw [FileMap.rename_of_ne _ (by simp) (by simp)]
    refine (FileMap.renameOrUnlink_source_cases (by simp)).imp_right fun h => ?_
    rw [h]
    split_ifs
    · rw [FileMap.unlink_of_ne _ (by simp), hshift]
    · exact hshift
  · exact .inr (fileBackup_frame r fs (by simpa using hij) (by simp) fun k _ => by simp)

theorem backupall_output (r : Stream → BackupRes) (x : ℕ × FileMap LogFile Bytes) (j : Stream) :
    (aplogdIoBackupall id r x).2 (.output j) = none ∨
      (aplogdIoBackupall id r x).2 (.output j) = x.2 (.output j) := by
  have key : ∀ (L : List Stream) (x : ℕ × FileMap LogFile Bytes),
      (backupStreams id r L x).2 (.output j) = none ∨
        (backupStreams id r L x).2 (.output j) = x.2 (.output j) := by
    intro L
    induction L with
    | nil => exact fun x => .inr rfl
    | cons i L ih =>
      intro x
      rcases ih (x.1 + 1, aplogdIoFileBackup id (r i) i x.1 x.2) with h | h
      · exact .inl h
      · exact (fileBackup_output (r i) i j x.1 x.2).imp h.trans h.trans
  exact key _ x

/-- The number in the name of a file. -/
def LogFile.idx : LogFile → ℕ
  | .backupGz n _ => n
  | _ => 0

/-- The stream of a file. -/
def LogFile.stream : LogFile → Stream
  | .output i | .backup i | .backupGz _ i => i

section Spec

variable {π : Type} [DecidableEq π] {nm : LogFile → π} {N : ℕ}
  (hinj : ∀ f g : LogFile, f.idx ≤ N → g.idx ≤ N → nm f = nm g → f = g)
include hinj

omit [DecidableEq π] in
theorem nm_ne (f g : LogFile) (hf : f.idx ≤ N) (hg : g.idx ≤ N) (h : f ≠ g) : nm f ≠ nm g :=
  fun he => h (hinj f g hf hg he)

omit [DecidableEq π] in
theorem nm_gz_ne {i : Stream} {j k : ℕ} (hj : j ≤ N) (hk : k ≤ N) (h : j ≠ k) :
    nm (.backupGz j i) ≠ nm (.backupGz k i) :=
  nm_ne hinj (.backupGz j i) (.backupGz k i) hj hk (by simpa using h)

omit [DecidableEq π] in
theorem nm_output_ne_backup (i : Stream) : nm (.output i) ≠ nm (.backup i) :=
  nm_ne hinj (.output i) (.backup i) (Nat.zero_le N) (Nat.zero_le N) (by simp)

omit [DecidableEq π] in
theorem nm_output_ne_gz {i : Stream} {j : ℕ} (hj : j ≤ N) : nm (.output i) ≠ nm (.backupGz j i) :=
  nm_ne hinj (.output i) (.backupGz j i) (Nat.zero_le N) hj (by simp)

omit [DecidableEq π] in
theorem nm_backup_ne_gz {i : Stream} {j : ℕ} (hj : j ≤ N) : nm (.backup i) ≠ nm (.backupGz j i) :=
  nm_ne hinj (.backup i) (.backupGz j i) (Nat.zero_le N) hj (by simp)

/-- The shift moves every backup below its start up by one, if the start is free. -/
theorem shiftBackups_spec (i : Stream) :
    ∀ (k : ℕ) (fs : FileMap π Bytes), k ≤ N → fs (nm (.backupGz k i)) = none →
      shiftBackups nm .ok i k fs (nm (.backupGz 0 i)) = none ∧
      ∀ j < k, shiftBackups nm .ok i k fs (nm (.backupGz (j + 1) i)) = fs (nm (.backupGz j i))
  | 0, fs, _, h0 => ⟨h0, fun j hj => by omega⟩
  | k + 1, fs, hk, h0 => by
    have hne : nm (.backupGz k i) ≠ nm (.backupGz (k + 1) i) :=
      nm_gz_ne hinj (by omega) hk (by omega)
    rw [shiftBackups]
    set fs' := FileMap.renameOrUnlink (BackupRes.ok.renameOld k) (BackupRes.ok.unlinkOld k)
      (nm (.backupGz k i)) (nm (.backupGz (k + 1) i)) fs
    have hsrc : fs' (nm (.backupGz k i)) = none := FileMap.renameOrUnlink_source hne
    have htgt : fs' (nm (.backupGz (k + 1) i)) = fs (nm (.backupGz k i)) :=
      FileMap.renameOrUnlink_target hne h0
    obtain ⟨hz, hs⟩ := shiftBackups_spec i k fs' (by omega) hsrc
    refine ⟨hz, fun j hj => ?_⟩
    rcases Nat.lt_succ_iff_lt_or_eq.mp hj with hj | rfl
    · -- below the renamed pair `fs'` agrees with `fs`
      rw [hs j hj]
      exact FileMap.renameOrUnlink_of_ne _ _ (nm_gz_ne hinj (by omega) (by omega) (by omega))
        (nm_gz_ne hinj (by omega) hk (by omega))
    · rw [shiftBackups_frame _ i j fs' fun l hl => nm_gz_ne hinj hk (by omega) (by omega), htgt]

/-- **One rotation of one stream** whose backups all lie below the counter: every backup moves up by
one and the output file becomes backup 0. -/
theorem fileBackup_spec (i : Stream) {n : ℕ} (hn : n ≤ N) (fs : FileMap π Bytes)
    (hgz : ∀ j, n ≤ j → j ≤ N → fs (nm (.backupGz j i)) = none) (hb : fs (nm (.backup i)) = none) :
    aplogdIoFileBackup nm .ok i n fs (nm (.backup i)) = none ∧
    aplogdIoFileBackup nm .ok i n fs (nm (.backupGz 0 i)) = fs (nm (.output i)) ∧
    ∀ j < N, aplogdIoFileBackup nm .ok i n fs (nm (.backupGz (j + 1) i)) =
      fs (nm (.backupGz j i)) := by
  obtain ⟨hs0, hs⟩ := shiftBackups_spec hinj i n fs hn (hgz n le_rfl hn)
  have hframe : ∀ x, (∀ j ≤ n, x ≠ nm (.backupGz j i)) → shiftBackups nm .ok i n fs x = fs x :=
    fun x => shiftBackups_frame .ok i n fs
  set fs₁ := shiftBackups nm .ok i n fs
  have hob := nm_output_ne_backup hinj i
  have hbz : ∀ j ≤ N, nm (.backup i) ≠ nm (.backupGz j i) := fun j hj => nm_backup_ne_gz hinj hj
  have hb₁ : fs₁ (nm (.backup i)) = none := by
    rw [hframe _ fun j hj => hbz j (by omega), hb]
  have ho₁ : fs₁ (nm (.output i)) = fs (nm (.output i)) :=
    hframe _ fun j hj => nm_output_ne_gz hinj (by omega)
  -- the output becomes `backup.0.<name>`
  set fs₂ := FileMap.renameOrUnlink true true (nm (.output i)) (nm (.backup i)) fs₁ with hfs₂
  have hfile : aplogdIoFileBackup nm .ok i n fs =
      (FileMap.rename true (nm (.backup i)) (nm (.backupGz 0 i)) fs₂).2 := by
    have hstale : ¬ (fs₁ (nm (.backup i))).isSome = true := by simp [hb₁]
    simp only [aplogdIoFileBackup, aplogdUtilGzip]
    rw [if_neg hstale]
    rfl
  have hb₂ : fs₂ (nm (.backup i)) = fs (nm (.output i)) := by
    rw [hfs₂, FileMap.renameOrUnlink_target hob hb₁, ho₁]
  have hz₂ : ∀ j ≤ N, fs₂ (nm (.backupGz j i)) = fs₁ (nm (.backupGz j i)) := fun j hj =>
    FileMap.renameOrUnlink_of_ne _ _ (nm_output_ne_gz hinj hj).symm (hbz j hj).symm
  -- and that becomes backup 0
  rw [hfile]
  refine ⟨FileMap.rename_source (hbz 0 (Nat.zero_le N)), ?_, ?_⟩
  · rw [FileMap.rename_target (by rw [hz₂ 0 (Nat.zero_le N), hs0]), hb₂]
  · intro j hj
    rw [FileMap.rename_of_ne true (hbz (j + 1) hj).symm (nm_gz_ne hinj hj (Nat.zero_le N) (by omega)),
      hz₂ (j + 1) hj]
    by_cases hjn : j < n
    · exact hs j hjn
    · -- above the counter there is no backup
      rw [hframe _ fun l hl => nm_gz_ne hinj hj (by omega) (by omega), hgz (j + 1) (by omega) hj,
        hgz j (by omega) (by omega)]

/-! ## All streams, any number of rotations -/

/-- What a rotation does to the files of stream `i`: `fs` before, `fs'` after. -/
structure Shifted (nm : LogFile → π) (N : ℕ) (fs fs' : FileMap π Bytes) (i : Stream) : Prop where
  backup : fs' (nm (.backup i)) = none
  zero : fs' (nm (.backupGz 0 i)) = fs (nm (.output i))
  succ : ∀ j < N, fs' (nm (.backupGz (j + 1) i)) = fs (nm (.backupGz j i))

/-- The path `x` is none of the files of stream `i` with a number up to `N`. -/
def Apart (nm : LogFile → π) (N : ℕ) (x : π) (i : Stream) : Prop :=
  ∀ f : LogFile, f.stream = i → f.idx ≤ N → x ≠ nm f

omit hinj in
theorem fileBackup_apart {r : BackupRes} {i : Stream} {n : ℕ} (hn : n ≤ N) (fs : FileMap π Bytes)
    {x : π} (hx : Apart nm N x i) : aplogdIoFileBackup nm r i n fs x = fs x :=
  fileBackup_frame r fs (hx (.output i) rfl (Nat.zero_le N)) (hx (.backup i) rfl (Nat.zero_le N))
    fun j hj => hx (.backupGz j i) rfl (show j ≤ N by omega)

omit [DecidableEq π] in
theorem apart_of_stream_ne {f : LogFile} (hf : f.idx ≤ N) {i : Stream} (h : f.stream ≠ i) :
    Apart nm N (nm f) i := fun g hg hgN =>
  nm_ne hinj f g hf hgN fun he => h (by rw [he, hg])

/-- The loop over the streams shifts each of them once and touches nothing else. -/
theorem backupStreams_spec :
    ∀ (L : List Stream) (n : ℕ) (fs : FileMap π Bytes), L.Nodup → n + L.length ≤ N →
      (∀ i ∈ L, fs (nm (.backup i)) = none) →
      (∀ i ∈ L, ∀ j, n ≤ j → j ≤ N → fs (nm (.backupGz j i)) = none) →
      (backupStreams nm (fun _ => .ok) L (n, fs)).1 = n + L.length ∧
      (∀ i ∈ L, Shifted nm N fs (backupStreams nm (fun _ => .ok) L (n, fs)).2 i) ∧
      ∀ x, (∀ i ∈ L, Apart nm N x i) → (backupStreams nm (fun _ => .ok) L (n, fs)).2 x = fs x
  | [], n, fs, _, _, _, _ => ⟨rfl, by simp, fun _ _ => rfl⟩
  | i :: L, n, fs, hnd, hlen, hb, hgz => by
    obtain ⟨hi, hnd⟩ := List.nodup_cons.mp hnd
    rw [List.length_cons] at hlen
    rw [backupStreams]
    set fs' := aplogdIoFileBackup nm .ok i n fs with hfs'
    have hspec := fileBackup_spec hinj i (by omega) fs (hgz i (by simp)) (hb i (by simp))
    -- the first file backup leaves the files of the later streams alone
    have hlater : ∀ f : LogFile, f.idx ≤ N → f.stream ∈ L → fs' (nm f) = fs (nm f) :=
      fun f hf hfL =>
      fileBackup_apart (by omega) fs
        (apart_of_stream_ne hinj hf fun he => hi (by rw [← he]; exact hfL))
    obtain ⟨hcount, hshift, hframe⟩ := backupStreams_spec L (n + 1) fs' hnd (by omega)
      (fun k hk => by
        rw [hlater (.backup k) (Nat.zero_le N) hk, hb k (by simp [hk])])
      (fun k hk j hj hjN => by
        rw [hlater (.backupGz j k) hjN hk, hgz k (by simp [hk]) j (by omega) hjN])
    refine ⟨by rw [hcount, List.length_cons]; omega, ?_, ?_⟩
    · intro k hk
      rcases List.mem_cons.mp hk with rfl | hk
      · -- and the later ones leave the files of the first stream alone
        have hkeep : ∀ f : LogFile, f.idx ≤ N → f.stream = k →
            (backupStreams nm (fun _ => .ok) L (n + 1, fs')).2 (nm f) = fs' (nm f) :=
            fun f hf hfk =>
          hframe _ fun l hl => apart_of_stream_ne hinj hf fun he => hi (by rw [← hfk, he]; exact hl)
        refine ⟨?_, ?_, ?_⟩
        · rw [hkeep (.backup k) (Nat.zero_le N) rfl]
          exact hspec.1
        · rw [hkeep (.backupGz 0 k) (Nat.zero_le N) rfl]
          exact hspec.2.1
        · intro j hj
          rw [hkeep (.backupGz (j + 1) k) hj rfl]
          exact hspec.2.2 j hj
      · have h := hshift k hk
        refine ⟨h.backup, ?_, ?_⟩
        · rw [h.zero, hlater (.output k) (Nat.zero_le N) hk]
        · intro j hj
          rw [h.succ j hj, hlater (.backupGz j k) (show j ≤ N by omega) hk]
    · intro x hx
      rw [hframe x fun k hk => hx k (by simp [hk])]
      exact fileBackup_apart (by omega) fs (hx i (by simp))

theorem setOutputs_output (c : Stream → Option Bytes) (fs : FileMap π Bytes) (i : Stream) :
    setOutputs nm c fs (nm (.output i)) = c i := by
  unfold setOutputs
  cases hf : Stream.all.find? fun k => nm (.output k) = nm (.output i) with
  | none => simpa using List.find?_eq_none.mp hf i i.mem_all
  | some k =>
    have hk : nm (.output k) = nm (.output i) := by simpa using List.find?_some hf
    have := hinj (.output k) (.output i) (Nat.zero_le N) (Nat.zero_le N) hk
    rw [LogFile.output.inj this]

omit hinj in
theorem setOutputs_of_ne (c : Stream → Option Bytes) (fs : FileMap π Bytes) {x : π}
    (h : ∀ i, x ≠ nm (.output i)) : setOutputs nm c fs x = fs x := by
  have : (Stream.all.find? fun i => nm (.output i) = x) = none :=
    List.find?_eq_none.mpr fun i _ => by simpa using (h i).symm
  rw [setOutputs, this]

/-- **Any number of rotations**: from a directory without backups, after `r` rotations backup `j` of
a stream is what its output held at the rotation `r - j`. -/
theorem rotations_spec (c : ℕ → Stream → Option Bytes) (n₀ : ℕ) (fs₀ : FileMap π Bytes)
    (hb : ∀ i, fs₀ (nm (.backup i)) = none)
    (hgz : ∀ i, ∀ j ≤ N, fs₀ (nm (.backupGz j i)) = none) :
    ∀ r : ℕ, n₀ + 5 * r ≤ N →
      (rotations nm c r (n₀, fs₀)).1 = n₀ + 5 * r ∧
      (∀ i, (rotations nm c r (n₀, fs₀)).2 (nm (.backup i)) = none) ∧
      (∀ i, ∀ j ≤ N, (rotations nm c r (n₀, fs₀)).2 (nm (.backupGz j i)) =
        if j < r then c (r - 1 - j) i else none) ∧
      ∀ x, (∀ i, Apart nm N x i) → (rotations nm c r (n₀, fs₀)).2 x = fs₀ x
  | 0, _ => ⟨rfl, hb, fun i j hj => hgz i j hj, fun _ _ => rfl⟩
  | r + 1, hr => by
    obtain ⟨hn, hbk, hz, hfr⟩ := rotations_spec c n₀ fs₀ hb hgz r (by omega)
    simp only [rotations, aplogdIoBackupall]
    set x := rotations nm c r (n₀, fs₀)
    set fs := setOutputs nm (c r) x.2 with hfs
    have hbk' : ∀ i, fs (nm (.backup i)) = none := by
      intro i
      rw [← hbk i]
      exact setOutputs_of_ne _ _ fun k => nm_ne hinj (.backup i) (.output k) (Nat.zero_le N)
        (Nat.zero_le N) (by simp)
    have hz' : ∀ i, ∀ j ≤ N, fs (nm (.backupGz j i)) = if j < r then c (r - 1 - j) i else none :=
      fun i j hj => by
        rw [← hz i j hj]
        exact setOutputs_of_ne _ _ fun k => nm_ne hinj (.backupGz j i) (.output k) hj
          (Nat.zero_le N) (by simp)
    -- the counter is above every backup, because it grows by five where they grow by one
    obtain ⟨hcount, hshift, hframe⟩ := backupStreams_spec hinj Stream.all x.1 fs (by decide)
      (by simp only [hn, Stream.all, List.length_cons, List.length_nil]; omega) (fun i _ => hbk' i)
      (fun i _ j hj hjN => by rw [hz' i j hjN, if_neg (by omega)])
    refine ⟨by rw [hcount, hn]; rfl, fun i => (hshift i i.mem_all).backup, fun i j hj => ?_,
      fun y hy => ?_⟩
    · cases j with
      | zero =>
        rw [(hshift i i.mem_all).zero, hfs, setOutputs_output hinj]
        simp
      | succ j =>
        rw [(hshift i i.mem_all).succ j (by omega), hz' i j (by omega)]
        simp only [Nat.add_lt_add_iff_right, Nat.add_sub_cancel]
        rw [show r - (j + 1) = r - 1 - j by omega]
    · rw [hframe y fun i _ => hy i, hfs, setOutputs_of_ne _ _ fun i => hy i (.output i) rfl
        (Nat.zero_le N), hfr y hy]

end Spec

/-! ## The names the code prints -/

/-- The name of a file in the directory of the storage. -/
def fileName : LogFile → CStr
  | .output i => outputFilename i
  | .backup i => "backup.".toList ++ (CStr.dec 0 ++ '.' :: outputFilename i)
  | .backupGz n i => "backup.".toList ++ (CStr.dec n ++ '.' :: (outputFilename i ++ ".gz".toList))

def fullName (dir : CStr) (f : LogFile) : CStr := dir ++ '/' :: fileName f

/-- The path `aplogd_io_file_backup` prints for a file, in its buffer of `MAX_PATH_LEN` bytes. -/
def path (dir : CStr) (f : LogFile) : CStr :=
  CStr.snprintf maxPathLen (fullName (CStr.snprintf maxPathLen dir) f)

/-- The paths of the files with a number up to `N` fit `MAX_PATH_LEN`. -/
def Fits (dir : CStr) (N : ℕ) : Prop :=
  ∀ f : LogFile, f.idx ≤ N → (fullName dir f).length < maxPathLen

theorem outputFilename_letter (i : Stream) : (outputFilename i)[4]? = some i.letter := by
  cases i <;> decide

theorem outputFilename_length (i : Stream) :
    12 ≤ (outputFilename i).length ∧ (outputFilename i).length ≤ 14 := by
  cases i <;> decide

theorem outputFilename_injective : Function.Injective outputFilename := by
  intro i k h
  have hl := outputFilename_letter i
  rw [h, outputFilename_letter k, Option.some.injEq] at hl
  cases i <;> cases k <;> first | rfl | exact absurd hl (by decide)

theorem outputFilename_ne_gz (i k : Stream) :
    outputFilename i ≠ outputFilename k ++ ".gz".toList := by
  intro h
  have hlen := congrArg List.length h
  have hi := (outputFilename_length i).2
  have hk := (outputFilename_length k).1
  rw [List.length_append, show ".gz".toList.length = 3 by decide] at hlen
  omega

/-- No output file has the name of a backup. -/
theorem outputFilename_ne_backup (i : Stream) (s : CStr) :
    outputFilename i ≠ "backup.".toList ++ s := by
  intro h
  have hhead : (outputFilename i).head? = some 'l' := by cases i <;> decide
  rw [h] at hhead
  simp at hhead

theorem fileName_injective : Function.Injective fileName := by
  intro f g h
  cases f with
  | output i =>
    cases g with
    | output k => rw [outputFilename_injective h]
    | backup k => exact absurd h (outputFilename_ne_backup i _)
    | backupGz m k => exact absurd h (outputFilename_ne_backup i _)
  | backup i =>
    cases g with
    | output k => exact absurd h.symm (outputFilename_ne_backup k _)
    | backup k =>
      obtain ⟨-, hname⟩ := CStr.dec_append_inj (by decide) (List.append_cancel_left h)
      rw [outputFilename_injective hname]
    | backupGz m k =>
      obtain ⟨-, hname⟩ := CStr.dec_append_inj (by decide) (List.append_cancel_left h)
      exact absurd hname (outputFilename_ne_gz i k)
  | backupGz n i =>
    cases g with
    | output k => exact absurd h.symm (outputFilename_ne_backup k _)
    | backup k =>
      obtain ⟨-, hname⟩ := CStr.dec_append_inj (by decide) (List.append_cancel_left h)
      exact absurd hname.symm (outputFilename_ne_gz k i)
    | backupGz m k =>
      obtain ⟨hn, hname⟩ := CStr.dec_append_inj (by decide) (List.append_cancel_left h)
      rw [hn, outputFilename_injective (List.append_cancel_right hname)]

theorem fullName_inj {dir : CStr} {f g : LogFile} (h : fullName dir f = fullName dir g) : f = g :=
  fileName_injective (List.cons.inj (List.append_cancel_left h)).2

/-- Where the paths fit, nothing is cut off. -/
theorem path_eq {dir : CStr} {N : ℕ} (hfit : Fits dir N) {f : LogFile} (hf : f.idx ≤ N) :
    path dir f = fullName dir f := by
  have hlen := hfit f hf
  have hdir : CStr.snprintf maxPathLen dir = dir := by
    refine CStr.snprintf_of_lt ?_
    simp only [fullName, List.length_append] at hlen
    omega
  rw [path, hdir, CStr.snprintf_of_lt hlen]

/-- **Rotation keeps every backup.**  After `r` rotations from a directory without backups,
`backup.j.<name>.gz` holds for every `j < r` what the output file held at the rotation `r - j` (the
rotations `c` count from 0), and there is no other backup of the stream. -/
theorem backups_kept (dir : CStr) (n₀ r : ℕ) (c : ℕ → Stream → Option Bytes)
    (fs₀ : FileMap CStr Bytes) (hfit : Fits dir (n₀ + 5 * r))
    (hb : ∀ i, fs₀ (fullName dir (.backup i)) = none)
    (hgz : ∀ n i, fs₀ (fullName dir (.backupGz n i)) = none) (i : Stream) :
    (∀ j < r, (rotations (path dir) c r (n₀, fs₀)).2 (fullName dir (.backupGz j i)) =
      c (r - 1 - j) i) ∧
    (∀ j, r ≤ j → (rotations (path dir) c r (n₀, fs₀)).2 (fullName dir (.backupGz j i)) = none) ∧
    (rotations (path dir) c r (n₀, fs₀)).2 (fullName dir (.backup i)) = none := by
  have hpath : ∀ f : LogFile, f.idx ≤ n₀ + 5 * r → path dir f = fullName dir f := fun f hf =>
    path_eq hfit hf
  have hinj : ∀ f g : LogFile, f.idx ≤ n₀ + 5 * r → g.idx ≤ n₀ + 5 * r → path dir f = path dir g →
      f = g := fun f g hf hg h => fullName_inj (by rwa [hpath f hf, hpath g hg] at h)
  obtain ⟨-, hbk, hz, hfr⟩ := rotations_spec hinj c n₀ fs₀
    (fun k => by rw [hpath (.backup k) (Nat.zero_le _), hb])
    (fun k j hj => by rw [hpath (.backupGz j k) hj, hgz]) r le_rfl
  refine ⟨?_, ?_, ?_⟩
  · intro j hj
    rw [← hpath (.backupGz j i) (show j ≤ n₀ + 5 * r by omega), hz i j (by omega), if_pos hj]
  · intro j hj
    by_cases hjN : j ≤ n₀ + 5 * r
    · rw [← hpath (.backupGz j i) hjN, hz i j hjN, if_neg (by omega)]
    · -- a number the code never prints
      rw [hfr, hgz]
      intro k f _ hf he
      rw [hpath f hf] at he
      rw [← fullName_inj he] at hf
      exact hjN hf
  · rw [← hpath (.backup i) (Nat.zero_le _), hbk]

theorem fullName_backupGz_length (dir : CStr) (n : ℕ) (i : Stream) :
    (fullName dir (.backupGz n i)).length =
      dir.length + (CStr.dec n).length + (outputFilename i).length + 12 := by
  have hname : fileName (.backupGz n i) =
      "backup.".toList ++ (CStr.dec n ++ '.' :: (outputFilename i ++ ".gz".toList)) := rfl
  simp only [fullName, hname, List.length_append, List.length_cons]
  rw [show "backup.".toList.length = 7 by decide, show ".gz".toList.length = 3 by decide]
  omega

theorem fits_dataLogger : Fits "/data/logger".toList 15 := by
  rintro (k | k | ⟨n, k⟩) hf
  · cases k <;> decide
  · cases k <;> decide
  · have hn : n ≤ 15 := hf
    have hdec : (CStr.dec n).length ≤ 2 := by interval_cases n <;> decide
    have hk := (outputFilename_length k).2
    have hdir : "/data/logger".toList.length = 12 := by decide
    rw [fullName_backupGz_length, hdir, maxPathLen]
    omega

/-- Three rotations in `/data/logger`, the counter starting at 0. -/
theorem backups_kept_dataLogger :
    (rotations (path "/data/logger".toList) (fun k _ => some (List.replicate k 65)) 3
      (0, fun _ => none)).2 (fullName "/data/logger".toList (.backupGz 0 .radio)) = some [65, 65] :=
  (backups_kept "/data/logger".toList 0 3 (fun k _ => some (List.replicate k 65)) (fun _ => none)
    fits_dataLogger (fun _ => rfl) (fun _ _ => rfl) .radio).1 0 (Nat.zero_lt_succ 2)

end Omap4.Aplogd
