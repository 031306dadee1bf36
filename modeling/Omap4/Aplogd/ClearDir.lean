import Omap4.Aplogd.BackupDirs

/-!
# Omap4.Aplogd.ClearDir — when `aplogd_util_cleardir` ends

The loop counts the backup folders, removes the oldest one and starts over as long as there are more
than the limit allows.  Three things can keep it from ending.  `aplogd_remove_dir` does not look at
the results of `unlink` and `rmdir` and returns 0 for a folder that is still there.  The limit is
parsed with `atoi` into an `unsigned int`, of which only 0 is rejected, and passed on as an `int`:
no number of folders is below a negative one.  And a folder whose number is `LONG_MAX` is counted
but never chosen.

What a round does depends on two numbers only, that of the folders and that of those which can be
chosen (`isSome_succ`), and each removal takes one off both.  From this the exact condition follows
(`cleardir_ends_iff`).
-/

namespace Omap4.Aplogd.BackupDirs

/-! ## The limit and the removal of a folder -/

/-- `usr_cfg_backup` after `-b optarg`. -/
def parseBackup (optarg : CStr) : ℕ :=
  if (CStr.atoi optarg % 2 ^ 32).toNat = 0 then 10 else (CStr.atoi optarg % 2 ^ 32).toNat

/-- What is in a folder, with the outcomes of the calls on it. -/
inductive Node
  | file (lstats unlinks : Bool)
  | dir (lstats opens rmdirs : Bool) (entries : List Node)

def Node.lstats : Node → Bool
  | .file lstats _ | .dir lstats _ _ _ => lstats

mutual

/-- `aplogd_remove_dir` of a folder, and `unlink` of what is none. -/
def aplogdRemoveDir : Node → RemoveRes
  | .file _ unlinks => if unlinks then .removed else .stays
  | .dir _ opens rmdirs entries =>
    if !opens then .error
    else match removeEntries entries with
      | none => .error
      | some gone => if gone && rmdirs then .removed else .stays

/-- The loop over the entries: whether all of them are gone, if it runs to its end. -/
def removeEntries : List Node → Option Bool
  | [] => some true
  | n :: ns =>
    if !n.lstats then none
    else (removeEntries ns).map fun gone => gone && (aplogdRemoveDir n = .removed)

end

theorem removeEntries_isNone_iff (ns : List Node) :
    removeEntries ns = none ↔ ∃ n ∈ ns, n.lstats = false := by
  induction ns with
  | nil => simp [removeEntries]
  | cons n ns ih =>
    cases hn : n.lstats with
    | false => simp [removeEntries, hn]
    | true => simp [removeEntries, hn, ih]

/-- A folder that cannot be removed is no error. -/
theorem aplogdRemoveDir_error_iff (lstats opens rmdirs : Bool) (entries : List Node) :
    aplogdRemoveDir (.dir lstats opens rmdirs entries) = .error ↔
      opens = false ∨ ∃ n ∈ entries, n.lstats = false := by
  rw [← removeEntries_isNone_iff]
  cases opens with
  | false => simp [aplogdRemoveDir]
  | true =>
    cases h : removeEntries entries with
    | none => simp [aplogdRemoveDir, h]
    | some gone =>
      simp only [aplogdRemoveDir, h, Bool.not_true, Bool.false_eq_true, if_false,
        false_or, reduceCtorEq, iff_false]
      split_ifs <;> simp

/-! ## One round -/

/-- The folders that a scan can choose. -/
def choices (l : List Entry) : List Entry := (folders l).filter fun e => dirNum e.name < longMax

theorem choices_erase (l : List Entry) (e : Entry) : choices (l.erase e) = (choices l).erase e := by
  unfold choices
  rw [folders_erase]
  exact (List.erase_filter ..).symm

theorem scan_count (o : ClearRes) (k ret : ℕ) (d : Dir) :
    (scan o k ret d).count = (folders d.entries).length := by
  rw [(scan_spec o k ret d).count]
  exact Nat.zero_add _

/-- A folder is chosen only for a number below `LONG_MAX`. -/
theorem scan_oldest_lt (o : ClearRes) (k ret : ℕ) (d : Dir) {e : Entry}
    (h : (scan o k ret d).oldest = some e) : dirNum e.name < longMax := by
  have hinv : (scan o k ret d).tNum ≤ longMax ∧
      ∀ e, (scan o k ret d).oldest = some e → dirNum e.name < longMax := by
    refine List.foldlRecOn (o.order k d.entries) scanEntry (b := ⟨0, none, longMax, ret⟩)
      (motive := fun s => s.tNum ≤ longMax ∧ ∀ e, s.oldest = some e → dirNum e.name < longMax)
      ⟨Nat.le_refl longMax, nofun⟩ fun s hs f _ => ?_
    unfold scanEntry
    by_cases hf : (isBackupName f.name && f.isDir) = true
    · rw [if_pos hf]
      by_cases hlt : dirNum f.name < s.tNum
      · simp only [if_pos hlt, Option.some.injEq]
        refine ⟨hlt.le.trans hs.1, ?_⟩
        rintro _ rfl
        exact hlt.trans_le hs.1
      · simp only [if_neg hlt]
        exact hs
    · rw [if_neg hf]
      exact hs
  exact hinv.2 e h

/-- A folder is chosen unless there is none that can be. -/
theorem scan_oldest (o : ClearRes) (k ret : ℕ) (d : Dir) :
    (choices d.entries = [] ∧ (scan o k ret d).oldest = none) ∨
      ∃ e ∈ choices d.entries, (scan o k ret d).oldest = some e := by
  have h := scan_spec o k ret d
  rcases h.oldest with ⟨hnone, htop⟩ | ⟨e, he, hsome, -⟩
  · refine .inl ⟨List.filter_eq_nil_iff.mpr fun f hf => ?_, hnone⟩
    have hmin := h.tNum_min f hf
    rw [htop] at hmin
    simpa using hmin
  · exact .inr ⟨e, List.mem_filter.mpr ⟨he, decide_eq_true (scan_oldest_lt o k ret d hsome)⟩, hsome⟩

/-- The loop ends in round `k`, with `c` folders of which `m` can be chosen. -/
def EndsAt (o : ClearRes) (maxCount : ℤ) (k c m : ℕ) : Prop :=
  (c : ℤ) < maxCount ∨ o.opendir k = false ∨ o.stat k = false ∨
    0 < m ∧ (o.remove k = .error ∨ (c : ℤ) ≤ maxCount)

/-- A folder is removed in round `k`. -/
def Removes (o : ClearRes) (k m : ℕ) : Prop := 0 < m ∧ o.remove k = .removed

instance (o : ClearRes) (k m : ℕ) : Decidable (Removes o k m) := inferInstanceAs (Decidable (_ ∧ _))

/-- The directory after round `k`, if the loop goes on. -/
def nextDir (o : ClearRes) (k ret : ℕ) (d : Dir) : Dir :=
  match (scan o k ret d).oldest, o.remove k with
  | some e, .removed => d.erase e
  | _, _ => d

/-- A removal takes one off both numbers. -/
theorem length_nextDir (o : ClearRes) (k ret : ℕ) (d : Dir) :
    (folders (nextDir o k ret d).entries).length =
        (folders d.entries).length - (if Removes o k (choices d.entries).length then 1 else 0) ∧
      (choices (nextDir o k ret d).entries).length =
        (choices d.entries).length - (if Removes o k (choices d.entries).length then 1 else 0) := by
  rcases scan_oldest o k ret d with ⟨hnil, hold⟩ | ⟨e, he, hold⟩
  · simp [nextDir, hold, Removes, hnil]
  · have hpos : 0 < (choices d.entries).length := List.length_pos_of_mem he
    have hfolder : e ∈ folders d.entries := List.mem_of_mem_filter he
    cases hrm : o.remove k with
    | removed =>
      have hnext : nextDir o k ret d = d.erase e := by rw [nextDir, hold, hrm]
      rw [hnext, if_pos ⟨hpos, hrm⟩]
      constructor
      · rw [← List.length_erase_of_mem hfolder, ← folders_erase]
        rfl
      · rw [← List.length_erase_of_mem he, ← choices_erase]
        rfl
    | stays | error => simp [nextDir, hold, hrm, Removes]

/-- **Step lemma**: a round ends the loop, or leads to the next one. -/
theorem isSome_succ (o : ClearRes) (maxCount : ℤ) (fuel k ret : ℕ) (d : Dir) :
    (aplogdUtilCleardir o maxCount (fuel + 1) k ret d).isSome = true ↔
      EndsAt o maxCount k (folders d.entries).length (choices d.entries).length ∨
        (aplogdUtilCleardir o maxCount fuel (k + 1) (scan o k ret d).ret
          (nextDir o k ret d)).isSome = true := by
  rw [aplogdUtilCleardir, scan_count]
  unfold EndsAt
  by_cases hcall : (!o.opendir k || !o.stat k) = true
  · rw [if_pos hcall]
    have hfails : o.opendir k = false ∨ o.stat k = false := by simpa using hcall
    exact iff_of_true rfl
      (.inl (hfails.elim (fun h => .inr (.inl h)) fun h => .inr (.inr (.inl h))))
  rw [if_neg hcall]
  have hcalls : o.opendir k = true ∧ o.stat k = true := by simpa using hcall
  by_cases hlim : maxCount - 1 < ((folders d.entries).length : ℤ)
  · rw [if_pos hlim]
    have hge : ¬ ((folders d.entries).length : ℤ) < maxCount := by omega
    rcases scan_oldest o k ret d with ⟨hnil, hold⟩ | ⟨e, he, hold⟩
    · simp [nextDir, hold, hnil, hcalls, hge]
    · have hpos : 0 < (choices d.entries).length := List.length_pos_of_mem he
      have hlast : maxCount - 1 < ((folders d.entries).length : ℤ) - 1 ↔
          ¬ ((folders d.entries).length : ℤ) ≤ maxCount := by omega
      cases hrm : o.remove k with
      | error => simp [hold, hpos]
      | stays | removed =>
        by_cases hle : ((folders d.entries).length : ℤ) ≤ maxCount
        · simp [hold, hpos, hlast, hle]
        · simp [nextDir, hold, hrm, hcalls, hge, hlast, hle]
  · rw [if_neg hlim]
    exact iff_of_true rfl (.inl (.inl (by omega)))

/-! ## All rounds -/

/-- The removals that work among the `j` rounds from `k` on. -/
def removals (o : ClearRes) (k : ℕ) : ℕ → ℕ
  | 0 => 0
  | j + 1 => (if o.remove k = .removed then 1 else 0) + removals o (k + 1) j

/-- The loop ends in the round `j` after round `k`, where it had `c` folders of which `m` could be
chosen. -/
def EndsAfter (o : ClearRes) (maxCount : ℤ) (k c m j : ℕ) : Prop :=
  o.opendir (k + j) = false ∨ o.stat (k + j) = false ∨
    removals o k j < m ∧ (o.remove (k + j) = .error ∨ (c : ℤ) ≤ maxCount + removals o k j)

theorem endsAt_iff (o : ClearRes) (maxCount : ℤ) (k c m : ℕ) :
    EndsAt o maxCount k c m ↔ (c : ℤ) < maxCount ∨ EndsAfter o maxCount k c m 0 := by
  unfold EndsAt EndsAfter
  simp [removals]

/-- The round `j` after the next one is the round `j + 1` after this one. -/
theorem endsAfter_succ (o : ClearRes) (maxCount : ℤ) {k c m : ℕ} (j : ℕ) (hm : m ≤ c) :
    EndsAfter o maxCount k c m (j + 1) ↔
      EndsAfter o maxCount (k + 1) (c - (if Removes o k m then 1 else 0))
        (m - (if Removes o k m then 1 else 0)) j := by
  have hround : k + (j + 1) = k + 1 + j := by omega
  unfold EndsAfter Removes
  rw [hround, removals]
  by_cases hrm : o.remove k = .removed
  · simp only [hrm, and_true, if_true]
    rcases Nat.eq_zero_or_pos m with rfl | hpos
    · simp
    · have hlt : 1 + removals o (k + 1) j < m ↔ removals o (k + 1) j < m - 1 := by omega
      have hcount : (c : ℤ) ≤ maxCount + ((1 + removals o (k + 1) j : ℕ) : ℤ) ↔
          ((c - 1 : ℕ) : ℤ) ≤ maxCount + removals o (k + 1) j := by omega
      rw [if_pos hpos, hlt, hcount]
  · simp [hrm]

/-- **Run lemma**: when the loop ends that starts in round `k`. -/
theorem isSome_iff (o : ClearRes) (maxCount : ℤ) (k ret : ℕ) (d : Dir) :
    (∃ fuel, (aplogdUtilCleardir o maxCount fuel k ret d).isSome = true) ↔
      ((folders d.entries).length : ℤ) < maxCount ∨
        ∃ j, EndsAfter o maxCount k (folders d.entries).length (choices d.entries).length j := by
  have hle : ∀ d : Dir, (choices d.entries).length ≤ (folders d.entries).length :=
    fun d => List.length_filter_le _ _
  constructor
  · rintro ⟨fuel, h⟩
    induction fuel generalizing k ret d with
    | zero => cases h
    | succ fuel ih =>
      obtain ⟨hcount, hchoices⟩ := length_nextDir o k ret d
      rcases (isSome_succ o maxCount fuel k ret d).mp h with hend | hgo
      · exact ((endsAt_iff ..).mp hend).imp_right fun h => ⟨0, h⟩
      rcases ih _ _ _ hgo with hfew | ⟨j, hj⟩
      · -- a removal has made room, and the loop need not look again
        rw [hcount] at hfew
        by_cases hrm : Removes o k (choices d.entries).length
        · rw [if_pos hrm] at hfew
          have hpos := hle d
          have hm := hrm.1
          exact .inr ⟨0, .inr (.inr ⟨hm, .inr (by rw [removals]; omega)⟩)⟩
        · rw [if_neg hrm] at hfew
          exact .inl hfew
      · rw [hcount, hchoices, ← endsAfter_succ o maxCount j (hle d)] at hj
        exact .inr ⟨j + 1, hj⟩
  · rintro (hfew | ⟨j, hj⟩)
    · exact ⟨1, (isSome_succ ..).mpr (.inl (.inl hfew))⟩
    induction j generalizing k ret d with
    | zero => exact ⟨1, (isSome_succ ..).mpr (.inl ((endsAt_iff ..).mpr (.inr hj)))⟩
    | succ j ih =>
      obtain ⟨hcount, hchoices⟩ := length_nextDir o k ret d
      rw [endsAfter_succ o maxCount j (hle d), ← hcount, ← hchoices] at hj
      obtain ⟨fuel, hsome⟩ := ih (k + 1) (scan o k ret d).ret (nextDir o k ret d) hj
      exact ⟨fuel + 1, (isSome_succ ..).mpr (.inr hsome)⟩

/-- The limit that `-b` sets: what `atoi` returns, negative numbers included. -/
theorem toInt_parseBackup (optarg : CStr) :
    toInt (parseBackup optarg) = if CStr.atoi optarg = 0 then 10 else CStr.atoi optarg := by
  have hrange : -2147483648 ≤ CStr.atoi optarg ∧ CStr.atoi optarg ≤ 2147483647 := by
    unfold CStr.atoi
    split <;> omega
  unfold parseBackup toInt
  generalize CStr.atoi optarg = a at hrange ⊢
  split_ifs <;> omega

example : toInt (parseBackup "-1".toList) = -1 := by decide +kernel

/-- **When `aplogd_util_cleardir` ends**: there is room from the start, or in some round a call
fails with an error that is reported, or a folder is removed when no more than one has to go.  Round
`j` finds `removals o 0 j` folders less than the first one, which is why folders that stay keep it
from ending. -/
theorem cleardir_ends_iff (o : ClearRes) (optarg : CStr) (d : Dir) :
    (∃ fuel c, aplogdUtilCleardir o (toInt (parseBackup optarg)) fuel 0 0 d = some c) ↔
      ((folders d.entries).length : ℤ) < (if CStr.atoi optarg = 0 then 10 else CStr.atoi optarg) ∨
        ∃ j, o.opendir j = false ∨ o.stat j = false ∨
          removals o 0 j < (choices d.entries).length ∧
            (o.remove j = .error ∨
              ((folders d.entries).length : ℤ) ≤
                (if CStr.atoi optarg = 0 then 10 else CStr.atoi optarg) + removals o 0 j) := by
  have h := isSome_iff o (toInt (parseBackup optarg)) 0 0 d
  simp only [EndsAfter, Nat.zero_add, Option.isSome_iff_exists] at h
  rw [h, toInt_parseBackup]

/-- The calls on a card whose oldest folder holds a file that cannot be deleted. -/
def lockedFile : ClearRes where
  opendir := fun _ => true
  stat := fun _ => true
  order := fun _ l => l
  perm := fun _ l => List.Perm.refl l
  remove := fun _ => aplogdRemoveDir (.dir true true false [.file true false])

/-- With `-b 1` and two folders, of which the older one holds a file that cannot be deleted, the
loop never ends. -/
theorem cleardir_locked_file :
    ¬ ∃ fuel c, aplogdUtilCleardir lockedFile (toInt (parseBackup "1".toList)) fuel 0 0
      ⟨[⟨"No.1_20120101000000".toList, true⟩, ⟨"No.2_20120102000000".toList, true⟩],
        by decide +kernel⟩ = some c := by
  rintro ⟨fuel, c, hc⟩
  have hlimit : toInt (parseBackup "1".toList) = 1 := by decide +kernel
  have hstay : ∀ k, lockedFile.remove k = .stays := fun _ => by
    simp [lockedFile, aplogdRemoveDir, removeEntries, Node.lstats]
  have hremovals : ∀ k j, removals lockedFile k j = 0 := by
    intro k j
    induction j generalizing k with
    | zero => rfl
    | succ j ih => rw [removals, ih, if_neg (by rw [hstay]; nofun)]
  have hsome := congrArg Option.isSome hc
  rcases (isSome_iff ..).mp ⟨fuel, hsome⟩ with hfew | ⟨j, hj | hj | ⟨-, hj | hj⟩⟩
  · rw [hlimit] at hfew
    exact absurd hfew (by decide +kernel)
  · cases hj
  · cases hj
  · rw [hstay] at hj
    cases hj
  · rw [hlimit, hremovals] at hj
    exact absurd hj (by decide +kernel)

end Omap4.Aplogd.BackupDirs
