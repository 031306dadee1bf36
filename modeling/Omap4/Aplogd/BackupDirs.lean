import Mathlib.Algebra.Group.Nat.Defs
import Mathlib.Algebra.Ring.Int.Defs
import Mathlib.Data.List.Nodup
import Mathlib.Data.List.Perm.Basic
import Omap4.Aplogd.Basic
import Omap4.Machine

/-!
# Omap4.Aplogd.BackupDirs — the backup folders of a card (`aplogd_log_save`, `aplogd_util_cleardir`)

A save compresses the logs of the last run and moves them to a new folder `No.<n>_<time>`.  Before,
`aplogd_util_cleardir` makes room: it scans the directory, removes the folder with the smallest
number and starts over, until less than `usr_cfg_backup` folders are left.  The number of a folder
is the first run of digits in its name.

A directory is a list of entries with distinct names; `readdir` returns them in some order, which
may be another one every time.  The loop of `aplogd_util_cleardir` need not end (a folder that
cannot be removed is found again), so its model has fuel.  `saves_lawful` is about every sequence of
daemon runs: a save whose calls succeed ends (any fuel above the number of folders gives the
result), creates a folder with a number above all others, leaves at most `usr_cfg_backup` folders,
and has removed no more folders than it takes to make room for one, always the ones with the
smallest numbers.
-/

namespace Omap4.Aplogd.BackupDirs

/-- `LONG_MAX`, where a `long` has 32 bits. -/
def longMax : ℕ := 2 ^ 31 - 1

structure Entry where
  name : CStr
  isDir : Bool
  deriving DecidableEq, Repr

/-- The entries of a directory besides `.` and `..`. -/
structure Dir where
  entries : List Entry
  nodup : (entries.map Entry.name).Nodup

/-! ## Numbers in names -/

/-- `filter_numstr`; `head` is `f_head`, set at the first digit. -/
def filterNumstr (head : Bool) : CStr → CStr
  | [] => []
  | c :: s =>
    if !c.isDigit && !head then filterNumstr head s
    else if c.isDigit then c :: filterNumstr true s
    else []

/-- `strtol` of a string of digits, base 10. -/
def strtol (s : CStr) : ℕ := min (Nat.ofDigitChars 10 s 0) longMax

def dirNum (name : CStr) : ℕ := strtol (filterNumstr false name)

/-- The number of a folder: the first run of digits in its name, 0 if there is none. -/
def number (name : CStr) : ℕ :=
  Nat.ofDigitChars 10 ((name.dropWhile fun c => !c.isDigit).takeWhile Char.isDigit) 0

theorem filterNumstr_true (s : CStr) : filterNumstr true s = s.takeWhile Char.isDigit := by
  induction s with
  | nil => rfl
  | cons c s ih =>
    by_cases hc : c.isDigit
    · simp [filterNumstr, hc, ih]
    · simp [filterNumstr, hc]

theorem filterNumstr_false (s : CStr) :
    filterNumstr false s = (s.dropWhile fun c => !c.isDigit).takeWhile Char.isDigit := by
  induction s with
  | nil => rfl
  | cons c s ih =>
    by_cases hc : c.isDigit
    · simp [filterNumstr, hc, filterNumstr_true]
    · simp [filterNumstr, hc, ih]

theorem dirNum_eq (name : CStr) : dirNum name = min (number name) longMax := by
  rw [dirNum, strtol, filterNumstr_false, number]

/-! ## `aplogd_util_cleardir` -/

/-- A name that the scan looks at. -/
def isBackupName (name : CStr) : Bool := (CStr.strstr "No.".toList name).isSome

/-- The backup folders of a directory. -/
def folders (l : List Entry) : List Entry := l.filter fun e => isBackupName e.name && e.isDir

/-- The variables of a scan. -/
structure Scan where
  count : ℕ
  oldest : Option Entry
  tNum : ℕ
  ret : ℕ

def scanEntry (s : Scan) (e : Entry) : Scan :=
  if isBackupName e.name && e.isDir then
    { count := s.count + 1
      oldest := if dirNum e.name < s.tNum then some e else s.oldest
      tNum := if dirNum e.name < s.tNum then dirNum e.name else s.tNum
      ret := if dirNum e.name > s.ret then dirNum e.name else s.ret }
  else s

/-- What `aplogd_remove_dir` does: it returns 0 whether or not the folder is gone. -/
inductive RemoveRes
  | removed
  | stays
  | error
  deriving DecidableEq, Repr

/-- The outcomes of round `k` of the loop: of `opendir`, of the `stat` calls, the order of `readdir`
and the removal. -/
structure ClearRes where
  opendir : ℕ → Bool
  stat : ℕ → Bool
  order : ℕ → List Entry → List Entry
  perm : ∀ k l, (order k l).Perm l
  remove : ℕ → RemoveRes

def Dir.erase (d : Dir) (e : Entry) : Dir where
  entries := d.entries.erase e
  nodup := d.nodup.sublist ((List.erase_sublist (a := e)).map _)

/-- The result of `aplogd_util_cleardir` (`none` for -1) with the directory and, for the record, the
folders that were removed. -/
structure Cleared where
  ret : Option ℕ
  dir : Dir
  removed : List Entry

/-- The scan of round `k`. -/
def scan (o : ClearRes) (k ret : ℕ) (d : Dir) : Scan :=
  (o.order k d.entries).foldl scanEntry ⟨0, none, longMax, ret⟩

/-- The `do .. while` loop from round `k` on; `none` if the fuel runs out. -/
def aplogdUtilCleardir (o : ClearRes) (maxCount : ℤ) : ℕ → ℕ → ℕ → Dir → Option Cleared
  | 0, _, _, _ => none
  | fuel + 1, k, ret, d =>
    if !o.opendir k || !o.stat k then some ⟨none, d, []⟩
    else if maxCount - 1 < (scan o k ret d).count then
      match (scan o k ret d).oldest with
      | none => aplogdUtilCleardir o maxCount fuel (k + 1) (scan o k ret d).ret d
      | some e =>
        match o.remove k with
        | .error => some ⟨none, d, []⟩
        | .stays =>
          if maxCount - 1 < ((scan o k ret d).count : ℤ) - 1 then
            aplogdUtilCleardir o maxCount fuel (k + 1) (scan o k ret d).ret d
          else some ⟨some (scan o k ret d).ret, d, []⟩
        | .removed =>
          if maxCount - 1 < ((scan o k ret d).count : ℤ) - 1 then
            (aplogdUtilCleardir o maxCount fuel (k + 1) (scan o k ret d).ret (d.erase e)).map
              fun c => { c with removed := e :: c.removed }
          else some ⟨some (scan o k ret d).ret, d.erase e, [e]⟩
    else some ⟨some (scan o k ret d).ret, d, []⟩

/-! ## One scan -/

/-- What the variables of a scan say about the folders in `l`, from `s` to `s'`. -/
structure ScanSpec (l : List Entry) (s s' : Scan) : Prop where
  count : s'.count = s.count + (folders l).length
  ret_le : s.ret ≤ s'.ret
  ret_max : ∀ e ∈ folders l, dirNum e.name ≤ s'.ret
  ret_mem : s'.ret = s.ret ∨ ∃ e ∈ folders l, s'.ret = dirNum e.name
  tNum_le : s'.tNum ≤ s.tNum
  tNum_min : ∀ e ∈ folders l, s'.tNum ≤ dirNum e.name
  oldest : (s'.oldest = s.oldest ∧ s'.tNum = s.tNum) ∨
    ∃ e ∈ folders l, s'.oldest = some e ∧ s'.tNum = dirNum e.name

theorem scanEntry_spec (e : Entry) (s : Scan) : ScanSpec [e] s (scanEntry s e) := by
  by_cases he : (isBackupName e.name && e.isDir) = true
  · rw [scanEntry, if_pos he]
    have hf : folders [e] = [e] := by simp [folders, Bool.and_eq_true_iff.mp he]
    refine ⟨by rw [hf]; rfl, ?_, ?_, ?_, ?_, ?_, ?_⟩ <;> simp only [hf, List.mem_singleton]
    · split_ifs <;> omega
    · rintro _ rfl
      split_ifs <;> omega
    · split_ifs
      · exact .inr ⟨e, rfl, rfl⟩
      · exact .inl rfl
    · split_ifs <;> omega
    · rintro _ rfl
      split_ifs <;> omega
    · split_ifs
      · exact .inr ⟨e, rfl, rfl, rfl⟩
      · exact .inl ⟨rfl, rfl⟩
  · rw [scanEntry, if_neg he]
    have hf : folders [e] = [] := by simpa [folders] using he
    exact ⟨by rw [hf]; rfl, le_rfl, by simp [hf], .inl rfl, le_rfl, by simp [hf], .inl ⟨rfl, rfl⟩⟩

theorem ScanSpec.append {l l' : List Entry} {s s' s'' : Scan} (h : ScanSpec l s s')
    (h' : ScanSpec l' s' s'') : ScanSpec (l ++ l') s s'' := by
  have hf : folders (l ++ l') = folders l ++ folders l' := List.filter_append ..
  refine ⟨?_, h.ret_le.trans h'.ret_le, ?_, ?_, h'.tNum_le.trans h.tNum_le, ?_, ?_⟩
  · rw [h'.count, h.count, hf, List.length_append, Nat.add_assoc]
  · intro e he
    rw [hf, List.mem_append] at he
    exact he.elim (fun he => (h.ret_max e he).trans h'.ret_le) (h'.ret_max e)
  · rw [hf]
    rcases h'.ret_mem with hr | ⟨e, he, hr⟩
    · rcases h.ret_mem with hr' | ⟨e, he, hr'⟩
      · exact .inl (hr.trans hr')
      · exact .inr ⟨e, List.mem_append_left _ he, hr.trans hr'⟩
    · exact .inr ⟨e, List.mem_append_right _ he, hr⟩
  · intro e he
    rw [hf, List.mem_append] at he
    exact he.elim (fun he => h'.tNum_le.trans (h.tNum_min e he)) (h'.tNum_min e)
  · rw [hf]
    rcases h'.oldest with ⟨ho, ht⟩ | ⟨e, he, ho, ht⟩
    · rcases h.oldest with ⟨ho', ht'⟩ | ⟨e, he, ho', ht'⟩
      · exact .inl ⟨ho.trans ho', ht.trans ht'⟩
      · exact .inr ⟨e, List.mem_append_left _ he, ho.trans ho', ht.trans ht'⟩
    · exact .inr ⟨e, List.mem_append_right _ he, ho, ht⟩

theorem foldl_scanEntry_spec : ∀ (l : List Entry) (s : Scan), ScanSpec l s (l.foldl scanEntry s)
  | [], s => ⟨rfl, le_rfl, by simp [folders], .inl rfl, le_rfl, by simp [folders], .inl ⟨rfl, rfl⟩⟩
  | e :: l, s => (scanEntry_spec e s).append (foldl_scanEntry_spec l (scanEntry s e))

theorem folders_perm {l l' : List Entry} (h : l.Perm l') : (folders l).Perm (folders l') :=
  h.filter _

/-- The scan does not depend on the order in which `readdir` returns the entries, except in which of
several folders with the smallest number it picks. -/
theorem scan_spec (o : ClearRes) (k ret : ℕ) (d : Dir) :
    ScanSpec d.entries ⟨0, none, longMax, ret⟩ (scan o k ret d) := by
  have hperm := folders_perm (o.perm k d.entries)
  have h := foldl_scanEntry_spec (o.order k d.entries) ⟨0, none, longMax, ret⟩
  have hcount := h.count
  rw [hperm.length_eq] at hcount
  refine ⟨hcount, h.ret_le, fun e he => h.ret_max e (hperm.mem_iff.mpr he),
    h.ret_mem.imp_right fun ⟨e, he, hr⟩ => ⟨e, hperm.mem_iff.mp he, hr⟩, h.tNum_le,
    fun e he => h.tNum_min e (hperm.mem_iff.mpr he),
    h.oldest.imp_right fun ⟨e, he, ho⟩ => ⟨e, hperm.mem_iff.mp he, ho⟩⟩

/-! ## The loop -/

/-- All calls of the loop succeed. -/
def ClearRes.Succeeds (o : ClearRes) : Prop :=
  ∀ k, o.opendir k = true ∧ o.stat k = true ∧ o.remove k = .removed

/-- What `aplogd_util_cleardir` has done to the directory `d` when it returns `c`; `b` is its limit,
`ret` what earlier rounds found. -/
structure ClearLaw (b ret : ℕ) (d : Dir) (c : Cleared) : Prop where
  ret : ∃ n, c.ret = some n ∧ ret ≤ n ∧ (∀ e ∈ folders d.entries, number e.name ≤ n) ∧
    (n = ret ∨ ∃ e ∈ folders d.entries, n = number e.name)
  sub : ∀ e ∈ c.dir.entries, e ∈ d.entries
  perm : (folders d.entries).Perm (c.removed ++ folders c.dir.entries)
  count : (folders c.dir.entries).length + 1 ≤ b
  few : c.removed.length ≤ (folders d.entries).length + 1 - b
  oldest : ∀ f ∈ c.removed, ∀ g ∈ folders c.dir.entries, number f.name ≤ number g.name

theorem folders_erase (l : List Entry) (e : Entry) : folders (l.erase e) = (folders l).erase e :=
  (List.erase_filter ..).symm

/-- With numbers in range, the first folder with the smallest number is found if there is one. -/
theorem exists_oldest (o : ClearRes) (k ret : ℕ) {d : Dir}
    (hnum : ∀ e ∈ folders d.entries, number e.name < longMax) (hne : folders d.entries ≠ []) :
    ∃ e ∈ folders d.entries, (scan o k ret d).oldest = some e ∧
      ∀ g ∈ folders d.entries, number e.name ≤ number g.name := by
  have h := scan_spec o k ret d
  have hdir : ∀ e ∈ folders d.entries, dirNum e.name = number e.name := by
    intro e he
    rw [dirNum_eq, min_eq_left (hnum e he).le]
  obtain ⟨f, hf⟩ := List.exists_mem_of_ne_nil _ hne
  rcases h.oldest with ⟨-, ht⟩ | ⟨e, he, ho, ht⟩
  · have hmin := h.tNum_min f hf
    rw [ht, hdir f hf] at hmin
    exact absurd (hnum f hf) (not_lt.mpr hmin)
  · refine ⟨e, he, ho, fun g hg => ?_⟩
    rw [← hdir e he, ← hdir g hg, ← ht]
    exact h.tNum_min g hg

/-- What the scans found is the largest number, of a folder or from before. -/
theorem scan_ret (o : ClearRes) (k ret : ℕ) {d : Dir}
    (hnum : ∀ e ∈ folders d.entries, number e.name < longMax) :
    ret ≤ (scan o k ret d).ret ∧ (∀ e ∈ folders d.entries, number e.name ≤ (scan o k ret d).ret) ∧
      ((scan o k ret d).ret = ret ∨ ∃ e ∈ folders d.entries,
        (scan o k ret d).ret = number e.name) := by
  have h := scan_spec o k ret d
  have hdir : ∀ e ∈ folders d.entries, dirNum e.name = number e.name := by
    intro e he
    rw [dirNum_eq, min_eq_left (hnum e he).le]
  refine ⟨h.ret_le, ?_, h.ret_mem.imp_right fun ⟨e, he, hr⟩ => ⟨e, he, ?_⟩⟩
  · intro e he
    rw [← hdir e he]
    exact h.ret_max e he
  · rw [← hdir e he]
    exact hr

/-- One removal followed by what the later rounds do. -/
theorem ClearLaw.cons {b ret ret' : ℕ} {d : Dir} {e : Entry} {c : Cleared}
    (he : e ∈ folders d.entries) (hmin : ∀ g ∈ folders d.entries, number e.name ≤ number g.name)
    (hcount : b ≤ (folders d.entries).length) (hret : ret ≤ ret')
    (hmax : ∀ e ∈ folders d.entries, number e.name ≤ ret')
    (hmem : ret' = ret ∨ ∃ e ∈ folders d.entries, ret' = number e.name)
    (h : ClearLaw b ret' (d.erase e) c) :
    ClearLaw b ret d { c with removed := e :: c.removed } := by
  have hfe : folders (d.erase e).entries = (folders d.entries).erase e := folders_erase _ e
  have hsub : ∀ g ∈ folders (d.erase e).entries, g ∈ folders d.entries := fun g hg =>
    List.mem_of_mem_erase (hfe ▸ hg)
  have hlen : (folders (d.erase e).entries).length + 1 = (folders d.entries).length := by
    have hpos := List.length_pos_of_mem he
    rw [hfe, List.length_erase_of_mem he]
    omega
  obtain ⟨n, hn, hle, hnmax, hnmem⟩ := h.ret
  refine ⟨⟨n, hn, hret.trans hle, fun g hg => (hmax g hg).trans hle, ?_⟩,
    fun g hg => List.mem_of_mem_erase (h.sub g hg), ?_, h.count, ?_, fun f hf g hg => ?_⟩
  · rcases hnmem with rfl | ⟨g, hg, rfl⟩
    · exact hmem
    · exact .inr ⟨g, hsub g hg, rfl⟩
  · have hperm := h.perm
    rw [hfe] at hperm
    exact (List.perm_cons_erase he).trans (hperm.cons e)
  · have hfew := h.few
    rw [List.length_cons]
    omega
  · rcases List.mem_cons.mp hf with rfl | hf
    · exact hmin g (hsub g (h.perm.mem_iff.mpr (List.mem_append_right _ hg)))
    · exact h.oldest f hf g hg

/-- **The loop ends and makes room for one folder**, removing those with the smallest numbers. -/
theorem aplogdUtilCleardir_spec {o : ClearRes} (ho : o.Succeeds) {b : ℕ} (hb : 1 ≤ b) :
    ∀ (fuel k ret : ℕ) (d : Dir), (folders d.entries).length < fuel →
      (∀ e ∈ folders d.entries, number e.name < longMax) →
      ∃ c, aplogdUtilCleardir o b fuel k ret d = some c ∧ ClearLaw b ret d c
  | 0, _, _, _, hfuel, _ => by omega
  | fuel + 1, k, ret, d, hfuel, hnum => by
    obtain ⟨hopen, hstat, hrm⟩ := ho k
    have hcount : (scan o k ret d).count = (folders d.entries).length := by
      rw [(scan_spec o k ret d).count]
      exact Nat.zero_add _
    obtain ⟨hret, hmax, hmem⟩ := scan_ret o k ret hnum
    unfold aplogdUtilCleardir
    rw [if_neg (by simp [hopen, hstat]), hcount, hrm]
    by_cases hlim : (folders d.entries).length < b
    · -- there is room already
      rw [if_neg (by omega)]
      exact ⟨_, rfl, ⟨_, rfl, hret, hmax, hmem⟩, fun _ h => h, .refl _, hlim, by simp, by simp⟩
    · obtain ⟨e, he, hold, hmin⟩ := exists_oldest o k ret hnum
        (List.ne_nil_of_length_pos (by omega))
      have hfe : folders (d.erase e).entries = (folders d.entries).erase e := folders_erase _ e
      have hlen : (folders (d.erase e).entries).length = (folders d.entries).length - 1 := by
        rw [hfe, List.length_erase_of_mem he]
      rw [if_pos (by omega), hold]
      simp only
      split_ifs with hmore
      · obtain ⟨c, hc, hlaw⟩ := aplogdUtilCleardir_spec ho hb fuel (k + 1) (scan o k ret d).ret
          (d.erase e) (by omega) fun g hg => hnum g (List.mem_of_mem_erase (hfe ▸ hg))
        exact ⟨_, by rw [hc]; rfl, hlaw.cons he hmin (by omega) hret hmax hmem⟩
      · -- the last removal: what follows it is a round that finds room
        have hdone : ClearLaw b (scan o k ret d).ret (d.erase e)
            ⟨some (scan o k ret d).ret, d.erase e, []⟩ :=
          ⟨⟨_, rfl, le_rfl, fun g hg => hmax g (List.mem_of_mem_erase (hfe ▸ hg)), .inl rfl⟩,
            fun _ h => h, .refl _, by rw [hlen]; omega, by simp, by simp⟩
        exact ⟨_, rfl, hdone.cons he hmin (by omega) hret hmax hmem⟩

/-! ## `aplogd_log_save` -/

def Dir.has (d : Dir) (name : CStr) : Bool := d.entries.any fun e => e.name = name

def Dir.removeName (d : Dir) (name : CStr) : Dir where
  entries := d.entries.filter fun e => e.name ≠ name
  nodup := d.nodup.sublist (List.filter_sublist.map _)

/-- Adds an entry, in the place of one of the same name. -/
def Dir.put (d : Dir) (e : Entry) : Dir where
  entries := e :: (d.removeName e.name).entries
  nodup := by
    rw [List.map_cons, List.nodup_cons]
    refine ⟨?_, (d.removeName e.name).nodup⟩
    simp [Dir.removeName]

def aplogdUtilGzip (ok : Bool) (name : CStr) (d : Dir) : Dir :=
  if ok then (d.removeName name).put ⟨name ++ ".gz".toList, false⟩ else d

def mkdir (name : CStr) (d : Dir) : Dir := if d.has name then d else d.put ⟨name, true⟩

def isGzName (name : CStr) : Bool := (CStr.strstr ".gz".toList name).isSome

/-- `aplogd_util_move` of what contains `.gz`, files and folders; `moved` is what does leave. -/
def aplogdUtilMove (moved : Entry → Bool) (d : Dir) : Dir where
  entries := d.entries.filter fun e => !(isGzName e.name && moved e)
  nodup := d.nodup.sublist (List.filter_sublist.map _)

/-- The fields of `struct tm` as they are printed. -/
structure Tm where
  year : ℕ
  mon : ℕ
  mday : ℕ
  hour : ℕ
  min : ℕ
  sec : ℕ

/-- `%02d`. -/
def dec2 (n : ℕ) : CStr := if n < 10 then '0' :: CStr.dec n else CStr.dec n

def stamp (t : Tm) : CStr :=
  CStr.dec t.year ++ dec2 t.mon ++ dec2 t.mday ++ dec2 t.hour ++ dec2 t.min ++ dec2 t.sec

/-- The name in `bak_dir`, for the result of `aplogd_util_cleardir` and of `localtime`. -/
def bakName : Option ℕ → Option Tm → CStr
  | some n, some t => "No.".toList ++ (CStr.dec ((n + 1) % longMax) ++ '_' :: stamp t)
  | _, _ => "last".toList

structure State where
  /-- the directories `g_output_path` -/
  dirs : Storage → Dir
  /-- the folder `last` of the user data -/
  last : Dir
  usrCfgBackup : ℕ
  /-- the static `backup_flag` -/
  backupFlag : Storage → Bool
  /-- the folders that the last save removed (not in the code) -/
  removed : List Entry

/-- The outcomes for a save: `freeBytes` is `f_bfree * f_bsize`, `none` if `statfs` fails. -/
structure SaveRes where
  access : Bool
  freeBytes : Option ℕ
  clear : ClearRes
  fuel : ℕ
  time : Option Tm
  gzip : Stream → Bool
  moved : Entry → Bool

/-- `usr_cfg_backup` after the check of the free space (`DEFAULT_USR_CFG_MAX_DIR_COUNT`). -/
def checkSpace (r : SaveRes) (usrCfgBackup : ℕ) : ℕ :=
  match r.freeBytes with
  | some free => if free < 1024 * 1024 * 1024 then 10 else usrCfgBackup
  | none => usrCfgBackup

/-- An `unsigned int` passed as an `int`. -/
def toInt (n : ℕ) : ℤ := if n < 2 ^ 31 then n else n - 2 ^ 32

def gzipLogs (r : SaveRes) (d : Dir) : Dir :=
  Stream.all.foldl (fun d i =>
    if d.has (outputFilename i) then aplogdUtilGzip (r.gzip i) (outputFilename i) d else d) d

/-- What follows `aplogd_util_cleardir`: nothing if there is no log. -/
def saveLogs (r : SaveRes) (c : Cleared) : Dir :=
  if Stream.all.all fun i => !c.dir.has (outputFilename i) then c.dir
  else aplogdUtilMove r.moved (mkdir (bakName c.ret r.time) (gzipLogs r c.dir))

/-- The branch for a card. -/
def saveCard (r : SaveRes) (st : Storage) (s : State) : Option State :=
  if s.backupFlag st || !r.access then some { s with removed := [] }
  else
    (aplogdUtilCleardir r.clear (toInt (checkSpace r s.usrCfgBackup)) r.fuel 0 0 (s.dirs st)).map
      fun c => { s with
        dirs := Function.update s.dirs st (saveLogs r c)
        usrCfgBackup := checkSpace r s.usrCfgBackup
        backupFlag := Function.update s.backupFlag st true
        removed := c.removed }

/-- The branch for the user data: `aplogd_util_cleardir` works on the folder `last`, which then
receives the compressed logs. -/
def saveUserdata (r : SaveRes) (s : State) : Option State :=
  (aplogdUtilCleardir r.clear 1 r.fuel 0 0 s.last).map fun c => { s with
    dirs := Function.update s.dirs .userdata
      (aplogdUtilMove r.moved (gzipLogs r (mkdir "last".toList (s.dirs .userdata))))
    last := ((gzipLogs r (s.dirs .userdata)).entries.filter fun e => isGzName e.name &&
      r.moved e).foldl Dir.put c.dir
    removed := c.removed }

def aplogdLogSave (r : SaveRes) (st : Storage) (s : State) : Option State :=
  match st with
  | .userdata => saveUserdata r s
  | .external => saveCard r .external s
  | .secondary => saveCard r .secondary s

/-- Between two saves: a new daemon starts, with a limit from its configuration, or a directory
changes in some way. -/
inductive Act
  | start (usrCfgBackup : ℕ)
  | change (st : Storage) (d : Dir)
  | save (st : Storage) (r : SaveRes)

def step (s : State) : Act → Option State
  | .start b => some { s with usrCfgBackup := b, backupFlag := fun _ => false, removed := [] }
  | .change st d => some { s with dirs := Function.update s.dirs st d, removed := [] }
  | .save st r => aplogdLogSave r st s

/-! ## What a save does to the folders -/

theorem mem_folders {l : List Entry} {e : Entry} :
    e ∈ folders l ↔ e ∈ l ∧ isBackupName e.name = true ∧ e.isDir = true := by
  simp [folders]

/-- Removing a name that is not a backup's keeps the folders. -/
theorem folders_removeName {name : CStr} (h : isBackupName name = false) (d : Dir) :
    folders (d.removeName name).entries = folders d.entries := by
  simp only [folders, Dir.removeName, List.filter_filter]
  refine List.filter_congr fun e _ => ?_
  by_cases he : e.name = name
  · simp [he, h]
  · simp [he]

theorem folders_put {e : Entry} (h : isBackupName e.name = false) (d : Dir) :
    folders (d.put e).entries = folders d.entries := by
  rw [← folders_removeName h d]
  exact List.filter_cons_of_neg (by simp [h])

theorem isBackupName_output (i : Stream) :
    isBackupName (outputFilename i) = false ∧
    isBackupName (outputFilename i ++ ".gz".toList) = false := by
  cases i <;> decide

theorem folders_gzipLogs (r : SaveRes) (d : Dir) :
    folders (gzipLogs r d).entries = folders d.entries := by
  refine List.foldlRecOn Stream.all (fun d i =>
    if Dir.has d (outputFilename i) then aplogdUtilGzip (r.gzip i) (outputFilename i) d else d)
    (motive := fun d' : Dir => folders d'.entries = folders d.entries) rfl fun d' h i _ => ?_
  unfold aplogdUtilGzip
  split_ifs
  · obtain ⟨hname, hgz⟩ := isBackupName_output i
    rw [folders_put hgz, folders_removeName hname, h]
  · exact h
  · exact h

theorem folders_aplogdUtilMove (moved : Entry → Bool) (d : Dir) :
    folders (aplogdUtilMove moved d).entries =
      (folders d.entries).filter fun e => !(isGzName e.name && moved e) := by
  simp only [folders, aplogdUtilMove, List.filter_filter, Bool.and_comm]

/-- `mkdir` adds at most one folder. -/
theorem folders_mkdir (name : CStr) (d : Dir) :
    folders (mkdir name d).entries = folders d.entries ∨
      folders (mkdir name d).entries = ⟨name, true⟩ :: folders d.entries := by
  unfold mkdir
  split_ifs with h
  · exact .inl rfl
  · have hrm : (d.removeName name).entries = d.entries := by
      refine List.filter_eq_self.mpr fun e he => ?_
      simp only [Dir.has, List.any_eq_true, decide_eq_true_eq, not_exists, not_and] at h
      simpa using h e he
    have hput : (d.put ⟨name, true⟩).entries = ⟨name, true⟩ :: d.entries := by
      rw [← hrm]
      rfl
    rw [hput]
    cases hb : isBackupName name with
    | true => exact .inr (List.filter_cons_of_pos (by simp [hb]))
    | false => exact .inl (List.filter_cons_of_neg (by simp [hb]))

/-! ## The number of the new folder -/

theorem dec_ne_nil (n : ℕ) : CStr.dec n ≠ [] := Nat.toDigits_ne_nil

/-- The first run of digits in `No.<n>_<time>` is `n`. -/
theorem number_bakName (n : ℕ) (s : CStr) :
    number ("No.".toList ++ (CStr.dec n ++ '_' :: s)) = n := by
  have hdrop : ("No.".toList ++ (CStr.dec n ++ '_' :: s)).dropWhile (fun c => !c.isDigit) =
      CStr.dec n ++ '_' :: s := by
    cases hd : CStr.dec n with
    | nil => exact absurd hd (dec_ne_nil n)
    | cons c t =>
      have hc : c.isDigit = true := CStr.isDigit_of_mem_dec (n := n) (by simp [hd])
      show (['N', 'o', '.'] ++ (c :: t ++ '_' :: s)).dropWhile _ = _
      simp [hc, show ('N'.isDigit) = false by decide, show ('o'.isDigit) = false by decide,
        show ('.'.isDigit) = false by decide]
  rw [number, hdrop, CStr.takeWhile_dec_append n (by decide)]
  simp [CStr.dec]

/-! ## The law of a save -/

/-- What a save does on the card `st`, from `s` to `s'`. -/
structure SaveLaw (st : Storage) (s s' : State) : Prop where
  /-- a folder that is new has a number above all others -/
  created : ∀ e ∈ folders (s'.dirs st).entries, e ∉ folders (s.dirs st).entries →
    ∀ f ∈ folders (s.dirs st).entries, number f.name < number e.name
  count : (folders (s'.dirs st).entries).length ≤ s'.usrCfgBackup
  /-- no more folders are removed than it takes to make room for one -/
  few : s'.removed.length ≤ (folders (s.dirs st).entries).length + 1 - s'.usrCfgBackup
  nodup : s'.removed.Nodup
  oldest : ∀ f ∈ s'.removed, ∀ g ∈ folders (s.dirs st).entries, g ∉ s'.removed →
    number f.name ≤ number g.name
  gone : ∀ f ∈ s'.removed, f ∈ folders (s.dirs st).entries ∧ f ∉ folders (s'.dirs st).entries
  /-- a folder that is not removed stays, unless its name contains `.gz` -/
  kept : ∀ f ∈ folders (s.dirs st).entries, f ∉ s'.removed →
    f ∈ folders (s'.dirs st).entries ∨ isGzName f.name = true

/-- The folders after `saveLogs`: those that were there, except for what is moved, and at most one
with the number that follows what `aplogd_util_cleardir` returned. -/
theorem saveLogs_spec (r : SaveRes) (c : Cleared) :
    (folders (saveLogs r c).entries).length ≤ (folders c.dir.entries).length + 1 ∧
    (∀ e ∈ folders (saveLogs r c).entries, e ∈ folders c.dir.entries ∨
      ∃ n, c.ret = some n ∧ number e.name = (n + 1) % longMax) ∧
    ∀ e ∈ folders c.dir.entries, e ∈ folders (saveLogs r c).entries ∨ isGzName e.name = true := by
  unfold saveLogs
  split_ifs with hlogs
  · exact ⟨Nat.le_succ _, fun e he => .inl he, fun e he => .inl he⟩
  · have hmk := folders_mkdir (bakName c.ret r.time) (gzipLogs r c.dir)
    rw [folders_gzipLogs] at hmk
    rw [folders_aplogdUtilMove]
    set fs := folders (mkdir (bakName c.ret r.time) (gzipLogs r c.dir)).entries with hfs
    have hsub : ∀ e ∈ folders c.dir.entries, e ∈ fs := by
      intro e he
      rcases hmk with h | h
      · rwa [h]
      · rw [h]
        exact List.mem_cons_of_mem _ he
    refine ⟨(List.length_filter_le _ _).trans ?_, ?_, ?_⟩
    · rcases hmk with h | h
      · rw [h]
        exact Nat.le_succ _
      · rw [h, List.length_cons]
    · intro e he
      have hef : e ∈ fs := List.mem_of_mem_filter he
      have hb := (mem_folders.mp hef).2.1
      rcases hmk with h | h
      · exact .inl (h ▸ hef)
      · rw [h] at hef
        rcases List.mem_cons.mp hef with rfl | hef
        · -- the new folder; its name is not `last`, since that is no backup's name
          have hlast : isBackupName "last".toList = false := by decide
          cases hret : c.ret with
          | none =>
            rw [hret] at hb
            exact absurd (hlast.symm.trans hb) (by decide)
          | some n =>
            cases htime : r.time with
            | none =>
              rw [hret, htime] at hb
              exact absurd (hlast.symm.trans hb) (by decide)
            | some t => exact .inr ⟨n, rfl, number_bakName _ _⟩
        · exact .inl hef
    · intro e he
      by_cases hgz : isGzName e.name = true
      · exact .inr hgz
      · exact .inl (List.mem_filter.mpr ⟨hsub e he, by simp [hgz]⟩)

/-- A folder that a save makes has the number after the largest one. -/
theorem saveLogs_created {r : SaveRes} {b : ℕ} {d : Dir} {c : Cleared} (hlaw : ClearLaw b 0 d c)
    (hnum : ∀ e ∈ folders d.entries, number e.name < longMax - 1) {e f : Entry}
    (he : e ∈ folders (saveLogs r c).entries) (hne : e ∉ folders c.dir.entries)
    (hf : f ∈ folders d.entries) : number f.name < number e.name := by
  obtain ⟨n, hn, hmax⟩ := ((saveLogs_spec r c).2.1 e he).resolve_left hne
  obtain ⟨n', hn', -, hle, hmem⟩ := hlaw.ret
  obtain rfl : n' = n := Option.some.inj (hn'.symm.trans hn)
  have hlt : n' + 1 < longMax := by
    rcases hmem with rfl | ⟨g, hg, rfl⟩
    · decide
    · have := hnum g hg
      omega
  rw [hmax, Nat.mod_eq_of_lt hlt]
  exact Nat.lt_succ_of_le (hle f hf)

theorem checkSpace_limit {r : SaveRes} {b : ℕ} (hb : 1 ≤ b ∧ b < 2 ^ 31) :
    1 ≤ checkSpace r b ∧ checkSpace r b < 2 ^ 31 := by
  unfold checkSpace
  split
  · split_ifs
    · exact ⟨by omega, by omega⟩
    · exact hb
  · exact hb

/-- **One save** of a card whose calls succeed. -/
theorem saveCard_law {r : SaveRes} {st : Storage} {s : State} (hflag : s.backupFlag st = false)
    (hacc : r.access = true) (ho : r.clear.Succeeds)
    (hb : 1 ≤ s.usrCfgBackup ∧ s.usrCfgBackup < 2 ^ 31)
    (hfuel : (folders (s.dirs st).entries).length < r.fuel)
    (hnum : ∀ e ∈ folders (s.dirs st).entries, number e.name < longMax - 1) :
    ∃ s', saveCard r st s = some s' ∧ SaveLaw st s s' := by
  have hb' : 1 ≤ checkSpace r s.usrCfgBackup ∧ checkSpace r s.usrCfgBackup < 2 ^ 31 :=
    checkSpace_limit hb
  set b := checkSpace r s.usrCfgBackup with hbdef
  obtain ⟨c, hc, hlaw⟩ := aplogdUtilCleardir_spec ho hb'.1 r.fuel 0 0 (s.dirs st) hfuel
    fun e he => (hnum e he).trans_le (Nat.sub_le _ _)
  have hint : toInt b = b := by rw [toInt, if_pos hb'.2]
  obtain ⟨hlen, -, hkeep⟩ := saveLogs_spec r c
  have hperm := hlaw.perm
  have hnodup : (c.removed ++ folders c.dir.entries).Nodup :=
    hperm.nodup_iff.mp ((List.Nodup.of_map Entry.name (s.dirs st).nodup).filter _)
  refine ⟨{ s with
    dirs := Function.update s.dirs st (saveLogs r c)
    usrCfgBackup := b
    backupFlag := Function.update s.backupFlag st true
    removed := c.removed }, ?_, ?_⟩
  · unfold saveCard
    rw [if_neg (by simp [hflag, hacc]), ← hbdef, hint, hc]
    rfl
  · have hdirs : Function.update s.dirs st (saveLogs r c) st = saveLogs r c :=
      Function.update_self _ _ _
    refine ⟨?_, ?_, hlaw.few, (List.nodup_append.mp hnodup).1, ?_, ?_, ?_⟩ <;> simp only [hdirs]
    · intro e he hne f hf
      have hnec : e ∉ folders c.dir.entries :=
        fun h => hne (hperm.mem_iff.mpr (List.mem_append_right _ h))
      exact saveLogs_created hlaw hnum he hnec hf
    · have := hlaw.count
      omega
    · intro f hf g hg hgr
      exact hlaw.oldest f hf g ((List.mem_append.mp (hperm.mem_iff.mp hg)).resolve_left hgr)
    · intro f hf
      have hfd : f ∈ folders (s.dirs st).entries := hperm.mem_iff.mpr (List.mem_append_left _ hf)
      have hfc : f ∉ folders c.dir.entries :=
        fun h => (List.nodup_append.mp hnodup).2.2 f hf f h rfl
      exact ⟨hfd, fun h => lt_irrefl _ (saveLogs_created hlaw hnum h hfc hfd)⟩
    · intro f hf hfr
      exact hkeep f ((List.mem_append.mp (hperm.mem_iff.mp hf)).resolve_left hfr)

/-! ## Sequences of daemon runs -/

/-- The limit is positive and fits an `int`. -/
def State.LimitOk (s : State) : Prop := 1 ≤ s.usrCfgBackup ∧ s.usrCfgBackup < 2 ^ 31

theorem saveCard_limit {r : SaveRes} {st : Storage} {s s' : State} (hs : s.LimitOk)
    (h : saveCard r st s = some s') : s'.LimitOk := by
  unfold saveCard at h
  split_ifs at h
  · obtain rfl := Option.some.inj h
    exact hs
  · obtain ⟨c, -, rfl⟩ := Option.map_eq_some_iff.mp h
    exact checkSpace_limit hs

theorem step_limit {s s' : State} {a : Act} (hs : s.LimitOk)
    (ha : ∀ b, a = .start b → 1 ≤ b ∧ b < 2 ^ 31) (h : step s a = some s') : s'.LimitOk := by
  cases a with
  | start b =>
    obtain rfl := Option.some.inj h
    exact ha b rfl
  | change st d =>
    obtain rfl := Option.some.inj h
    exact hs
  | save st r =>
    cases st with
    | userdata =>
      obtain ⟨c, -, rfl⟩ := Option.map_eq_some_iff.mp h
      exact hs
    | external => exact saveCard_limit hs h
    | secondary => exact saveCard_limit hs h

/-- **Backup folders.**  In every sequence of daemon runs with limits from 1 to `2^31 - 1`, the
first save of a card in a run, with calls that succeed and the existing numbers below `LONG_MAX -
1`, ends and obeys `SaveLaw`. -/
theorem saves_lawful (s₀ s : State) (acts : List Act) (hs₀ : s₀.LimitOk)
    (hstart : ∀ b, Act.start b ∈ acts → 1 ≤ b ∧ b < 2 ^ 31)
    (hrun : Machine.exec step s₀ acts = some s) (st : Storage) (hst : st ≠ .userdata) (r : SaveRes)
    (hflag : s.backupFlag st = false) (hacc : r.access = true) (ho : r.clear.Succeeds)
    (hfuel : (folders (s.dirs st).entries).length < r.fuel)
    (hnum : ∀ e ∈ folders (s.dirs st).entries, number e.name < longMax - 1) :
    ∃ s', step s (.save st r) = some s' ∧ SaveLaw st s s' := by
  have hs : s.LimitOk :=
    Machine.exec_inv_along (C := fun _ a => ∀ b, a = .start b → 1 ≤ b ∧ b < 2 ^ 31)
      (P := State.LimitOk) (fun s a s' hs ha h => step_limit hs ha h) acts s₀ s hs₀
      (Machine.along_of_forall acts s₀ fun a ha _ b hb => hstart b (hb ▸ ha)) hrun
  have hlaw := saveCard_law hflag hacc ho hs hfuel hnum
  cases st with
  | userdata => exact absurd rfl hst
  | external => exact hlaw
  | secondary => exact hlaw

/-! ### Two saves -/

/-- All calls succeed, `readdir` keeps the order and there is plenty of space. -/
def okSave : SaveRes where
  access := true
  freeBytes := none
  clear := ⟨fun _ => true, fun _ => true, fun _ l => l, fun _ l => .refl l, fun _ => .removed⟩
  fuel := 10
  time := some ⟨2014, 1, 2, 3, 4, 5⟩
  gzip _ := true
  moved _ := true

def emptyDir : Dir := ⟨[], List.nodup_nil⟩

def freshState : State := ⟨fun _ => emptyDir, emptyDir, 10, fun _ => false, []⟩

/-- A card with one backup folder and no logs. -/
def oneFolder : Dir := ⟨[⟨"No.1_x".toList, true⟩], by simp⟩

/-- With a limit of one folder, and one on the card, the folder is removed though no log is there to
be saved and no folder is created. -/
theorem oneFolder_removed :
    ∃ s', Machine.exec step freshState [.start 1, .change .secondary oneFolder,
      .save .secondary okSave] =
        some s' ∧
      (folders oneFolder.entries).length ≤ s'.usrCfgBackup ∧
      s'.removed = folders oneFolder.entries ∧ (s'.dirs .secondary).entries = [] :=
  ⟨_, rfl, by decide, by decide, by decide⟩

/-- A card with a log and three folders, out of order and with a gap. -/
def threeFolders : Dir where
  entries := [⟨"No.10_b".toList, true⟩, ⟨"log.main.txt".toList, false⟩, ⟨"No.1_a".toList, true⟩,
    ⟨"No.3_c".toList, true⟩]
  nodup := by decide

theorem threeFolders_lawful :
    ∃ s s', Machine.exec step freshState [.start 2, .change .secondary threeFolders] = some s ∧
      step s (.save .secondary okSave) = some s' ∧ SaveLaw .secondary s s' := by
  obtain ⟨s', hs', hlaw⟩ := saves_lawful freshState _ [.start 2, .change .secondary threeFolders]
    ⟨by decide, by decide⟩ (fun b hb => by
      obtain rfl : b = 2 := by simpa using hb
      decide) rfl .secondary (by decide) okSave rfl rfl (fun _ => ⟨rfl, rfl, rfl⟩)
        (by decide) (by decide)
  exact ⟨_, s', rfl, hs', hlaw⟩

end Omap4.Aplogd.BackupDirs
