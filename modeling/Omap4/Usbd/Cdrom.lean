import Omap4.CString
import Omap4.FdLog
import Omap4.Machine

/-!
# Omap4.Usbd.Cdrom — the CD-ROM of the phone (`cdrom_partition_mount`, `cdrom_smart_version_mount`)

The image of the CD-ROM is given to the gadget driver or mounted, through a block device if there is
one and through a loop device otherwise.  `loop_create` looks for a loop device that is free and
binds the image to it.

The outcomes of the system calls are inputs; those of `write`, `mount` and `umount` are only logged,
and left out. `loop_create` is balanced whatever happens (`loopCreate_holds`).
`cdrom_partition_mount` keeps its descriptor on three of its returns, and
`cdrom_smart_version_mount` on one (`cdromBalanced_iff`).
-/

namespace Omap4.Usbd

open Machine FdLog

/-! ## The code -/

/-- What is opened. -/
inductive CdromFile
  /-- `CDROMIO_DEVNODE` -/
  | devnode
  | loopDevice (path : CStr)
  /-- `/cdrom/cdrom_vfat.bin` -/
  | image
  deriving DecidableEq, Repr

inductive Mknod
  | ok
  | eexist
  | fails
  deriving DecidableEq, Repr

/-- What `LOOP_GET_STATUS` says: the device is bound, or the error `ENXIO`, or another one. -/
inductive LoopStatus
  | bound
  | enxio
  | fails
  deriving DecidableEq, Repr

/-- The outcomes for one loop device. -/
structure LoopTry where
  mknod : Mknod
  openOk : Bool
  status : LoopStatus
  deriving DecidableEq, Repr

/-- The outcomes of `loop_create`. -/
structure LoopRes where
  tries : ℕ → LoopTry
  openImage : Bool
  setFd : Bool

/-- `LOOP_MAX`. -/
def loopMax : ℕ := 4096

def loopPath (i : ℕ) : CStr := "/dev/block/loop".toList ++ CStr.dec i

/-- The `for` loop of `loop_create`, from device `i` on with `n` devices to go: the device it stops
at with `ENXIO` and its descriptor, which stays open; `none` where it returns or runs out of
devices. -/
def findLoop (tries : ℕ → LoopTry) : ℕ → ℕ → FdLog CdromFile → Option (ℕ × ℕ) × FdLog CdromFile
  | 0, _, l => (none, l)
  | n + 1, i, l =>
    if (tries i).mknod = .fails then (none, l)
    else if ¬ (tries i).openOk then (none, l)
    else
      match (tries i).status with
      | .enxio => (some (i, l.next), l.openFd (.loopDevice (loopPath i)))
      | .bound => findLoop tries n (i + 1) ((l.openFd (.loopDevice (loopPath i))).close l.next)
      | .fails => (none, (l.openFd (.loopDevice (loopPath i))).close l.next)

/-- The rest of `loop_create`, with the free device `fd`: whether it returns 0. -/
def bindLoop (r : LoopRes) (fd : ℕ) (l : FdLog CdromFile) : Bool × FdLog CdromFile :=
  if ¬ r.openImage then (false, l.close fd)
  else if ¬ r.setFd then (false, ((l.openFd .image).close l.next).close fd)
  else (true, ((l.openFd .image).close fd).close l.next)

/-- `loop_create`: whether it returns 0, the buffer with the path of the device, and the
descriptors. -/
def loopCreate (r : LoopRes) (buffer : CStr) (l : FdLog CdromFile) :
    Bool × CStr × FdLog CdromFile :=
  match findLoop r.tries loopMax 0 l with
  | (none, l) => (false, buffer, l)
  | (some (i, fd), l) => ((bindLoop r fd l).1, loopPath i, (bindLoop r fd l).2)

/-- `cdrom_mounted` and `curr_loop_dev`. -/
structure Cdrom where
  cdromMounted : Bool
  currLoopDev : CStr
  deriving DecidableEq, Repr

/-- The outcomes of a call. -/
structure CdromRes where
  /-- `open(CDROMIO_DEVNODE)` -/
  openDevnode : Bool
  /-- `access(CDROM_BLOCK_DEVICE, F_OK) == 0` -/
  blockDevice : Bool
  /-- `open(curr_loop_dev)` -/
  openLoop : Bool
  /-- `ioctl(LOOP_CLR_FD)` -/
  clrFd : Bool
  loop : LoopRes

/-- The part of `cdrom_partition_mount` for a loop device that is mounted; `none` where it
returns. -/
def clearLoop (r : CdromRes) (s : Cdrom) (l : FdLog CdromFile) : Option Cdrom × FdLog CdromFile :=
  if ¬ s.cdromMounted then (some s, l)
  else if ¬ r.openLoop then (none, l)
  else if ¬ r.clrFd then (none, (l.openFd (.loopDevice s.currLoopDev)).close l.next)
  else (some { s with cdromMounted := false }, (l.openFd (.loopDevice s.currLoopDev)).close l.next)

/-- The last part of `cdrom_partition_mount`, with the descriptor `fd` of the device node. -/
def mountLoop (mount : Bool) (r : CdromRes) (fd : ℕ) (s : Cdrom) (l : FdLog CdromFile) :
    Cdrom × FdLog CdromFile :=
  if ¬ mount then (s, l.close fd)
  else
    match loopCreate r.loop s.currLoopDev l with
    | (false, dev, l) => ({ s with currLoopDev := dev }, l)
    | (true, dev, l) => (⟨true, dev⟩, l.close fd)

def cdromPartitionMount (mount : Bool) (r : CdromRes) (s : Cdrom) : Cdrom × FdLog CdromFile :=
  if ¬ r.openDevnode then (s, empty)
  else if r.blockDevice then (s, (empty.openFd .devnode).close 0)
  else
    match clearLoop r s (empty.openFd .devnode) with
    | (none, l) => (s, l)
    | (some s, l) => mountLoop mount r 0 s l

def cdromSmartVersionMount (imount : Bool) (r : CdromRes) (s : Cdrom) : Cdrom × FdLog CdromFile :=
  if r.blockDevice then (s, empty)
  else if imount then
    ({ s with currLoopDev := (loopCreate r.loop s.currLoopDev empty).2.1 },
      (loopCreate r.loop s.currLoopDev empty).2.2)
  else if ¬ r.openLoop then (s, empty)
  else if ¬ r.clrFd then (s, empty.openFd (.loopDevice s.currLoopDev))
  else (s, (empty.openFd (.loopDevice s.currLoopDev)).close 0)

/-! ## Runs -/

inductive CdromCall
  | partitionMount (mount : Bool) (r : CdromRes)
  | smartVersionMount (imount : Bool) (r : CdromRes)

/-- A call: the static variables afterwards, and what it opened and closed. -/
def CdromCall.run (s : Cdrom) : CdromCall → Cdrom × FdLog CdromFile
  | .partitionMount mount r => cdromPartitionMount mount r s
  | .smartVersionMount imount r => cdromSmartVersionMount imount r s

def cdromStep (s : Cdrom) (c : CdromCall) : Option Cdrom := some (c.run s).1

/-- The static variables when the daemon starts. -/
def Cdrom.init : Cdrom := ⟨false, []⟩

/-- Every descriptor that the call opened has been closed exactly once when it returns. -/
def CdromBalanced (s : Cdrom) (c : CdromCall) : Prop := (c.run s).2.Balanced

/-- The search over `n` devices from device `i` on comes to a free one: all before it are bound. -/
def FreeFrom (tries : ℕ → LoopTry) (n i : ℕ) : Prop :=
  ∃ k, k < n ∧ (∀ j, j ≤ k → (tries (i + j)).mknod ≠ .fails ∧ (tries (i + j)).openOk = true) ∧
    (∀ j, j < k → (tries (i + j)).status = .bound) ∧ (tries (i + k)).status = .enxio

/-- The outcomes with which `loop_create` succeeds. -/
def LoopFree (r : LoopRes) : Prop :=
  r.openImage = true ∧ r.setFd = true ∧ FreeFrom r.tries loopMax 0

/-- The returns that keep a descriptor are not taken. -/
def ClosesAll (s : Cdrom) : CdromCall → Prop
  | .partitionMount mount r =>
    r.openDevnode = false ∨ r.blockDevice = true ∨
      ((s.cdromMounted = true → r.openLoop = true ∧ r.clrFd = true) ∧
        (mount = true → LoopFree r.loop))
  | .smartVersionMount imount r =>
    r.blockDevice = true ∨ imount = true ∨ r.openLoop = false ∨ r.clrFd = true

/-! ## `loop_create` -/

variable {l : FdLog CdromFile} {held : List ℕ}

/-- The search holds the free device that it found, and nothing else. -/
theorem findLoop_holds (tries : ℕ → LoopTry) : ∀ (n i : ℕ) {l : FdLog CdromFile}, Holds l held →
    ∃ found l', findLoop tries n i l = (found, l') ∧
      ((found = none ∧ Holds l' held) ∨
        ∃ j fd, found = some (j, fd) ∧ fd ∉ held ∧ Holds l' (fd :: held))
  | 0, i, l, h => ⟨none, l, rfl, .inl ⟨rfl, h⟩⟩
  | n + 1, i, l, h => by
    have hopen := h.openFd (.loopDevice (loopPath i))
    have hclose := hopen.close h.next_notMem
    unfold findLoop
    split_ifs
    · exact ⟨none, l, rfl, .inl ⟨rfl, h⟩⟩
    · cases (tries i).status with
      | bound => exact findLoop_holds tries n (i + 1) hclose
      | enxio => exact ⟨_, _, rfl, .inr ⟨i, l.next, rfl, h.next_notMem, hopen⟩⟩
      | fails => exact ⟨none, _, rfl, .inl ⟨rfl, hclose⟩⟩
    · exact ⟨none, l, rfl, .inl ⟨rfl, h⟩⟩

theorem bindLoop_holds (r : LoopRes) {fd : ℕ} (h : Holds l (fd :: held)) (hnot : fd ∉ held) :
    Holds (bindLoop r fd l).2 held := by
  have hopen := h.openFd .image
  unfold bindLoop
  split_ifs
  · -- the device is closed before the image
    have hne : fd ≠ l.next := fun heq => h.next_notMem (heq ▸ List.mem_cons_self)
    have himage : l.next ∉ held := fun hmem => h.next_notMem (List.mem_cons_of_mem fd hmem)
    exact (hopen.swap.close (by simp [hne, hnot])).close himage
  · exact (hopen.close h.next_notMem).close hnot
  · exact h.close hnot

/-- **`loop_create` is balanced**: whatever its calls return, it holds what it held before. -/
theorem loopCreate_holds (r : LoopRes) (buffer : CStr) (h : Holds l held) :
    Holds (loopCreate r buffer l).2.2 held := by
  obtain ⟨found, l', hfind, hfound⟩ := findLoop_holds r.tries loopMax 0 h
  rw [loopCreate, hfind]
  rcases hfound with ⟨rfl, hholds⟩ | ⟨j, fd, rfl, hnot, hholds⟩
  · exact hholds
  · exact bindLoop_holds r hholds hnot

/-- A bound device is passed over. -/
theorem freeFrom_of_bound {tries : ℕ → LoopTry} {i : ℕ} (n : ℕ) (hmknod : (tries i).mknod ≠ .fails)
    (hopen : (tries i).openOk = true) (hbound : (tries i).status = .bound) :
    FreeFrom tries (n + 1) i ↔ FreeFrom tries n (i + 1) := by
  have hshift : ∀ j, i + (j + 1) = i + 1 + j := fun j => by omega
  constructor
  · rintro ⟨k, hk, husable, hbefore, hfree⟩
    cases k with
    | zero =>
      rw [Nat.add_zero, hbound] at hfree
      cases hfree
    | succ k =>
      refine ⟨k, by omega, fun j hj => ?_, fun j hj => ?_, hshift k ▸ hfree⟩
      · exact hshift j ▸ husable (j + 1) (by omega)
      · exact hshift j ▸ hbefore (j + 1) (by omega)
  · rintro ⟨k, hk, husable, hbefore, hfree⟩
    refine ⟨k + 1, by omega, fun j hj => ?_, fun j hj => ?_, (hshift k).symm ▸ hfree⟩
    · cases j with
      | zero => exact ⟨hmknod, hopen⟩
      | succ j => exact (hshift j).symm ▸ husable j (by omega)
    · cases j with
      | zero => exact hbound
      | succ j => exact (hshift j).symm ▸ hbefore j (by omega)

theorem findLoop_isSome (tries : ℕ → LoopTry) : ∀ (n i : ℕ) (l : FdLog CdromFile),
    (findLoop tries n i l).1.isSome = true ↔ FreeFrom tries n i
  | 0, i, l => iff_of_false (by simp [findLoop]) fun ⟨k, hk, _⟩ => absurd hk (Nat.not_lt_zero k)
  | n + 1, i, l => by
    by_cases hmknod : (tries i).mknod = .fails
    · rw [findLoop, if_pos hmknod]
      exact iff_of_false (by simp) fun ⟨k, _, husable, _⟩ => (husable 0 (Nat.zero_le k)).1 hmknod
    · by_cases hopen : (tries i).openOk = true
      · rw [findLoop, if_neg hmknod, if_neg (not_not.mpr hopen)]
        cases hstatus : (tries i).status with
        | bound => rw [freeFrom_of_bound n hmknod hopen hstatus, ← findLoop_isSome tries n (i + 1)]
        | enxio =>
          refine iff_of_true rfl
            ⟨0, Nat.succ_pos n, fun j hj => ?_, fun j hj => absurd hj (Nat.not_lt_zero j), hstatus⟩
          rw [Nat.le_zero.mp hj]
          exact ⟨hmknod, hopen⟩
        | fails =>
          refine iff_of_false (by simp) fun ⟨k, _, _, hbefore, hfree⟩ => ?_
          cases k with
          | zero => cases hstatus.symm.trans hfree
          | succ k => cases hstatus.symm.trans (hbefore 0 (Nat.succ_pos k))
      · rw [findLoop, if_neg hmknod, if_pos hopen]
        exact iff_of_false (by simp) fun ⟨k, _, husable, _⟩ => hopen (husable 0 (Nat.zero_le k)).2

theorem loopCreate_succeeds (r : LoopRes) (buffer : CStr) (l : FdLog CdromFile) :
    (loopCreate r buffer l).1 = true ↔ LoopFree r := by
  have hfree : (findLoop r.tries loopMax 0 l).1.isSome = true ↔ FreeFrom r.tries loopMax 0 :=
    findLoop_isSome r.tries loopMax 0 l
  have hbind : ∀ fd (l : FdLog CdromFile), (bindLoop r fd l).1 = true ↔ r.openImage = true ∧
      r.setFd = true := by
    intro fd l
    unfold bindLoop
    split_ifs <;> simp_all
  rw [loopCreate, LoopFree]
  rcases hfind : findLoop r.tries loopMax 0 l with ⟨found, l'⟩
  rw [hfind] at hfree
  cases found with
  | none => exact iff_of_false (by simp) fun h => absurd (hfree.mpr h.2.2) (by simp)
  | some device =>
    show (bindLoop r device.2 l').1 = true ↔ _
    rw [hbind]
    exact ⟨fun h => ⟨h.1, h.2, hfree.mp rfl⟩, fun h => ⟨h.1, h.2.1⟩⟩

/-! ## The calls -/

theorem clearLoop_holds (r : CdromRes) (s : Cdrom) (h : Holds l held) :
    Holds (clearLoop r s l).2 held := by
  have hclosed := (h.openFd (.loopDevice s.currLoopDev)).close h.next_notMem
  unfold clearLoop
  split_ifs
  · exact hclosed
  · exact hclosed
  · exact h
  · exact h

theorem clearLoop_isSome (r : CdromRes) (s : Cdrom) (l : FdLog CdromFile) :
    (clearLoop r s l).1.isSome = true ↔
    (s.cdromMounted = true → r.openLoop = true ∧ r.clrFd = true) := by
  unfold clearLoop
  split_ifs <;> simp_all

/-- The last part closes the device node unless `loop_create` fails. -/
theorem mountLoop_balanced_iff {mount : Bool} {r : CdromRes} {fd : ℕ} {s : Cdrom}
    (h : Holds l [fd]) :
    (mountLoop mount r fd s l).2.Balanced ↔ (mount = true → LoopFree r.loop) := by
  have hnot : fd ∉ ([] : List ℕ) := by simp
  unfold mountLoop
  split_ifs with hmount
  · have hholds := loopCreate_holds r.loop s.currLoopDev h
    have hok := loopCreate_succeeds r.loop s.currLoopDev l
    rcases hcreate : loopCreate r.loop s.currLoopDev l with ⟨ok, dev, l'⟩
    rw [hcreate] at hholds hok
    cases ok with
    | false =>
      exact iff_of_false hholds.not_balanced fun hfree => absurd (hok.mpr (hfree hmount)) (by simp)
    | true => exact iff_of_true (hholds.close hnot).balanced fun _ => hok.mp rfl
  · exact iff_of_true (h.close hnot).balanced fun hm => absurd hm hmount

theorem partitionMount_balanced_iff (mount : Bool) (r : CdromRes) (s : Cdrom) :
    CdromBalanced s (.partitionMount mount r) ↔ ClosesAll s (.partitionMount mount r) := by
  have hnode : Holds (empty.openFd CdromFile.devnode) [0] := holds_empty.openFd CdromFile.devnode
  show (cdromPartitionMount mount r s).2.Balanced ↔ _
  unfold cdromPartitionMount
  by_cases hopen : r.openDevnode = true
  · rw [if_neg (not_not.mpr hopen)]
    by_cases hblock : r.blockDevice = true
    · rw [if_pos hblock]
      exact iff_of_true (hnode.close (by simp)).balanced (.inr (.inl hblock))
    · rw [if_neg hblock]
      have hcond : ClosesAll s (.partitionMount mount r) ↔
          (s.cdromMounted = true → r.openLoop = true ∧ r.clrFd = true) ∧
          (mount = true → LoopFree r.loop) := by
        simp [ClosesAll, hopen, hblock]
      have hholds := clearLoop_holds r s hnode
      rw [hcond, ← clearLoop_isSome r s (empty.openFd .devnode)]
      rcases hclear : clearLoop r s (empty.openFd .devnode) with ⟨cleared, l⟩
      rw [hclear] at hholds
      cases cleared with
      | none => exact iff_of_false hholds.not_balanced (by simp)
      | some s' =>
        rw [and_iff_right (by simp)]
        exact mountLoop_balanced_iff hholds
  · rw [if_pos hopen]
    exact iff_of_true holds_empty.balanced (.inl (by simpa using hopen))

theorem smartVersionMount_balanced_iff (imount : Bool) (r : CdromRes) (s : Cdrom) :
    CdromBalanced s (.smartVersionMount imount r) ↔ ClosesAll s (.smartVersionMount imount r) := by
  have hloop : Holds (empty.openFd (CdromFile.loopDevice s.currLoopDev)) [0] := holds_empty.openFd _
  show (cdromSmartVersionMount imount r s).2.Balanced ↔ _
  unfold cdromSmartVersionMount ClosesAll
  split_ifs with hblock hmount hopen hclr
  · exact iff_of_true holds_empty.balanced (.inl hblock)
  · exact iff_of_true (loopCreate_holds r.loop s.currLoopDev holds_empty).balanced
      (.inr (.inl hmount))
  · exact iff_of_true (hloop.close (by simp)).balanced (.inr (.inr (.inr hclr)))
  · refine iff_of_false hloop.not_balanced ?_
    simp [hblock, hmount, hopen, hclr]
  · exact iff_of_true holds_empty.balanced (.inr (.inr (.inl (by simpa using hopen))))

/-- **When the descriptors are balanced.**  In every sequence of calls, each closes exactly once
what it opened, if and only if none of them takes one of the four returns that keep a descriptor. -/
theorem cdromBalanced_iff (calls : List CdromCall) :
    Along cdromStep CdromBalanced Cdrom.init calls ↔
    Along cdromStep ClosesAll Cdrom.init calls := by
  refine along_iff_of_inv (P := fun _ => True) (fun _ _ _ _ _ => trivial)
    (fun s c _ => ?_) calls Cdrom.init trivial
  cases c with
  | partitionMount mount r => exact partitionMount_balanced_iff mount r s
  | smartVersionMount imount r => exact smartVersionMount_balanced_iff imount r s

/-- All calls succeed but `LOOP_CLR_FD`; the first loop device is free. -/
def clearFails : CdromRes :=
  ⟨true, false, true, false, ⟨fun _ => ⟨.eexist, true, .enxio⟩, true, true⟩⟩

/-- The CD-ROM is mounted through a loop device and unmounted: the device node stays open. -/
theorem unmount_leaks :
    ¬ Along cdromStep CdromBalanced Cdrom.init
      [.partitionMount true clearFails, .partitionMount false clearFails] := by
  rintro ⟨-, hrest⟩
  obtain ⟨hbal, -⟩ := hrest _ rfl
  exact absurd (hbal 0 (by decide)) (by decide)

end Omap4.Usbd
