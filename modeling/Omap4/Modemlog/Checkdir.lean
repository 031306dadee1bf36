import Mathlib.Algebra.Order.BigOperators.Group.List
import Omap4.CString
import Omap4.DoublyLinked
import Omap4.Eviction

/-!
# Omap4.Modemlog.Checkdir — the quota for panic reports (`aplogd/modemlog.c`)

`checkdir` makes a doubly linked list of the files of a directory, and as long as their sizes exceed
`MAXTOTALSIZE` it looks for the oldest one, deletes it and takes its record out of the list.  Its
only exit is the total: with sizes that add up to the total it gets there before the list is empty.

What `readdir`, `lstat` and `malloc` return is input.  The files that were deleted and the list
after each deletion are recorded (`unlinked`, `lists`); these are not in the code.
`deleteLoop_spec` says that the loop evicts in the sense of `Omap4.Eviction`, with a list that stays
intact.
-/

namespace Omap4.Modemlog

open Omap4.DoublyLinked

/-! ## The code -/

/-- A value converted to `int`. -/
def cInt (x : ℤ) : ℤ := x.bmod 4294967296

/-- `MAXTOTALSIZE`. -/
def maxTotalSize : ℤ := 102400

/-- `FILENAMELEN`. -/
def filenameLen : ℕ := 255

/-- `struct FileRec` without its links. -/
structure FileRec where
  name : CStr
  timestamp : ℤ
  size : ℤ
  deriving DecidableEq, Repr

/-- A directory entry with what `lstat` says about it.  `block` is the block of its record, or
`none` if one of the two `malloc`s fails. -/
structure Entry where
  dName : CStr
  stMtime : ℤ
  stSize : ℤ
  block : Option ℕ
  deriving DecidableEq, Repr

structure Check where
  heap : Heap FileRec
  first : Option ℕ
  totalsize : ℤ
  /-- the files that were deleted -/
  unlinked : List FileRec
  /-- the list after each deletion -/
  lists : List (Heap FileRec × Option ℕ)

/-- `FileRecCopy`; a block that `malloc` returns is not in use. -/
def fileRecCopy (n : CStr) (t s : ℤ) (block : Option ℕ) (h : Heap FileRec) (first : Option ℕ) :
    Option (Heap FileRec × Option ℕ) :=
  match block with
  | none => some (h, first)
  | some a => if (h a).isSome then none else pushFront h first a ⟨n, t, cInt s⟩

/-- `FileRecDel`. -/
def fileRecDel (a : ℕ) (h : Heap FileRec) (first : Option ℕ) : Option (Heap FileRec × Option ℕ) :=
  unlink h first a

def fullpath (dirname dName : CStr) : CStr :=
  CStr.snprintf filenameLen (dirname ++ "/".toList ++ dName)

/-- The entry is neither `.` nor `..`. -/
def Entry.isFile (e : Entry) : Bool := e.dName ≠ ".".toList ∧ e.dName ≠ "..".toList

/-- The loop over the entries. -/
def readEntries (dirname : CStr) : List Entry → Check → Option Check
  | [], s => some s
  | e :: es, s =>
    if e.isFile then
      (fileRecCopy (fullpath dirname e.dName) e.stMtime e.stSize e.block s.heap s.first).bind
        fun r =>
        readEntries dirname es
          { s with heap := r.1, first := r.2, totalsize := cInt (s.totalsize + e.stSize) }
    else readEntries dirname es s

/-- The search for the oldest file, from `idx` on. -/
def findOldest (h : Heap FileRec) : ℕ → Option ℕ → Option ℕ → Option (Option ℕ)
  | _, none, oldest => some oldest
  | 0, some _, _ => none
  | fuel + 1, some idx, oldest =>
    (h idx).bind fun c =>
      match oldest with
      | none => findOldest h fuel c.next (some idx)
      | some o => (h o).bind fun co =>
        findOldest h fuel c.next (some (if c.val.timestamp < co.val.timestamp then idx else o))

/-- One round of the loop that deletes. -/
def deleteOldest (fuel : ℕ) (s : Check) : Option Check :=
  (findOldest s.heap fuel s.first none).bind fun oldest =>
    match oldest with
    | none => some s
    | some a => (s.heap a).bind fun c => (fileRecDel a s.heap s.first).map fun r =>
      { heap := r.1
        first := r.2
        totalsize := cInt (s.totalsize - c.val.size)
        unlinked := s.unlinked ++ [c.val]
        lists := s.lists ++ [r] }

/-- `while (totalsize > MAXTOTALSIZE)`; there is no result if the rounds do not suffice. -/
def deleteLoop (n : ℕ) : ℕ → Check → Option Check
  | 0, s => if maxTotalSize < s.totalsize then none else some s
  | fuel + 1, s =>
    if maxTotalSize < s.totalsize then (deleteOldest n s).bind (deleteLoop n fuel) else some s

/-- `while (first)`. -/
def freeRecords : ℕ → Check → Option Check
  | 0, s => if s.first.isSome then none else some s
  | fuel + 1, s =>
    match s.first with
    | none => some s
    | some a => (fileRecDel a s.heap s.first).bind fun r =>
      freeRecords fuel { s with heap := r.1, first := r.2 }

/-- `entries` is what `readdir` returns, or `none` if `opendir` fails.  There is no result if `fuel`
does not suffice for the loops. -/
def checkdir (fuel : ℕ) (dirname : CStr) (entries : Option (List Entry)) (h : Heap FileRec)
    (first : Option ℕ) : Option Check :=
  match entries with
  | none => some ⟨h, first, 0, [], []⟩
  | some es => (readEntries dirname es ⟨h, first, 0, [], []⟩).bind fun s =>
    (deleteLoop fuel fuel s).bind (freeRecords fuel)

/-! ## The records -/

/-- The record of an entry. -/
def Entry.record (dirname : CStr) (e : Entry) : FileRec :=
  ⟨fullpath dirname e.dName, e.stMtime, cInt e.stSize⟩

/-- The records in the order of the list. -/
def records (dirname : CStr) (es : List Entry) : List FileRec :=
  ((es.filter Entry.isFile).map (Entry.record dirname)).reverse

/-- The sizes of the files. -/
def sizes (es : List Entry) : List ℤ := (es.filter Entry.isFile).map Entry.stSize

/-- `malloc` works for every record, and gives each its own block. -/
structure Allocates (h : Heap FileRec) (es : List Entry) : Prop where
  free : ∀ e ∈ es, e.isFile = true → ∃ a, e.block = some a ∧ h a = none
  distinct : ((es.filter Entry.isFile).map Entry.block).Nodup

/-- The list at `p` is intact and holds `files`: each record once, `next` and `prev` inverse to each
other. -/
structure Consistent (h : Heap FileRec) (p : Option ℕ) (files : List FileRec) : Prop where
  intact : ∃ l, Chain h p l ∧ (l.map Prod.fst).Nodup ∧ (l.map Prod.snd).Perm files ∧
    ∀ x ∈ l, ∃ c, h x.1 = some c ∧ c.val = x.2 ∧
      (∀ y, c.next = some y → ∃ d, h y = some d ∧ d.prev = some x.1) ∧
      ∀ y, c.prev = some y → ∃ d, h y = some d ∧ d.next = some x.1

theorem consistent_of_chain {h : Heap FileRec} {p : Option ℕ} {l : List (ℕ × FileRec)}
    {files : List FileRec} (hs : Chain h p l) (hnd : (l.map Prod.fst).Nodup)
    (hfiles : (l.map Prod.snd).Perm files) : Consistent h p files :=
  ⟨l, hs, hnd, hfiles, fun _ hx => chain_inverse hs hx⟩

/-! ## Reading the directory -/

theorem cInt_of_lt {x : ℤ} (h₀ : 0 ≤ x) (h₁ : x < 2147483648) : cInt x = x := by
  rw [cInt, Int.bmod_def]
  omega

section Entries

variable {e : Entry} {es : List Entry} {dirname : CStr}

theorem sizes_cons_file (h : e.isFile = true) : sizes (e :: es) = e.stSize :: sizes es := by
  rw [sizes, List.filter_cons_of_pos h]
  rfl

theorem sizes_cons_other (h : e.isFile = false) : sizes (e :: es) = sizes es := by
  rw [sizes, List.filter_cons_of_neg (by simp [h])]
  rfl

theorem records_cons_file (h : e.isFile = true) :
    records dirname (e :: es) = records dirname es ++ [e.record dirname] := by
  rw [records, List.filter_cons_of_pos h, List.map_cons, List.reverse_cons]
  rfl

theorem records_cons_other (h : e.isFile = false) :
    records dirname (e :: es) = records dirname es := by
  rw [records, List.filter_cons_of_neg (by simp [h])]
  rfl

theorem Allocates.tail_other {h : Heap FileRec} (ha : Allocates h (e :: es))
    (he : e.isFile = false) :
    Allocates h es := by
  refine ⟨fun e' he' => ha.free e' (List.mem_cons_of_mem e he'), ?_⟩
  have hd := ha.distinct
  rwa [List.filter_cons_of_neg (by simp [he])] at hd

/-- The block that is in use now is not one of those to come. -/
theorem Allocates.tail_file {h h' : Heap FileRec} {a : ℕ} (ha : Allocates h (e :: es))
    (he : e.isFile = true) (hblock : e.block = some a)
    (hsome : ∀ c, (h' c).isSome = true ↔ (h c).isSome = true ∨ c = a) : Allocates h' es := by
  have hd := ha.distinct
  rw [List.filter_cons_of_pos he, List.map_cons, List.nodup_cons] at hd
  refine ⟨fun e' he' hfile => ?_, hd.2⟩
  obtain ⟨b, hb, hfree⟩ := ha.free e' (List.mem_cons_of_mem e he') hfile
  refine ⟨b, hb, ?_⟩
  have hba : b ≠ a := by
    rintro rfl
    exact hd.1 (hblock.trans hb.symm ▸ List.mem_map_of_mem (List.mem_filter.mpr ⟨he', hfile⟩))
  have hnot : ¬ (h' b).isSome = true := by
    rw [hsome, hfree]
    simp [hba]
  simpa using hnot

end Entries

theorem readEntries_spec {dirname : CStr} :
    ∀ {es : List Entry} {s : Check} {l : List (ℕ × FileRec)},
    Chain s.heap s.first l → (l.map Prod.fst).Nodup → Allocates s.heap es →
    (∀ x ∈ sizes es, 0 ≤ x) →
    0 ≤ s.totalsize → s.totalsize + (sizes es).sum < 2147483648 →
    ∃ h p l', readEntries dirname es s =
        some { s with heap := h, first := p, totalsize := s.totalsize + (sizes es).sum } ∧
      Chain h p l' ∧ (l'.map Prod.fst).Nodup ∧
      l'.map Prod.snd = records dirname es ++ l.map Prod.snd
  | [], s, l, hs, hnd, _, _, _, _ => by
    refine ⟨s.heap, s.first, l, ?_, hs, hnd, rfl⟩
    simp [readEntries, sizes]
  | e :: es, s, l, hs, hnd, halloc, hpos, htot, hsum => by
    cases hfile : e.isFile with
    | false =>
      rw [sizes_cons_other hfile] at hpos hsum ⊢
      rw [readEntries, if_neg (by simp [hfile]), records_cons_other hfile]
      exact readEntries_spec hs hnd (halloc.tail_other hfile) hpos htot hsum
    | true =>
      obtain ⟨a, hblock, hfree⟩ := halloc.free e List.mem_cons_self hfile
      rw [sizes_cons_file hfile] at hpos hsum ⊢
      rw [List.sum_cons] at hsum ⊢
      have he := hpos e.stSize List.mem_cons_self
      have hrest : ∀ x ∈ sizes es, 0 ≤ x := fun x hx => hpos x (List.mem_cons_of_mem _ hx)
      have hnonneg := List.sum_nonneg hrest
      have htotal : cInt (s.totalsize + e.stSize) = s.totalsize + e.stSize :=
        cInt_of_lt (by omega) (by omega)
      obtain ⟨h₁, hpush, hs₁, hsome⟩ := chain_pushFront hs hnd hfree (e.record dirname)
      have hcopy : fileRecCopy (fullpath dirname e.dName) e.stMtime e.stSize e.block
          s.heap s.first = some (h₁, some a) := by
        rw [hblock, fileRecCopy, if_neg (by simp [hfree])]
        exact hpush
      have hnd₁ : (((a, e.record dirname) :: l).map Prod.fst).Nodup := by
        refine List.nodup_cons.mpr ⟨fun hmem => ?_, hnd⟩
        have hsome := chain_mem hs a hmem
        rw [hfree] at hsome
        cases hsome
      obtain ⟨h₂, p, l', hread, hs₂, hnd₂, hmap⟩ := @readEntries_spec dirname es
        { s with heap := h₁, first := some a, totalsize := s.totalsize + e.stSize } _ hs₁ hnd₁
        (halloc.tail_file hfile hblock hsome) hrest (show 0 ≤ s.totalsize + e.stSize by omega)
        (show s.totalsize + e.stSize + _ < _ by omega)
      refine ⟨h₂, p, l', ?_, hs₂, hnd₂, ?_⟩
      · rw [readEntries, if_pos hfile, hcopy, Option.bind_some, htotal, hread]
        simp only [Int.add_assoc]
      · rw [hmap, records_cons_file hfile, List.append_assoc]
        rfl

/-! ## Deleting -/

/-- The search among the rest `l` of the list, with `o` the oldest file so far. -/
theorem findOldest_some {h : Heap FileRec} :
    ∀ {l : List (ℕ × FileRec)} {fuel o : ℕ} {b p e : Option ℕ}
    {co : Cell FileRec}, Seg h b p l e none → l.length ≤ fuel → h o = some co →
    ∃ a c, findOldest h fuel p (some o) = some (some a) ∧ h a = some c ∧
    (a = o ∨ a ∈ l.map Prod.fst) ∧
      c.val.timestamp ≤ co.val.timestamp ∧ ∀ x ∈ l, c.val.timestamp ≤ x.2.timestamp
  | [], fuel, o, b, p, e, co, hs, hf, ho => by
    obtain rfl : p = none := hs.1
    refine ⟨o, co, ?_, ho, .inl rfl, le_refl _, by simp⟩
    cases fuel <;> rfl
  | x :: l, fuel, o, b, p, e, co, hs, hf, ho => by
    obtain ⟨rfl, n, hx, hrest⟩ := hs
    obtain ⟨fuel, rfl⟩ : ∃ k, fuel = k + 1 := ⟨fuel - 1, by rw [List.length_cons] at hf; omega⟩
    have hfuel : l.length ≤ fuel := by simpa using hf
    simp only [findOldest, hx, ho, Option.bind_some]
    split_ifs with hlt
    · obtain ⟨a, c, hfind, ha, hmem, hle, hall⟩ := findOldest_some hrest hfuel hx
      have hx : c.val.timestamp ≤ x.2.timestamp := hle
      refine ⟨a, c, hfind, ha, .inr ?_, by omega, List.forall_mem_cons.mpr ⟨hle, hall⟩⟩
      rcases hmem with rfl | hmem
      · exact List.mem_cons_self
      · exact List.mem_cons_of_mem _ hmem
    · obtain ⟨a, c, hfind, ha, hmem, hle, hall⟩ := findOldest_some hrest hfuel ho
      refine ⟨a, c, hfind, ha, hmem.imp_right (List.mem_cons_of_mem _), hle,
        List.forall_mem_cons.mpr ⟨by omega, hall⟩⟩

/-- The search through a list that is not empty finds a file that none is older than. -/
theorem findOldest_spec {h : Heap FileRec} {p : Option ℕ} {l : List (ℕ × FileRec)} {fuel : ℕ}
    (hs : Chain h p l) (hne : l ≠ []) (hf : l.length ≤ fuel) :
    ∃ a c, findOldest h fuel p none = some (some a) ∧ h a = some c ∧ a ∈ l.map Prod.fst ∧
      ∀ x ∈ l, c.val.timestamp ≤ x.2.timestamp := by
  obtain ⟨e, hs⟩ := hs
  cases l with
  | nil => exact absurd rfl hne
  | cons x l =>
    obtain ⟨rfl, n, hx, hrest⟩ := hs
    obtain ⟨fuel, rfl⟩ : ∃ k, fuel = k + 1 := ⟨fuel - 1, by rw [List.length_cons] at hf; omega⟩
    obtain ⟨a, c, hfind, ha, hmem, hle, hall⟩ := findOldest_some hrest (by simpa using hf) hx
    refine ⟨a, c, ?_, ha, ?_, List.forall_mem_cons.mpr ⟨hle, hall⟩⟩
    · simp only [findOldest, hx, Option.bind_some]
      exact hfind
    · rcases hmem with rfl | hmem
      · exact List.mem_cons_self
      · exact List.mem_cons_of_mem _ hmem

/-- The sum of the sizes in the list. -/
def listSize (l : List (ℕ × FileRec)) : ℤ := ((l.map Prod.snd).map FileRec.size).sum

/-- **One deletion**: a file that none is older than goes, and the list stays intact. -/
theorem deleteOldest_spec {s : Check} {l : List (ℕ × FileRec)} {fuel : ℕ}
    (hs : Chain s.heap s.first l) (hnd : (l.map Prod.fst).Nodup) (hne : l ≠ [])
    (hf : l.length ≤ fuel) :
    ∃ x l' r, deleteOldest fuel s =
        some ⟨r.1, r.2, cInt (s.totalsize - x.2.size), s.unlinked ++ [x.2], s.lists ++ [r]⟩ ∧
      l.Perm (x :: l') ∧ (∀ y ∈ l, x.2.timestamp ≤ y.2.timestamp) ∧ Chain r.1 r.2 l' := by
  obtain ⟨a, c, hfind, ha, hmem, hmin⟩ := findOldest_spec hs hne hf
  obtain ⟨x, hx, rfl⟩ := List.mem_map.mp hmem
  obtain ⟨d, hd, hval, -, -⟩ := chain_inverse hs hx
  obtain rfl : c = d := Option.some.inj (ha.symm.trans hd)
  obtain ⟨l₁, l₂, rfl⟩ := List.append_of_mem hx
  obtain ⟨h', p', hunlink, hs', -⟩ := chain_unlink hs hnd
  refine ⟨x, l₁ ++ l₂, (h', p'), ?_, List.perm_middle, fun y hy => hval ▸ hmin y hy, hs'⟩
  simp only [deleteOldest, hfind, Option.bind_some, ha, fileRecDel, hunlink, Option.map_some, hval]

theorem listSize_perm {l l' : List (ℕ × FileRec)} {x : ℕ × FileRec} (h : l.Perm (x :: l')) :
    listSize l = x.2.size + listSize l' := by
  unfold listSize
  rw [((h.map Prod.snd).map FileRec.size).sum_eq]
  simp

theorem listSize_nonneg {l : List (ℕ × FileRec)} (h : ∀ x ∈ l, 0 ≤ x.2.size) : 0 ≤ listSize l := by
  refine List.sum_nonneg fun z hz => ?_
  simp only [List.map_map, List.mem_map] at hz
  obtain ⟨y, hy, rfl⟩ := hz
  exact h y hy

/-- The lists after the deletions of `gone`, when `kept` is left. -/
def Snapshots (lists : List (Heap FileRec × Option ℕ)) (gone kept : List FileRec) : Prop :=
  lists.length = gone.length ∧
    ∀ j r, lists[j]? = some r → Consistent r.1 r.2 (gone.drop (j + 1) ++ kept)

theorem snapshots_cons {r : Heap FileRec × Option ℕ} {lists : List (Heap FileRec × Option ℕ)}
    {x : FileRec} {gone kept : List FileRec} (hr : Consistent r.1 r.2 (gone ++ kept))
    (h : Snapshots lists gone kept) :
    Snapshots (r :: lists) (x :: gone) kept := by
  refine ⟨by simp [h.1], fun j r' hj => ?_⟩
  cases j with
  | zero =>
    obtain rfl : r = r' := by simpa using hj
    exact hr
  | succ j => exact h.2 j r' (by simpa using hj)

/-- **The loop that deletes** ends within one round for each file, and evicts the oldest files. -/
theorem deleteLoop_spec {n : ℕ} : ∀ {fuel : ℕ} {s : Check} {l : List (ℕ × FileRec)},
    Chain s.heap s.first l → (l.map Prod.fst).Nodup → (∀ x ∈ l, 0 ≤ x.2.size) →
    s.totalsize = listSize l → s.totalsize < 2147483648 → l.length ≤ fuel → l.length ≤ n →
    ∃ h p l' gone lists, deleteLoop n fuel s =
        some ⟨h, p, listSize l', s.unlinked ++ gone, s.lists ++ lists⟩ ∧
      Evicts FileRec.timestamp FileRec.size maxTotalSize (l.map Prod.snd) gone (l'.map Prod.snd) ∧
      Snapshots lists gone (l'.map Prod.snd) ∧ Chain h p l' ∧ (l'.map Prod.fst).Nodup ∧
      l'.length ≤ l.length
  | fuel, s, l, hs, hnd, hpos, htot, hlt, hf, hn => by
    by_cases hover : maxTotalSize < s.totalsize
    · have hne : l ≠ [] := by
        rintro rfl
        rw [htot] at hover
        exact absurd hover (by decide)
      obtain ⟨x, l', r, hdel, hperm, hmin, hs'⟩ := deleteOldest_spec hs hnd hne hn
      have hlen : l.length = l'.length + 1 := hperm.length_eq
      obtain ⟨fuel, rfl⟩ : ∃ k, fuel = k + 1 := ⟨fuel - 1, by omega⟩
      have hnd' : (l'.map Prod.fst).Nodup := by
        have hcons := (hperm.map Prod.fst).nodup_iff.mp hnd
        exact (List.nodup_cons.mp hcons).2
      have hpos' : ∀ y ∈ l', 0 ≤ y.2.size :=
        fun y hy => hpos y (hperm.mem_iff.mpr (List.mem_cons_of_mem x hy))
      have hx := hpos x (hperm.mem_iff.mpr List.mem_cons_self)
      have hsize := listSize_perm hperm
      have hrest := listSize_nonneg hpos'
      have htotal : cInt (s.totalsize - x.2.size) = listSize l' := by
        rw [cInt_of_lt (by omega) (by omega)]
        omega
      obtain ⟨h, p, l'', gone, lists, hloop, hevicts, hsnap, hs'', hnd'', hlen''⟩ :=
        @deleteLoop_spec n fuel ⟨r.1, r.2, listSize l', s.unlinked ++ [x.2], s.lists ++ [r]⟩ l' hs'
          hnd' hpos' rfl
        (show listSize l' < _ by omega) (by omega) (by omega)
      have hall : ∀ y ∈ l.map Prod.snd, x.2.timestamp ≤ y.timestamp := by
        intro y hy
        obtain ⟨z, hz, rfl⟩ := List.mem_map.mp hy
        exact hmin z hz
      refine ⟨h, p, l'', x.2 :: gone, r :: lists, ?_, .evict ?_ (hperm.map Prod.snd) hall hevicts,
        snapshots_cons (consistent_of_chain hs' hnd' hevicts.perm) hsnap, hs'', hnd'', by omega⟩
      · rw [deleteLoop, if_pos hover, hdel, Option.bind_some, htotal, hloop]
        simp only [List.append_assoc, List.singleton_append]
      · show maxTotalSize < listSize l
        omega
    · have hstop : deleteLoop n fuel s = some s := by
        cases fuel <;> simp [deleteLoop, hover]
      refine ⟨s.heap, s.first, l, [], [], ?_, .stop ?_, ⟨rfl, by simp⟩, hs, hnd, le_refl _⟩
      · rw [hstop, ← htot]
        simp
      · show listSize l ≤ maxTotalSize
        omega

/-- The records that are left are freed. -/
theorem freeRecords_spec :
    ∀ {l : List (ℕ × FileRec)} {fuel : ℕ} {s : Check}, Chain s.heap s.first l →
    (l.map Prod.fst).Nodup → l.length ≤ fuel →
    ∃ h, freeRecords fuel s = some { s with heap := h, first := none }
  | [], fuel, s, hs, hnd, hf => by
    obtain ⟨e, hfirst, -⟩ := hs
    refine ⟨s.heap, ?_⟩
    have heq : ({ s with heap := s.heap, first := none } : Check) = s := by rw [← hfirst]
    rw [heq]
    cases fuel <;> simp [freeRecords, hfirst]
  | x :: l, fuel, s, hs, hnd, hf => by
    obtain ⟨fuel, rfl⟩ : ∃ k, fuel = k + 1 := ⟨fuel - 1, by rw [List.length_cons] at hf; omega⟩
    have hfirst : s.first = some x.1 := by
      obtain ⟨e, hfirst, -⟩ := hs
      exact hfirst
    have hs' : Chain s.heap s.first ([] ++ x :: l) := hs
    obtain ⟨h', p', hunlink, hs', -⟩ := chain_unlink hs' hnd
    rw [List.nil_append] at hs'
    obtain ⟨h, hfree⟩ := @freeRecords_spec l fuel { s with heap := h', first := p' } hs'
      (List.nodup_cons.mp hnd).2 (by simpa using hf)
    refine ⟨h, ?_⟩
    simp only [freeRecords, hfirst, fileRecDel]
    rw [← hfirst, hunlink, Option.bind_some, hfree]

/-! ## `checkdir` -/

/-- With these sizes the records hold what `lstat` says. -/
theorem records_size {dirname : CStr} {es : List Entry} (hpos : ∀ x ∈ sizes es, 0 ≤ x)
    (hsum : (sizes es).sum < 2147483648) :
    (records dirname es).map FileRec.size = (sizes es).reverse := by
  rw [records, List.map_reverse, List.map_map, sizes]
  congr 1
  refine List.map_congr_left fun e he => ?_
  have hmem : e.stSize ∈ sizes es := List.mem_map_of_mem he
  have hle : e.stSize ≤ (sizes es).sum := List.single_le_sum hpos _ hmem
  exact cInt_of_lt (hpos _ hmem) (by omega)

/-- **The quota for panic reports**: `checkdir` returns, after it deleted the oldest files, in the
order of their age and just as many as were too much, with an intact list after each deletion. -/
theorem checkdir_quota (dirname : CStr) (es : List Entry) (h : Heap FileRec)
    (halloc : Allocates h es) (hpos : ∀ x ∈ sizes es, 0 ≤ x) (hsum : (sizes es).sum < 2147483648)
    (fuel : ℕ) (hf : es.length ≤ fuel) :
    ∃ s kept, checkdir fuel dirname (some es) h none = some s ∧ s.first = none ∧
      (records dirname es).Perm (s.unlinked ++ kept) ∧
      (s.unlinked.Pairwise fun x y => x.timestamp ≤ y.timestamp) ∧
      (∀ x ∈ s.unlinked, ∀ y ∈ kept, x.timestamp ≤ y.timestamp) ∧
      (kept.map FileRec.size).sum ≤ maxTotalSize ∧
      (∀ j, j < s.unlinked.length →
        maxTotalSize < ((s.unlinked.drop j ++ kept).map FileRec.size).sum) ∧
      s.lists.length = s.unlinked.length ∧
      ∀ j r, s.lists[j]? = some r → Consistent r.1 r.2 (s.unlinked.drop (j + 1) ++ kept) := by
  have hnil : Chain h none [] := ⟨none, rfl, rfl⟩
  have hstart : (0 : ℤ) + (sizes es).sum < 2147483648 := by omega
  obtain ⟨h₁, p₁, l, hread, hs, hnd, hmap⟩ :=
    @readEntries_spec dirname es ⟨h, none, 0, [], []⟩ [] hnil
    List.nodup_nil halloc hpos (le_refl 0) hstart
  rw [List.map_nil, List.append_nil] at hmap
  have hsize : listSize l = (sizes es).sum := by
    rw [listSize, hmap, records_size hpos hsum]
    exact (List.reverse_perm _).sum_eq
  have hlen : l.length ≤ es.length := by
    calc l.length = (l.map Prod.snd).length := (List.length_map _).symm
      _ = (es.filter Entry.isFile).length := by
        rw [hmap, records, List.length_reverse, List.length_map]
      _ ≤ es.length := List.length_filter_le _ _
  have hnonneg : ∀ x ∈ l, 0 ≤ x.2.size := by
    intro x hx
    have hmem : x.2.size ∈ (records dirname es).map FileRec.size :=
      List.mem_map_of_mem (hmap ▸ List.mem_map_of_mem hx)
    rw [records_size hpos hsum] at hmem
    exact hpos _ (List.mem_reverse.mp hmem)
  obtain ⟨h₂, p₂, l', gone, lists, hloop, hevicts, hsnap, hs', hnd', hlen'⟩ :=
    @deleteLoop_spec fuel fuel ⟨h₁, p₁, 0 + (sizes es).sum, [], []⟩ l hs hnd hnonneg
      (by simp [hsize]) hstart (by omega) (by omega)
  obtain ⟨h₃, hfree⟩ :=
    @freeRecords_spec l' fuel ⟨h₂, p₂, listSize l', gone, lists⟩ hs' hnd' (by omega)
  refine ⟨⟨h₃, none, listSize l', gone, lists⟩, l'.map Prod.snd, ?_, rfl, hmap ▸ hevicts.perm,
    hevicts.sorted, hevicts.le_kept, hevicts.sum_kept, hevicts.exceeds, hsnap⟩
  simp only [checkdir, hread, Option.bind_some, hloop, List.nil_append, hfree]

/-- Three reports of 60000 bytes; the oldest two go. -/
def threeReports : List Entry :=
  [⟨".".toList, 0, 4096, none⟩, ⟨"a".toList, 30, 60000, some 7⟩, ⟨"b".toList, 10, 60000, some 8⟩,
    ⟨"c".toList, 20, 60000, some 9⟩]

theorem threeReports_allocates : Allocates (fun _ => none) threeReports := by
  refine ⟨fun e he hfile => ?_, by decide⟩
  simp only [threeReports, List.mem_cons, List.not_mem_nil, or_false] at he
  rcases he with rfl | rfl | rfl | rfl
  · exact absurd hfile (by decide)
  · exact ⟨7, rfl, rfl⟩
  · exact ⟨8, rfl, rfl⟩
  · exact ⟨9, rfl, rfl⟩

theorem checkdir_quota_threeReports :
    ∃ s kept, checkdir 4 "/data/kernelpanics".toList (some threeReports)
    (fun _ => none) none = some s ∧
      (records "/data/kernelpanics".toList threeReports).Perm (s.unlinked ++ kept) ∧
      (kept.map FileRec.size).sum ≤ maxTotalSize := by
  obtain ⟨s, kept, hrun, -, hperm, -, -, hsum, -⟩ :=
    checkdir_quota "/data/kernelpanics".toList threeReports (fun _ => none) threeReports_allocates
      (by decide) (by decide) 4 (by decide)
  exact ⟨s, kept, hrun, hperm, hsum⟩

end Omap4.Modemlog
