import Omap4.Libmotou.Sort

/-!
# Omap4.Libmotou.SortedVector — sorted vectors (`SortedVectorImpl`)

A vector whose items increase strictly in the order of `do_compare`: an item that compares equal to
one that is there replaces it.  Items are found by binary search.  Merging a sorted vector has two
shortcuts, for items that all go before the others or all behind them.
-/

namespace Omap4.Libmotou

open Slots Comparison

variable {α : Type} (E : Env α) (cmp : α → α → Int)

/-- The `while` of `_indexOrderOf`, between `l` and `h`: the index if there is one, and the
order. -/
def indexOrderFrom (cs : List (Option α)) (item : α) (l h : Int) :
    Except Fault (Option Nat × Nat) :=
  if _ : l ≤ h then
    match valueAt cs (l + (h - l) / 2).toNat with
    | .error f => .error f
    | .ok curr =>
      if cmp curr item = 0 then .ok (some (l + (h - l) / 2).toNat, (l + (h - l) / 2).toNat)
      else if cmp curr item < 0 then indexOrderFrom cs item (l + (h - l) / 2 + 1) h
      else indexOrderFrom cs item l (l + (h - l) / 2 - 1)
  else .ok (none, l.toNat)
termination_by (h - l + 1).toNat
decreasing_by
  all_goals omega

def indexOrderOf (h : E.buffers.Heap) (v : VectorImpl) (item : α) :
    Except Fault (Option Nat × Nat) :=
  if v.mCount = 0 then .ok (none, 0) else indexOrderFrom cmp (cellsOf E h v) item 0
    (ssize (v.mCount - 1))

/-- An index, or `NAME_NOT_FOUND`. -/
def foundAt : Option Nat → Ret
  | some i => .value i
  | none => .nameNotFound

def indexOf (h : E.buffers.Heap) (v : VectorImpl) (item : α) : Except Fault Ret := do
  let r ← indexOrderOf E cmp h v item
  .ok (foundAt r.1)

def orderOf (h : E.buffers.Heap) (v : VectorImpl) (item : α) : Except Fault Ret := do
  let r ← indexOrderOf E cmp h v item
  .ok (.value r.2)

/-- `SortedVectorImpl::add`: insert or replace. -/
def sortedAdd (h : E.buffers.Heap) (v : VectorImpl) (item : α) :
    Except Fault (Ret × E.buffers.Heap × VectorImpl) := do
  let r ← indexOrderOf E cmp h v item
  match r.1 with
  | none => insertAt E h v (some item) r.2 1
  | some index => replaceAt E h v (some item) index

/-- `SortedVectorImpl::remove` -/
def sortedRemove (h : E.buffers.Heap) (v : VectorImpl) (item : α) :
    Except Fault (Ret × E.buffers.Heap × VectorImpl) := do
  let r ← indexOrderOf E cmp h v item
  match r.1 with
  | none => .ok (.nameNotFound, h, v)
  | some index => do
    let s ← removeItemsAt E h v index 1
    .ok (.value index, s.2)

/-- The `for` of the naive merge: `n` items of `vector` from `i` on. -/
def mergeFrom (vector : VectorImpl) : Nat → Nat → E.buffers.Heap → VectorImpl →
    Except Fault (Ret × E.buffers.Heap × VectorImpl)
  | 0, _, h, v => .ok (.value 0, h, v)
  | n + 1, i, h, v => do
    let item ← valueAt (cellsOf E h vector) i
    let r ← sortedAdd E cmp h v item
    if r.1.failed = true then .ok r else mergeFrom vector n (i + 1) r.2.1 r.2.2

/-- `merge(const VectorImpl&)` -/
def merge (h : E.buffers.Heap) (v vector : VectorImpl) :
    Except Fault (Ret × E.buffers.Heap × VectorImpl) :=
  mergeFrom E cmp vector vector.mCount 0 h v

/-- `merge(const SortedVectorImpl&)`: before the first item, behind the last one, or one by one.
The first item of this vector is read without looking whether there is one. -/
def mergeSorted (h : E.buffers.Heap) (v vector : VectorImpl) :
    Except Fault (Ret × E.buffers.Heap × VectorImpl) :=
  if vector.mCount = 0 then .ok (.value 0, h, v)
  else do
    let vectorLast ← valueAt (cellsOf E h vector) (vector.mCount - 1)
    let first ← valueAt (cellsOf E h v) 0
    if cmp vectorLast first ≤ 0 then insertVectorAt E h v vector 0
    else do
      let vectorFirst ← valueAt (cellsOf E h vector) 0
      let last ← valueAt (cellsOf E h v) (v.mCount - 1)
      if 0 ≤ cmp vectorFirst last then appendVector E h v vector else merge E cmp h v vector

/-! ## Binary search -/

variable {E cmp} {h : E.buffers.Heap} {v w : VectorImpl} {l m : List α} {x : α}

/-- What `_indexOrderOf` says: the items before the order are smaller, and the one there is equal,
or there is none and all the others are greater. -/
def Located (cmp : α → α → Int) (l : List α) (x : α) (r : Option Nat × Nat) : Prop :=
  ∃ A C, l = A ++ C ∧ r.2 = A.length ∧ (∀ a ∈ A, cmp a x < 0) ∧
    ((r.1 = none ∧ ∀ a ∈ C, 0 < cmp a x) ∨
      (r.1 = some A.length ∧ ∃ y C', C = y :: C' ∧ cmp y x = 0 ∧ ∀ a ∈ C', 0 < cmp a x))

/-- **Binary search** finds the place, from any interval outside of which it has been decided. -/
theorem indexOrderFrom_located (hc : IsComparison cmp) (hl : Strict cmp l) (tail : List (Option α))
    (lo hi : Int) (h0 : 0 ≤ lo) (hle : lo ≤ hi + 1) (hhi : hi < l.length)
    (hsmall : ∀ a ∈ l.take lo.toNat, cmp a x < 0)
    (hgreat : ∀ a ∈ l.drop (hi + 1).toNat, 0 < cmp a x) :
    ∃ r, indexOrderFrom cmp (l.map some ++ tail) x lo hi = .ok r ∧ Located cmp l x r := by
  rw [indexOrderFrom]
  split
  · rename_i hlh
    obtain ⟨y, hy⟩ : ∃ y, l[(lo + (hi - lo) / 2).toNat]? = some y := by
      refine Option.ne_none_iff_exists'.mp fun hnone => ?_
      rw [List.getElem?_eq_none_iff] at hnone
      omega
    have hvalue : valueAt (l.map some ++ tail) (lo + (hi - lo) / 2).toNat = .ok y := by
      have hcell : (l.map some ++ tail)[(lo + (hi - lo) / 2).toNat]? = some (some y) := by
        rw [List.getElem?_append_left (by rw [List.length_map]; omega), List.getElem?_map, hy]
        rfl
      simp [valueAt, hcell]
    obtain ⟨hsplit, hbefore, hafter⟩ := strict_around hl hy
    rw [hvalue]
    simp only
    split
    · rename_i hzero
      refine ⟨_, rfl, _, _, hsplit, by rw [List.length_take]; omega, ?_,
        Or.inr ⟨by simp; omega, y, _, rfl, hzero, ?_⟩⟩
      · intro a ha
        exact hc.lt_of_lt_of_le (hbefore a ha) (by omega)
      · intro b hb
        have hxy := hc.symm_zero hzero
        exact hc.pos_of_neg (hc.lt_of_le_of_lt (by omega) (hafter b hb))
    · rename_i hne
      split
      · -- the item is behind the middle
        rename_i hneg
        refine indexOrderFrom_located hc hl tail _ hi (by omega) (by omega) hhi ?_ hgreat
        intro a ha
        have hnext : (lo + (hi - lo) / 2 + 1).toNat = (lo + (hi - lo) / 2).toNat + 1 := by omega
        rw [hnext, List.take_add_one, hy] at ha
        rcases List.mem_append.mp ha with ha | ha
        · exact hc.lt_of_lt_of_le (hbefore a ha) (by omega)
        · rw [Option.toList_some, List.mem_singleton] at ha
          rw [ha]
          exact hneg
      · rename_i hpos
        refine indexOrderFrom_located hc hl tail lo _ h0 (by omega) (by omega) hsmall ?_
        intro b hb
        have hxy : cmp x y < 0 := hc.neg_of_pos (by omega)
        have hnext : (lo + (hi - lo) / 2 - 1 + 1).toNat = (lo + (hi - lo) / 2).toNat := by omega
        rw [hnext] at hb
        obtain ⟨hlt, rfl⟩ := List.getElem?_eq_some_iff.mp hy
        rw [List.drop_eq_getElem_cons hlt] at hb
        rcases List.mem_cons.mp hb with rfl | hb
        · omega
        · exact hc.pos_of_neg (hc.lt_of_lt_of_le hxy (by have := hafter b hb; omega))
  · rename_i hlh
    obtain rfl : lo = hi + 1 := by omega
    exact ⟨_, rfl, l.take (hi + 1).toNat, l.drop (hi + 1).toNat, (List.take_append_drop _ _).symm,
      by simp only [List.length_take]; omega, hsmall, Or.inl ⟨rfl, hgreat⟩⟩
termination_by (hi - lo + 1).toNat
decreasing_by
  all_goals omega

theorem indexOrderOf_located (hc : IsComparison cmp) (hl : Strict cmp l) (ht : Tidy E h)
    (hv : Holds E h v (l.map some)) (hfits : Fits E l.length) (x : α) :
    ∃ r, indexOrderOf E cmp h v x = .ok r ∧ Located cmp l x r := by
  have hcount := hv.count
  have hlen := hv.length_fits ht (by rw [List.length_map]; exact hfits)
  rw [List.length_map] at hcount hlen
  obtain ⟨tail, hcells, -⟩ := hv.cells
  unfold indexOrderOf
  rw [hcount, hcells]
  split
  · rename_i hzero
    obtain rfl := List.length_eq_zero_iff.mp hzero
    exact ⟨_, rfl, [], [], rfl, rfl, by simp, Or.inl ⟨rfl, by simp⟩⟩
  · rename_i hne
    rw [ssize_of_lt (by omega)]
    refine indexOrderFrom_located hc hl tail 0 _ (by omega) (by omega) (by omega) (by simp) ?_
    have hend : ((l.length - 1 : Nat) + 1 : Int).toNat = l.length := by omega
    rw [hend, List.drop_length]
    exact fun b hb => absurd hb List.not_mem_nil

/-! ## One item added or removed -/

/-- An item that compares equal is in the list. -/
def Present (cmp : α → α → Int) (l : List α) (x : α) : Prop := ∃ y ∈ l, cmp y x = 0

/-- Where the item is found decides what is below it and above it. -/
theorem Located.sides {r : Option Nat × Nat} (hr : Located cmp l x r) :
    r.2 = (below cmp x l).length ∧ l.take r.2 = below cmp x l ∧ r.2 ≤ l.length ∧
    ((r.1 = none ∧ ¬ Present cmp l x ∧ l.drop r.2 = above cmp x l) ∨
      (r.1 = some r.2 ∧ Present cmp l x ∧ r.2 < l.length ∧ l.drop (r.2 + 1) = above cmp x l)) := by
  obtain ⟨A, C, rfl, hr2, hA, ⟨hr1, hC⟩ | ⟨hr1, y, C', rfl, hy, hC⟩⟩ := hr
  · rw [below_append hA fun a ha => Int.le_of_lt (hC a ha),
      above_append (fun a ha => Int.le_of_lt (hA a ha)) hC, hr2]
    refine ⟨rfl, by simp, by simp, Or.inl ⟨hr1, ?_, by simp⟩⟩
    rintro ⟨z, hz, hzx⟩
    rcases List.mem_append.mp hz with hz | hz
    · have := hA z hz
      omega
    · have := hC z hz
      omega
  · obtain ⟨hbelow, habove⟩ := sides_of_mem hA hy hC
    rw [hbelow, habove, hr2]
    exact ⟨rfl, by simp, by simp, Or.inr ⟨hr1, ⟨y, by simp, hy⟩, by simp, by simp⟩⟩

/-- What `add` says and does, where `R` says that the request for a longer buffer was refused. -/
def Added (R : Prop) (cmp : α → α → Int) (l : List α) (x : α) (ret : Ret) (l' : List α) : Prop :=
  (ret = .value (below cmp x l).length ∧ l' = put cmp l x) ∨
  (ret = .noMemory ∧ R ∧ ¬ Present cmp l x ∧ l' = l)

/-- An item of the vector compares equal. -/
def Contains (E : Env α) (cmp : α → α → Int) (h : E.buffers.Heap) (v : VectorImpl) (x : α) : Prop :=
  ∃ y, some y ∈ (cellsOf E h v).take v.mCount ∧ cmp y x = 0

/-- How many items of the vector are smaller. -/
def smaller (E : Env α) (cmp : α → α → Int) (h : E.buffers.Heap) (v : VectorImpl) (x : α) : Nat :=
  ((cellsOf E h v).take v.mCount).countP fun c => c.any (cmp · x < 0)

theorem contains_iff (hv : Holds E h v (l.map some)) : Contains E cmp h v x ↔ Present cmp l x := by
  unfold Contains Present
  rw [hv.eq_take]
  simp

theorem smaller_eq (hv : Holds E h v (l.map some)) :
    smaller E cmp h v x = (below cmp x l).length := by
  unfold smaller below
  rw [hv.eq_take, List.countP_map, List.countP_eq_length_filter]
  rfl

/-- `add` ends the process: an item that is not there makes the buffer too long, or one that is
there has to be replaced in a shared buffer that cannot be copied. -/
def AddDies (E : Env α) (cmp : α → α → Int) (h : E.buffers.Heap) (v : VectorImpl) (x : α) : Prop :=
  (¬ Contains E cmp h v x ∧ GrowDies E h v 1) ∨ (Contains E cmp h v x ∧ EditDenied E h v)

def AddRefused (E : Env α) (cmp : α → α → Int) (h : E.buffers.Heap) (v : VectorImpl)
    (x : α) : Prop :=
  NoRoom E h v (smaller E cmp h v x) 1

theorem newItems_one {X : List (Option α)} (hX : NewItems E (some x) 1 X) : X = [some x] :=
  hX.2.1 x rfl

theorem sortedAdd_meets (hc : IsComparison cmp) (hl : Strict cmp l) (ht : Tidy E h)
    (hv : Holds E h v (l.map some)) (hfits : Fits E l.length) :
    Meets (AddDies E cmp h v x) (sortedAdd E cmp h v x) fun r => Frame E h v r.2.1 r.2.2 ∧
      ∃ l', Holds E r.2.1 r.2.2 (l'.map some) ∧ Added (AddRefused E cmp h v x) cmp l x r.1 l' := by
  have hcount := hv.count
  have hcontains : Contains E cmp h v x ↔ Present cmp l x := contains_iff hv
  obtain ⟨r, hr, hlocated⟩ := indexOrderOf_located hc hl ht hv hfits x
  refine Meets.bind (.of_eq_ok hr rfl) ?_
  rintro _ rfl
  obtain ⟨hr2, htake, hle, ⟨hnone, habsent, hdrop⟩ | ⟨hsome, hpresent, hlt, hdrop⟩⟩ :=
    hlocated.sides
  · simp only [hnone]
    refine ((insertAt_meets ht hv).weaken fun hdies =>
      Or.inl ⟨mt hcontains.mp habsent, hdies.2⟩).mono fun s hs => ?_
    obtain ⟨hf, l', hl', ⟨hlt, -⟩ | ⟨-, hret, rfl, hzero | hrefused⟩ | ⟨-, hret, X, hX, rfl⟩⟩ := hs
    · rw [List.length_map] at hlt
      omega
    · omega
    · refine ⟨hf, l, hl', Or.inr ⟨hret, ?_, habsent, rfl⟩⟩
      rw [hr2, ← smaller_eq hv] at hrefused
      exact hrefused
    · refine ⟨hf, put cmp l x, ?_, Or.inl ⟨hr2 ▸ hret, rfl⟩⟩
      rw [newItems_one hX, ← List.map_take, ← List.map_drop, htake, hdrop] at hl'
      simpa [put] using hl'
  · simp only [hsome]
    refine ((replaceAt_meets ht hv).weaken fun hdies =>
      Or.inr ⟨hcontains.mpr hpresent, hdies.2⟩).mono fun s hs => ?_
    obtain ⟨hf, l', hl', ⟨hge, -⟩ | ⟨-, hret, X, hX, rfl⟩⟩ := hs
    · rw [List.length_map] at hge
      omega
    · refine ⟨hf, put cmp l x, ?_, Or.inl ⟨hr2 ▸ hret, rfl⟩⟩
      rw [newItems_one hX, ← List.map_take, ← List.map_drop, htake, hdrop] at hl'
      simpa [put] using hl'

/-- What `remove` says and does; where `R` says that the smaller buffer was refused, the item may
stay. -/
def Dropped (R : Prop) (cmp : α → α → Int) (l : List α) (x : α) (ret : Ret) (l' : List α) : Prop :=
  (¬ Present cmp l x ∧ ret = .nameNotFound ∧ l' = l) ∨
  (Present cmp l x ∧ ret = .value (below cmp x l).length ∧ (l' = remove cmp l x ∨ (R ∧ l' = l)))

theorem sortedRemove_meets (hc : IsComparison cmp) (hl : Strict cmp l) (ht : Tidy E h)
    (hv : Holds E h v (l.map some)) (hfits : Fits E l.length) :
    Meets (Contains E cmp h v x ∧ ShrinkDies E h v 1) (sortedRemove E cmp h v x) fun r =>
      Frame E h v r.2.1 r.2.2 ∧ ∃ l', Holds E r.2.1 r.2.2 (l'.map some) ∧
        Dropped (NoSmaller E h v (smaller E cmp h v x) 1) cmp l x r.1 l' := by
  have hcontains : Contains E cmp h v x ↔ Present cmp l x := contains_iff hv
  obtain ⟨r, hr, hlocated⟩ := indexOrderOf_located hc hl ht hv hfits x
  refine Meets.bind (.of_eq_ok hr rfl) ?_
  rintro _ rfl
  obtain ⟨hr2, htake, hle, ⟨hnone, habsent, -⟩ | ⟨hsome, hpresent, hlt, hdrop⟩⟩ := hlocated.sides
  · simp only [hnone]
    exact .ok ⟨.refl ht, l, hv, Or.inl ⟨habsent, rfl, rfl⟩⟩
  · simp only [hsome]
    have hlen := hv.length_lt ht
    rw [List.length_map] at hlen
    refine ((removeItemsAt_meets (n := 1) ht hv (by omega)).weaken fun hdies =>
      ⟨hcontains.mpr hpresent, hdies.2⟩).bind fun s hs => ?_
    obtain ⟨hf, l', hl', ⟨hge, -⟩ | ⟨-, -, hremoved⟩⟩ := hs
    · rw [List.length_map] at hge
      omega
    · have hret : Ret.value r.2 = .value (below cmp x l).length := by rw [hr2]
      rcases hremoved with rfl | ⟨hrefused, rfl⟩
      · refine .ok ⟨hf, remove cmp l x, ?_, Or.inr ⟨hpresent, hret, Or.inl rfl⟩⟩
        rw [← List.map_take, ← List.map_drop, htake, hdrop] at hl'
        simpa [remove] using hl'
      · rw [hr2, ← smaller_eq hv] at hrefused
        exact .ok ⟨hf, l, hl', Or.inr ⟨hpresent, hret, Or.inr ⟨hrefused, rfl⟩⟩⟩

/-! ## Runs -/

inductive SetOp (α : Type)
  | add (item : α)
  | remove (item : α)
  | indexOf (item : α)
  | orderOf (item : α)

variable (E cmp)

def SetOp.call (h : E.buffers.Heap) (v : VectorImpl) :
    SetOp α → Except Fault (Ret × E.buffers.Heap × VectorImpl)
  | .add item => sortedAdd E cmp h v item
  | .remove item => sortedRemove E cmp h v item
  | .indexOf item => do
    let r ← Libmotou.indexOf E cmp h v item
    .ok (r, h, v)
  | .orderOf item => do
    let r ← Libmotou.orderOf E cmp h v item
    .ok (r, h, v)

/-- What a sorted list without equal items says and becomes; `R` says that the request of the call
was refused. -/
def SetOp.effect (R : Prop) (l : List α) (ret : Ret) (l' : List α) : SetOp α → Prop
  | .add item => Added R cmp l item ret l'
  | .remove item => Dropped R cmp l item ret l'
  | .indexOf item => l' = l ∧ ((Present cmp l item ∧ ret = .value (below cmp item l).length) ∨
      (¬ Present cmp l item ∧ ret = .nameNotFound))
  | .orderOf item => l' = l ∧ ret = .value (below cmp item l).length

def SetOp.Refused (h : E.buffers.Heap) (v : VectorImpl) : SetOp α → Prop
  | .add item => AddRefused E cmp h v item
  | .remove item => NoSmaller E h v (smaller E cmp h v item) 1
  | .indexOf _ | .orderOf _ => False

def SetOp.Dies (h : E.buffers.Heap) (v : VectorImpl) : SetOp α → Prop
  | .add item => AddDies E cmp h v item
  | .remove item => Contains E cmp h v item ∧ ShrinkDies E h v 1
  | .indexOf _ | .orderOf _ => False

/-- What the calls have returned, and the vector. -/
def SetOp.step (s : List Ret × E.buffers.Heap × VectorImpl) (op : SetOp α) :
    Except Fault (List Ret × E.buffers.Heap × VectorImpl) := do
  let r ← op.call E cmp s.2.1 s.2.2
  .ok (s.1 ++ [r.1], r.2)

/-- The same for the list. -/
def SetStep (s : List Ret × E.buffers.Heap × VectorImpl) (op : SetOp α)
    (A A' : List α × List Ret) : Prop :=
  ∃ ret l', op.effect cmp (op.Refused E cmp s.2.1 s.2.2) A.1 ret l' ∧ A' = (l', A.2 ++ [ret])

variable {E cmp}

theorem SetOp.strict (hc : IsComparison cmp) {R : Prop} {op : SetOp α} {ret : Ret} {l' : List α}
    (hl : Strict cmp l) (hop : op.effect cmp R l ret l') : Strict cmp l' := by
  cases op with
  | add item =>
    rcases hop with ⟨-, rfl⟩ | ⟨-, -, -, rfl⟩
    · exact strict_put hc item hl
    · exact hl
  | remove item =>
    rcases hop with ⟨-, -, rfl⟩ | ⟨-, -, rfl | ⟨-, rfl⟩⟩
    · exact hl
    · exact strict_remove hc item hl
    · exact hl
  | indexOf item =>
    obtain ⟨rfl, -⟩ := hop
    exact hl
  | orderOf item =>
    obtain ⟨rfl, -⟩ := hop
    exact hl

theorem SetOp.call_meets (hc : IsComparison cmp) (hl : Strict cmp l) (ht : Tidy E h)
    (hv : Holds E h v (l.map some)) (hfits : Fits E l.length) (op : SetOp α) :
    Meets (op.Dies E cmp h v) (op.call E cmp h v) fun r => Frame E h v r.2.1 r.2.2 ∧
      ∃ l', Holds E r.2.1 r.2.2 (l'.map some) ∧ op.effect cmp (op.Refused E cmp h v) l r.1 l' := by
  cases op with
  | add item => exact sortedAdd_meets hc hl ht hv hfits
  | remove item => exact sortedRemove_meets hc hl ht hv hfits
  | indexOf item =>
    obtain ⟨r, hr, hlocated⟩ := indexOrderOf_located hc hl ht hv hfits item
    have hcall : (SetOp.indexOf item).call E cmp h v = .ok (foundAt r.1, h, v) := by
      simp only [SetOp.call, Libmotou.indexOf, hr]
      rfl
    refine .of_eq_ok hcall ⟨.refl ht, l, hv, rfl, ?_⟩
    obtain ⟨hr2, -, -, ⟨hnone, habsent, -⟩ | ⟨hsome, hpresent, -⟩⟩ := hlocated.sides
    · exact Or.inr ⟨habsent, by rw [hnone]; rfl⟩
    · exact Or.inl ⟨hpresent, by rw [hsome, hr2]; rfl⟩
  | orderOf item =>
    obtain ⟨r, hr, hlocated⟩ := indexOrderOf_located hc hl ht hv hfits item
    have hcall : (SetOp.orderOf item).call E cmp h v = .ok (.value r.2, h, v) := by
      simp only [SetOp.call, Libmotou.orderOf, hr]
      rfl
    exact .of_eq_ok hcall ⟨.refl ht, l, hv, rfl, by rw [hlocated.sides.1]⟩

/-- **A sorted vector is a sorted set**, over every sequence of calls and every outcome of the
requests for memory: the items stay strictly increasing, and every index, order and error returned
is that of the set.  An item is not added if the longer buffer is refused, and may not be removed if
the smaller one is. -/
theorem sorted_vector_is_sorted_set (hc : IsComparison cmp) (ops : List (SetOp α))
    (h : E.buffers.Heap) (v : VectorImpl) (l : List α) (hl : Strict cmp l) (ht : Tidy E h)
    (hv : Holds E h v (l.map some))
    (hfits : Machine.Along (fun s op => (SetOp.step E cmp s op).toOption)
      (fun s _ => Fits E s.2.2.mCount) ([], h, v) ops) :
    Meets (ComesTo (SetOp.step E cmp) (fun s op => op.Dies E cmp s.2.1 s.2.2) ops ([], h, v))
      (run (SetOp.step E cmp) ops ([], h, v)) fun r => Frame E h v r.2.1 r.2.2 ∧
        ∃ l', Holds E r.2.1 r.2.2 (l'.map some) ∧ Strict cmp l' ∧
          Follows (SetOp.step E cmp) (SetStep E cmp) ops ([], h, v) (l, []) (l', r.1) := by
  have hrun : Meets (ComesTo (SetOp.step E cmp) (fun s op => op.Dies E cmp s.2.1 s.2.2) ops
      ([], h, v)) (run (SetOp.step E cmp) ops ([], h, v)) fun s => ∃ A : List α × List Ret,
        (Frame E h v s.2.1 s.2.2 ∧ Holds E s.2.1 s.2.2 (A.1.map some) ∧
          Strict cmp A.1 ∧ A.2 = s.1) ∧
        Follows (SetOp.step E cmp) (SetStep E cmp) ops ([], h, v) (l, []) A := by
    refine Meets.run (C := fun s _ => Fits E s.2.2.mCount) (fun s A op hI hs => ?_) ops
      ⟨.refl ht, hv, hl, rfl⟩ hfits
    obtain ⟨hf, hv', hl', hlog⟩ := hI
    rw [hv'.count, List.length_map] at hs
    refine (SetOp.call_meets hc hl' hf.tidy hv' hs op).bind fun r hr => ?_
    obtain ⟨hf', l₁, hl₁, heffect⟩ := hr
    exact .ok ⟨(l₁, A.2 ++ [r.1]), ⟨hf.trans hf', hl₁, SetOp.strict hc hl' heffect, by rw [hlog]⟩,
      r.1, l₁, heffect, rfl⟩
  refine hrun.mono fun s hs => ?_
  obtain ⟨⟨l', rets⟩, ⟨hf, hl', hstrict, rfl⟩, hfollows⟩ := hs
  exact ⟨hf, l', hl', hstrict, hfollows⟩

/-- Calls on an empty vector, with a pool that refuses buffers of more than a hundred bytes. -/
def fewWords : List (SetOp Nat) := [.add 5, .add 2, .add 5, .remove 2, .indexOf 5]

theorem sorted_vector_is_sorted_set_words : ∃ r,
    run (SetOp.step (words 100) wordOrder) fewWords ([], Pool.empty, ⟨none, 0⟩) = .ok r ∧
    r.1 = [.value 0, .value 0, .value 1, .value 0, .value 0] ∧
    Frame (words 100) Pool.empty ⟨none, 0⟩ r.2.1 r.2.2 ∧
    Holds (words 100) r.2.1 r.2.2 ([5].map some) ∧
    Follows (SetOp.step (words 100) wordOrder) (SetStep (words 100) wordOrder) fewWords
    ([], Pool.empty, ⟨none, 0⟩)
      ([], []) ([5], r.1) := by
  have hcells : (run (SetOp.step (words 100) wordOrder) fewWords ([], Pool.empty, ⟨none, 0⟩)).toOption.map
      (fun r => (r.1, (cellsOf (words 100) r.2.1 r.2.2).take r.2.2.mCount)) =
        some ([.value 0, .value 0, .value 1, .value 0, .value 0], [some 5]) := by decide +kernel
  obtain ⟨r, hr, hstate⟩ := exists_ok hcells
  obtain ⟨hret, htake⟩ := Prod.mk.inj hstate
  obtain ⟨hf, l', hl', -, hfollows⟩ :=
    (sorted_vector_is_sorted_set isComparison_wordOrder fewWords (E := words 100)
    Pool.empty ⟨none, 0⟩ [] .nil (fun _ _ hB => by cases hB) .null
    (Machine.along_of_forall _ _ fun _ _ _ hone => by cases hone)).of_ok hr
  obtain rfl : l' = [5] :=
    List.map_injective_iff.mpr (Option.some_injective _) (hl'.eq_take.symm.trans htake)
  exact ⟨r, hr, hret, hf, hl', hfollows⟩

/-! ## Merging -/

/-- Another vector is still held by somebody else after the operation. -/
theorem Frame.shared {h' : E.buffers.Heap} {v' : VectorImpl} (hf : Frame E h v h' v')
    (hshared : ∀ c, held w c + held v c ≤ E.buffers.refs h c) (c : Nat) :
    held w c + held v' c ≤ E.buffers.refs h' c := by
  have := hf.refs c
  have := hshared c
  omega

theorem valueAt_items {tail : List (Option α)} {l : List α} {x : α} {i : Nat}
    (hi : l[i]? = some x) :
    valueAt (l.map some ++ tail) i = .ok x := by
  obtain ⟨hlt, -⟩ := List.getElem?_eq_some_iff.mp hi
  have hcell : (l.map some ++ tail)[i]? = some (some x) := by
    rw [List.getElem?_append_left (by rw [List.length_map]; exact hlt), List.getElem?_map, hi]
    rfl
  simp [valueAt, hcell]

variable (E cmp) in
/-- The vector after an `add`. -/
def addStep (s : E.buffers.Heap × VectorImpl) (item : α) :
    Except Fault (E.buffers.Heap × VectorImpl) := do
  let r ← sortedAdd E cmp s.1 s.2 item
  .ok r.2

/-- One of the items comes to a vector that has no room for it. -/
def MergeRefused (E : Env α) (cmp : α → α → Int) (m : List α) (h : E.buffers.Heap)
    (v : VectorImpl) : Prop :=
  ComesTo (addStep E cmp) (fun s x => AddRefused E cmp s.1 s.2 x) m (h, v)

/-- One of the items comes to a vector to which adding it ends the process. -/
def MergeDies (E : Env α) (cmp : α → α → Int) (m : List α) (h : E.buffers.Heap)
    (v : VectorImpl) : Prop :=
  ComesTo (addStep E cmp) (fun s x => AddDies E cmp s.1 s.2 x) m (h, v)

/-- The naive merge puts one item after the other; it stops when a request is refused (`R`). -/
def MergedTo (R : Prop) (cmp : α → α → Int) (l m : List α) (ret : Ret) (l' : List α) : Prop :=
  (ret = .value 0 ∧ l' = m.foldl (put cmp) l) ∨
  (ret = .noMemory ∧ R ∧ ∃ p, p <+: m ∧ l' = p.foldl (put cmp) l)

theorem mergeFrom_meets (hc : IsComparison cmp) (done rest : List α) (h : E.buffers.Heap)
    (v : VectorImpl) (l : List α) (hl : Strict cmp l) (ht : Tidy E h)
    (hv : Holds E h v (l.map some)) (hw : Holds E h w ((done ++ rest).map some))
    (hshared : ∀ c, held w c + held v c ≤ E.buffers.refs h c)
    (hfits : Fits E (l.length + rest.length)) :
    Meets (MergeDies E cmp rest h v) (mergeFrom E cmp w rest.length done.length h v) fun r =>
      Frame E h v r.2.1 r.2.2 ∧
        ∃ l', Holds E r.2.1 r.2.2 (l'.map some) ∧
        MergedTo (MergeRefused E cmp rest h v) cmp l rest r.1 l' := by
  induction rest generalizing done h v l with
  | nil => exact .ok ⟨.refl ht, l, hv, Or.inl ⟨rfl, rfl⟩⟩
  | cons x rest ih =>
    obtain ⟨tail, hcells, -⟩ := hw.cells
    have hvalue : valueAt (cellsOf E h w) done.length = .ok x := by
      rw [hcells]
      exact valueAt_items (by simp)
    have hfits' : Fits E l.length := fun hone => (Nat.le_add_right _ _).trans_lt (hfits hone)
    have hlen := hv.length_fits ht (by rw [List.length_map]; exact hfits')
    rw [List.length_map] at hlen
    refine Meets.bind (.of_eq_ok hvalue rfl) ?_
    rintro _ rfl
    obtain ⟨hfatal, hdies⟩ | ⟨r, hr, hf, l₁, hl₁, hadded⟩ :=
      sortedAdd_meets (x := x) hc hl ht hv hfits'
    · rw [hfatal]
      exact .fatal (Or.inl hdies)
    · have hstep : addStep E cmp (h, v) x = .ok r.2 := by
        unfold addStep
        rw [hr]
        rfl
      rw [hr]
      show Meets _ (if r.1.failed = true then _ else _) _
      obtain ⟨hret, rfl⟩ | ⟨hret, hrefused, -, rfl⟩ := hadded
      · have hindex : (below cmp x l).length < 2 ^ 31 := (List.length_filter_le _ _).trans_lt hlen
        have hput : (put cmp l x).length ≤ l.length + 1 := length_put_le l x
        rw [hret, failed_value_of_lt hindex, if_neg Bool.false_ne_true]
        have hsplit : done ++ x :: rest = (done ++ [x]) ++ rest := by simp
        rw [hsplit] at hw
        have hnext := ih (done ++ [x]) _ _ _ (strict_put hc x hl) hf.tidy hl₁ (hf.holds hw hshared)
          (hf.shared hshared) fun hone =>
          by have := hfits hone; rw [List.length_cons] at this; omega
        rw [List.length_append, List.length_singleton] at hnext
        refine (hnext.weaken fun hdies => Or.inr ⟨_, hstep, hdies⟩).mono fun s hs => ?_
        obtain ⟨hf', l₂, hl₂, ⟨hret', rfl⟩ | ⟨hret', hrefused, p, hp, rfl⟩⟩ := hs
        · exact ⟨hf.trans hf', _, hl₂, Or.inl ⟨hret', rfl⟩⟩
        · exact ⟨hf.trans hf', _, hl₂, Or.inr ⟨hret', Or.inr ⟨_, hstep, hrefused⟩, x :: p,
            List.cons_prefix_cons.mpr ⟨rfl, hp⟩, rfl⟩⟩
      · rw [if_pos (by rw [hret]; rfl)]
        exact .ok ⟨hf, _, hl₁, Or.inr ⟨hret, Or.inl hrefused, [], List.nil_prefix, rfl⟩⟩

theorem merge_meets (hc : IsComparison cmp) (hl : Strict cmp l) (ht : Tidy E h)
    (hv : Holds E h v (l.map some)) (hw : Holds E h w (m.map some))
    (hshared : ∀ c, held w c + held v c ≤ E.buffers.refs h c)
    (hfits : Fits E (l.length + m.length)) :
    Meets (MergeDies E cmp m h v) (merge E cmp h v w) fun r => Frame E h v r.2.1 r.2.2 ∧
      ∃ l', Holds E r.2.1 r.2.2 (l'.map some) ∧
      MergedTo (MergeRefused E cmp m h v) cmp l m r.1 l' := by
  unfold merge
  rw [hw.count, List.length_map]
  exact mergeFrom_meets hc [] m h v l hl ht hv hw hshared hfits

/-- Two words in a buffer of four. -/
def twoWords (a b : Nat) : Buffer Nat := ⟨1, 16, [some a, some b, none, none]⟩

/-- Two vectors of words, each with a buffer of its own. -/
def twoVectors : Pool Nat := (Pool.empty.add (twoWords 10 30)).add (twoWords 31 40)

theorem buf_twoVectors {a : Nat} {B : Buffer Nat}
    (hB : (words 100).buffers.buf twoVectors a = some B) :
    (a = 0 ∧ B = twoWords 10 30) ∨ (a = 1 ∧ B = twoWords 31 40) := by
  have hB' : Function.update (Function.update (fun _ => none) 0 (some (twoWords 10 30))) 1
      (some (twoWords 31 40)) a = some B := hB
  by_cases h1 : a = 1
  · rw [h1, Function.update_self, Option.some.injEq] at hB'
    exact Or.inr ⟨h1, hB'.symm⟩
  · rw [Function.update_of_ne h1] at hB'
    by_cases h0 : a = 0
    · rw [h0, Function.update_self, Option.some.injEq] at hB'
      exact Or.inl ⟨h0, hB'.symm⟩
    · rw [Function.update_of_ne h0] at hB'
      cases hB'

theorem tidy_twoVectors : Tidy (words 100) twoVectors := by
  intro a B hB
  rcases buf_twoVectors hB with ⟨-, rfl⟩ | ⟨-, rfl⟩
  · decide
  · decide

theorem holds_first : Holds (words 100) twoVectors ⟨some 0, 2⟩ ([10, 30].map some) :=
  Holds.storage (B := twoWords 10 30) rfl
    (show (twoWords 10 30).cells = [some 10, some 30] ++ [none, none] from rfl) rfl rfl

theorem holds_second : Holds (words 100) twoVectors ⟨some 1, 2⟩ ([31, 40].map some) :=
  Holds.storage (B := twoWords 31 40) rfl
    (show (twoWords 31 40).cells = [some 31, some 40] ++ [none, none] from rfl) rfl rfl

theorem shared_twoVectors (c : Nat) :
    held ⟨some 1, 2⟩ c + held ⟨some 0, 2⟩ c ≤ (words 100).buffers.refs twoVectors c := by
  by_cases h0 : c = 0
  · subst h0
    decide
  · by_cases h1 : c = 1
    · subst h1
      decide
    · rw [held_of_ne rfl h1, held_of_ne rfl h0]
      exact Nat.zero_le _

/-- Words in the order of their tens, in which 30 and 31 are equal. -/
def tensOrder (a b : Nat) : Int := wordOrder (a / 10) (b / 10)

theorem isComparison_tensOrder : IsComparison tensOrder :=
  ⟨fun _ _ => isComparison_wordOrder.swap _ _, fun _ _ _ => isComparison_wordOrder.trans _ _ _⟩

/-- **The naive merge is a union** in which the merged vector wins: an item is found if it was in
one of the two, and of items that compare equal it is the last one of the merged vector.  If a
request is refused, it is the union with the items merged so far; the process ends only if adding
one of them asks for it. -/
theorem merge_is_union (hc : IsComparison cmp) (hl : Strict cmp l) (ht : Tidy E h)
    (hv : Holds E h v (l.map some)) (hw : Holds E h w (m.map some))
    (hshared : ∀ c, held w c + held v c ≤ E.buffers.refs h c)
    (hfits : Fits E (l.length + m.length)) :
    Meets (MergeDies E cmp m h v) (merge E cmp h v w) fun r => Frame E h v r.2.1 r.2.2 ∧
      ∃ l' p, Holds E r.2.1 r.2.2 (l'.map some) ∧ Strict cmp l' ∧ p <+: m ∧
        (∀ y, lookup cmp l' y = (p.reverse.find? (cmp · y = 0)).or (lookup cmp l y)) ∧
        ((r.1 = .value 0 ∧ p = m) ∨ (r.1 = .noMemory ∧ MergeRefused E cmp m h v)) := by
  refine (merge_meets hc hl ht hv hw hshared hfits).mono fun r hr => ?_
  obtain ⟨hf, l', hl', ⟨hret, rfl⟩ | ⟨hret, hrefused, p, hp, rfl⟩⟩ := hr
  · exact ⟨hf, _, m, hl', strict_foldl_put hc m hl, List.prefix_rfl, lookup_foldl_put hc m hl,
      Or.inl ⟨hret, rfl⟩⟩
  · exact ⟨hf, _, p, hl', strict_foldl_put hc p hl, hp, lookup_foldl_put hc p hl,
      Or.inr ⟨hret, hrefused⟩⟩

/-- 31 replaces 30. -/
theorem merge_is_union_tens :
    ∃ r, merge (words 100) tensOrder twoVectors ⟨some 0, 2⟩ ⟨some 1, 2⟩ = .ok r ∧
    r.1 = .value 0 ∧ Frame (words 100) twoVectors ⟨some 0, 2⟩ r.2.1 r.2.2 ∧
    Holds (words 100) r.2.1 r.2.2 ([10, 31, 40].map some) ∧ Strict tensOrder [10, 31, 40] ∧
    ∀ y, lookup tensOrder [10, 31, 40] y =
      ([31, 40].reverse.find? (tensOrder · y = 0)).or (lookup tensOrder [10, 30] y) := by
  have hcells : (merge (words 100) tensOrder twoVectors ⟨some 0, 2⟩ ⟨some 1, 2⟩).toOption.map
      (fun r => (r.1, (cellsOf (words 100) r.2.1 r.2.2).take r.2.2.mCount)) =
        some (.value 0, [some 10, some 31, some 40]) := by decide +kernel
  obtain ⟨r, hr, hstate⟩ := exists_ok hcells
  obtain ⟨hret, htake⟩ := Prod.mk.inj hstate
  obtain ⟨hf, l', p, hl', hstrict, -, hlookup, ⟨-, rfl⟩ | ⟨hno, -⟩⟩ :=
    (merge_is_union isComparison_tensOrder (by simp [Strict, tensOrder, wordOrder]) tidy_twoVectors holds_first
      holds_second shared_twoVectors (fun h => by cases h)).of_ok hr
  · obtain rfl : l' = [10, 31, 40] :=
      List.map_injective_iff.mpr (Option.some_injective _) (hl'.eq_take.symm.trans htake)
    exact ⟨r, hr, hret, hf, hl', hstrict, hlookup⟩
  · rw [hret] at hno
    cases hno

/-- An end of one list compares equal to the other end of the other. -/
def Touching (cmp : α → α → Int) (l m : List α) : Prop :=
  (∃ a b, m.getLast? = some a ∧ l.head? = some b ∧ cmp a b = 0) ∨
  (∃ a b, m.head? = some a ∧ l.getLast? = some b ∧ cmp a b = 0)

/-- One list stands before the other, and two items that compare equal are side by side. -/
def SideBySide (cmp : α → α → Int) (l m l' : List α) : Prop :=
  (l' = m ++ l ∧ ∃ a b, m.getLast? = some a ∧ l.head? = some b ∧ cmp a b = 0) ∨
  (l' = l ++ m ∧ ∃ a b, l.getLast? = some a ∧ m.head? = some b ∧ cmp a b = 0)

/-- `l'` is what the naive merge makes of the two, unless ends touch: then the shortcuts leave equal
items. -/
def MergedExactly (cmp : α → α → Int) (l m l' : List α) : Prop :=
  (Strict cmp l' ↔ ¬ Touching cmp l m) ∧ (¬ Touching cmp l m → l' = m.foldl (put cmp) l) ∧
    (Touching cmp l m → SideBySide cmp l m l')

section Shortcuts

variable {a b c d : α}

theorem touching_iff (ha : m.getLast? = some a) (hb : l.head? = some b) (hc' : m.head? = some c)
    (hd : l.getLast? = some d) : Touching cmp l m ↔ cmp a b = 0 ∨ cmp c d = 0 := by
  unfold Touching
  rw [ha, hb, hc', hd]
  simp

/-- All before the first item. -/
theorem mergedExactly_front (hc : IsComparison cmp) (hl : Strict cmp l) (hm : Strict cmp m)
    (ha : m.getLast? = some a) (hb : l.head? = some b) (hcm : m.head? = some c)
    (hd : l.getLast? = some d) (hab : cmp a b ≤ 0) : MergedExactly cmp l m (m ++ l) := by
  have hca : cmp c a ≤ 0 := hm.head_le hc hcm (List.mem_of_getLast? ha)
  have hbd : cmp b d ≤ 0 := hl.head_le hc hb (List.mem_of_getLast? hd)
  have hstrict := strict_append_iff hc hm hl ha hb
  have htouch : Touching cmp l m ↔ cmp a b = 0 := by
    rw [touching_iff ha hb hcm hd]
    refine ⟨fun h => ?_, Or.inl⟩
    rcases h with h | h
    · exact h
    · -- the first items of both are no greater than the last ones
      by_contra hne
      have := hc.lt_of_le_of_lt hca (hc.lt_of_lt_of_le (show cmp a b < 0 by omega) hbd)
      omega
  refine ⟨?_, fun hnot => ?_, fun h => Or.inl ⟨rfl, a, b, ha, hb, htouch.mp h⟩⟩
  · rw [hstrict, htouch]
    omega
  · rw [htouch] at hnot
    have hlt : Strict cmp (m ++ l) := hstrict.mpr (by omega)
    have := foldl_put_between hc [] m l (by simpa using hlt)
    simpa using this.symm

/-- All behind the last item. -/
theorem mergedExactly_back (hc : IsComparison cmp) (hl : Strict cmp l) (hm : Strict cmp m)
    (ha : m.getLast? = some a) (hb : l.head? = some b) (hcm : m.head? = some c)
    (hd : l.getLast? = some d) (hab : 0 < cmp a b) (hcd : 0 ≤ cmp c d) :
    MergedExactly cmp l m (l ++ m) := by
  have hdc : cmp d c ≤ 0 := (hc.swap d c).mpr hcd
  have hstrict := strict_append_iff hc hl hm hd hcm
  have htouch : Touching cmp l m ↔ cmp d c = 0 := by
    rw [touching_iff ha hb hcm hd]
    constructor
    · rintro (h | h)
      · omega
      · exact hc.symm_zero h
    · exact fun h => Or.inr (hc.symm_zero h)
  refine ⟨?_, fun hnot => ?_, fun h => Or.inr ⟨rfl, d, c, hd, hcm, htouch.mp h⟩⟩
  · rw [hstrict, htouch]
    omega
  · rw [htouch] at hnot
    have hlt : Strict cmp (l ++ m) := hstrict.mpr (by omega)
    have := foldl_put_between hc l m [] (by simpa using hlt)
    simpa using this.symm

/-- The last item of `l` is not behind the first of `m`. -/
def EndsBefore (cmp : α → α → Int) (l m : List α) : Prop :=
  ∃ a b, l.getLast? = some a ∧ m.head? = some b ∧ cmp a b ≤ 0

theorem endsBefore_iff (ha : l.getLast? = some a) (hb : m.head? = some b) :
    EndsBefore cmp l m ↔ cmp a b ≤ 0 := by
  unfold EndsBefore
  rw [ha, hb]
  simp

/-- The merge has asked for a buffer that was refused: a shortcut changes nothing then, the naive
merge has put a beginning of `m`. -/
def MergeSortedRefused (E : Env α) (cmp : α → α → Int) (l m : List α) (h : E.buffers.Heap)
    (v w : VectorImpl) (l' : List α) : Prop :=
  (EndsBefore cmp m l ∧ NoRoom E h v 0 w.mCount ∧ l' = l) ∨
  (¬ EndsBefore cmp m l ∧ EndsBefore cmp l m ∧ NoRoom E h v v.mCount w.mCount ∧ l' = l) ∨
  (¬ EndsBefore cmp m l ∧ ¬ EndsBefore cmp l m ∧ MergeRefused E cmp m h v ∧
    ∃ p, p <+: m ∧ l' = p.foldl (put cmp) l)

/-- The shortcut or the naive merge, whichever is taken, ends the process. -/
def MergeSortedDies (E : Env α) (cmp : α → α → Int) (l m : List α) (h : E.buffers.Heap)
    (v w : VectorImpl) : Prop :=
  ((EndsBefore cmp m l ∨ EndsBefore cmp l m) ∧ GrowDies E h v w.mCount) ∨
  (¬ EndsBefore cmp m l ∧ ¬ EndsBefore cmp l m ∧ MergeDies E cmp m h v)

/-- **The shortcuts keep a sorted vector sorted exactly if no ends touch**, and then agree with the
naive merge; if an end of one vector compares equal to the other end of the other, the two items
stand side by side. -/
theorem mergeSorted_exact (hc : IsComparison cmp) (hl : Strict cmp l) (hm : Strict cmp m)
    (hlne : l ≠ []) (hmne : m ≠ []) (ht : Tidy E h) (hv : Holds E h v (l.map some))
    (hw : Holds E h w (m.map some)) (hshared : ∀ c, held w c + held v c ≤ E.buffers.refs h c)
    (hfits : Fits E (l.length + m.length)) :
    Meets (MergeSortedDies E cmp l m h v w) (mergeSorted E cmp h v w) fun r =>
      Frame E h v r.2.1 r.2.2 ∧ ∃ l', Holds E r.2.1 r.2.2 (l'.map some) ∧
        ((r.1 = .noMemory ∧ MergeSortedRefused E cmp l m h v w l') ∨
          ((∃ k, r.1 = .value k) ∧ MergedExactly cmp l m l')) := by
  obtain ⟨a, ha⟩ : ∃ a, m.getLast? = some a := ⟨_, List.getLast?_eq_some_getLast hmne⟩
  obtain ⟨b, hb⟩ : ∃ b, l.head? = some b := ⟨_, List.head?_eq_some_head hlne⟩
  obtain ⟨c, hcm⟩ : ∃ c, m.head? = some c := ⟨_, List.head?_eq_some_head hmne⟩
  obtain ⟨d, hd⟩ : ∃ d, l.getLast? = some d := ⟨_, List.getLast?_eq_some_getLast hlne⟩
  obtain ⟨tail, hcells, -⟩ := hv.cells
  obtain ⟨tail', hcells', -⟩ := hw.cells
  have hcount := hv.count
  have hcount' := hw.count
  rw [List.length_map] at hcount hcount'
  have hmpos : 0 < m.length := List.length_pos_iff.mpr hmne
  unfold mergeSorted
  rw [if_neg (by omega), hcells, hcells']
  have hva : valueAt (m.map some ++ tail') (w.mCount - 1) = .ok a :=
    valueAt_items (by rw [hcount', ← List.getLast?_eq_getElem?, ha])
  have hvb : valueAt (l.map some ++ tail) 0 = .ok b :=
    valueAt_items (by rw [← List.head?_eq_getElem?, hb])
  have hvc : valueAt (m.map some ++ tail') 0 = .ok c :=
    valueAt_items (by rw [← List.head?_eq_getElem?, hcm])
  have hvd : valueAt (l.map some ++ tail) (v.mCount - 1) = .ok d :=
    valueAt_items (by rw [hcount, ← List.getLast?_eq_getElem?, hd])
  have hfront : EndsBefore cmp m l ↔ cmp a b ≤ 0 := endsBefore_iff ha hb
  have hback : EndsBefore cmp l m ↔ 0 ≤ cmp c d := (endsBefore_iff hd hcm).trans (hc.swap d c)
  rw [hva]
  show Meets _ (valueAt _ 0 >>= _) _
  rw [hvb]
  show Meets _ (if cmp a b ≤ 0 then _ else _) _
  split
  · rename_i hab
    have hbefore := hfront.mpr hab
    refine ((insertVectorAt_meets ht hv hw hshared).weaken fun hdies =>
      Or.inl ⟨Or.inl hbefore, hdies.2⟩).mono fun r hr => ?_
    obtain ⟨hf, l', hl', ⟨hlt, -⟩ | ⟨-, hret, rfl, hzero | hrefused⟩ | ⟨-, hret, X, rfl, rfl⟩⟩ := hr
    · omega
    · rw [List.length_map] at hzero
      omega
    · exact ⟨hf, l, hl', Or.inl ⟨hret, Or.inl ⟨hbefore, hrefused, rfl⟩⟩⟩
    · exact ⟨hf, m ++ l, by simpa using hl',
        Or.inr ⟨⟨_, hret⟩, mergedExactly_front hc hl hm ha hb hcm hd hab⟩⟩
  · rename_i hab
    have hnotFront : ¬ EndsBefore cmp m l := fun hbefore => hab (hfront.mp hbefore)
    show Meets _ (valueAt _ 0 >>= _) _
    rw [hvc]
    show Meets _ (valueAt _ _ >>= _) _
    rw [hvd]
    show Meets _ (if 0 ≤ cmp c d then _ else _) _
    split
    · rename_i hcd
      have hbefore := hback.mpr hcd
      refine ((appendVector_meets ht hv hw hshared).weaken fun hdies =>
        Or.inl ⟨Or.inr hbefore, hdies⟩).mono fun r hr => ?_
      obtain ⟨hf, l', hl', ⟨hlt, -⟩ | ⟨-, hret, rfl, hzero | hrefused⟩ | ⟨-, hret, X, rfl, rfl⟩⟩ :=
        hr
      · omega
      · rw [List.length_map] at hzero
        omega
      · exact ⟨hf, l, hl',
          Or.inl ⟨hret, Or.inr (Or.inl ⟨hnotFront, hbefore, hrefused, rfl⟩)⟩⟩
      · rw [List.take_length, List.drop_length, List.append_nil, ← List.map_append] at hl'
        exact ⟨hf, l ++ m, hl',
          Or.inr ⟨⟨_, hret⟩, mergedExactly_back hc hl hm ha hb hcm hd (by omega) hcd⟩⟩
    · rename_i hcd
      have hnotBack : ¬ EndsBefore cmp l m := fun hbefore => hcd (hback.mp hbefore)
      have hapart : ¬ Touching cmp l m := by
        rw [touching_iff ha hb hcm hd]
        omega
      refine ((merge_meets hc hl ht hv hw hshared hfits).weaken fun hdies =>
        Or.inr ⟨hnotFront, hnotBack, hdies⟩).mono fun r hr => ?_
      obtain ⟨hf, l', hl', ⟨hret, rfl⟩ | ⟨hret, hrefused, hp⟩⟩ := hr
      · exact ⟨hf, _, hl', Or.inr ⟨⟨_, hret⟩, iff_of_true (strict_foldl_put hc m hl) hapart,
          fun _ => rfl, fun h => absurd h hapart⟩⟩
      · exact ⟨hf, l', hl',
          Or.inl ⟨hret, Or.inr (Or.inr ⟨hnotFront, hnotBack, hrefused, hp⟩)⟩⟩

/-- The same two vectors as in `merge_is_union_tens`: 31 is put behind 30, which it should
replace. -/
theorem mergeSorted_exact_tens :
    ∃ r, mergeSorted (words 100) tensOrder twoVectors ⟨some 0, 2⟩ ⟨some 1, 2⟩ = .ok r ∧
    r.1 = .value 2 ∧ Frame (words 100) twoVectors ⟨some 0, 2⟩ r.2.1 r.2.2 ∧
    Holds (words 100) r.2.1 r.2.2 ([10, 30, 31, 40].map some) ∧
    MergedExactly tensOrder [10, 30] [31, 40] [10, 30, 31, 40] ∧
    ¬ Strict tensOrder [10, 30, 31, 40] := by
  have hcells : (mergeSorted (words 100) tensOrder twoVectors ⟨some 0, 2⟩ ⟨some 1, 2⟩).toOption.map
      (fun r => (r.1, (cellsOf (words 100) r.2.1 r.2.2).take r.2.2.mCount)) =
        some (.value 2, [some 10, some 30, some 31, some 40]) := by decide +kernel
  obtain ⟨r, hr, hstate⟩ := exists_ok hcells
  obtain ⟨hret, htake⟩ := Prod.mk.inj hstate
  obtain ⟨hf, l', hl', ⟨hno, -⟩ | ⟨-, hexact⟩⟩ := (mergeSorted_exact isComparison_tensOrder
    (by simp [Strict, tensOrder, wordOrder]) (by simp [Strict, tensOrder, wordOrder])
    (by decide) (by decide)
    tidy_twoVectors holds_first holds_second shared_twoVectors (fun h => by cases h)).of_ok hr
  · rw [hret] at hno
    cases hno
  · obtain rfl : l' = [10, 30, 31, 40] :=
      List.map_injective_iff.mpr (Option.some_injective _) (hl'.eq_take.symm.trans htake)
    refine ⟨r, hr, hret, hf, hl', hexact, fun hstrict => hexact.1.mp hstrict ?_⟩
    exact Or.inr ⟨31, 30, rfl, rfl, rfl⟩

end Shortcuts

/-- The first item of a vector that never had one is read all the same. -/
theorem mergeSorted_null (hmne : m ≠ []) (hw : Holds E h w (m.map some)) :
    mergeSorted E cmp h ⟨none, 0⟩ w = .error .misuse := by
  obtain ⟨a, ha⟩ : ∃ a, m.getLast? = some a := ⟨_, List.getLast?_eq_some_getLast hmne⟩
  obtain ⟨tail, hcells, -⟩ := hw.cells
  have hcount := hw.count
  rw [List.length_map] at hcount
  have hmpos : 0 < m.length := List.length_pos_iff.mpr hmne
  have hva : valueAt (m.map some ++ tail) (m.length - 1) = .ok a :=
    valueAt_items (by rw [← List.getLast?_eq_getElem?, ha])
  unfold mergeSorted
  rw [hcount, if_neg (by omega), hcells, hva]
  rfl

end Omap4.Libmotou
