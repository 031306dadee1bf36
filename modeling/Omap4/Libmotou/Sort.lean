import Omap4.Libmotou.Contents
import Omap4.Comparison

/-!
# Omap4.Libmotou.Sort — sorting in place (`VectorImpl::sort`)

Insertion sort: an item that is smaller than the one before it is copied to `temp`, the greater
items move up one slot each, and it is copied back into the slot that is left.  The buffer is made
the vector's own, and `temp` is allocated, when the first such item turns up.  The items are counted
in an `ssize_t`: from 2^31 on their number is negative, and nothing is sorted.
-/

namespace Omap4.Libmotou

open Slots Comparison

variable {α : Type} (E : Env α) (cmp : α → α → Int)

/-- What the comparison function is given: an item that has a value. -/
def valueAt (cs : List (Option α)) (i : Nat) : Except Fault α :=
  match cs[i]? with
  | some (some x) => .ok x
  | _ => .error .misuse

/-- The inner `do .. while`: the item at `j` moves up one slot, and on with the one before it while
that is greater than `temp`.  Returns the slots and the last one moved from. -/
def shiftUp (temp : List (Option α)) : Nat → List (Option α) → Except Fault (List (Option α) × Nat)
  | 0, cs => do
    let cs' ← vacate E.flags cs 1 1
    let cs' ← doCopy E cs' 1 cs' 0 1
    .ok (cs', 0)
  | j + 1, cs => do
    let cs' ← vacate E.flags cs (j + 2) 1
    let cs' ← doCopy E cs' (j + 2) cs' (j + 1) 1
    let curr ← valueAt cs' j
    let item ← valueAt temp 0
    if 0 < cmp curr item then shiftUp temp j cs' else .ok (cs', j + 1)

/-- The item in `temp` goes to its place among those before `i`. -/
def insertTemp (temp : List (Option α)) (i : Nat) (cs : List (Option α)) :
    Except Fault (List (Option α)) := do
  let r ← shiftUp E cmp temp (i - 1) cs
  let cs ← vacate E.flags r.1 r.2 1
  doCopy E cs r.2 temp 0 1

/-- A buffer of its own and a `temp` of one slot at the first change, `none` without memory; later
the old item in `temp` is destroyed. -/
def openTemp (mallocOk : Bool) (h : E.buffers.Heap) (v : VectorImpl)
    (temp : Option (List (Option α))) :
    Except Fault (E.buffers.Heap × VectorImpl × Option (List (Option α))) :=
  match temp with
  | none => do
    let r ← editArrayImpl E h v
    .ok (r.1, r.2, if mallocOk then some [none] else none)
  | some t => do
    let t ← vacate E.flags t 0 1
    .ok (h, v, some t)

/-- The outer `while`: the items from `i` on, `n` of them. -/
def sortFrom (mallocOk : Bool) :
    Nat → Nat → E.buffers.Heap → VectorImpl → Option (List (Option α)) →
    Except Fault (Ret × E.buffers.Heap × VectorImpl)
  | 0, _, h, v, none => .ok (.value 0, h, v)
  | 0, _, h, v, some t => do
    let _ ← vacate E.flags t 0 1
    .ok (.value 0, h, v)
  | n + 1, i, h, v, temp => do
    let item ← valueAt (cellsOf E h v) i
    let curr ← valueAt (cellsOf E h v) (i - 1)
    if 0 < cmp curr item then do
      let r ← openTemp E mallocOk h v temp
      match r.2.2 with
      | none => .ok (.noMemory, r.1, r.2.1)
      | some t => do
        let t ← doCopy E t 0 (cellsOf E r.1 r.2.1) i 1
        let h ← onCells E r.1 r.2.1 (insertTemp E cmp t i)
        sortFrom mallocOk n (i + 1) h r.2.1 (some t)
    else sortFrom mallocOk n (i + 1) h v temp

def sort (mallocOk : Bool) (h : E.buffers.Heap) (v : VectorImpl) :
    Except Fault (Ret × E.buffers.Heap × VectorImpl) :=
  if 1 < ssize v.mCount then sortFrom E cmp mallocOk (v.mCount - 1) 1 h v none
    else .ok (.value 0, h, v)

/-! ## One item -/

variable {E cmp} {h : E.buffers.Heap} {v : VectorImpl}

theorem live_some (x : α) : E.flags.live (some x) = true := by simp [Traits.live]

theorem all_live_map (l : List α) : (l.map some).all E.flags.live = true := by
  simp [Traits.live]

theorem valueAt_append {A B : List (Option α)} {x : α} {i : Nat} (hi : i = A.length) :
    valueAt (A ++ some x :: B) i = .ok x := by
  subst hi
  simp [valueAt]

theorem copy_item {A B P Q : List (Option α)} {g c : Option α} {i j : Nat} (hi : i = A.length)
    (hj : j = P.length) (hg : E.flags.dead g = true) (hc : E.flags.live c = true) :
    doCopy E (A ++ g :: B) i (P ++ c :: Q) j 1 = .ok (A ++ c :: B) := by
  have hfetch := fetch_block (T := E.flags) (A := P) (X := [c]) (B := Q) (n := 1) hj rfl
    (by simpa using hc)
  have hplace := place_block (T := E.flags) (A := A) (X := [c]) (G := [g]) (B := B) hi rfl
    (by simpa using hg)
  rw [List.append_assoc, List.singleton_append] at hfetch hplace
  unfold doCopy
  rw [hfetch]
  refine hplace.trans ?_
  rw [List.append_assoc, List.singleton_append]

theorem vacate_item {A B : List (Option α)} {c : Option α} {i : Nat} (hi : i = A.length)
    (hc : E.flags.live c = true) :
    ∃ g, vacate E.flags (A ++ c :: B) i 1 = .ok (A ++ g :: B) ∧ E.flags.dead g = true := by
  obtain ⟨G, hG, hGlen, hdead⟩ :=
    vacate_block (T := E.flags) (X := [c]) (B := B) hi rfl (by simpa using hc)
  obtain ⟨g, rfl⟩ := List.length_eq_one_iff.mp hGlen
  refine ⟨g, ?_, by simpa using hdead⟩
  simpa using hG

/-- An item moved up over the one behind it. -/
theorem step_up {A R : List (Option α)} {c y : Option α} {j : Nat} (hj : j = A.length)
    (hc : E.flags.live c = true) (hy : E.flags.live y = true) :
    ∃ cs, vacate E.flags (A ++ c :: y :: R) (j + 1) 1 = .ok cs ∧
      doCopy E cs (j + 1) cs j 1 = .ok (A ++ c :: c :: R) := by
  obtain ⟨g, hvacate, hg⟩ := vacate_item (A := A ++ [c]) (B := R) (i := j + 1) (by simp [hj]) hy
  have hcopy := copy_item (A := A ++ [c]) (B := R) (P := A) (Q := g :: R) (i := j + 1)
    (by simp [hj]) hj hg hc
  simp only [List.append_assoc, List.singleton_append] at hvacate hcopy
  exact ⟨_, hvacate, hcopy⟩

/-- **The inner loop** moves up what is greater than the item, and leaves a slot before it. -/
theorem shiftUp_eq {x : α} (l : List α) (a : α) (y : Option α) (R : List (Option α))
    (hy : E.flags.live y = true) (ha : 0 < cmp a x) :
    ∃ z, E.flags.live z = true ∧ shiftUp E cmp [some x] l.length (l.map some ++ some a :: y :: R) =
      .ok ((front cmp x (l ++ [a])).map some ++ z :: ((back cmp x (l ++ [a])).map some ++ R),
        (front cmp x (l ++ [a])).length) := by
  induction l using List.reverseRecOn generalizing a y R with
  | nil =>
    obtain ⟨cs, hvacate, hcopy⟩ := step_up (A := []) (R := R) (j := 0) rfl (live_some (E := E) a) hy
    refine ⟨some a, live_some a, ?_⟩
    show (vacate E.flags _ 1 1 >>= _) = _
    rw [List.map_nil, hvacate]
    show (doCopy E cs 1 cs 0 1 >>= _) = _
    rw [hcopy]
    rw [front_concat_of_pos ha, back_concat_of_pos ha]
    rfl
  | append_singleton l b ih =>
    obtain ⟨cs, hvacate, hcopy⟩ :=
      step_up (A := (l ++ [b]).map some) (R := R) (j := l.length + 1) (by simp)
      (live_some (E := E) a) hy
    have hlen : (l ++ [b]).length = l.length + 1 := by simp
    rw [hlen]
    show ∃ z, _ ∧ (vacate E.flags _ (l.length + 2) 1 >>= _) = _
    rw [hvacate]
    show ∃ z, _ ∧ (doCopy E cs (l.length + 2) cs (l.length + 1) 1 >>= _) = _
    rw [hcopy]
    have hcells : (l ++ [b]).map some ++ some a :: some a :: R = l.map some ++
        some b :: some a :: some a :: R := by
      simp
    rw [hcells]
    show ∃ z, _ ∧ (valueAt _ l.length >>= _) = _
    rw [valueAt_append (by simp)]
    show ∃ z, _ ∧ (if 0 < cmp b x then _ else _) = _
    by_cases hb : 0 < cmp b x
    · obtain ⟨z, hz, heq⟩ := ih b (some a) (some a :: R) (live_some a) hb
      refine ⟨z, hz, ?_⟩
      rw [if_pos hb, heq, front_concat_of_pos ha, back_concat_of_pos ha]
      simp
    · refine ⟨some a, live_some a, ?_⟩
      rw [if_neg hb, front_concat_of_pos ha, back_concat_of_pos ha, front_concat_of_le hb,
        back_concat_of_le hb]
      simp

/-- The item of `temp` goes behind the last one that is not greater. -/
theorem insertTemp_eq {l : List α} {a x : α} {y : Option α} {R : List (Option α)} {i : Nat}
    (hi : i = l.length + 1) (hy : E.flags.live y = true) (ha : 0 < cmp a x) :
    insertTemp E cmp [some x] i ((l ++ [a]).map some ++ y :: R) =
      .ok ((insertBack cmp (l ++ [a]) x).map some ++ R) := by
  obtain ⟨z, hz, hshift⟩ := shiftUp_eq (E := E) l a y R hy ha
  have hcells : (l ++ [a]).map some ++ y :: R = l.map some ++ some a :: y :: R := by simp
  subst hi
  unfold insertTemp
  rw [hcells]
  show (shiftUp E cmp [some x] l.length _ >>= _) = _
  rw [hshift]
  obtain ⟨g, hvacate, hg⟩ := vacate_item (A := (front cmp x (l ++ [a])).map some)
    (B := (back cmp x (l ++ [a])).map some ++ R) (i := (front cmp x (l ++ [a])).length) (by simp) hz
  show (vacate E.flags (_ ++ z :: _) (front cmp x (l ++ [a])).length 1 >>= fun cs =>
    doCopy E cs (front cmp x (l ++ [a])).length [some x] 0 1) = _
  rw [hvacate]
  refine (copy_item (P := []) (Q := []) (by simp) rfl hg (live_some x)).trans ?_
  simp [insertBack]

/-! ## The whole vector -/

/-- What `temp` says about the vector: before the first change nothing, later it is the vector's own
buffer. -/
def SortState (E : Env α) (h : E.buffers.Heap) (v : VectorImpl) (l : List (Option α)) :
    Option (List (Option α)) → Prop
  | none => Holds E h v l
  | some t =>
    (∃ c, t = [c] ∧ E.flags.live c = true) ∧ v.mCount = l.length ∧ l.all E.flags.live = true ∧
      ∃ W, Own E h v (l ++ W) ∧ W.all E.flags.dead = true

theorem SortState.holds {l : List (Option α)} {temp : Option (List (Option α))}
    (hs : SortState E h v l temp) :
    Holds E h v l := by
  cases temp with
  | none => exact hs
  | some t =>
    obtain ⟨-, hcount, hl, W, hown, hW⟩ := hs
    exact hown.holds hl hW rfl hcount

/-- At the first change, or later, there is a buffer to change and a slot for the item. -/
theorem openTemp_meets {l : List (Option α)} {temp : Option (List (Option α))} {mallocOk : Bool}
    (ht : Tidy E h) (hs : SortState E h v l temp) (hne : l ≠ []) :
    Meets (temp = none ∧ EditDenied E h v) (openTemp E mallocOk h v temp) fun r =>
    Frame E h v r.1 r.2.1 ∧
      ((r.2.2 = none ∧ temp = none ∧ mallocOk = false ∧ Holds E r.1 r.2.1 l) ∨
        ∃ g W, r.2.2 = some [g] ∧ E.flags.dead g = true ∧ r.2.1.mCount = l.length ∧
        Own E r.1 r.2.1 (l ++ W) ∧
          W.all E.flags.dead = true) := by
  cases temp with
  | none =>
    obtain ⟨a, ha⟩ : ∃ a, v.mStorage = some a := by
      cases hs with
      | null => exact absurd rfl hne
      | storage => exact ⟨_, rfl⟩
    refine ((editArrayImpl_frame ht hs ha).weaken fun hdenied => ⟨rfl, hdenied⟩).bind fun r hr => ?_
    obtain ⟨hf, hcount, W, hown, hW, -⟩ := hr
    rw [hs.count] at hcount
    refine .ok ⟨hf, ?_⟩
    cases mallocOk with
    | false => exact Or.inl ⟨rfl, rfl, rfl, hown.holds hs.live hW rfl hcount⟩
    | true => exact Or.inr ⟨none, W, rfl, by simp [Traits.dead], hcount, hown, hW⟩
  | some t =>
    obtain ⟨⟨c, rfl, hc⟩, hcount, -, W, hown, hW⟩ := hs
    obtain ⟨g, hvacate, hg⟩ := vacate_item (E := E) (A := []) (B := []) (i := 0) rfl hc
    refine Meets.bind (.of_eq_ok hvacate rfl) ?_
    rintro _ rfl
    exact .ok ⟨.refl ht, Or.inr ⟨g, W, rfl, hg, hcount, hown, hW⟩⟩

theorem sortFrom_meets {mallocOk : Bool} (R : List α) (P : List α) (hP : P ≠ [])
    (temp : Option (List (Option α))) (h : E.buffers.Heap) (v : VectorImpl) (ht : Tidy E h)
    (hs : SortState E h v ((P ++ R).map some) temp) :
    Meets (temp = none ∧ EditDenied E h v) (sortFrom E cmp mallocOk R.length P.length h v temp)
    fun r =>
      After E h v (fun l' => (r.1 = .value 0 ∧ l' = (R.foldl (insertBack cmp) P).map some) ∨
      (r.1 = .noMemory ∧ mallocOk = false ∧ temp = none ∧ l' = (P ++ R).map some)) r.2 := by
  induction R generalizing P temp h v with
  | nil =>
    rw [List.append_nil] at hs
    have hdone := hs.holds
    cases temp with
    | none => exact .ok ⟨.refl ht, _, hdone, Or.inl ⟨rfl, rfl⟩⟩
    | some t =>
      obtain ⟨⟨c, rfl, hc⟩, -⟩ := hs
      obtain ⟨g, hvacate, -⟩ := vacate_item (E := E) (A := []) (B := []) (i := 0) rfl hc
      refine Meets.bind (Q := fun _ => True) (.of_eq_ok hvacate trivial) fun _ _ => ?_
      exact .ok ⟨.refl ht, _, hdone, Or.inl ⟨rfl, rfl⟩⟩
  | cons x R ih =>
    obtain ⟨l, b, rfl⟩ : ∃ l b, P = l ++ [b] :=
      ⟨P.dropLast, P.getLast hP, (List.dropLast_append_getLast hP).symm⟩
    obtain ⟨tail, hcells, -⟩ := hs.holds.cells
    have hitem : valueAt (cellsOf E h v) (l ++ [b]).length = .ok x := by
      rw [hcells, List.map_append, List.map_cons, List.append_assoc]
      exact valueAt_append (by simp)
    have hcurr : valueAt (cellsOf E h v) ((l ++ [b]).length - 1) = .ok b := by
      have : (l ++ [b] ++ x :: R).map some ++ tail = l.map some ++
          some b :: ((x :: R).map some ++ tail) := by simp
      rw [hcells, this]
      exact valueAt_append (by simp)
    have hlen : (insertBack cmp (l ++ [b]) x).length = (l ++ [b]).length + 1 := by
      rw [(perm_insertBack _ _).length_eq, List.length_append, List.length_singleton]
    have hne : insertBack cmp (l ++ [b]) x ≠ [] := List.ne_nil_of_length_pos (by omega)
    show Meets _ (valueAt _ _ >>= _) _
    rw [hitem]
    show Meets _ (valueAt _ _ >>= _) _
    rw [hcurr]
    show Meets _ (if 0 < cmp b x then _ else _) _
    by_cases hgt : 0 < cmp b x
    · rw [if_pos hgt]
      refine (openTemp_meets ht hs (by simp)).bind fun r hr => ?_
      obtain ⟨hf, ⟨hnone, hnull, hmalloc, hsame⟩ | ⟨g, W, hsome, hg, hcount, hown, hW⟩⟩ := hr
      · simp only [hnone]
        exact .ok ⟨hf, _, hsame, Or.inr ⟨rfl, hmalloc, hnull, rfl⟩⟩
      · simp only [hsome]
        -- the item is copied out, its place is made, and it is copied in
        have hfetch : doCopy E [g] 0 (cellsOf E r.1 r.2.1) (l ++ [b]).length 1 = .ok [some x] := by
          have hown' : cellsOf E r.1 r.2.1 = (l ++ [b]).map some ++
              some x :: (R.map some ++ W) := by
            rw [hown.cellsOf]
            simp
          rw [hown']
          exact copy_item (A := []) (B := []) rfl (by simp) hg (live_some x)
        refine Meets.bind (.of_eq_ok hfetch rfl) ?_
        rintro _ rfl
        have hinsert := insertTemp_eq (E := E) (l := l) (R := R.map some ++ W)
          (i := (l ++ [b]).length) (by simp) (live_some x) hgt
        have hbefore : (l ++ [b]).map some ++ some x :: (R.map some ++ W) =
            (l ++ [b] ++ x :: R).map some ++ W := by
          simp
        have hafter : (insertBack cmp (l ++ [b]) x).map some ++ (R.map some ++ W) =
            (insertBack cmp (l ++ [b]) x ++ R).map some ++ W := by simp
        rw [hbefore, hafter] at hinsert
        have hsame : ((insertBack cmp (l ++ [b]) x ++ R).map some).length =
            ((l ++ [b] ++ x :: R).map some).length := by
          simp [hlen]
          omega
        refine (onCells_frame hf.tidy hown
          (.of_eq_ok hinsert ⟨by simp only [List.length_append, hsame], rfl⟩)).bind fun h' hh' => ?_
        obtain ⟨hf', _, hown', rfl⟩ := hh'
        have hnext := ih _ hne (some [some x]) h' r.2.1 hf'.tidy
          ⟨⟨_, rfl, live_some x⟩, hcount.trans hsame.symm, all_live_map _, W, hown', hW⟩
        rw [hlen] at hnext
        refine (hnext.weaken fun h => by cases h.1).mono fun r' hr' =>
          ⟨(hf.trans hf').trans hr'.1, ?_⟩
        obtain ⟨l', hl', ⟨hret, rfl⟩ | ⟨-, -, hnull, -⟩⟩ := hr'.2
        · exact ⟨_, hl', Or.inl ⟨hret, rfl⟩⟩
        · cases hnull
    · rw [if_neg hgt]
      have hsame : insertBack cmp (l ++ [b]) x = l ++ [b] ++ [x] := insertBack_of_le hgt
      have hcat : l ++ [b] ++ x :: R = insertBack cmp (l ++ [b]) x ++ R := by rw [hsame]; simp
      rw [hcat] at hs ⊢
      have hnext := ih _ hne temp h v ht hs
      rw [hlen] at hnext
      exact hnext

/-- What `sort` says and does; items that an `ssize_t` cannot count stay as they are. -/
def SortedTo (cmp : α → α → Int) (mallocOk : Bool) (l : List α) (ret : Ret)
    (l' : List (Option α)) : Prop :=
  (l.length < 2 ^ 31 ∧ ret = .value 0 ∧ l' = (sortBack cmp l).map some) ∨
  (l.length < 2 ^ 31 ∧ ret = .noMemory ∧ mallocOk = false ∧ l' = l.map some) ∨
  (2 ^ 31 ≤ l.length ∧ ret = .value 0 ∧ l' = l.map some)

theorem ssize_of_lt {n : Nat} (hn : n < 2 ^ 31) : ssize n = n := if_pos hn

theorem ssize_of_le {n : Nat} (hn : 2 ^ 31 ≤ n) (hlt : n < 2 ^ 32) : ssize n < 0 := by
  unfold ssize
  rw [if_neg (by omega)]
  omega

theorem sort_meets {mallocOk : Bool} {l : List α} (ht : Tidy E h) (hv : Holds E h v (l.map some)) :
    Meets (EditDenied E h v) (sort E cmp mallocOk h v) fun r =>
      After E h v (SortedTo cmp mallocOk l r.1) r.2 := by
  have hcount := hv.count
  have hlen := hv.length_lt ht
  rw [List.length_map] at hcount hlen
  unfold sort
  rw [hcount]
  by_cases hsmall : l.length < 2 ^ 31
  · rw [ssize_of_lt hsmall]
    cases l with
    | nil => exact .ok ⟨.refl ht, _, hv, Or.inl ⟨hsmall, rfl, rfl⟩⟩
    | cons x l =>
      cases l with
      | nil => exact .ok ⟨.refl ht, _, hv, Or.inl ⟨hsmall, rfl, rfl⟩⟩
      | cons y l =>
        rw [if_pos (by simp)]
        refine ((sortFrom_meets (y :: l) [x] (by simp) none h v ht hv).weaken And.right).mono
          fun r hr => ?_
        obtain ⟨hf, l', hl', ⟨hret, rfl⟩ | ⟨hret, hmalloc, -, rfl⟩⟩ := hr
        · exact ⟨hf, _, hl', Or.inl ⟨hsmall, hret, rfl⟩⟩
        · exact ⟨hf, _, hl', Or.inr (Or.inl ⟨hsmall, hret, hmalloc, rfl⟩)⟩
  · have hneg := ssize_of_le (Nat.not_lt.mp hsmall) hlen
    rw [if_neg (by omega)]
    exact .ok ⟨.refl ht, _, hv, Or.inr (Or.inr ⟨Nat.not_lt.mp hsmall, rfl, rfl⟩)⟩

/-- **`sort` is a stable sort** for every comparison function that is an order: it never touches
what is not its own, other vectors keep their items, and without memory for `temp` nothing is
sorted.  The process ends only if the buffer is shared and cannot be copied. -/
theorem sort_is_stable (hc : IsComparison cmp) (mallocOk : Bool) (l : List α) (ht : Tidy E h)
    (hv : Holds E h v (l.map some)) (hfits : Fits E l.length) :
    Meets (EditDenied E h v) (sort E cmp mallocOk h v) fun r => Frame E h v r.2.1 r.2.2 ∧
      ((r.1 = .value 0 ∧ ∃ l' : List α, Holds E r.2.1 r.2.2 (l'.map some) ∧ l'.Perm l ∧
          l'.Pairwise (cmp · · ≤ 0) ∧ ∀ y, l'.filter (cmp · y = 0) = l.filter (cmp · y = 0)) ∨
        (r.1 = .noMemory ∧ mallocOk = false ∧ Holds E r.2.1 r.2.2 (l.map some))) := by
  have hlen := hv.length_fits ht (by rw [List.length_map]; exact hfits)
  rw [List.length_map] at hlen
  refine (sort_meets ht hv).mono fun r hr => ?_
  obtain ⟨hf, l', hl', ⟨-, hret, rfl⟩ | ⟨-, hret, hmalloc, rfl⟩ | ⟨hlarge, -⟩⟩ := hr
  · exact ⟨hf, Or.inl ⟨hret, _, hl', sortBack_stable hc l⟩⟩
  · exact ⟨hf, Or.inr ⟨hret, hmalloc, hl'⟩⟩
  · omega

/-- Three words in a buffer of four. -/
def threeWords : Pool Nat := Pool.empty.add ⟨1, 16, [some 3, some 1, some 2, none]⟩

theorem tidy_threeWords : Tidy (words 100) threeWords := by
  intro a B hB
  have hB' : Function.update (fun _ => none) 0 (some ⟨1, 16, [some 3, some 1, some 2, none]⟩) a =
      some B := hB
  by_cases ha : a = 0
  · subst ha
    rw [Function.update_self, Option.some.injEq] at hB'
    subst hB'
    decide
  · rw [Function.update_of_ne ha] at hB'
    cases hB'

theorem holds_threeWords : Holds (words 100) threeWords ⟨some 0, 3⟩ ([3, 1, 2].map some) :=
  Holds.storage (B := ⟨1, 16, [some 3, some 1, some 2, none]⟩) rfl
    (show [some 3, some 1, some 2, none] = [some 3, some 1, some 2] ++ [none] from rfl) rfl rfl

/-- The order of words. -/
def wordOrder (a b : Nat) : Int := (a : Int) - (b : Int)

theorem isComparison_wordOrder : IsComparison wordOrder := by
  refine ⟨fun a b => ?_, fun a b c => ?_⟩
  · unfold wordOrder
    omega
  · unfold wordOrder
    omega

theorem sort_is_stable_threeWords :
    ∃ r, sort (words 100) wordOrder true threeWords ⟨some 0, 3⟩ = .ok r ∧
    r.1 = .value 0 ∧ Frame (words 100) threeWords ⟨some 0, 3⟩ r.2.1 r.2.2 ∧
    Holds (words 100) r.2.1 r.2.2 ([1, 2, 3].map some) := by
  have hcells : (sort (words 100) wordOrder true threeWords ⟨some 0, 3⟩).toOption.map
      (fun r => (r.1, (cellsOf (words 100) r.2.1 r.2.2).take r.2.2.mCount)) =
        some (.value 0, [some 1, some 2, some 3]) := by rfl
  obtain ⟨r, hr, hstate⟩ := exists_ok hcells
  obtain ⟨hret, htake⟩ := Prod.mk.inj hstate
  have hsort := (sort_is_stable isComparison_wordOrder true [3, 1, 2] tidy_threeWords holds_threeWords
    (fun h => by cases h)).of_ok hr
  obtain ⟨hf, ⟨-, l', hl', -⟩ | ⟨-, hfalse, -⟩⟩ := hsort
  · have hl : l'.map some = [1, 2, 3].map some := hl'.eq_take.symm.trans htake
    rw [hl] at hl'
    exact ⟨r, hr, hret, hf, hl'⟩
  · cases hfalse

end Omap4.Libmotou
