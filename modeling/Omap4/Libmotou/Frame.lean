import Omap4.Libmotou.Vector

/-!
# Omap4.Libmotou.Frame — what an operation on one vector leaves alone

`Holds h v l`: in the heap `h` the vector `v` reads as the list `l`.  `Frame h v h' v'`: between the
two heaps only the reference of this one vector has moved, and no buffer that somebody else refers
to has changed its items.
-/

namespace Omap4.Libmotou

open Slots

variable {α : Type} (E : Env α)

/-- The references the vector `v` has to the buffer `c`. -/
def held (v : VectorImpl) (c : Nat) : Nat := if v.mStorage = some c then 1 else 0

/-- No buffer is left behind without an owner, and every one has the slots of its size. -/
def Tidy (h : E.buffers.Heap) : Prop := ∀ a B, E.buffers.buf h a = some B →
  0 < B.refs ∧ B.size < 2 ^ 32 ∧ B.cells.length = B.size / E.itemSize

/-- The vector reads as a list: its items are alive, and there are none behind them. -/
inductive Holds (h : E.buffers.Heap) : VectorImpl → List (Option α) → Prop
  | null : Holds h ⟨none, 0⟩ []
  | storage {a : Nat} {B : Buffer α} {l tail : List (Option α)} : E.buffers.buf h a = some B →
      B.cells = l ++ tail → l.all E.flags.live = true → tail.all E.flags.dead = true →
      Holds h ⟨some a, l.length⟩ l

/-- The vector is the only owner of a buffer with the slots `cs`. -/
def Own (h : E.buffers.Heap) (v : VectorImpl) (cs : List (Option α)) : Prop :=
  ∃ a B, v.mStorage = some a ∧ E.buffers.buf h a = some B ∧ B.refs = 1 ∧ B.cells = cs

/-- No more than `n` items, and `n` is an `ssize_t`; of items with more than one byte there are
never more. -/
def Fits (n : Nat) : Prop := E.itemSize = 1 → n < 2 ^ 31

/-- A change at the end of plain bytes resizes the buffer; any other makes a new one. -/
def Resizes (v : VectorImpl) (atEnd : Prop) : Prop :=
  v.mStorage ≠ none ∧ atEnd ∧ E.flags.trivialCopy = true ∧ E.flags.trivialDtor = true

/-- The request for a buffer of `n` bytes is refused. -/
def Denied (h : E.buffers.Heap) (v : VectorImpl) (atEnd : Prop) (n : Nat) : Prop :=
  (Resizes E v atEnd ∧ ∃ a, v.mStorage = some a ∧ E.buffers.editResize h a n = none) ∨
  (¬ Resizes E v atEnd ∧ E.buffers.alloc h n = none)

/-- The buffer of the vector is shared, and there is no memory for a copy of it. -/
def EditDenied (h : E.buffers.Heap) (v : VectorImpl) : Prop :=
  ∃ a, v.mStorage = some a ∧ E.buffers.attemptEdit h a = false ∧
    E.buffers.alloc h (((E.buffers.buf h a).map Buffer.size).getD 0) = none

structure Frame (h : E.buffers.Heap) (v : VectorImpl) (h' : E.buffers.Heap)
    (v' : VectorImpl) : Prop where
  tidy : Tidy E h'
  refs : ∀ c, E.buffers.refs h' c + held v c = E.buffers.refs h c + held v' c
  kept : ∀ c B, E.buffers.buf h c = some B → held v c < B.refs →
    ∃ B', E.buffers.buf h' c = some B' ∧ B'.cells = B.cells

variable {E} {h h' h'' : E.buffers.Heap} {v v' v'' w : VectorImpl} {l l' cs : List (Option α)}
  {a b : Nat} {B : Buffer α} {D : Prop}

/-! ## Frames -/

theorem held_self (hv : v.mStorage = some a) : held v a = 1 := if_pos hv

theorem held_of_ne (hv : v.mStorage = some a) {c : Nat} (hc : c ≠ a) : held v c = 0 := by
  refine if_neg fun h => hc ?_
  rw [hv, Option.some.injEq] at h
  exact h.symm

theorem held_null (hv : v.mStorage = none) (c : Nat) : held v c = 0 := by simp [held, hv]

/-- Whether there are items or how many says nothing about the references. -/
theorem Frame.recount (hf : Frame E h v h' v') (hs : v''.mStorage = v'.mStorage) :
    Frame E h v h' v'' :=
  ⟨hf.tidy, fun c => by simpa [held, hs] using hf.refs c, hf.kept⟩

theorem Frame.refl (ht : Tidy E h) : Frame E h v h v :=
  ⟨ht, fun _ => rfl, fun _ B hB _ => ⟨B, hB, rfl⟩⟩

theorem refs_of_buf (hB : E.buffers.buf h a = some B) : E.buffers.refs h a = B.refs :=
  SharedBuffers.refs_eq hB

/-- One operation after another. -/
theorem Frame.trans (h₁ : Frame E h v h' v') (h₂ : Frame E h' v' h'' v'') :
    Frame E h v h'' v'' := by
  refine ⟨h₂.tidy, fun c => ?_, fun c B hB hc => ?_⟩
  · have := h₁.refs c
    have := h₂.refs c
    omega
  · obtain ⟨B', hB', hcells⟩ := h₁.kept c B hB hc
    have hrefs := h₁.refs c
    rw [refs_of_buf hB, refs_of_buf hB'] at hrefs
    obtain ⟨B'', hB'', hcells'⟩ := h₂.kept c B' hB' (by omega)
    exact ⟨B'', hB'', hcells'.trans hcells⟩

/-- A change at one address: what has to be seen to there. -/
theorem frame_update {x : Option (Buffer α)} (ht : Tidy E h)
    (hbuf : E.buffers.buf h' = Function.update (E.buffers.buf h) a x)
    (hx : ∀ B, x = some B → 0 < B.refs ∧ B.size < 2 ^ 32 ∧ B.cells.length = B.size / E.itemSize)
    (hrefs : (x.map Buffer.refs).getD 0 + held v a = E.buffers.refs h a + held v' a)
    (hheld : ∀ c, c ≠ a → held v c = held v' c)
    (hkept : ∀ B, E.buffers.buf h a = some B → held v a < B.refs → ∃ B', x = some B' ∧
    B'.cells = B.cells) :
    Frame E h v h' v' := by
  have hself : E.buffers.buf h' a = x := by rw [hbuf, Function.update_self]
  have hother : ∀ c, c ≠ a → E.buffers.buf h' c = E.buffers.buf h c := fun c hc => by
    rw [hbuf, Function.update_of_ne hc]
  refine ⟨fun c B hB => ?_, fun c => ?_, fun c B hB hc => ?_⟩
  · by_cases hca : c = a
    · subst hca
      exact hx B (hself.symm.trans hB)
    · exact ht c B ((hother c hca).symm.trans hB)
  · by_cases hca : c = a
    · subst hca
      rw [SharedBuffers.refs, hself]
      exact hrefs
    · rw [SharedBuffers.refs, hother c hca, hheld c hca]
      rfl
  · by_cases hca : c = a
    · subst hca
      obtain ⟨B', hB', hcells⟩ := hkept B hB hc
      exact ⟨B', hself.trans hB', hcells⟩
    · exact ⟨B, (hother c hca).trans hB, rfl⟩

/-! ## The data of a vector -/

theorem Holds.count (hv : Holds E h v l) : v.mCount = l.length := by
  cases hv with
  | null => rfl
  | storage => rfl

theorem Holds.live (hv : Holds E h v l) : l.all E.flags.live = true := by
  cases hv with
  | null => rfl
  | storage _ _ hl _ => exact hl

/-- The slots of the vector: its items, then free ones. -/
theorem Holds.cells (hv : Holds E h v l) :
    ∃ tail, cellsOf E h v = l ++ tail ∧ tail.all E.flags.dead = true := by
  cases hv with
  | null => exact ⟨[], rfl, rfl⟩
  | storage hB hcells hl htail => exact ⟨_, (SharedBuffers.cells_eq hB).trans hcells, htail⟩

theorem Holds.eq_take (hv : Holds E h v l) : (cellsOf E h v).take v.mCount = l := by
  obtain ⟨tail, hcells, -⟩ := hv.cells
  rw [hcells, hv.count, List.take_left']
  rfl

theorem Holds.unique (hv : Holds E h v l) (hv' : Holds E h v l') : l = l' :=
  hv.eq_take.symm.trans hv'.eq_take

theorem capacity_eq (ht : Tidy E h) : capacity E h v = (cellsOf E h v).length := by
  unfold capacity cellsOf
  cases v.mStorage with
  | none => rfl
  | some a =>
    show _ = (E.buffers.cells h a).length
    cases hB : E.buffers.buf h a with
    | none => simp [SharedBuffers.cells, hB]
    | some B => simp [SharedBuffers.cells, hB, (ht a B hB).2.2]

theorem capacity_lt (ht : Tidy E h) : capacity E h v < 2 ^ 32 := by
  unfold capacity
  cases v.mStorage with
  | none => exact Nat.two_pow_pos 32
  | some a =>
    refine (Nat.div_le_self _ _).trans_lt ?_
    cases hB : E.buffers.buf h a with
    | none => exact Nat.two_pow_pos 32
    | some B => exact (ht a B hB).2.1

theorem Holds.count_le (hv : Holds E h v l) (ht : Tidy E h) : l.length ≤ capacity E h v := by
  obtain ⟨tail, hcells, -⟩ := hv.cells
  rw [capacity_eq ht, hcells, List.length_append]
  exact Nat.le_add_right _ _

theorem Holds.length_lt (hv : Holds E h v l) (ht : Tidy E h) : l.length < 2 ^ 32 := by
  cases hv with
  | null => exact Nat.two_pow_pos 32
  | @storage a B l tail hB hcells hl htail =>
    obtain ⟨-, hsize, hlen⟩ := ht a B hB
    have hdiv := Nat.div_le_self B.size E.itemSize
    rw [hcells, List.length_append] at hlen
    omega

theorem Holds.length_fits (hv : Holds E h v l) (ht : Tidy E h) (hfits : Fits E l.length) :
    l.length < 2 ^ 31 := by
  by_cases hone : E.itemSize = 1
  · exact hfits hone
  · cases hv with
    | null => exact Nat.two_pow_pos 31
    | @storage a B l tail hB hcells hl htail =>
      obtain ⟨-, hsize, hlen⟩ := ht a B hB
      have hpos := E.itemSize_pos
      have hdiv : B.size / E.itemSize ≤ B.size / 2 := Nat.div_le_div_left (by omega) (by decide)
      rw [hcells, List.length_append] at hlen
      omega

/-- Somebody else's vector reads the same after the operation. -/
theorem Frame.holds (hf : Frame E h v h' v') (hw : Holds E h w l)
    (hshared : ∀ c, held w c + held v c ≤ E.buffers.refs h c) : Holds E h' w l := by
  cases hw with
  | null => exact .null
  | @storage c B l tail hB hcells hl htail =>
    have hc := hshared c
    rw [held_self rfl, refs_of_buf hB] at hc
    obtain ⟨B', hB', hcells'⟩ := hf.kept c B hB (by omega)
    exact .storage hB' (hcells'.trans hcells) hl htail

theorem Own.cellsOf (hv : Own E h v cs) : cellsOf E h v = cs := by
  obtain ⟨a, B, hs, hB, -, rfl⟩ := hv
  simp [Libmotou.cellsOf, hs, SharedBuffers.cells_eq hB]

theorem Own.recount (hv : Own E h v cs) (hs : w.mStorage = v.mStorage) : Own E h w cs := by
  obtain ⟨a, B, hv, hB⟩ := hv
  exact ⟨a, B, hs.trans hv, hB⟩

/-- A vector that points to the buffer and counts the items. -/
theorem Own.holds {tail : List (Option α)} (hv : Own E h v (l ++ tail))
    (hl : l.all E.flags.live = true) (htail : tail.all E.flags.dead = true)
    (hs : w.mStorage = v.mStorage) (hcount : w.mCount = l.length) :
    Holds E h w l := by
  obtain ⟨a, B, hv, hB, -, hcells⟩ := hv
  obtain ⟨s, n⟩ := w
  obtain rfl : s = some a := hs.trans hv
  subst hcount
  exact .storage hB hcells hl htail

theorem Own.length (hv : Own E h v cs) (ht : Tidy E h) : cs.length = capacity E h v := by
  rw [capacity_eq ht, hv.cellsOf]

/-! ## Releasing, taking over, editing -/

theorem releaseStorage_frame (ht : Tidy E h) (hv : Holds E h v l) :
    Meets D (releaseStorage E h v) fun h' => Frame E h v h' ⟨none, 0⟩ := by
  cases hv with
  | null => exact .ok (.refl ht)
  | @storage a B l tail hB hcells hl htail =>
    have hrefs := refs_of_buf hB
    obtain ⟨hpos, hsize, hlen⟩ := ht a B hB
    have hheld : ∀ c, c ≠ a → held ⟨some a, l.length⟩ c = held ⟨none, 0⟩ c := fun c hc => by
      rw [held_of_ne rfl hc, held_null rfl]
    unfold releaseStorage
    simp only
    rw [if_neg (by omega)]
    by_cases hone : E.buffers.refs h a = 1
    · -- the last owner
      rw [if_pos hone, SharedBuffers.cells_eq hB, hcells]
      obtain ⟨G, hG, -, hdead⟩ := vacate_block (A := []) (X := l) (B := tail) (i := 0) rfl rfl hl
      rw [List.nil_append] at hG
      rw [hG]
      refine Meets.of_eq_ok (if_pos ?_) ?_
      · rw [List.nil_append, List.all_append, hdead, htail]
        rfl
      · refine frame_update ht (x := none) ?_ (fun B hx => by cases hx) ?_ hheld ?_
        · rw [E.buffers.buf_dealloc, E.buffers.buf_put, E.buffers.buf_release]
          simp
        · rw [hone, held_self rfl, held_null rfl]
          rfl
        · intro B' hB' hlt
          rw [hB, Option.some.injEq] at hB'
          subst hB'
          rw [held_self rfl] at hlt
          omega
    · rw [if_neg hone]
      refine .ok (frame_update ht (E.buffers.buf_release h a) ?_ ?_ hheld ?_)
      · intro B' hB'
        rw [hB, Option.map_some, Option.some.injEq] at hB'
        subst hB'
        exact ⟨by show 0 < B.refs - 1; omega, hsize, hlen⟩
      · rw [hB, held_self rfl, held_null rfl, hrefs]
        show B.refs - 1 + 1 = B.refs + 0
        omega
      · intro B' hB' _
        rw [hB, Option.some.injEq] at hB'
        subst hB'
        rw [hB]
        exact ⟨_, rfl, rfl⟩

section Alloc

variable {h₁ : E.buffers.Heap} {n : Nat}

/-- A vector does not see a buffer that is allocated behind its back. -/
theorem Holds.alloc (hv : Holds E h v l) (ha : E.buffers.alloc h n = some (b, h₁)) :
    cellsOf E h₁ v = cellsOf E h v ∧ ∀ x, Holds E (E.buffers.put h₁ b x) v l := by
  obtain ⟨hnone, hbuf⟩ := E.buffers.buf_alloc ha
  cases hv with
  | null => exact ⟨rfl, fun _ => .null⟩
  | @storage a B l tail hB hcells hl htail =>
    have hne : a ≠ b := by
      rintro rfl
      rw [hnone] at hB
      cases hB
    have hB₁ : E.buffers.buf h₁ a = some B := by rw [hbuf, Function.update_of_ne hne, hB]
    refine ⟨(SharedBuffers.cells_eq hB₁).trans (SharedBuffers.cells_eq hB).symm, fun x => ?_⟩
    refine .storage ?_ hcells hl htail
    rw [E.buffers.buf_put, Function.update_of_ne hne, hB₁]

theorem cells_alloc (ha : E.buffers.alloc h n = some (b, h₁)) :
    E.buffers.cells h₁ b = List.replicate (n / E.itemSize) none := by
  obtain ⟨-, hbuf⟩ := E.buffers.buf_alloc ha
  rw [SharedBuffers.cells, hbuf, Function.update_self]
  rfl

/-- **A new buffer takes the place of the old one.** -/
theorem takeOver_frame (ht : Tidy E h) (hv : Holds E h v l)
    (ha : E.buffers.alloc h n = some (b, h₁)) (hn : n < 2 ^ 32) (hcs : cs.length = n / E.itemSize) :
    Meets D (takeOver E h₁ v b cs) fun r =>
      Frame E h v r.1 r.2 ∧ r.2.mCount = v.mCount ∧ Own E r.1 r.2 cs := by
  obtain ⟨hnone, hbuf⟩ := E.buffers.buf_alloc ha
  have hput : E.buffers.buf (E.buffers.put h₁ b cs) = Function.update (E.buffers.buf h) b
      (some ⟨1, n, cs⟩) := by
    rw [E.buffers.buf_put, hbuf]
    simp [Buffer.fresh]
  have hself : E.buffers.buf (E.buffers.put h₁ b cs) b = some ⟨1, n, cs⟩ := by
    rw [hput, Function.update_self]
  have hvb : held v b = 0 := by
    cases hv with
    | null => exact held_null rfl b
    | storage hB =>
      refine held_of_ne rfl ?_
      rintro rfl
      rw [hnone] at hB
      cases hB
  have hzero : E.buffers.refs h b = 0 := by simp [SharedBuffers.refs, hnone]
  -- the new buffer counts as one that somebody else owns while the old one is released
  have hf : Frame E h ⟨none, 0⟩ (E.buffers.put h₁ b cs) ⟨some b, 0⟩ := by
    refine frame_update ht hput ?_ ?_ ?_ ?_
    · rintro B ⟨⟩
      exact ⟨Nat.one_pos, hn, hcs⟩
    · rw [hzero, held_null rfl, held_self rfl]
      rfl
    · intro c hc
      rw [held_null rfl, held_of_ne rfl hc]
    · intro B hB
      rw [hnone] at hB
      cases hB
  refine Meets.bind (releaseStorage_frame hf.tidy ((hv.alloc ha).2 cs)) fun h₂ hrel => ?_
  refine .ok ⟨⟨hrel.tidy, fun c => ?_, fun c B hB hc => ?_⟩, rfl, ?_⟩
  · have h1 := hf.refs c
    have h2 := hrel.refs c
    have h0 : held ⟨none, 0⟩ c = 0 := held_null rfl c
    have h3 : held { v with mStorage := some b } c = held ⟨some b, 0⟩ c := rfl
    show E.buffers.refs h₂ c + held v c = E.buffers.refs h c + held { v with mStorage := some b } c
    omega
  · have hcb : c ≠ b := by
      rintro rfl
      rw [hnone] at hB
      cases hB
    refine hrel.kept c B ?_ hc
    rw [hput, Function.update_of_ne hcb, hB]
  · obtain ⟨B', hB', hcells⟩ := hrel.kept b _ hself (by rw [hvb]; exact Nat.one_pos)
    have hrefs := hrel.refs b
    have h0 : held ⟨none, 0⟩ b = 0 := held_null rfl b
    rw [refs_of_buf hself, refs_of_buf hB', hvb, h0] at hrefs
    exact ⟨b, B', rfl, hB', hrefs, hcells⟩

/-! ## Copying into free slots -/

theorem all_replicate_none {m : Nat} :
    (List.replicate m (none : Option α)).all E.flags.dead = true := by
  simp [Traits.dead]

/-- A block `X` copied to `k` slots behind `A`; nothing is done for an empty block. -/
theorem copyInto {A Z X P Q : List (Option α)} {i j n k : Nat} {c : Prop} [Decidable c]
    (hi : i = A.length + k) (hj : j = P.length) (hn : n = X.length) (hX : X.all E.flags.live = true)
    (hZ : Z.all E.flags.dead = true) (hk : k + X.length ≤ Z.length) (hc : ¬ c → X = []) :
    Meets D (copyIf E c (A ++ Z) i (P ++ X ++ Q) j n) fun cs =>
      ∃ G W, cs = A ++ G ++ X ++ W ∧ G.length = k ∧ G.all E.flags.dead = true ∧
        W.all E.flags.dead = true ∧ cs.length = (A ++ Z).length := by
  obtain ⟨G, M, W, rfl, hG, hM⟩ := exists_blocks Z hk
  simp only [List.all_append, Bool.and_eq_true] at hZ
  unfold copyIf
  by_cases h : c
  · rw [if_pos h]
    refine Meets.of_eq_ok ?_ ⟨G, W, rfl, hG, hZ.1.1, hZ.2, ?_⟩
    · unfold doCopy
      rw [fetch_block hj hn hX]
      have hcells : A ++ (G ++ M ++ W) = A ++ G ++ M ++ W := by simp
      rw [hcells]
      exact place_block (by simp [hi, hG]) hM.symm hZ.1.2
    · simp [hM]
  · obtain rfl := hc h
    rw [if_neg h]
    obtain rfl := List.length_eq_zero_iff.mp hM
    refine .ok ⟨G, W, ?_, hG, hZ.1.1, hZ.2, rfl⟩
    simp

/-- All items copied to a new buffer. -/
theorem copyAll {t : List (Option α)} {m : Nat} (hl : l.all E.flags.live = true)
    (hm : l.length ≤ m) :
    Meets D (doCopy E (List.replicate m none) 0 (l ++ t) 0 l.length) fun cs =>
      ∃ W, cs = l ++ W ∧ W.all E.flags.dead = true ∧ cs.length = m := by
  have h := copyInto (E := E) (D := D) (A := []) (P := []) (Q := t) (c := True) (i := 0)
    (j := 0) (k := 0) (Z := List.replicate m none) rfl rfl rfl hl all_replicate_none
    (by simpa using hm) (fun h => absurd trivial h)
  rw [copyIf, if_pos trivial] at h
  refine h.mono fun cs hcs => ?_
  obtain ⟨G, W, rfl, hG, -, hW, hlen⟩ := hcs
  obtain rfl := List.length_eq_zero_iff.mp hG
  refine ⟨W, by simp, hW, ?_⟩
  rw [hlen]
  simp

/-- **Before any change the vector gets a buffer of its own**, or the process ends if there is no
memory for it. -/
theorem editArrayImpl_frame (ht : Tidy E h) (hv : Holds E h v l) (hs : v.mStorage = some a) :
    Meets (EditDenied E h v) (editArrayImpl E h v) fun r => Frame E h v r.1 r.2 ∧
    r.2.mCount = v.mCount ∧
      ∃ W, Own E r.1 r.2 (l ++ W) ∧ W.all E.flags.dead = true ∧
      (l ++ W).length = capacity E h v := by
  obtain ⟨tail, hcells, htail⟩ := hv.cells
  have hcap := capacity_eq (v := v) ht
  have hlive := hv.live
  have hcount := hv.count
  unfold editArrayImpl
  rw [hs]
  simp only
  by_cases hone : E.buffers.attemptEdit h a = true
  · rw [if_pos hone]
    obtain ⟨B, hB, hrefs⟩ := (E.buffers.attemptEdit_iff h a).mp hone
    have hBcells : B.cells = l ++ tail := by
      rw [← hcells, cellsOf, hs]
      exact (SharedBuffers.cells_eq hB).symm
    exact .ok ⟨.refl ht, rfl, tail, ⟨a, B, hs, hB, hrefs, hBcells⟩, htail, by rw [hcap, hcells]⟩
  · rw [if_neg hone]
    split
    · rename_i ha
      exact .fatal ⟨a, hs, Bool.eq_false_iff.mpr hone, ha⟩
    · rename_i b h₁ ha
      rw [(hv.alloc ha).1, hcells, cells_alloc ha, hcount]
      have hsize : capacity E h v = ((E.buffers.buf h a).map Buffer.size).getD 0 / E.itemSize := by
        simp [capacity, hs]
      refine Meets.bind (copyAll hlive ?_) fun cs hcs => ?_
      · rw [← hsize]
        exact hv.count_le ht
      · obtain ⟨W, rfl, hW, hlen⟩ := hcs
        refine (takeOver_frame ht hv ha ?_ hlen).mono fun r hr => ?_
        · cases hB : E.buffers.buf h a with
          | none => simp
          | some B => exact (ht a B hB).2.1
        · exact ⟨hr.1, hr.2.1.trans hcount, W, hr.2.2, hW, hlen.trans hsize.symm⟩

end Alloc

/-- A write to a buffer that nobody else refers to. -/
theorem onCells_frame {f : List (Option α) → Except Fault (List (Option α))}
    {Q : List (Option α) → Prop} (ht : Tidy E h) (hv : Own E h v cs)
    (hf : Meets D (f cs) fun cs' => cs'.length = cs.length ∧ Q cs') :
    Meets D (onCells E h v f) fun h' => Frame E h v h' v ∧ ∃ cs', Own E h' v cs' ∧ Q cs' := by
  obtain ⟨a, B, hs, hB, hrefs, rfl⟩ := hv
  obtain ⟨-, hsize, hlen⟩ := ht a B hB
  unfold onCells
  rw [hs]
  simp only
  rw [SharedBuffers.cells_eq hB]
  refine hf.bind fun cs' hcs' => .ok ⟨?_, cs', ?_, hcs'.2⟩
  · refine frame_update ht (E.buffers.buf_put h a cs') ?_ ?_ (fun c _ => rfl) ?_
    · intro B' hB'
      rw [hB, Option.map_some, Option.some.injEq] at hB'
      subst hB'
      exact ⟨by show 0 < B.refs; omega, hsize, hcs'.1.trans hlen⟩
    · rw [hB, SharedBuffers.refs_eq hB]
      rfl
    · intro B' hB' hlt
      rw [hB, Option.some.injEq] at hB'
      subst hB'
      rw [held_self hs] at hlt
      omega
  · refine ⟨a, { B with cells := cs' }, hs, ?_, hrefs, rfl⟩
    rw [E.buffers.buf_put, Function.update_self, hB]
    rfl

theorem length_resized {n : Nat} : (B.resized E.itemSize n).cells.length = n / E.itemSize := by
  simp only [Buffer.resized, List.length_append, List.length_take, List.length_replicate]
  omega

/-- The buffer library may do the copying itself. -/
theorem editResize_frame {n : Nat} (ht : Tidy E h) (hs : v.mStorage = some a)
    (hB : E.buffers.buf h a = some B) (hn : n < 2 ^ 32)
    (hr : E.buffers.editResize h a n = some (b, h')) :
    Frame E h v h' { v with mStorage := some b } ∧
      Own E h' { v with mStorage := some b } (B.resized E.itemSize n).cells := by
  obtain ⟨hpos, hsize, hlen⟩ := ht a B hB
  have hresized : 0 < (B.resized E.itemSize n).refs ∧ (B.resized E.itemSize n).size < 2 ^ 32 ∧
      (B.resized E.itemSize n).cells.length = (B.resized E.itemSize n).size / E.itemSize :=
    ⟨Nat.one_pos, hn, length_resized⟩
  obtain ⟨rfl, hrefs, hbuf⟩ | ⟨hnone, hbuf⟩ := E.buffers.buf_editResize hr hB
  · -- the only owner: resized where it is
    refine ⟨?_, b, _, rfl, by rw [hbuf, Function.update_self], rfl, rfl⟩
    refine frame_update ht hbuf ?_ ?_ ?_ ?_
    · rintro B' ⟨⟩
      exact hresized
    · rw [SharedBuffers.refs_eq hB, hrefs, held_self hs, held_self rfl]
      rfl
    · intro c hc
      rw [held_of_ne hs hc, held_of_ne rfl hc]
    · intro B' hB' hlt
      rw [hB, Option.some.injEq] at hB'
      subst hB'
      rw [held_self hs] at hlt
      omega
  · have hne : a ≠ b := by
      rintro rfl
      rw [hnone] at hB
      cases hB
    have hb : E.buffers.buf h' b = some (B.resized E.itemSize n) := by
      rw [hbuf, Function.update_self]
    have ha : E.buffers.buf h' a = B.unref := by
      rw [hbuf, Function.update_of_ne hne, Function.update_self]
    have hc : ∀ c, c ≠ b → c ≠ a → E.buffers.buf h' c = E.buffers.buf h c := fun c hcb hca => by
      rw [hbuf, Function.update_of_ne hcb, Function.update_of_ne hca]
    have hunref : ∀ B', B.unref = some B' → 1 < B.refs ∧ B' = { B with refs := B.refs - 1 } := by
      intro B' hB'
      unfold Buffer.unref at hB'
      split at hB'
      · cases hB'
      · exact ⟨by omega, (Option.some.inj hB').symm⟩
    refine ⟨⟨fun c C hC => ?_, fun c => ?_, fun c C hC hlt => ?_⟩, b, _, rfl, hb, rfl, rfl⟩
    · by_cases hcb : c = b
      · subst hcb
        obtain rfl := Option.some.inj (hb.symm.trans hC)
        exact hresized
      · by_cases hca : c = a
        · subst hca
          obtain ⟨hlt, rfl⟩ := hunref C (ha.symm.trans hC)
          exact ⟨by show 0 < B.refs - 1; omega, hsize, hlen⟩
        · exact ht c C ((hc c hcb hca).symm.trans hC)
    · by_cases hcb : c = b
      · subst hcb
        have hzero : E.buffers.refs h c = 0 := by simp [SharedBuffers.refs, hnone]
        rw [SharedBuffers.refs_eq hb, hzero, held_of_ne hs (Ne.symm hne), held_self rfl]
        rfl
      · rw [held_of_ne (v := { v with mStorage := some b }) rfl hcb]
        by_cases hca : c = a
        · subst hca
          rw [held_self hs, SharedBuffers.refs_eq hB, SharedBuffers.refs, ha]
          unfold Buffer.unref
          split
          · rename_i hone
            rw [hone]
            rfl
          · show B.refs - 1 + 1 = B.refs + 0
            omega
        · rw [held_of_ne hs hca, SharedBuffers.refs, hc c hcb hca]
          rfl
    · have hcb : c ≠ b := by
        rintro rfl
        rw [hnone] at hC
        cases hC
      by_cases hca : c = a
      · subst hca
        obtain rfl := Option.some.inj (hB.symm.trans hC)
        rw [held_self hs] at hlt
        refine ⟨{ B with refs := B.refs - 1 }, ?_, rfl⟩
        rw [ha]
        exact if_neg (by omega)
      · exact ⟨C, (hc c hcb hca).trans hC, rfl⟩

end Omap4.Libmotou
