import Omap4.Libmotou.Frame

/-!
# Omap4.Libmotou.Contents — what the operations do to the items

Each function of `VectorImpl` has one lemma: it frames the other vectors and does to the list of
items what its name says, or there is no memory and the list stays as it is.
-/

namespace Omap4.Libmotou

open Slots

variable {α : Type} {E : Env α} {h h' : E.buffers.Heap} {v v' w : VectorImpl}
  {l l' : List (Option α)} {a b pos amount bytes index n : Nat} {B : Buffer α} {D R : Prop}

/-! ## `_grow` -/

theorem safe_meets (n : Nat) : Meets (2 ^ 32 ≤ n) (safe n) fun m => m = n ∧ n < 2 ^ 32 := by
  unfold safe
  split
  · rename_i hn
    exact .ok ⟨rfl, hn⟩
  · rename_i hn
    exact .fatal (Nat.not_lt.mp hn)

/-- The bytes that `_grow` asks for, if they are a `size_t`. -/
def growSize (E : Env α) (newSize : Nat) : Nat :=
  max kMinVectorCapacity (newSize + newSize / 2 + 1) * E.itemSize

theorem le_growSize (E : Env α) (n : Nat) : n + n / 2 + 1 ≤ growSize E n :=
  (le_max_right kMinVectorCapacity _).trans (Nat.le_mul_of_pos_right _ E.itemSize_pos)

theorem growBytes_meets (n : Nat) : Meets (2 ^ 32 ≤ growSize E n) (growBytes E n) fun bytes =>
    bytes = growSize E n ∧ bytes < 2 ^ 32 ∧ n ≤ bytes / E.itemSize := by
  have hle := le_growSize E n
  refine ((safe_meets _).weaken fun h => by omega).bind fun m hm => ?_
  obtain ⟨rfl, -⟩ := hm
  refine ((safe_meets _).weaken fun h => by omega).bind fun m' hm' => ?_
  obtain ⟨rfl, -⟩ := hm'
  refine (safe_meets _).mono fun bytes hbytes => ?_
  obtain ⟨rfl, hlt⟩ := hbytes
  refine ⟨rfl, hlt, ?_⟩
  rw [growSize, Nat.mul_div_cancel _ E.itemSize_pos]
  exact le_trans (by omega) (le_max_right _ (n + n / 2 + 1))

/-- There is no room for `n` more items at `pos`: the longer buffer is refused. -/
def NoRoom (E : Env α) (h : E.buffers.Heap) (v : VectorImpl) (pos n : Nat) : Prop :=
  capacity E h v < v.mCount + n ∧ Denied E h v (v.mCount = pos) (growSize E (v.mCount + n))

/-- `_grow` ends the process: the longer buffer is none that a `size_t` can measure, or the one that
is long enough is shared and cannot be copied. -/
def GrowDies (E : Env α) (h : E.buffers.Heap) (v : VectorImpl) (n : Nat) : Prop :=
  (capacity E h v < v.mCount + n ∧ 2 ^ 32 ≤ growSize E (v.mCount + n)) ∨
  (v.mCount + n ≤ capacity E h v ∧ EditDenied E h v)

/-- There are `amount` free slots at `pos`, and the vector owns its buffer. -/
def Gap (E : Env α) (h : E.buffers.Heap) (v : VectorImpl) (l : List (Option α))
    (pos amount : Nat) : Prop :=
  ∃ G W, Own E h v (l.take pos ++ G ++ l.drop pos ++ W) ∧ G.length = amount ∧
    G.all E.flags.dead = true ∧
    W.all E.flags.dead = true

/-- Room was made, or the request for it was refused. -/
def Grown (R : Prop) (E : Env α) (h : E.buffers.Heap) (v : VectorImpl) (l : List (Option α))
    (pos amount : Nat) (r : Option (E.buffers.Heap × VectorImpl)) : Prop :=
  (r = none ∧ R) ∨ ∃ p, r = some p ∧ Frame E h v p.1 p.2 ∧ Gap E p.1 p.2 l pos amount

theorem all_take (hl : l.all E.flags.live = true) (n : Nat) : (l.take n).all E.flags.live = true :=
  List.all_eq_true.mpr fun c hc => List.all_eq_true.mp hl c (List.mem_of_mem_take hc)

theorem all_drop (hl : l.all E.flags.live = true) (n : Nat) : (l.drop n).all E.flags.live = true :=
  List.all_eq_true.mpr fun c hc => List.all_eq_true.mp hl c (List.mem_of_mem_drop hc)

theorem growInto_meets (ht : Tidy E h) (hv : Holds E h v l) (hpos : pos ≤ l.length)
    (hb : bytes < 2 ^ 32) (hroom : l.length + amount ≤ bytes / E.itemSize) :
    Meets D (growInto E h v pos amount bytes)
    (Grown (E.buffers.alloc h bytes = none) E h v l pos amount) := by
  obtain ⟨tail, hcells, htail⟩ := hv.cells
  unfold growInto
  split
  · rename_i ha
    exact .ok (Or.inl ⟨rfl, ha⟩)
  · rename_i b h₁ ha
    have htake : (l.take pos).length = pos := by simp [hpos]
    have hdrop : (l.drop pos).length = l.length - pos := by simp
    rw [(hv.alloc ha).1, hcells, cells_alloc ha, hv.count]
    have hsrc₁ : l ++ tail = [] ++ l.take pos ++ (l.drop pos ++ tail) := by
      rw [List.nil_append, ← List.append_assoc, List.take_append_drop]
    have hsrc₂ : l ++ tail = l.take pos ++ l.drop pos ++ tail := by simp
    have hcopy₁ := copyInto (E := E) (A := []) (P := []) (X := l.take pos) (Q := l.drop pos ++ tail)
      (i := 0) (j := 0) (n := pos) (k := 0) (c := pos ≠ 0)
      (Z := List.replicate (bytes / E.itemSize) none) (D := D) rfl rfl
      htake.symm (all_take hv.live pos) all_replicate_none
        (by simp only [htake, List.length_replicate]; omega)
      (fun h0 => by simp [not_not.mp h0])
    rw [← hsrc₁, List.nil_append] at hcopy₁
    refine hcopy₁.bind fun cs₁ hcs₁ => ?_
    obtain ⟨G, Z, rfl, hG, -, hZ, hlen₁⟩ := hcs₁
    obtain rfl := List.length_eq_zero_iff.mp hG
    simp only [List.nil_append, List.append_nil] at hlen₁ ⊢
    have hZlen : pos + Z.length = bytes / E.itemSize := by simpa [htake] using hlen₁
    have hcopy₂ := copyInto (E := E) (A := l.take pos) (P := l.take pos)
      (X := l.drop pos) (Q := tail) (i := pos + amount) (j := pos) (n := l.length - pos)
      (k := amount) (c := pos ≠ l.length) (Z := Z) (D := D)
      (by rw [htake]) htake.symm hdrop.symm (all_drop hv.live pos) hZ (by omega)
      (fun h0 => by simp [not_not.mp h0])
    rw [← hsrc₂] at hcopy₂
    refine hcopy₂.bind fun cs₂ hcs₂ => ?_
    obtain ⟨G, W, rfl, hG, hGdead, hW, hlen₂⟩ := hcs₂
    refine (takeOver_frame ht hv ha hb ?_).bind fun r hr => ?_
    · rw [hlen₂, hlen₁]
      simp
    · exact .ok (Or.inr ⟨r, rfl, hr.1, G, W, hr.2.2, hG, hGdead, hW⟩)

/-- Free slots behind the items are room at the end. -/
theorem gap_end {W : List (Option α)} (hv : Own E h v (l ++ W)) (hW : W.all E.flags.dead = true)
    (hroom : amount ≤ W.length) : Gap E h v l l.length amount := by
  obtain ⟨G, V, rfl, hG⟩ := exists_cut W hroom
  simp only [List.all_append, Bool.and_eq_true] at hW
  refine ⟨G, V, ?_, hG, hW.1, hW.2⟩
  rw [List.take_length, List.drop_length, List.append_nil, List.append_assoc]
  exact hv

theorem growStorage_meets {newSize : Nat} (ht : Tidy E h) (hv : Holds E h v l)
    (hpos : pos ≤ l.length) (hnew : newSize = l.length + amount)
    (hfull : capacity E h v < newSize) :
    Meets (2 ^ 32 ≤ growSize E newSize) (growStorage E h v pos amount newSize)
      (Grown (Denied E h v (v.mCount = pos) (growSize E newSize)) E h v l pos amount) := by
  refine (growBytes_meets newSize).bind fun bytes hbytes => ?_
  obtain ⟨rfl, hlt, hle⟩ := hbytes
  have hinto : ¬ Resizes E v (v.mCount = pos) → Meets (2 ^ 32 ≤ growSize E newSize)
      (growInto E h v pos amount (growSize E newSize))
      (Grown (Denied E h v (v.mCount = pos) (growSize E newSize)) E h v l pos amount) := fun hnot =>
    (growInto_meets ht hv hpos hlt (by omega)).mono fun r hr => hr.imp_left fun hnone =>
      ⟨hnone.1, Or.inr ⟨hnot, hnone.2⟩⟩
  have hcap := capacity_eq (v := v) ht
  cases hv with
  | null => exact hinto fun h => h.1 rfl
  | @storage a B l tail hB hcells hl htail =>
    simp only
    split
    · rename_i hflags
      cases hr : E.buffers.editResize h a (growSize E newSize) with
      | none => exact .ok (Or.inl ⟨rfl, Or.inl ⟨⟨(fun h => by cases h), hflags⟩, a, rfl, hr⟩⟩)
      | some r =>
        obtain ⟨hf, hown⟩ := editResize_frame (v := ⟨some a, l.length⟩) ht rfl hB hlt hr
        refine .ok (Or.inr ⟨_, rfl, hf, ?_⟩)
        -- the slots behind the items: all are free, since nothing has to be destroyed
        have hcellsOf : cellsOf E h ⟨some a, l.length⟩ = l ++ tail :=
          (SharedBuffers.cells_eq hB).trans hcells
        rw [hcap, hcellsOf] at hfull
        have hlong : (B.resized E.itemSize (growSize E newSize)).cells =
            l ++ (tail ++ List.replicate (growSize E newSize / E.itemSize - (l ++ tail).length) none) := by
          rw [Buffer.resized, hcells, List.take_of_length_le (by omega), List.append_assoc]
        have hlen := length_resized (E := E) (B := B) (n := growSize E newSize)
        rw [hlong] at hown hlen
        obtain rfl : l.length = pos := hflags.1
        refine gap_end hown ?_ ?_
        · exact List.all_eq_true.mpr fun c _ => by simp [Traits.dead, hflags.2.2]
        · rw [List.length_append] at hlen
          omega
    · rename_i hflags
      exact hinto fun h => hflags h.2

theorem growInPlace_meets (ht : Tidy E h) (hv : Holds E h v l) (hpos : pos ≤ l.length)
    (hs : v.mStorage = some a) (hroom : l.length + amount ≤ capacity E h v) :
    Meets (EditDenied E h v) (growInPlace E h v pos amount) (Grown R E h v l pos amount) := by
  refine (editArrayImpl_frame ht hv hs).bind fun r hr => ?_
  obtain ⟨hf, -, W, hown, hW, hlen⟩ := hr
  rw [List.length_append] at hlen
  have htake : (l.take pos).length = pos := by simp [hpos]
  have hdrop : (l.drop pos).length = l.length - pos := by simp
  rw [hv.count]
  split
  · obtain ⟨G, V, hmove, hG, hV, hGdead, hVdead⟩ := move_up (A := l.take pos) (Z := W) (k := amount)
      (all_drop hv.live pos) hW (by omega)
    rw [htake, hdrop, List.take_append_drop] at hmove
    have hsame : (l.take pos ++ G ++ l.drop pos ++ V).length = (l ++ W).length := by
      simp only [List.length_append, htake, hdrop]
      omega
    refine (onCells_frame hf.tidy hown (.of_eq_ok hmove ⟨hsame, rfl⟩)).bind fun h' hh' => ?_
    obtain ⟨hf', _, hown', rfl⟩ := hh'
    exact .ok (Or.inr ⟨_, rfl, hf.trans hf', G, V, hown', hG, hGdead, hVdead⟩)
  · rename_i hend
    obtain rfl : pos = l.length := not_not.mp hend
    exact .ok (Or.inr ⟨r, rfl, hf, gap_end hown hW (by omega)⟩)

/-- **`_grow`** makes room and says where; it gives up without memory, and if there is no slot to
point to because no room was asked for at the end of a full buffer. -/
theorem grow_meets (ht : Tidy E h) (hv : Holds E h v l) (hpos : pos ≤ l.length) :
    Meets (GrowDies E h v amount) (grow E h v pos amount) fun r => Frame E h v r.2.1 r.2.2 ∧
      ((r.1 = none ∧ Holds E r.2.1 r.2.2 l ∧ (amount = 0 ∧ pos = l.length ∨ NoRoom E h v pos amount)) ∨
        (r.1 = some pos ∧ r.2.2.mCount = l.length + amount ∧ Gap E r.2.1 r.2.2 l pos amount)) := by
  have hcount := hv.count
  have hcap := capacity_lt (v := v) ht
  have hsize := le_growSize E (v.mCount + amount)
  refine ((safe_meets _).weaken fun hbig => Or.inl ⟨by omega, by omega⟩).bind fun newSize hnew => ?_
  obtain ⟨rfl, -⟩ := hnew
  by_cases hnull : v.mStorage = none ∧ amount = 0
  · -- nothing stored and nothing asked for
    obtain ⟨hs, rfl⟩ := hnull
    cases hv with
    | storage => cases hs
    | null =>
      obtain rfl : pos = 0 := Nat.le_zero.mp hpos
      exact .ok ⟨.refl ht, Or.inl ⟨rfl, .null, Or.inl ⟨rfl, rfl⟩⟩⟩
  · have hroom : Meets (GrowDies E h v amount) (makeRoom E h v pos amount (v.mCount + amount))
        (Grown (NoRoom E h v pos amount) E h v l pos amount) := by
      unfold makeRoom
      split
      · rename_i hfull
        refine ((growStorage_meets ht hv hpos (by omega) hfull).weaken fun hbig =>
          Or.inl ⟨hfull, hbig⟩).mono fun r hr => hr.imp_left fun hnone => ⟨hnone.1, hfull, hnone.2⟩
      · rename_i hfits
        cases hs : v.mStorage with
        | some a =>
          exact (growInPlace_meets ht hv hpos hs (by omega)).weaken fun hdenied =>
            Or.inr ⟨by omega, hdenied⟩
        | none =>
          refine absurd ⟨hs, ?_⟩ hnull
          have : capacity E h v = 0 := by simp [capacity, hs]
          omega
    refine hroom.bind fun r hr => ?_
    obtain ⟨rfl, hrefused⟩ | ⟨p, rfl, hf, hgap⟩ := hr
    · exact .ok ⟨.refl ht, Or.inl ⟨rfl, hv, Or.inr hrefused⟩⟩
    · refine .ok ⟨hf.recount rfl, ?_⟩
      obtain ⟨G, W, hown, hG, hGdead, hW⟩ := hgap
      have hown' := hown.recount (w := { p.2 with mCount := v.mCount + amount }) rfl
      unfold itemLocation
      split
      · exact Or.inr ⟨rfl, congrArg (· + amount) hcount, G, W, hown', hG, hGdead, hW⟩
      · rename_i hend
        have hlen := hown'.length hf.tidy
        replace hend : ¬ pos < capacity E p.1 { p.2 with mCount := v.mCount + amount } := hend
        rw [← hlen] at hend
        simp only [List.length_append, List.length_take, List.length_drop] at hend
        have hzero : amount = 0 := by omega
        subst hzero
        obtain rfl := List.length_eq_zero_iff.mp hG
        refine Or.inl ⟨rfl, ?_, Or.inl ⟨rfl, by omega⟩⟩
        rw [List.append_nil, List.take_append_drop] at hown'
        exact hown'.holds hv.live hW rfl hcount

/-- New items in the gap. -/
theorem fillGap_meets {f : List (Option α) → Except Fault (List (Option α))}
    {P : List (Option α) → Prop} (ht : Tidy E h) (hgap : Gap E h v l pos amount)
    (hl : l.all E.flags.live = true) (hpos : pos ≤ l.length)
    (hcount : v.mCount = l.length + amount)
    (hf : ∀ A G Z : List (Option α), A.length = pos → G.length = amount →
    G.all E.flags.dead = true →
      ∃ X, f (A ++ G ++ Z) = .ok (A ++ X ++ Z) ∧ X.length = amount ∧
      X.all E.flags.live = true ∧ P X) :
    Meets D (onCells E h v f) fun h' => Frame E h v h' v ∧
      ∃ X, P X ∧ Holds E h' v (l.take pos ++ X ++ l.drop pos) := by
  obtain ⟨G, W, hown, hG, hGdead, hW⟩ := hgap
  obtain ⟨X, hX, hXlen, hXlive, hP⟩ :=
    hf (l.take pos) G (l.drop pos ++ W) (by simp [hpos]) hG hGdead
  simp only [← List.append_assoc] at hX
  refine (onCells_frame ht hown (.of_eq_ok hX ⟨by simp [hG, hXlen], rfl⟩)).mono fun h' hh' => ?_
  obtain ⟨hframe, _, hown', rfl⟩ := hh'
  refine ⟨hframe, X, hP, hown'.holds ?_ hW rfl ?_⟩
  · rw [List.all_append, List.all_append, all_take hl pos, hXlive, all_drop hl pos]
    rfl
  · simp only [List.length_append, List.length_take, List.length_drop, hXlen]
    omega

/-! ## Insertions -/

/-- What `insertAt` and `insertArrayAt` say and do, where `R` says that a request was refused and
`P` are the items that come in.  No items at the end of a full buffer count as no memory. -/
def Inserted (R : Prop) (l : List (Option α)) (index n : Nat) (P : List (Option α) → Prop)
    (ret : Ret) (l' : List (Option α)) : Prop :=
  (l.length < index ∧ ret = .badIndex ∧ l' = l) ∨
  (index ≤ l.length ∧ ret = .noMemory ∧ l' = l ∧ (n = 0 ∧ index = l.length ∨ R)) ∨
  (index ≤ l.length ∧ ret = .value index ∧ ∃ X, P X ∧ l' = l.take index ++ X ++ l.drop index)

/-- The vector was framed and its list is one with `Q`. -/
def After (E : Env α) (h : E.buffers.Heap) (v : VectorImpl) (Q : List (Option α) → Prop)
    (r : E.buffers.Heap × VectorImpl) : Prop :=
  Frame E h v r.1 r.2 ∧ ∃ l', Holds E r.1 r.2 l' ∧ Q l'

/-- Both insertions: `_grow`, then the new items. -/
theorem insert_meets {P : List (Option α) → Prop}
    {f : Nat → E.buffers.Heap → List (Option α) → Except Fault (List (Option α))} (ht : Tidy E h)
    (hv : Holds E h v l) (hindex : index ≤ l.length)
    (hf : ∀ h' v', Frame E h v h' v' → ∀ A G Z : List (Option α), A.length = index → G.length = n →
      G.all E.flags.dead = true →
      ∃ X, f index h' (A ++ G ++ Z) = .ok (A ++ X ++ Z) ∧ X.length = n ∧
        X.all E.flags.live = true ∧ P X) :
    Meets (GrowDies E h v n) (do
      let r ← grow E h v index n
      match r.1 with
      | none => .ok (.noMemory, r.2)
      | some pos => do
        let h ← onCells E r.2.1 r.2.2 (f pos r.2.1)
        .ok (.value index, h, r.2.2))
      fun r => After E h v (Inserted (NoRoom E h v index n) l index n P r.1) r.2 := by
  refine (grow_meets ht hv hindex).bind fun r hr => ?_
  obtain ⟨hframe, ⟨hnone, hsame, hwhy⟩ | ⟨hsome, hcount, hgap⟩⟩ := hr
  · simp only [hnone]
    exact .ok ⟨hframe, l, hsame, Or.inr (Or.inl ⟨hindex, rfl, rfl, hwhy⟩)⟩
  · simp only [hsome]
    refine (fillGap_meets hframe.tidy hgap hv.live hindex hcount (hf _ _ hframe)).bind
      fun h' hh' => ?_
    obtain ⟨hframe', X, hX, hnew⟩ := hh'
    exact .ok ⟨hframe.trans hframe', _, hnew, Or.inr (Or.inr ⟨hindex, rfl, X, hX, rfl⟩)⟩

theorem insertArrayAt_meets {array : E.buffers.Heap → List (Option α)} {X : List (Option α)}
    (ht : Tidy E h) (hv : Holds E h v l) (hX : X.all E.flags.live = true) (hn : n = X.length)
    (harray : ∀ h' v', Frame E h v h' v' → ∃ rest, array h' = X ++ rest) :
    Meets (index ≤ v.mCount ∧ GrowDies E h v n) (insertArrayAt E h v array index n) fun r =>
      After E h v (Inserted (NoRoom E h v index n) l index n (· = X) r.1) r.2 := by
  unfold insertArrayAt
  have hcount := hv.count
  split
  · exact .ok ⟨.refl ht, l, hv, Or.inl ⟨by omega, rfl, rfl⟩⟩
  · rename_i hle
    refine (insert_meets (f := fun pos h cs => doCopy E cs pos (array h) 0 n) ht hv
      (by omega) ?_).weaken fun hdies => ⟨by omega, hdies⟩
    intro h' v' hframe A G Z hA hG hGdead
    obtain ⟨rest, hrest⟩ := harray h' v' hframe
    refine ⟨X, ?_, hn.symm, hX, rfl⟩
    unfold doCopy
    have hfetch := fetch_block (A := []) (B := rest) (i := 0) rfl hn hX
    rw [List.nil_append] at hfetch
    rw [hrest, hfetch]
    exact place_block hA.symm (hn.symm.trans hG.symm) hGdead

/-- Another vector's array is still there when the room for it has been made, even if it was the
same buffer. -/
theorem insertVectorAt_meets (ht : Tidy E h) (hv : Holds E h v l) (hw : Holds E h w l')
    (hshared : ∀ c, held w c + held v c ≤ E.buffers.refs h c) :
    Meets (index ≤ v.mCount ∧ GrowDies E h v w.mCount) (insertVectorAt E h v w index) fun r =>
      After E h v (Inserted (NoRoom E h v index w.mCount) l index l'.length (· = l') r.1) r.2 := by
  have hcount := hw.count
  unfold insertVectorAt
  rw [← hcount]
  refine insertArrayAt_meets ht hv hw.live hcount fun h' v' hf => ?_
  obtain ⟨tail, hcells, -⟩ := (hf.holds hw hshared).cells
  exact ⟨tail, hcells⟩

theorem appendVector_meets (ht : Tidy E h) (hv : Holds E h v l) (hw : Holds E h w l')
    (hshared : ∀ c, held w c + held v c ≤ E.buffers.refs h c) :
    Meets (GrowDies E h v w.mCount) (appendVector E h v w) fun r =>
      After E h v (Inserted (NoRoom E h v v.mCount w.mCount) l l.length l'.length (· = l') r.1)
        r.2 := by
  rw [← hv.count]
  unfold appendVector
  exact (insertVectorAt_meets ht hv hw hshared).weaken fun hdies => hdies.2

/-- The items that come in for `item`: copies, made ones, or whatever the memory held. -/
def NewItems (E : Env α) (item : Option α) (n : Nat) (X : List (Option α)) : Prop :=
  X.length = n ∧ (∀ x, item = some x → X = List.replicate n (some x)) ∧
    (item = none → E.flags.trivialCtor = false → X = List.replicate n (some E.made))

theorem fill_block {A G Z : List (Option α)} {x : Option α} (hA : A.length = index)
    (hG : G.length = n) (hdead : G.all E.flags.dead = true) :
    ∃ X, fill E x (A ++ G ++ Z) index n = .ok (A ++ X ++ Z) ∧ X.length = n ∧
    X.all E.flags.live = true ∧
      NewItems E x n X := by
  have hsome : ∀ x : α, place E.flags (A ++ G ++ Z) index (List.replicate n (some x)) =
      .ok (A ++ List.replicate n (some x) ++ Z) := fun x => place_block hA.symm (by simp [hG]) hdead
  cases x with
  | some x =>
    refine ⟨List.replicate n (some x), hsome x, by simp, by simp [Traits.live], by simp, ?_,
      (fun h => by cases h)⟩
    rintro y ⟨⟩
    rfl
  | none =>
    unfold fill doConstruct
    simp only
    split
    · rename_i hT
      refine ⟨G, rfl, hG, ?_, hG, (fun x hx => by cases hx), fun _ hF => ?_⟩
      · exact List.all_eq_true.mpr fun c _ => by simp [Traits.live, hT]
      · rw [hT] at hF
        cases hF
    · exact ⟨_, hsome E.made, by simp, by simp [Traits.live], by simp, (fun x hx => by cases hx),
        fun _ _ => rfl⟩

theorem insertAt_meets {item : Option α} (ht : Tidy E h) (hv : Holds E h v l) :
    Meets (index ≤ v.mCount ∧ GrowDies E h v n) (insertAt E h v item index n) fun r =>
      After E h v (Inserted (NoRoom E h v index n) l index n (NewItems E item n) r.1) r.2 := by
  unfold insertAt
  have hcount := hv.count
  split
  · exact .ok ⟨.refl ht, l, hv, Or.inl ⟨by omega, rfl, rfl⟩⟩
  · rename_i hle
    exact (insert_meets (f := fun pos h cs => fill E item cs pos n) ht hv (by omega)
      fun h' v' _ A G Z hA hG hdead => fill_block hA hG hdead).weaken fun hdies => ⟨by omega, hdies⟩

theorem push_meets {item : Option α} (ht : Tidy E h) (hv : Holds E h v l) :
    Meets (GrowDies E h v 1) (push E h v item) fun r =>
      After E h v (Inserted (NoRoom E h v v.mCount 1) l l.length 1 (NewItems E item 1) r.1)
        r.2 := by
  rw [← hv.count]
  unfold push
  exact (insertAt_meets ht hv).weaken fun hdies => hdies.2

/-! ## `_shrink` -/

theorem shrinkBytes_lt : shrinkBytes E n < 2 ^ 32 := Nat.mod_lt _ (by decide)

/-- The product is not checked, and need not be: it is at most the old size, or nothing is
stored. -/
theorem le_shrinkBytes {size : Nat} (hsize : size < 2 ^ 32) (hn : n < size / E.itemSize / 2) :
    n ≤ shrinkBytes E n / E.itemSize := by
  by_cases hzero : n = 0
  · rw [hzero]
    exact Nat.zero_le _
  · have hmax : max kMinVectorCapacity (n * 2) ≤ size / E.itemSize :=
      max_le (by unfold kMinVectorCapacity; omega) (by omega)
    have hmul : max kMinVectorCapacity (n * 2) * E.itemSize ≤ size :=
      le_trans (Nat.mul_le_mul_right _ hmax) (Nat.div_mul_le_self _ _)
    unfold shrinkBytes
    rw [Nat.mod_eq_of_lt (by omega), Nat.mul_div_cancel _ E.itemSize_pos]
    exact le_trans (by omega) (le_max_right _ (n * 2))

/-- A smaller buffer is asked for, and refused. -/
def NoSmaller (E : Env α) (h : E.buffers.Heap) (v : VectorImpl) (pos n : Nat) : Prop :=
  v.mCount - n < capacity E h v / 2 ∧
    Denied E h v (pos = v.mCount - n) (shrinkBytes E (v.mCount - n))

/-- `_shrink` ends the process: the buffer stays as it is, is shared and cannot be copied. -/
def ShrinkDies (E : Env α) (h : E.buffers.Heap) (v : VectorImpl) (n : Nat) : Prop :=
  capacity E h v / 2 ≤ v.mCount - n ∧ EditDenied E h v

/-- The items are gone; or the request for the smaller buffer was refused, and all stay. -/
def Removed (R : Prop) (l : List (Option α)) (pos amount : Nat) (l' : List (Option α)) : Prop :=
  l' = l.take pos ++ l.drop (pos + amount) ∨ (R ∧ l' = l)

theorem live_removed (hl : l.all E.flags.live = true) :
    (l.take pos ++ l.drop (pos + amount)).all E.flags.live = true := by
  rw [List.all_append, all_take hl, all_drop hl]
  rfl

theorem shrinkStorage_meets (ht : Tidy E h) (hv : Holds E h v l) (hs : v.mStorage = some a)
    (hle : pos + amount ≤ l.length) (hsmall : l.length - amount < capacity E h v / 2) :
    Meets D (shrinkStorage E h v a pos amount (l.length - amount))
      (After E h v (Removed (NoSmaller E h v pos amount) l pos amount)) := by
  have hlength := hv.count
  obtain ⟨tail, hcells, htail⟩ := hv.cells
  have htake : (l.take pos).length = pos := by simp; omega
  have hdrop : (l.drop (pos + amount)).length = l.length - amount - pos := by simp; omega
  have hcount : (l.take pos ++ l.drop (pos + amount)).length = l.length - amount := by
    rw [List.length_append, htake, hdrop]
    omega
  obtain ⟨B, hB, hBcells⟩ : ∃ B, E.buffers.buf h a = some B ∧ B.cells = l ++ tail := by
    cases hv with
    | null => cases hs
    | storage hB =>
      obtain rfl := Option.some.inj hs
      exact ⟨_, hB, (SharedBuffers.cells_eq hB).symm.trans hcells⟩
  have hroom : l.length - amount ≤ shrinkBytes E (l.length - amount) / E.itemSize := by
    refine le_shrinkBytes (ht a B hB).2.1 ?_
    simpa [capacity, hs, hB] using hsmall
  unfold shrinkStorage
  split
  · rename_i hflags
    have hend := hflags.1
    have hdtor := hflags.2.2
    split
    · rename_i hr
      have hresizes : Resizes E v (pos = l.length - amount) := by
        refine ⟨?_, hflags⟩
        rw [hs]
        exact Option.some_ne_none a
      rw [← hlength] at hresizes hr hsmall
      exact .ok ⟨.refl ht, l, hv, Or.inr ⟨⟨hsmall, Or.inl ⟨hresizes, a, hs, hr⟩⟩, rfl⟩⟩
    · rename_i b h₁ hr
      obtain ⟨hf, hown⟩ := editResize_frame ht hs hB shrinkBytes_lt hr
      refine .ok ⟨hf.recount rfl, _, ?_, Or.inl rfl⟩
      -- the last items are cut off or left as free slots, which no destructor would have to see
      have hnil : l.drop (pos + amount) = [] := List.drop_eq_nil_of_le (by omega)
      have hsplit : l ++ tail = l.take pos ++ (l.drop pos ++ tail) := by
        rw [← List.append_assoc, List.take_append_drop]
      rw [Buffer.resized, hBcells, hsplit, List.take_append, List.take_of_length_le (by omega),
        List.append_assoc] at hown
      rw [hnil, List.append_nil] at hcount ⊢
      refine hown.holds (all_take hv.live pos) ?_ rfl hcount.symm
      exact List.all_eq_true.mpr fun c _ => by simp [Traits.dead, hdtor]
  · rename_i hflags
    split
    · rename_i ha
      rw [← hlength] at hflags ha hsmall
      exact .ok ⟨.refl ht, l, hv, Or.inr ⟨⟨hsmall, Or.inr ⟨fun h => hflags h.2, ha⟩⟩, rfl⟩⟩
    · rename_i b h₁ ha
      rw [(hv.alloc ha).1, hcells, cells_alloc ha]
      have hsrc₁ : l ++ tail = [] ++ l.take pos ++ (l.drop pos ++ tail) := by
        rw [List.nil_append, ← List.append_assoc, List.take_append_drop]
      have hsrc₂ : l ++ tail = l.take (pos + amount) ++ l.drop (pos + amount) ++ tail := by simp
      have hcopy₁ := copyInto (E := E) (A := []) (P := []) (X := l.take pos)
        (Q := l.drop pos ++ tail) (i := 0) (j := 0) (n := pos) (k := 0) (c := pos ≠ 0)
        (Z := List.replicate (shrinkBytes E (l.length - amount) / E.itemSize) none)
          (D := D) rfl rfl htake.symm
        (all_take hv.live pos) all_replicate_none
          (by simp only [htake, List.length_replicate]; omega)
        (fun h0 => by simp [not_not.mp h0])
      rw [← hsrc₁, List.nil_append] at hcopy₁
      refine hcopy₁.bind fun cs₁ hcs₁ => ?_
      obtain ⟨G, Z, rfl, hG, -, hZ, hlen₁⟩ := hcs₁
      obtain rfl := List.length_eq_zero_iff.mp hG
      simp only [List.nil_append, List.append_nil] at hlen₁ ⊢
      have hZlen : pos + Z.length = shrinkBytes E (l.length - amount) / E.itemSize := by
        simpa [htake] using hlen₁
      have hcopy₂ := copyInto (E := E) (A := l.take pos) (P := l.take (pos + amount))
        (X := l.drop (pos + amount)) (Q := tail) (i := pos) (j := pos + amount)
        (n := l.length - amount - pos) (k := 0)
        (c := pos ≠ l.length - amount) (Z := Z) (D := D) htake.symm (by simp; omega) hdrop.symm
        (all_drop hv.live _) hZ (by omega) (fun h0 => List.drop_eq_nil_of_le (by omega))
      rw [← hsrc₂] at hcopy₂
      refine hcopy₂.bind fun cs₂ hcs₂ => ?_
      obtain ⟨G, W, rfl, hG, hGdead, hW, hlen₂⟩ := hcs₂
      obtain rfl := List.length_eq_zero_iff.mp hG
      rw [List.append_nil] at hlen₂ ⊢
      refine (takeOver_frame ht hv ha shrinkBytes_lt ?_).bind fun r hr => ?_
      · rw [hlen₂, hlen₁]
        simp
      · refine .ok ⟨hr.1.recount rfl, _, ?_, Or.inl rfl⟩
        exact hr.2.2.holds (live_removed hv.live) hW rfl hcount.symm

theorem shrinkInPlace_meets (ht : Tidy E h) (hv : Holds E h v l) (hs : v.mStorage = some a)
    (hle : pos + amount ≤ l.length) :
    Meets (EditDenied E h v) (shrinkInPlace E h v pos amount (l.length - amount))
      (After E h v (Removed R l pos amount)) := by
  refine (editArrayImpl_frame ht hv hs).bind fun r hr => ?_
  obtain ⟨hf, -, W, hown, hW, -⟩ := hr
  obtain ⟨A, X, C, rfl, hA, hX⟩ := exists_blocks l hle
  have hl := hv.live
  simp only [List.all_append, Bool.and_eq_true] at hl
  have hremoved : (A ++ X ++ C).take pos ++ (A ++ X ++ C).drop (pos + amount) = A ++ C := by
    subst hA hX
    simp
  obtain ⟨G, hG, hGlen, hGdead⟩ :=
    vacate_block (A := A) (X := X) (B := C ++ W) hA.symm hX.symm hl.1.2
  simp only [← List.append_assoc] at hG
  have hmove : Meets (EditDenied E h v) (do
      let cs ← vacate E.flags (A ++ X ++ C ++ W) pos amount
      if pos ≠ (A ++ X ++ C).length - amount
      then move E.flags cs pos (pos + amount) ((A ++ X ++ C).length - amount - pos) else .ok cs)
        fun cs =>
      cs.length = (A ++ X ++ C ++ W).length ∧ ∃ V, cs = A ++ C ++ V ∧
        V.all E.flags.dead = true := by
    rw [hG]
    show Meets _ (if _ then _ else _) _
    have hlen : (A ++ X ++ C).length - amount - pos = C.length := by simp; omega
    split
    · obtain ⟨V, hV, hVlen, hVdead⟩ := move_down (A := A) (X := C) hl.2 hGdead hW
      rw [hGlen, hA, hX] at hV
      rw [hlen]
      exact .of_eq_ok hV ⟨by simp; omega, V, rfl, hVdead⟩
    · rename_i hend
      have hC : C.length = 0 := by
        rw [← hlen, ← not_not.mp hend]
        omega
      obtain rfl := List.length_eq_zero_iff.mp hC
      refine .ok ⟨by simp [hGlen], G ++ W, by simp, ?_⟩
      rw [List.all_append, hGdead, hW]
      rfl
  refine (onCells_frame hf.tidy hown hmove).bind fun h' hh' => ?_
  obtain ⟨hf', _, hown', V, rfl, hV⟩ := hh'
  refine .ok ⟨(hf.trans hf').recount rfl, A ++ C, ?_, Or.inl hremoved.symm⟩
  refine hown'.holds ?_ hV rfl ?_
  · rw [List.all_append, hl.1.1, hl.2]
    rfl
  · show (A ++ X ++ C).length - amount = _
    simp only [List.length_append]
    omega

/-- **`_shrink`** -/
theorem shrink_meets (ht : Tidy E h) (hv : Holds E h v l) (hle : pos + amount ≤ l.length) :
    Meets (ShrinkDies E h v amount) (shrink E h v pos amount)
      (After E h v (Removed (NoSmaller E h v pos amount) l pos amount)) := by
  have hcount := hv.count
  unfold shrink
  cases hs : v.mStorage with
  | none =>
    cases hv with
    | storage => cases hs
    | null => exact .ok ⟨.refl ht, [], .null, Or.inl (by simp)⟩
  | some a =>
    simp only
    rw [if_neg (by omega)]
    split
    · rename_i hsmall
      rw [hcount] at hsmall ⊢
      exact shrinkStorage_meets ht hv hs hle hsmall
    · rename_i hlarge
      refine Meets.weaken ?_ fun hdenied => ⟨by omega, hdenied⟩
      rw [hcount]
      exact shrinkInPlace_meets ht hv hs hle

/-! ## The other operations -/

/-- `removeItemsAt`: success is reported even if the items stay for want of memory. -/
def RemovedAt (R : Prop) (l : List (Option α)) (index count : Nat) (ret : Ret)
    (l' : List (Option α)) : Prop :=
  (l.length < index + count ∧ ret = .badValue ∧ l' = l) ∨
  (index + count ≤ l.length ∧ ret = .value index ∧ Removed R l index count l')

theorem removeItemsAt_meets (ht : Tidy E h) (hv : Holds E h v l) (hsum : index + n < 2 ^ 32) :
    Meets (index + n ≤ v.mCount ∧ ShrinkDies E h v n) (removeItemsAt E h v index n) fun r =>
      After E h v (RemovedAt (NoSmaller E h v index n) l index n r.1) r.2 := by
  have hcount := hv.count
  unfold removeItemsAt
  rw [Nat.mod_eq_of_lt hsum]
  split
  · exact .ok ⟨.refl ht, l, hv, Or.inl ⟨by omega, rfl, rfl⟩⟩
  · rename_i hle
    refine ((shrink_meets ht hv (by omega)).weaken fun hdies => ⟨by omega, hdies⟩).bind
      fun r hr => ?_
    obtain ⟨hf, l', hl', hremoved⟩ := hr
    exact .ok ⟨hf, l', hl', Or.inr ⟨by omega, rfl, hremoved⟩⟩

/-- One item less at the end, if there is one. -/
theorem pop_meets (ht : Tidy E h) (hv : Holds E h v l) :
    Meets (0 < v.mCount ∧ ShrinkDies E h v 1) (pop E h v) (After E h v fun l' =>
      l' = l.dropLast ∨ (NoSmaller E h v (v.mCount - 1) 1 ∧ l' = l)) := by
  have hlen := hv.length_lt ht
  have hcount := hv.count
  unfold pop
  split
  · rename_i hzero
    obtain rfl := List.length_eq_zero_iff.mp (hcount.symm.trans hzero)
    exact .ok ⟨.refl ht, [], hv, Or.inl rfl⟩
  · rename_i hpos
    refine ((removeItemsAt_meets ht hv (by omega)).weaken fun hdies => ⟨by omega, hdies.2⟩).bind
      fun r hr => ?_
    obtain ⟨hf, l', hl', ⟨hlt, -⟩ | ⟨-, -, hremoved⟩⟩ := hr
    · omega
    · refine .ok ⟨hf, l', hl', hremoved.imp_left fun heq => ?_⟩
      rw [heq, hcount, List.drop_eq_nil_of_le (by omega), List.append_nil, List.dropLast_eq_take]

theorem clear_meets (ht : Tidy E h) (hv : Holds E h v l) :
    Meets (ShrinkDies E h v v.mCount) (clear E h v)
      (After E h v fun l' => l' = [] ∨ (NoSmaller E h v 0 v.mCount ∧ l' = l)) := by
  have hcount := hv.count
  unfold clear
  refine (shrink_meets ht hv (by omega)).mono fun r hr => ?_
  obtain ⟨hf, l', hl', hremoved⟩ := hr
  refine ⟨hf, l', hl', hremoved.imp_left fun heq => ?_⟩
  rw [heq, hcount]
  simp

/-- What `replaceAt` says and does. -/
def Replaced (E : Env α) (l : List (Option α)) (item : Option α) (index : Nat) (ret : Ret)
    (l' : List (Option α)) : Prop :=
  (l.length ≤ index ∧ ret = .badIndex ∧ l' = l) ∨
  (index < l.length ∧ ret = .value index ∧ ∃ X, NewItems E item 1 X ∧ l' = l.take index ++ X ++
    l.drop (index + 1))

theorem replaceAt_meets {item : Option α} (ht : Tidy E h) (hv : Holds E h v l) :
    Meets (index < v.mCount ∧ EditDenied E h v) (replaceAt E h v item index) fun r =>
      After E h v (Replaced E l item index r.1) r.2 := by
  have hlength := hv.count
  unfold replaceAt
  split
  · exact .ok ⟨.refl ht, l, hv, Or.inl ⟨by omega, rfl, rfl⟩⟩
  · rename_i hlt
    rw [if_pos (by have := hv.count_le ht; omega)]
    obtain ⟨a, ha⟩ : ∃ a, v.mStorage = some a := by
      cases hv with
      | null => exact absurd (Nat.zero_le index) hlt
      | storage => exact ⟨_, rfl⟩
    obtain ⟨A, X, C, rfl, hA, hX⟩ := exists_blocks l (i := index) (n := 1) (by omega)
    have hl := hv.live
    simp only [List.all_append, Bool.and_eq_true] at hl
    refine ((editArrayImpl_frame ht hv ha).weaken fun hdenied => ⟨by omega, hdenied⟩).bind
      fun r hr => ?_
    obtain ⟨hf, hcount, W, hown, hW, -⟩ := hr
    obtain ⟨G, hG, hGlen, hdead⟩ :=
      vacate_block (A := A) (X := X) (B := C ++ W) hA.symm hX.symm hl.1.2
    obtain ⟨Y, hY, hYlen, hYlive, hnew⟩ :=
      fill_block (x := item) (Z := C ++ W) hA (hGlen.trans hX) hdead
    simp only [← List.append_assoc] at hG hY
    have hwrite : Meets (index < v.mCount ∧ EditDenied E h v) (do
        let cs ← vacate E.flags (A ++ X ++ C ++ W) index 1
        fill E item cs index 1) fun cs => cs.length = (A ++ X ++ C ++ W).length ∧
          cs = A ++ Y ++ C ++ W := by
      rw [hG]
      exact .of_eq_ok hY ⟨by simp [hX, hYlen], rfl⟩
    refine (onCells_frame hf.tidy hown hwrite).bind fun h' hh' => ?_
    obtain ⟨hf', _, hown', rfl⟩ := hh'
    have hreplaced : (A ++ X ++ C).take index ++ Y ++ (A ++ X ++ C).drop (index + 1) =
        A ++ Y ++ C := by
      rw [← hA, ← hX]
      simp
    refine .ok ⟨hf.trans hf', A ++ Y ++ C, hown'.holds ?_ hW rfl ?_,
      Or.inr ⟨by omega, rfl, Y, hnew, hreplaced.symm⟩⟩
    · simp [hl.1.1, hYlive, hl.2]
    · rw [hcount, hlength]
      simp [hX, hYlen]

theorem setCapacity_meets (ht : Tidy E h) (hv : Holds E h v l) :
    Meets (v.mCount < n ∧ 2 ^ 32 ≤ n * E.itemSize) (setCapacity E h v n) fun r =>
      After E h v (fun l' => l' = l ∧ ((n ≤ l.length ∧ ∃ k, r.1 = .value k ∧ l.length ≤ k) ∨
        (l.length < n ∧
          (r.1 = .value n ∨ r.1 = .noMemory ∧ E.buffers.alloc h (n * E.itemSize) = none))))
          r.2 := by
  have hlength := hv.count
  unfold setCapacity
  split
  · exact .ok ⟨.refl ht, l, hv, rfl, Or.inl ⟨by omega, _, rfl, hv.count_le ht⟩⟩
  · rename_i hlt
    refine ((safe_meets _).weaken fun hbig => ⟨by omega, hbig⟩).bind fun bytes hbytes => ?_
    obtain ⟨rfl, hbytes⟩ := hbytes
    split
    · rename_i ha
      exact .ok ⟨.refl ht, l, hv, rfl, Or.inr ⟨by omega, Or.inr ⟨rfl, ha⟩⟩⟩
    · rename_i b h₁ ha
      obtain ⟨tail, hcells, -⟩ := hv.cells
      have hcap : n * E.itemSize / E.itemSize = n := Nat.mul_div_cancel _ E.itemSize_pos
      rw [(hv.alloc ha).1, hcells, cells_alloc ha, hcap, hlength]
      refine Meets.bind (copyAll hv.live (by omega)) fun cs hcs => ?_
      obtain ⟨W, rfl, hW, hlen⟩ := hcs
      refine (takeOver_frame ht hv ha hbytes (hlen.trans hcap.symm)).bind fun r hr => ?_
      obtain ⟨hf, hcount, hown⟩ := hr
      exact .ok ⟨hf, l, hown.holds hv.live hW rfl (hcount.trans hlength), rfl,
        Or.inr ⟨by omega, Or.inl rfl⟩⟩

/-- `resize` asks for a buffer that is refused. -/
def NoResize (E : Env α) (h : E.buffers.Heap) (v : VectorImpl) (size : Nat) : Prop :=
  (v.mCount < size ∧ NoRoom E h v v.mCount (size - v.mCount)) ∨
  (size < v.mCount ∧ NoSmaller E h v size (v.mCount - size))

def ResizeDies (E : Env α) (h : E.buffers.Heap) (v : VectorImpl) (size : Nat) : Prop :=
  (v.mCount < size ∧ GrowDies E h v (size - v.mCount)) ∨
    (size < v.mCount ∧ ShrinkDies E h v (v.mCount - size))

/-- What `resize` says and does; a vector that cannot be made smaller for want of memory stays.  The
index of new items behind 2^31 others is a negative `ssize_t` and returned as if it were an
error. -/
def Resized (E : Env α) (R : Prop) (l : List (Option α)) (size : Nat) (ret : Ret)
    (l' : List (Option α)) : Prop :=
  (ret = .value (if l.length < size ∧ 2 ^ 31 ≤ l.length then l.length else size) ∧
    ∃ X, NewItems E none (size - l.length) X ∧ l' = l.take size ++ X) ∨
  (R ∧ l' = l ∧ ((size < l.length ∧ ret = .value size) ∨ (l.length < size ∧ ret = .noMemory)))

theorem failed_value (n : Nat) : (Ret.value n).failed = true ↔ 2 ^ 31 ≤ n ∧ n < 2 ^ 32 := by
  unfold Ret.failed ssize
  rw [decide_eq_true_iff]
  split_ifs
  · omega
  · omega

theorem failed_value_of_lt (hn : n < 2 ^ 31) : (Ret.value n).failed = false := by
  rw [← Bool.not_eq_true, failed_value]
  omega

theorem resize_meets {size : Nat} (ht : Tidy E h) (hv : Holds E h v l) :
    Meets (ResizeDies E h v size) (resize E h v size) fun r =>
      After E h v (Resized E (NoResize E h v size) l size r.1) r.2 := by
  have hlen := hv.length_lt ht
  have hcount := hv.count
  have hnil : NewItems E none 0 [] := ⟨rfl, (fun x hx => by cases hx), fun _ _ => rfl⟩
  unfold resize
  have hadjust : Meets (ResizeDies E h v size) (adjust E h v size) fun r => After E h v (fun l' =>
      Resized E (NoResize E h v size) l size (if r.1.failed then r.1 else .value size) l') r.2 := by
    unfold adjust
    split
    · rename_i hlt
      refine ((insertAt_meets ht hv).weaken fun hdies => Or.inl ⟨hlt, hdies.2⟩).mono fun r hr => ?_
      obtain ⟨hf, l', hl', ⟨hlt', -⟩ | ⟨-, hret, heq, hzero | hrefused⟩ | ⟨-, hret, X, hX, heq⟩⟩ :=
        hr
      · omega
      · omega
      · refine ⟨hf, l', hl', Or.inr ⟨Or.inl ⟨hlt, hrefused⟩, heq, Or.inr ⟨by omega, ?_⟩⟩⟩
        rw [hret]
        rfl
      · rw [hcount] at hret hX heq hlt
        refine ⟨hf, l', hl', Or.inl ⟨?_, X, hX, ?_⟩⟩
        · by_cases hbig : 2 ^ 31 ≤ l.length
          · rw [hret, if_pos ((failed_value _).mpr ⟨hbig, hlen⟩), if_pos ⟨hlt, hbig⟩]
          · rw [hret, failed_value_of_lt (by omega), if_neg Bool.false_ne_true,
              if_neg fun h => hbig h.2]
        · rw [heq, List.take_length, List.drop_length, List.append_nil,
            List.take_of_length_le (by omega)]
    · split
      · rename_i hlt
        refine ((removeItemsAt_meets ht hv (by omega)).weaken fun hdies =>
          Or.inr ⟨hlt, hdies.2⟩).mono fun r hr => ?_
        have hself : ∀ ret : Ret, ret = .value size →
            (if ret.failed then ret else .value size) = .value size := by
          rintro _ rfl
          exact ite_self _
        obtain ⟨hf, l', hl', ⟨hlt', -⟩ | ⟨-, hret, heq | ⟨hrefused, heq⟩⟩⟩ := hr
        · omega
        · refine ⟨hf, l', hl', Or.inl ⟨?_, [], ?_, ?_⟩⟩
          · rw [hself _ hret, if_neg (by omega)]
          · rw [Nat.sub_eq_zero_of_le (by omega)]
            exact hnil
          · rw [heq, List.drop_eq_nil_of_le (by omega)]
        · exact ⟨hf, l', hl', Or.inr ⟨Or.inr ⟨hlt, hrefused⟩, heq, Or.inl ⟨by omega, hself _ hret⟩⟩⟩
      · refine .ok ⟨.refl ht, l, hv, Or.inl ⟨?_, [], ?_, ?_⟩⟩
        · show Ret.value size = _
          rw [if_neg (by omega)]
        · rw [Nat.sub_eq_zero_of_le (by omega)]
          exact hnil
        · rw [List.append_nil, List.take_of_length_le (by omega)]
  refine hadjust.bind fun r hr => ?_
  obtain ⟨hf, l', hl', hres⟩ := hr
  exact .ok ⟨hf, l', hl', hres⟩

theorem finishVector_meets (ht : Tidy E h) (hv : Holds E h v l) :
    Meets D (finishVector E h v) (After E h v (· = [])) :=
  (releaseStorage_frame ht hv).bind fun _ hf => .ok ⟨hf, [], .null, rfl⟩

/-- A copy is one reference more. -/
theorem copyOf_frame (ht : Tidy E h) (hw : Holds E h w l) :
    Frame E h ⟨none, 0⟩ (copyOf E h w).1 (copyOf E h w).2 ∧
    Holds E (copyOf E h w).1 (copyOf E h w).2 l := by
  cases hw with
  | null => exact ⟨.refl ht, .null⟩
  | @storage a B l tail hB hcells hl htail =>
    have hbuf := E.buffers.buf_acquire h a
    rw [hB, Option.map_some] at hbuf
    refine ⟨frame_update ht hbuf ?_ ?_ ?_ ?_, ?_⟩
    · rintro B' ⟨⟩
      obtain ⟨hpos, hsize, hlen⟩ := ht a B hB
      exact ⟨Nat.succ_pos _, hsize, hlen⟩
    · rw [refs_of_buf hB, held_null rfl, held_self rfl]
      rfl
    · intro c hc
      rw [held_null rfl, held_of_ne rfl hc]
    · intro B' hB' _
      obtain rfl := Option.some.inj (hB.symm.trans hB')
      exact ⟨_, rfl, rfl⟩
    · refine .storage (B := { B with refs := B.refs + 1 }) ?_ hcells hl htail
      show E.buffers.buf (E.buffers.acquire h a) a = _
      rw [hbuf, Function.update_self]

/-- **Assignment** of a vector that somebody else holds. -/
theorem assign_meets (ht : Tidy E h) (hv : Holds E h v l) (hw : Holds E h w l')
    (hshared : ∀ c, held w c + held v c ≤ E.buffers.refs h c) :
    Meets D (assign E h v w) (After E h v (· = l')) := by
  refine (releaseStorage_frame ht hv).bind fun h₁ hf => ?_
  have hw₁ := hf.holds hw hshared
  split
  · obtain ⟨hf', hw'⟩ := copyOf_frame hf.tidy hw₁
    exact .ok ⟨hf.trans hf', l', hw', rfl⟩
  · rename_i hzero
    have hcount := hw.count
    obtain rfl := List.length_eq_zero_iff.mp (hcount.symm.trans (not_not.mp hzero))
    exact .ok ⟨hf, [], .null, rfl⟩

end Omap4.Libmotou
