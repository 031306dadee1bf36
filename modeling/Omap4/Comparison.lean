import Mathlib.Data.List.DropRight
import Mathlib.Data.List.Pairwise

/-!
# Omap4.Comparison — lists in the order of a three-way comparison

`cmp a b` is negative, zero or positive as in C.  `sortBack` is insertion sort that looks from the
back for the place of each item; it is stable.  `below`, `above` and `put` are what a list without
equal items is cut into by an item, and the list with that item in it.
-/

namespace Omap4.Comparison

variable {α : Type}

/-- The signs of `cmp` are those of a total preorder. -/
structure IsComparison (cmp : α → α → Int) : Prop where
  swap : ∀ a b, cmp a b ≤ 0 ↔ 0 ≤ cmp b a
  trans : ∀ a b c, cmp a b ≤ 0 → cmp b c ≤ 0 → cmp a c ≤ 0

variable {cmp : α → α → Int}

namespace IsComparison

variable (hc : IsComparison cmp) {a b c : α}
include hc

theorem le_of_pos (h : 0 < cmp a b) : cmp b a ≤ 0 := (hc.swap b a).mpr (Int.le_of_lt h)

theorem pos_of_neg (h : cmp a b < 0) : 0 < cmp b a := by
  have := hc.swap b a
  omega

theorem neg_of_pos (h : 0 < cmp a b) : cmp b a < 0 := by
  have := hc.swap a b
  have := hc.swap b a
  omega

theorem symm_zero (h : cmp a b = 0) : cmp b a = 0 := by
  have := hc.swap a b
  have := hc.swap b a
  omega

theorem refl (a : α) : cmp a a = 0 := by
  have := hc.swap a a
  omega

theorem lt_of_lt_of_le (h₁ : cmp a b < 0) (h₂ : cmp b c ≤ 0) : cmp a c < 0 := by
  by_contra h
  have hca : cmp c a ≤ 0 := (hc.swap c a).mpr (by omega)
  have hba := hc.trans b c a h₂ hca
  have := hc.pos_of_neg h₁
  omega

theorem lt_of_le_of_lt (h₁ : cmp a b ≤ 0) (h₂ : cmp b c < 0) : cmp a c < 0 := by
  by_contra h
  have hca : cmp c a ≤ 0 := (hc.swap c a).mpr (by omega)
  have hcb := hc.trans c a b hca h₁
  have := hc.pos_of_neg h₂
  omega

end IsComparison

/-! ## Stable insertion -/

/-- The items up to the last one that is not greater than `x`. -/
def front (cmp : α → α → Int) (x : α) (l : List α) : List α := l.rdropWhile (0 < cmp · x)

/-- The items behind it. -/
def back (cmp : α → α → Int) (x : α) (l : List α) : List α := l.rtakeWhile (0 < cmp · x)

/-- `x` behind the last item that is not greater. -/
def insertBack (cmp : α → α → Int) (l : List α) (x : α) : List α :=
  front cmp x l ++ x :: back cmp x l

/-- Insertion sort from the front to the back. -/
def sortBack (cmp : α → α → Int) (l : List α) : List α := l.foldl (insertBack cmp) []

section Cut

variable {l : List α} {x y : α}

theorem front_append_back (cmp : α → α → Int) (x : α) (l : List α) :
    front cmp x l ++ back cmp x l = l :=
  List.rdropWhile_append_rtakeWhile

theorem front_concat_of_pos (h : 0 < cmp y x) : front cmp x (l ++ [y]) = front cmp x l := by
  simp [front, h]

theorem back_concat_of_pos (h : 0 < cmp y x) : back cmp x (l ++ [y]) = back cmp x l ++ [y] := by
  simp [back, h]

theorem front_concat_of_le (h : ¬ 0 < cmp y x) : front cmp x (l ++ [y]) = l ++ [y] := by
  simp [front, h]

theorem back_concat_of_le (h : ¬ 0 < cmp y x) : back cmp x (l ++ [y]) = [] := by
  simp [back, h]

theorem insertBack_of_le (h : ¬ 0 < cmp y x) : insertBack cmp (l ++ [y]) x = l ++ [y] ++ [x] := by
  rw [insertBack, front_concat_of_le h, back_concat_of_le h]

theorem pos_of_mem_back (h : y ∈ back cmp x l) : 0 < cmp y x := by
  simpa using List.mem_rtakeWhile_imp h

theorem getLast_front_le (h : front cmp x l ≠ []) : cmp ((front cmp x l).getLast h) x ≤ 0 := by
  have hnot := List.rdropWhile_last_not (0 < cmp · x) l h
  rw [decide_eq_true_eq, Int.not_lt] at hnot
  exact hnot

end Cut

theorem perm_insertBack (l : List α) (x : α) : (insertBack cmp l x).Perm (l ++ [x]) := by
  refine List.perm_middle.trans ?_
  rw [front_append_back]
  exact (List.perm_append_singleton x l).symm

theorem perm_foldl_insertBack (l acc : List α) :
    (l.foldl (insertBack cmp) acc).Perm (acc ++ l) := by
  induction l generalizing acc with
  | nil => simp
  | cons x l ih =>
    refine (ih (insertBack cmp acc x)).trans ?_
    refine ((perm_insertBack acc x).append_right l).trans ?_
    rw [List.append_assoc, List.singleton_append]

section Ordered

variable (hc : IsComparison cmp)
include hc

theorem pairwise_insertBack {l : List α} (x : α) (hl : l.Pairwise (cmp · · ≤ 0)) :
    (insertBack cmp l x).Pairwise (cmp · · ≤ 0) := by
  rw [← front_append_back cmp x l, List.pairwise_append] at hl
  obtain ⟨hfront, hback, hcross⟩ := hl
  -- the items that stay in front are not greater than `x`: the last one is not, the others are
  -- before it
  have hle : ∀ a ∈ front cmp x l, cmp a x ≤ 0 := by
    intro a ha
    have hne : front cmp x l ≠ [] := List.ne_nil_of_mem ha
    have hlast := getLast_front_le hne
    rw [← List.dropLast_append_getLast hne] at ha hfront
    rw [List.pairwise_append] at hfront
    rcases List.mem_append.mp ha with ha | ha
    · exact hc.trans _ _ _ (hfront.2.2 a ha _ (by simp)) hlast
    · rw [List.mem_singleton.mp ha]
      exact hlast
  have hgt : ∀ b ∈ back cmp x l, cmp x b ≤ 0 := fun b hb => hc.le_of_pos (pos_of_mem_back hb)
  unfold insertBack
  rw [List.pairwise_append, List.pairwise_cons]
  refine ⟨hfront, ⟨hgt, hback⟩, fun a ha b hb => ?_⟩
  rcases List.mem_cons.mp hb with rfl | hb
  · exact hle a ha
  · exact hcross a ha b hb

/-- Items that compare equal keep their order. -/
theorem filter_insertBack (l : List α) (x y : α) :
    (insertBack cmp l x).filter (cmp · y = 0) = (l ++ [x]).filter (cmp · y = 0) := by
  unfold insertBack
  conv_rhs => rw [← front_append_back cmp x l]
  rw [List.filter_append, List.filter_append, List.filter_append, List.append_assoc,
    List.filter_cons]
  congr 1
  by_cases hx : cmp x y = 0
  · -- what is moved behind `x` is greater than `x`, and so not equal to `y`
    have hnil : (back cmp x l).filter (cmp · y = 0) = [] := by
      rw [List.filter_eq_nil_iff]
      intro b hb hby
      have hb' := pos_of_mem_back hb
      have hby' : cmp b y = 0 := by simpa using hby
      have := hc.trans b y x (by omega) (by have := hc.symm_zero hx; omega)
      omega
    rw [hnil]
    simp [hx]
  · simp [hx]

/-- **Insertion sort is a stable sort.** -/
theorem sortBack_stable (l : List α) :
    (sortBack cmp l).Perm l ∧ (sortBack cmp l).Pairwise (cmp · · ≤ 0) ∧
      ∀ y, (sortBack cmp l).filter (cmp · y = 0) = l.filter (cmp · y = 0) := by
  refine ⟨perm_foldl_insertBack l [], ?_, fun y => ?_⟩
  · have h : ∀ acc : List α, acc.Pairwise (cmp · · ≤ 0) → (l.foldl (insertBack cmp) acc).Pairwise
        (cmp · · ≤ 0) := by
      induction l with
      | nil => exact fun acc hacc => hacc
      | cons x l ih => exact fun acc hacc => ih _ (pairwise_insertBack hc x hacc)
    exact h [] .nil
  · have h : ∀ acc : List α, (l.foldl (insertBack cmp) acc).filter (cmp · y = 0) =
        (acc ++ l).filter (cmp · y = 0) := by
      induction l with
      | nil => simp
      | cons x l ih =>
        intro acc
        rw [List.foldl_cons, ih, List.filter_append, filter_insertBack hc, ← List.filter_append,
          List.append_assoc, List.singleton_append]
    exact h []

end Ordered

/-! ## Lists without equal items -/

/-- Strictly increasing. -/
def Strict (cmp : α → α → Int) (l : List α) : Prop := l.Pairwise (cmp · · < 0)

def below (cmp : α → α → Int) (x : α) (l : List α) : List α := l.filter (cmp · x < 0)

def above (cmp : α → α → Int) (x : α) (l : List α) : List α := l.filter (0 < cmp · x)

/-- The list with `x` in it, in the place of an item that compares equal if there is one. -/
def put (cmp : α → α → Int) (l : List α) (x : α) : List α := below cmp x l ++ x :: above cmp x l

/-- The list without an item that compares equal to `x`. -/
def remove (cmp : α → α → Int) (l : List α) (x : α) : List α := below cmp x l ++ above cmp x l

/-- The item that compares equal to `y`. -/
def lookup (cmp : α → α → Int) (l : List α) (y : α) : Option α := l.find? (cmp · y = 0)

section Sides

variable {A C l : List α} {x y : α}

theorem mem_below : y ∈ below cmp x l ↔ y ∈ l ∧ cmp y x < 0 := by simp [below]

theorem mem_above : y ∈ above cmp x l ↔ y ∈ l ∧ 0 < cmp y x := by simp [above]

theorem below_append (hA : ∀ a ∈ A, cmp a x < 0) (hC : ∀ a ∈ C, 0 ≤ cmp a x) :
    below cmp x (A ++ C) = A := by
  unfold below
  rw [List.filter_append, List.filter_eq_self.mpr (by simpa using hA), List.filter_eq_nil_iff.mpr
    (by simpa using hC), List.append_nil]

theorem above_append (hA : ∀ a ∈ A, cmp a x ≤ 0) (hC : ∀ a ∈ C, 0 < cmp a x) :
    above cmp x (A ++ C) = C := by
  unfold above
  rw [List.filter_append, List.filter_eq_nil_iff.mpr (by simpa using hA),
    List.filter_eq_self.mpr (by simpa using hC), List.nil_append]

/-- Nothing in the list compares equal. -/
theorem put_append (hA : ∀ a ∈ A, cmp a x < 0) (hC : ∀ a ∈ C, 0 < cmp a x) :
    put cmp (A ++ C) x = A ++ x :: C := by
  unfold put
  rw [below_append hA fun a ha => Int.le_of_lt (hC a ha),
    above_append (fun a ha => Int.le_of_lt (hA a ha)) hC]

/-- One item compares equal. -/
theorem sides_of_mem (hA : ∀ a ∈ A, cmp a x < 0) (hy : cmp y x = 0) (hC : ∀ a ∈ C, 0 < cmp a x) :
    below cmp x (A ++ y :: C) = A ∧ above cmp x (A ++ y :: C) = C := by
  refine ⟨below_append hA ?_, ?_⟩
  · intro a ha
    rcases List.mem_cons.mp ha with rfl | ha
    · omega
    · exact Int.le_of_lt (hC a ha)
  · have hsplit : A ++ y :: C = (A ++ [y]) ++ C := by simp
    rw [hsplit]
    refine above_append ?_ hC
    intro a ha
    rcases List.mem_append.mp ha with ha | ha
    · exact Int.le_of_lt (hA a ha)
    · rw [List.mem_singleton.mp ha]
      omega

theorem mem_put (l : List α) (x z : α) : z ∈ put cmp l x ↔ z = x ∨ (z ∈ l ∧ cmp z x ≠ 0) := by
  unfold put
  rw [List.mem_append, List.mem_cons, mem_below, mem_above]
  constructor
  · rintro (⟨hz, hneg⟩ | rfl | ⟨hz, hpos⟩)
    · exact Or.inr ⟨hz, by omega⟩
    · exact Or.inl rfl
    · exact Or.inr ⟨hz, by omega⟩
  · rintro (rfl | ⟨hz, hne⟩)
    · exact Or.inr (Or.inl rfl)
    · rcases Int.lt_or_gt_of_ne hne with hlt | hgt
      · exact Or.inl ⟨hz, hlt⟩
      · exact Or.inr (Or.inr ⟨hz, hgt⟩)

theorem length_put_le (l : List α) (x : α) : (put cmp l x).length ≤ l.length + 1 := by
  have hsub : (above cmp x l).length ≤ (l.filter fun y => !decide (cmp y x < 0)).length := by
    refine (List.monotone_filter_right l fun y hy => ?_).length_le
    simp only [decide_eq_true_eq, Bool.not_eq_true', decide_eq_false_iff_not] at hy ⊢
    omega
  have hsum := List.length_eq_length_filter_add (l := l) fun y => decide (cmp y x < 0)
  have hput : (put cmp l x).length = (below cmp x l).length + ((above cmp x l).length + 1) :=
    List.length_append
  unfold below at hput
  omega

/-- The items around one of a strictly increasing list. -/
theorem strict_around (hl : Strict cmp l) {k : Nat} {y : α} (hk : l[k]? = some y) :
    l = l.take k ++ y :: l.drop (k + 1) ∧ (∀ a ∈ l.take k, cmp a y < 0) ∧ ∀ b ∈ l.drop (k + 1),
    cmp y b < 0 := by
  obtain ⟨hlt, rfl⟩ := List.getElem?_eq_some_iff.mp hk
  have hsplit : l = l.take k ++ l[k] :: l.drop (k + 1) := by
    rw [← List.drop_eq_getElem_cons hlt, List.take_append_drop]
  have hpairs := hl
  unfold Strict at hpairs
  rw [hsplit, List.pairwise_append, List.pairwise_cons] at hpairs
  exact ⟨hsplit, fun a ha => hpairs.2.2 a ha _ List.mem_cons_self, hpairs.2.1.1⟩

end Sides

section Strict

variable (hc : IsComparison cmp) {l m : List α}
include hc

theorem strict_put (x : α) (hl : Strict cmp l) : Strict cmp (put cmp l x) := by
  unfold put Strict
  rw [List.pairwise_append, List.pairwise_cons]
  refine ⟨hl.filter _, ⟨fun b hb => hc.neg_of_pos (mem_above.mp hb).2, hl.filter _⟩,
    fun a ha b hb => ?_⟩
  have hax := (mem_below.mp ha).2
  rcases List.mem_cons.mp hb with rfl | hb
  · exact hax
  · have hxb := hc.neg_of_pos (mem_above.mp hb).2
    exact hc.lt_of_lt_of_le hax (by omega)

theorem strict_foldl_put (m : List α) (hl : Strict cmp l) : Strict cmp (m.foldl (put cmp) l) := by
  induction m generalizing l with
  | nil => exact hl
  | cons x m ih => exact ih (strict_put hc x hl)

theorem strict_remove (x : α) (hl : Strict cmp l) : Strict cmp (remove cmp l x) := by
  unfold remove Strict
  rw [List.pairwise_append]
  refine ⟨hl.filter _, hl.filter _, fun a ha b hb => ?_⟩
  have hax := (mem_below.mp ha).2
  have hxb := hc.neg_of_pos (mem_above.mp hb).2
  exact hc.lt_of_lt_of_le hax (by omega)

/-- Items that fit in between are put there one after the other. -/
theorem foldl_put_between (A m C : List α) (h : Strict cmp (A ++ m ++ C)) :
    m.foldl (put cmp) (A ++ C) = A ++ m ++ C := by
  induction m generalizing A with
  | nil => simp
  | cons x m ih =>
    have hsplit : A ++ x :: m ++ C = A ++ [x] ++ m ++ C := by simp
    rw [hsplit] at h ⊢
    have hpairs := h
    unfold Strict at hpairs
    simp only [List.pairwise_append, List.mem_append, List.mem_singleton] at hpairs
    have hA : ∀ a ∈ A, cmp a x < 0 := fun a ha => hpairs.1.1.2.2 a ha x rfl
    have hC : ∀ b ∈ C, 0 < cmp b x :=
      fun b hb => hc.pos_of_neg (hpairs.2.2 x (Or.inl (Or.inr rfl)) b hb)
    have hput : put cmp (A ++ C) x = A ++ [x] ++ C := by
      rw [put_append hA hC]
      simp
    rw [List.foldl_cons, hput]
    exact ih (A ++ [x]) h

theorem Strict.le_getLast (hl : Strict cmp l) {a x : α} (ha : l.getLast? = some a)
    (hx : x ∈ l) : cmp x a ≤ 0 := by
  obtain ⟨l, rfl⟩ := List.getLast?_eq_some_iff.mp ha
  rcases List.mem_append.mp hx with hx | hx
  · exact Int.le_of_lt ((List.pairwise_append.mp hl).2.2 x hx a (by simp))
  · rw [List.mem_singleton.mp hx]
    exact Int.le_of_eq (hc.refl a)

theorem Strict.head_le (hl : Strict cmp l) {b y : α} (hb : l.head? = some b)
    (hy : y ∈ l) : cmp b y ≤ 0 := by
  obtain ⟨l, rfl⟩ := List.head?_eq_some_iff.mp hb
  rcases List.mem_cons.mp hy with rfl | hy
  · exact Int.le_of_eq (hc.refl y)
  · exact Int.le_of_lt ((List.pairwise_cons.mp hl).1 y hy)

/-- One list behind the other: the ends that meet decide. -/
theorem strict_append_iff (hm : Strict cmp m) (hl : Strict cmp l) {a b : α}
    (ha : m.getLast? = some a) (hb : l.head? = some b) : Strict cmp (m ++ l) ↔ cmp a b < 0 := by
  constructor
  · intro h
    exact (List.pairwise_append.mp h).2.2 a (List.mem_of_getLast? ha) b (List.mem_of_head? hb)
  · intro hab
    refine List.pairwise_append.mpr ⟨hm, hl, fun x hx y hy => ?_⟩
    exact hc.lt_of_le_of_lt (hm.le_getLast hc ha hx) (hc.lt_of_lt_of_le hab (hl.head_le hc hb hy))

/-- In a strictly increasing list an item is known by how it compares. -/
theorem Strict.eq_of_zero (hl : Strict cmp l) {a b : α} (ha : a ∈ l) (hb : b ∈ l)
    (h : cmp a b = 0) : a = b := by
  have hsymm : Std.Symm fun a b => cmp a b ≠ 0 := ⟨fun a b hab hba => hab (hc.symm_zero hba)⟩
  have hne : l.Pairwise fun a b => cmp a b ≠ 0 := hl.imp fun h => by omega
  by_contra hab
  exact hne.forall ha hb hab h

theorem lookup_eq_some_iff (hl : Strict cmp l) {y z : α} :
    lookup cmp l y = some z ↔ z ∈ l ∧ cmp z y = 0 := by
  unfold lookup
  constructor
  · intro h
    exact ⟨List.mem_of_find?_eq_some h, by simpa using List.find?_some h⟩
  · rintro ⟨hz, hzy⟩
    have hsome : (l.find? (cmp · y = 0)).isSome := List.find?_isSome.mpr ⟨z, hz, by simpa using hzy⟩
    obtain ⟨w, hw⟩ := Option.isSome_iff_exists.mp hsome
    have hwy : cmp w y = 0 := by simpa using List.find?_some hw
    have hwz : cmp w z = 0 := by
      have h1 := hc.trans w y z (by omega) (by have := hc.symm_zero hzy; omega)
      have h2 := hc.trans z y w (by omega) (by have := hc.symm_zero hwy; omega)
      have := hc.swap z w
      omega
    rw [hw, hl.eq_of_zero hc (List.mem_of_find?_eq_some hw) hz hwz]

/-- Looking up after `put`. -/
theorem lookup_put (hl : Strict cmp l) (x y : α) :
    lookup cmp (put cmp l x) y = if cmp x y = 0 then some x else lookup cmp l y := by
  have hput := strict_put hc x hl
  split
  · rename_i hxy
    exact (lookup_eq_some_iff hc hput).mpr ⟨(mem_put l x x).mpr (Or.inl rfl), hxy⟩
  · rename_i hxy
    refine Option.ext fun z => ?_
    rw [lookup_eq_some_iff hc hput, lookup_eq_some_iff hc hl, mem_put]
    constructor
    · rintro ⟨rfl | ⟨hz, -⟩, hzy⟩
      · exact absurd hzy hxy
      · exact ⟨hz, hzy⟩
    · rintro ⟨hz, hzy⟩
      refine ⟨Or.inr ⟨hz, fun hzx => hxy ?_⟩, hzy⟩
      have h1 := hc.trans x z y (by have := hc.symm_zero hzx; omega) (by omega)
      have h2 := hc.trans y z x (by have := hc.symm_zero hzy; omega) (by omega)
      have := hc.swap y x
      omega

/-- Looking up after all of `m` was put: the last one of `m` that compares equal, else what was
there. -/
theorem lookup_foldl_put (m : List α) (hl : Strict cmp l) (y : α) :
    lookup cmp (m.foldl (put cmp) l) y = (m.reverse.find? (cmp · y = 0)).or (lookup cmp l y) := by
  induction m using List.reverseRecOn with
  | nil => simp
  | append_singleton m x ih =>
    rw [List.foldl_concat, lookup_put hc (strict_foldl_put hc m hl), ih, List.reverse_concat,
      List.find?_cons]
    by_cases hxy : cmp x y = 0
    · simp [hxy]
    · simp [hxy]

end Strict

end Omap4.Comparison
