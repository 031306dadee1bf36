import Omap4.Libmotou.Sort
import Omap4.Machine
import Mathlib.Algebra.BigOperators.Fin
import Mathlib.Algebra.Order.BigOperators.Group.Finset

/-!
# Omap4.Libmotou.CopyOnWrite — vectors that share buffers behave as lists of their own

A program with `n` vectors: it copies, assigns, changes and finishes them in any order, and any
request for memory may fail.  `World.Sound` is what holds throughout: the references of a buffer are
counted right, so that none is freed while a vector reads it and none is left when the last vector
is gone.  `Op.effect` says what an operation does to lists that share nothing; every run of the
vectors is a run of such lists, in which an operation fails only if its request was refused
(`Op.Refused`).  `Op.Dies` is when it ends the process.
-/

namespace Omap4.Libmotou

open Slots

variable {α : Type} {n : Nat}

structure World (E : Env α) (n : Nat) where
  heap : E.buffers.Heap
  vecs : Fin n → VectorImpl
  /-- What the calls have returned. -/
  log : List Ret

inductive Op (α : Type) (n : Nat)
  | copy (i j : Fin n)
  | assign (i j : Fin n)
  | finish (i : Fin n)
  | insertArrayAt (i : Fin n) (array : List α) (index : Nat)
  | insertVectorAt (i j : Fin n) (index : Nat)
  | appendVector (i j : Fin n)
  | insertAt (i : Fin n) (item : Option α) (index numItems : Nat)
  | push (i : Fin n) (item : Option α)
  | replaceAt (i : Fin n) (item : Option α) (index : Nat)
  | removeItemsAt (i : Fin n) (index count : Nat)
  | pop (i : Fin n)
  | clear (i : Fin n)
  | setCapacity (i : Fin n) (capacity : Nat)
  | resize (i : Fin n) (size : Nat)
  | sort (i : Fin n) (cmp : α → α → Int) (mallocOk : Bool)

/-- The vector that the operation is called on. -/
def Op.target : Op α n → Fin n
  | .copy i _ | .assign i _ | .finish i | .insertArrayAt i _ _ | .insertVectorAt i _ _ => i
  | .appendVector i _ | .insertAt i _ _ _ | .push i _ | .replaceAt i _ _ | .removeItemsAt i _ _ => i
  | .pop i | .clear i | .setCapacity i _ | .resize i _ | .sort i _ _ => i

variable (E : Env α)

/-- A function that returns nothing. -/
def noValue {H : Type} (f : Except Fault (H × VectorImpl)) :
    Except Fault (Ret × H × VectorImpl) := do
  let r ← f
  .ok (.value 0, r)

/-- The call; a copy is constructed where the object that was there has been finished. -/
def Op.call (vecs : Fin n → VectorImpl) (h : E.buffers.Heap) (v : VectorImpl) :
    Op α n → Except Fault (Ret × E.buffers.Heap × VectorImpl)
  | .copy _ j => noValue do
    let h ← releaseStorage E h v
    .ok (copyOf E h (vecs j))
  | .assign i j => if i = j then .ok (.value 0, h, v) else noValue (Libmotou.assign E h v (vecs j))
  | .finish _ => noValue (finishVector E h v)
  | .insertArrayAt _ array index =>
    Libmotou.insertArrayAt E h v (fun _ => array.map some) index array.length
  | .insertVectorAt _ j index => Libmotou.insertVectorAt E h v (vecs j) index
  | .appendVector _ j => Libmotou.appendVector E h v (vecs j)
  | .insertAt _ item index numItems => Libmotou.insertAt E h v item index numItems
  | .push _ item => Libmotou.push E h v item
  | .replaceAt _ item index => Libmotou.replaceAt E h v item index
  | .removeItemsAt _ index count => Libmotou.removeItemsAt E h v index count
  | .pop _ => noValue (Libmotou.pop E h v)
  | .clear _ => noValue (Libmotou.clear E h v)
  | .setCapacity _ capacity => Libmotou.setCapacity E h v capacity
  | .resize _ size => Libmotou.resize E h v size
  | .sort _ cmp mallocOk => Libmotou.sort E cmp mallocOk h v

variable {E}

def World.step (w : World E n) (op : Op α n) : Except Fault (World E n) := do
  let r ← op.call E w.vecs w.heap (w.vecs op.target)
  .ok ⟨r.2.1, Function.update w.vecs op.target r.2.2, w.log ++ [r.1]⟩

/-- The state after a call that returns. -/
def World.next (w : World E n) (op : Op α n) : Option (World E n) := (w.step op).toOption

/-- All vectors constructed, and empty. -/
def World.start (h : E.buffers.Heap) : World E n := ⟨h, fun _ => ⟨none, 0⟩, []⟩

/-- The items of each vector. -/
def World.items (w : World E n) (i : Fin n) : List (Option α) :=
  (cellsOf E w.heap (w.vecs i)).take (w.vecs i).mCount

/-- What the caller must see to: no vector is copied from or inserted into itself, the end of a
range to remove is a `size_t`, and what is sorted has values. -/
def Op.Allowed (L : Fin n → List (Option α)) : Op α n → Prop
  | .copy i j => i ≠ j
  | .insertVectorAt i j _ => i ≠ j
  | .appendVector i j => i ≠ j
  | .removeItemsAt _ index count => index + count < 2 ^ 32
  | .sort i _ _ => ∃ l : List α, L i = l.map some
  | _ => True

/-! ## Lists that share nothing -/

variable (E)

/-- What an operation returns and makes of the list it is called on; `R` says that its request was
refused. -/
def Op.effect (R : Prop) (L : Fin n → List (Option α)) (ret : Ret) (l' : List (Option α)) :
    Op α n → Prop
  | .copy _ j => l' = L j
  | .assign _ j => l' = L j
  | .finish _ => l' = []
  | .insertArrayAt i array index => Inserted R (L i) index array.length (· = array.map some) ret l'
  | .insertVectorAt i j index => Inserted R (L i) index (L j).length (· = L j) ret l'
  | .appendVector i j => Inserted R (L i) (L i).length (L j).length (· = L j) ret l'
  | .insertAt i item index numItems =>
    Inserted R (L i) index numItems (NewItems E item numItems) ret l'
  | .push i item => Inserted R (L i) (L i).length 1 (NewItems E item 1) ret l'
  | .replaceAt i item index => Replaced E (L i) item index ret l'
  | .removeItemsAt i index count => RemovedAt R (L i) index count ret l'
  | .pop i => l' = (L i).dropLast ∨ (R ∧ l' = L i)
  | .clear i => l' = [] ∨ (R ∧ l' = L i)
  | .setCapacity i capacity =>
    l' = L i ∧ ((capacity ≤ (L i).length ∧ ∃ k, ret = .value k ∧ (L i).length ≤ k) ∨
      ((L i).length < capacity ∧ (ret = .value capacity ∨ ret = .noMemory ∧ R)))
  | .resize i size => Resized E R (L i) size ret l'
  | .sort i cmp mallocOk => ∃ l : List α, L i = l.map some ∧ SortedTo cmp mallocOk l ret l'

variable {E}

/-- The buffer that the operation asks for is refused. -/
def Op.Refused (w : World E n) : Op α n → Prop
  | .insertArrayAt i array index => NoRoom E w.heap (w.vecs i) index array.length
  | .insertVectorAt i j index => NoRoom E w.heap (w.vecs i) index (w.vecs j).mCount
  | .appendVector i j => NoRoom E w.heap (w.vecs i) (w.vecs i).mCount (w.vecs j).mCount
  | .insertAt i _ index numItems => NoRoom E w.heap (w.vecs i) index numItems
  | .push i _ => NoRoom E w.heap (w.vecs i) (w.vecs i).mCount 1
  | .removeItemsAt i index count => NoSmaller E w.heap (w.vecs i) index count
  | .pop i => NoSmaller E w.heap (w.vecs i) ((w.vecs i).mCount - 1) 1
  | .clear i => NoSmaller E w.heap (w.vecs i) 0 (w.vecs i).mCount
  | .setCapacity _ capacity => E.buffers.alloc w.heap (capacity * E.itemSize) = none
  | .resize i size => NoResize E w.heap (w.vecs i) size
  | .copy _ _ | .assign _ _ | .finish _ | .replaceAt _ _ _ | .sort _ _ _ => False

/-- The operation ends the process: a size overflows, or a shared buffer has to be copied and cannot
be. -/
def Op.Dies (w : World E n) : Op α n → Prop
  | .insertArrayAt i array index =>
    index ≤ (w.vecs i).mCount ∧ GrowDies E w.heap (w.vecs i) array.length
  | .insertVectorAt i j index =>
    index ≤ (w.vecs i).mCount ∧ GrowDies E w.heap (w.vecs i) (w.vecs j).mCount
  | .appendVector i j => GrowDies E w.heap (w.vecs i) (w.vecs j).mCount
  | .insertAt i _ index numItems =>
    index ≤ (w.vecs i).mCount ∧ GrowDies E w.heap (w.vecs i) numItems
  | .push i _ => GrowDies E w.heap (w.vecs i) 1
  | .replaceAt i _ index => index < (w.vecs i).mCount ∧ EditDenied E w.heap (w.vecs i)
  | .removeItemsAt i index count =>
    index + count ≤ (w.vecs i).mCount ∧ ShrinkDies E w.heap (w.vecs i) count
  | .pop i => 0 < (w.vecs i).mCount ∧ ShrinkDies E w.heap (w.vecs i) 1
  | .clear i => ShrinkDies E w.heap (w.vecs i) (w.vecs i).mCount
  | .setCapacity i capacity => (w.vecs i).mCount < capacity ∧ 2 ^ 32 ≤ capacity * E.itemSize
  | .resize i size => ResizeDies E w.heap (w.vecs i) size
  | .sort i _ _ => EditDenied E w.heap (w.vecs i)
  | .copy _ _ | .assign _ _ | .finish _ => False

/-- One operation changes one list. -/
def ListStep (w : World E n) (op : Op α n) (A A' : (Fin n → List (Option α)) × List Ret) : Prop :=
  ∃ ret l', op.effect E (op.Refused w) A.1 ret l' ∧
    A' = (Function.update A.1 op.target l', A.2 ++ [ret])

/-! ## References -/

/-- Every vector reads as a list, and a buffer has as many references as there are vectors that
point to it. -/
structure World.Sound (w : World E n) : Prop where
  tidy : Tidy E w.heap
  holds : ∀ i, ∃ l, Holds E w.heap (w.vecs i) l
  refs : ∀ c, E.buffers.refs w.heap c = ∑ i, held (w.vecs i) c

namespace World.Sound

variable {w : World E n} (hw : w.Sound)
include hw

theorem holds_items (i : Fin n) : Holds E w.heap (w.vecs i) (w.items i) := by
  obtain ⟨l, hl⟩ := hw.holds i
  have : w.items i = l := hl.eq_take
  rw [this]
  exact hl

/-- Two vectors with the same buffer are two references. -/
theorem shared {i j : Fin n} (hij : i ≠ j) (c : Nat) :
    held (w.vecs j) c + held (w.vecs i) c ≤ E.buffers.refs w.heap c := by
  rw [hw.refs c, ← Finset.add_sum_erase _ _ (Finset.mem_univ i), Nat.add_comm]
  refine Nat.add_le_add_left ?_ _
  exact Finset.single_le_sum (f := fun k => held (w.vecs k) c) (fun _ _ => Nat.zero_le _)
    (Finset.mem_erase.mpr ⟨hij.symm, Finset.mem_univ j⟩)

/-- **Only the vector that an operation is called on changes.** -/
theorem update {i : Fin n} {h' : E.buffers.Heap} {v' : VectorImpl} {l' : List (Option α)}
    (ret : Ret) (hf : Frame E w.heap (w.vecs i) h' v') (hl' : Holds E h' v' l') :
    World.Sound (⟨h', Function.update w.vecs i v', w.log ++ [ret]⟩ : World E n) ∧
      World.items (⟨h', Function.update w.vecs i v', w.log ++ [ret]⟩ : World E n) =
        Function.update w.items i l' := by
  have hholds : ∀ j, Holds E h' (Function.update w.vecs i v' j)
      (Function.update w.items i l' j) := by
    intro j
    by_cases hji : j = i
    · subst hji
      rw [Function.update_self, Function.update_self]
      exact hl'
    · rw [Function.update_of_ne hji, Function.update_of_ne hji]
      exact hf.holds (hw.holds_items j) (hw.shared (Ne.symm hji))
  refine ⟨⟨hf.tidy, fun j => ⟨_, hholds j⟩, fun c => ?_⟩, ?_⟩
  · have hrefs := hf.refs c
    rw [hw.refs c, ← Finset.add_sum_erase _ _ (Finset.mem_univ i)] at hrefs
    rw [← Finset.add_sum_erase _ _ (Finset.mem_univ i)]
    have hrest : ∑ k ∈ Finset.univ.erase i, held (Function.update w.vecs i v' k) c =
        ∑ k ∈ Finset.univ.erase i, held (w.vecs k) c := by
      refine Finset.sum_congr rfl fun k hk => ?_
      rw [Function.update_of_ne (Finset.ne_of_mem_erase hk)]
    show _ = held (Function.update w.vecs i v' i) c + ∑ k ∈ Finset.univ.erase i,
      held (Function.update w.vecs i v' k) c
    rw [Function.update_self, hrest]
    show E.buffers.refs h' c = _
    omega
  · funext j
    exact (hholds j).eq_take

/-! ## Steps and runs -/

/-- A call that frames the other vectors and has the effect on its own list. -/
theorem call_meets (op : Op α n) (hop : op.Allowed w.items) :
    Meets (op.Dies w) (op.call E w.vecs w.heap (w.vecs op.target)) fun r =>
      After E w.heap (w.vecs op.target)
        (fun l' => op.effect E (op.Refused w) w.items r.1 l') r.2 := by
  have hnone : ∀ {D : Prop} {f : Except Fault (E.buffers.Heap × VectorImpl)} {v : VectorImpl}
      {Q : List (Option α) → Prop}, Meets D f (After E w.heap v Q) →
      Meets D (noValue f) fun r => After E w.heap v Q r.2 := fun hf => hf.bind fun _ hr => .ok hr
  have ht := hw.tidy
  have hv := hw.holds_items op.target
  cases op with
  | copy i j =>
    refine hnone ((releaseStorage_frame ht hv).bind fun h₁ hf => ?_)
    obtain ⟨hf', hj⟩ := copyOf_frame hf.tidy (hf.holds (hw.holds_items j) (hw.shared hop))
    exact .ok ⟨hf.trans hf', _, hj, rfl⟩
  | assign i j =>
    by_cases hij : i = j
    · subst hij
      exact .of_eq_ok (if_pos rfl) ⟨.refl ht, _, hv, rfl⟩
    · show Meets _ (if i = j then _ else _) _
      rw [if_neg hij]
      exact hnone (assign_meets ht hv (hw.holds_items j) (hw.shared hij))
  | finish i => exact hnone (finishVector_meets ht hv)
  | insertArrayAt i array index =>
    simp only [Op.call, Op.effect, Op.target, Op.Dies, Op.Refused]
    refine insertArrayAt_meets (X := array.map some) ht hv (all_live_map array) ?_
      fun _ _ _ => ⟨[], ?_⟩
    · rw [List.length_map]
    · rw [List.append_nil]
  | insertVectorAt i j index => exact insertVectorAt_meets ht hv (hw.holds_items j) (hw.shared hop)
  | appendVector i j => exact appendVector_meets ht hv (hw.holds_items j) (hw.shared hop)
  | insertAt i item index numItems => exact insertAt_meets ht hv
  | push i item => exact push_meets ht hv
  | replaceAt i item index => exact replaceAt_meets ht hv
  | removeItemsAt i index count => exact removeItemsAt_meets ht hv hop
  | pop i => exact hnone (pop_meets ht hv)
  | clear i => exact hnone (clear_meets ht hv)
  | setCapacity i capacity => exact setCapacity_meets ht hv
  | resize i size => exact resize_meets ht hv
  | sort i cmp mallocOk =>
    obtain ⟨l, hl⟩ := hop
    have hv' : Holds E w.heap (w.vecs i) (l.map some) := hl ▸ hv
    refine (sort_meets ht hv').mono fun r hr => ?_
    obtain ⟨hf, l', hl', hsorted⟩ := hr
    exact ⟨hf, l', hl', l, hl, hsorted⟩

theorem step_meets (op : Op α n) (hop : op.Allowed w.items) :
    Meets (op.Dies w) (w.step op) fun w' =>
      w'.Sound ∧ ListStep w op (w.items, w.log) (w'.items, w'.log) := by
  refine (hw.call_meets op hop).bind fun r hr => ?_
  obtain ⟨hf, l', hl', heffect⟩ := hr
  obtain ⟨hsound, hitems⟩ := hw.update r.1 hf hl'
  exact .ok ⟨hsound, r.1, l', heffect, by rw [hitems]⟩

end World.Sound

/-- Two vectors: one is filled and copied, and each is changed while they share the buffer. -/
def sharing : List (Op Nat 2) :=
  [.insertArrayAt 0 [5, 6, 7] 0, .copy 1 0, .push 1 (some 8), .assign 0 1, .removeItemsAt 0 0 2,
    .finish 1]

theorem allowed_sharing (E : Env Nat) (w : World E 2) :
    Machine.Along World.next (fun w op => op.Allowed w.items) w sharing := by
  refine Machine.along_of_forall _ _ fun op hop w => ?_
  simp only [sharing, List.mem_cons, List.not_mem_nil, or_false] at hop
  rcases hop with rfl | rfl | rfl | rfl | rfl | rfl <;> simp [Op.Allowed]

end Omap4.Libmotou
