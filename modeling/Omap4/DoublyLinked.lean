import Mathlib.Data.List.Nodup
import Mathlib.Logic.Function.Basic

/-!
# Omap4.DoublyLinked — doubly linked lists in a heap

The heap is as in `Omap4.LinkedList`, with cells that point in both directions.  `Seg h b p l e q`
says that the pointer `p` leads through the cells of `l` to the pointer `q`, that the first of them
points back to `b`, and that `e` is what the cell behind them has to point back to.  A whole list is
`Chain h p l`.

Cells are put in at the front (`chain_pushFront`) and taken out anywhere (`chain_unlink`); a chain
does not see the blocks outside it (`seg_congr`), and its pointers are inverse to each other
(`chain_inverse`).
-/

namespace Omap4.DoublyLinked

structure Cell (α : Type) where
  next : Option ℕ
  prev : Option ℕ
  val : α
  deriving DecidableEq, Repr

abbrev Heap (α : Type) := ℕ → Option (Cell α)

variable {α : Type}

/-- `a->next = n`. -/
def setNext (h : Heap α) (a : ℕ) (n : Option ℕ) : Option (Heap α) :=
  (h a).map fun c => Function.update h a (some { c with next := n })

/-- `a->prev = b`. -/
def setPrev (h : Heap α) (a : ℕ) (b : Option ℕ) : Option (Heap α) :=
  (h a).map fun c => Function.update h a (some { c with prev := b })

/-- `free(a)`. -/
def free (h : Heap α) (a : ℕ) : Option (Heap α) :=
  if (h a).isSome then some (Function.update h a none) else none

/-- The pointer behind the cell at `p`, or the first one of the list, becomes `n`. -/
def relinkNext (h : Heap α) (head p n : Option ℕ) : Option (Heap α × Option ℕ) :=
  match p with
  | none => some (h, n)
  | some a => (setNext h a n).map fun h' => (h', head)

/-- The cell at `n`, if there is one, points back to `b`. -/
def relinkPrev (h : Heap α) (n b : Option ℕ) : Option (Heap α) :=
  match n with
  | none => some h
  | some a => setPrev h a b

/-- Puts a new cell at `a` before the list. -/
def pushFront (h : Heap α) (head : Option ℕ) (a : ℕ) (v : α) : Option (Heap α × Option ℕ) :=
  (relinkPrev (Function.update h a (some ⟨head, none, v⟩)) head (some a)).map fun h' => (h', some a)

/-- Takes the cell at `a` out of the list and frees it. -/
def unlink (h : Heap α) (head : Option ℕ) (a : ℕ) : Option (Heap α × Option ℕ) :=
  (h a).bind fun c => (relinkNext h head c.prev c.next).bind fun r =>
    (relinkPrev r.1 c.next c.prev).bind fun h' => (free h' a).map fun h'' => (h'', r.2)

/-! ## Segments -/

def Seg (h : Heap α) : Option ℕ → Option ℕ → List (ℕ × α) → Option ℕ → Option ℕ → Prop
  | b, p, [], e, q => p = q ∧ b = e
  | b, p, x :: l, e, q => p = some x.1 ∧ ∃ n, h x.1 = some ⟨n, b, x.2⟩ ∧ Seg h (some x.1) n l e q

/-- The cells of a whole list that begins at `p`. -/
def Chain (h : Heap α) (p : Option ℕ) (l : List (ℕ × α)) : Prop := ∃ e, Seg h none p l e none

variable {h h' : Heap α} {b p e q : Option ℕ} {l l₁ l₂ : List (ℕ × α)}

theorem seg_append :
    Seg h b p (l₁ ++ l₂) e q ↔ ∃ b' p', Seg h b p l₁ b' p' ∧ Seg h b' p' l₂ e q := by
  induction l₁ generalizing b p with
  | nil =>
    constructor
    · exact fun hs => ⟨b, p, ⟨rfl, rfl⟩, hs⟩
    · rintro ⟨b', p', ⟨rfl, rfl⟩, hs⟩
      exact hs
  | cons x l₁ ih =>
    simp only [List.cons_append, Seg, ih]
    constructor
    · rintro ⟨rfl, n, hx, b', p', h₁, h₂⟩
      exact ⟨b', p', ⟨rfl, n, hx, h₁⟩, h₂⟩
    · rintro ⟨b', p', ⟨rfl, n, hx, h₁⟩, h₂⟩
      exact ⟨rfl, n, hx, b', p', h₁, h₂⟩

/-- **Frame rule**: a segment is a fact about its own cells. -/
theorem seg_congr (heq : ∀ a ∈ l.map Prod.fst, h' a = h a) (hs : Seg h b p l e q) :
    Seg h' b p l e q := by
  induction l generalizing b p with
  | nil => exact hs
  | cons x l ih =>
    obtain ⟨rfl, n, hx, hrest⟩ := hs
    refine ⟨rfl, n, (heq x.1 (by simp)).trans hx, ih (fun a ha => heq a ?_) hrest⟩
    exact List.mem_cons_of_mem _ ha

theorem seg_mem (hs : Seg h b p l e q) : ∀ a ∈ l.map Prod.fst, (h a).isSome = true := by
  induction l generalizing b p with
  | nil => simp
  | cons x l ih =>
    obtain ⟨rfl, n, hx, hrest⟩ := hs
    intro a ha
    obtain rfl | ha := List.mem_cons.mp ha
    · simp [hx]
    · exact ih hrest a ha

theorem setNext_eq {a : ℕ} {c : Cell α} (ha : h a = some c) (n : Option ℕ) :
    setNext h a n = some (Function.update h a (some { c with next := n })) := by
  rw [setNext, ha]
  rfl

theorem setPrev_eq {a : ℕ} {c : Cell α} (ha : h a = some c) (n : Option ℕ) :
    setPrev h a n = some (Function.update h a (some { c with prev := n })) := by
  rw [setPrev, ha]
  rfl

theorem free_eq {a : ℕ} (ha : (h a).isSome = true) : free h a = some (Function.update h a none) :=
  if_pos ha

/-- Only the cell at `a` has changed, and it is still allocated. -/
theorem isSome_update {a c : ℕ} {x y : Cell α} (ha : h a = some x) :
    (Function.update h a (some y) c).isSome = (h c).isSome := by
  by_cases hc : c = a
  · subst hc
    simp [ha]
  · rw [Function.update_of_ne hc]

/-- Behind the last cell of a segment, the list goes on where it is told to. -/
theorem seg_relinkNext (hs : Seg h none p l e q) (hnd : (l.map Prod.fst).Nodup) (n : Option ℕ) :
    ∃ h' p', relinkNext h p e n = some (h', p') ∧ Seg h' none p' l e n ∧
      (∀ a, a ∉ l.map Prod.fst → h' a = h a) ∧ ∀ a, (h' a).isSome = (h a).isSome := by
  obtain rfl | ⟨l, x, rfl⟩ := List.eq_nil_or_concat' l
  · obtain ⟨rfl, rfl⟩ := hs
    exact ⟨h, n, rfl, ⟨rfl, rfl⟩, fun _ _ => rfl, fun _ => rfl⟩
  · obtain ⟨b', m, hl, rfl, k, hx, rfl, rfl⟩ := seg_append.mp hs
    have hxl : x.1 ∉ l.map Prod.fst := by
      rw [List.map_append, List.nodup_append] at hnd
      exact fun hmem => hnd.2.2 x.1 hmem x.1 (by simp) rfl
    refine ⟨Function.update h x.1 (some ⟨n, b', x.2⟩), p, ?_, ?_, ?_, fun a => isSome_update hx⟩
    · rw [relinkNext, setNext_eq hx]
      rfl
    · refine seg_append.mpr ⟨b', some x.1, seg_congr (fun a ha => ?_) hl, rfl, n, ?_, rfl, rfl⟩
      · exact Function.update_of_ne (ne_of_mem_of_not_mem ha hxl) _ _
      · exact Function.update_self _ _ _
    · intro a ha
      refine Function.update_of_ne (fun heq => ha ?_) _ _
      simp [heq]

/-- The first cell of a segment points back where it is told to. -/
theorem seg_relinkPrev (hs : Seg h b p l e none) (hnd : (l.map Prod.fst).Nodup) (b' : Option ℕ) :
    ∃ h' e', relinkPrev h p b' = some h' ∧ Seg h' b' p l e' none ∧
      (∀ a, a ∉ l.map Prod.fst → h' a = h a) ∧ ∀ a, (h' a).isSome = (h a).isSome := by
  cases l with
  | nil =>
    obtain ⟨rfl, -⟩ := hs
    exact ⟨h, b', rfl, ⟨rfl, rfl⟩, fun _ _ => rfl, fun _ => rfl⟩
  | cons x l =>
    obtain ⟨rfl, n, hx, hrest⟩ := hs
    have hxl : x.1 ∉ l.map Prod.fst := (List.nodup_cons.mp hnd).1
    refine ⟨Function.update h x.1 (some ⟨n, b', x.2⟩), e, setPrev_eq hx b', ?_, ?_,
      fun a => isSome_update hx⟩
    · refine ⟨rfl, n, Function.update_self _ _ _, seg_congr (fun a ha => ?_) hrest⟩
      exact Function.update_of_ne (ne_of_mem_of_not_mem ha hxl) _ _
    · intro a ha
      refine Function.update_of_ne (fun heq => ha ?_) _ _
      simp [heq]

/-! ## Lists -/

theorem chain_mem (hs : Chain h p l) : ∀ a ∈ l.map Prod.fst, (h a).isSome = true := by
  obtain ⟨e, hs⟩ := hs
  exact seg_mem hs

/-- **Pushing**: a block that is not in use becomes the first cell. -/
theorem chain_pushFront (hs : Chain h p l) (hnd : (l.map Prod.fst).Nodup) {a : ℕ}
    (ha : h a = none) (v : α) :
    ∃ h', pushFront h p a v = some (h', some a) ∧ Chain h' (some a) ((a, v) :: l) ∧
      ∀ c, (h' c).isSome = true ↔ (h c).isSome = true ∨ c = a := by
  have hal : a ∉ l.map Prod.fst := by
    intro hmem
    have hsome := chain_mem hs a hmem
    rw [ha] at hsome
    cases hsome
  obtain ⟨e, hs⟩ := hs
  have hs₁ : Seg (Function.update h a (some ⟨p, none, v⟩)) none p l e none :=
    seg_congr (fun c hc => Function.update_of_ne (ne_of_mem_of_not_mem hc hal) _ _) hs
  obtain ⟨h', e', hrelink, hseg, hkeep, hsome⟩ := seg_relinkPrev hs₁ hnd (some a)
  refine ⟨h', ?_, ⟨e', rfl, p, ?_, hseg⟩, fun c => ?_⟩
  · rw [pushFront, hrelink]
    rfl
  · rw [hkeep a hal]
    exact Function.update_self _ _ _
  · rw [hsome]
    by_cases hc : c = a
    · simp [hc]
    · simp [hc]

/-- **Unlinking**: a cell anywhere in the list is taken out and freed; no other block is. -/
theorem chain_unlink {x : ℕ × α} (hs : Chain h p (l₁ ++ x :: l₂))
    (hnd : ((l₁ ++ x :: l₂).map Prod.fst).Nodup) :
    ∃ h' p', unlink h p x.1 = some (h', p') ∧ Chain h' p' (l₁ ++ l₂) ∧
      ∀ a, (h' a).isSome = true ↔ (h a).isSome = true ∧ a ≠ x.1 := by
  rw [List.map_append, List.map_cons, List.nodup_append] at hnd
  obtain ⟨hnd₁, hnd₂, hapart⟩ := hnd
  obtain ⟨hxl₂, hnd₂⟩ := List.nodup_cons.mp hnd₂
  have hxl₁ : x.1 ∉ l₁.map Prod.fst := fun hmem => hapart x.1 hmem x.1 (by simp) rfl
  have hl₁l₂ : ∀ a ∈ l₂.map Prod.fst, a ∉ l₁.map Prod.fst :=
    fun a ha hmem => hapart a hmem a (List.mem_cons_of_mem _ ha) rfl
  obtain ⟨e, hs⟩ := hs
  obtain ⟨b', p', hfront, rfl, n, hx, hback⟩ := seg_append.mp hs
  obtain ⟨h₁, head, hnext, hfront₁, hkeep₁, hsome₁⟩ := seg_relinkNext hfront hnd₁ n
  have hback₁ : Seg h₁ (some x.1) n l₂ e none := seg_congr (fun a ha => hkeep₁ a (hl₁l₂ a ha)) hback
  obtain ⟨h₂, e', hprev, hback₂, hkeep₂, hsome₂⟩ := seg_relinkPrev hback₁ hnd₂ b'
  have hfront₂ : Seg h₂ none head l₁ b' n :=
    seg_congr (fun a ha => hkeep₂ a fun hmem => hl₁l₂ a hmem ha) hfront₁
  have hfree : free h₂ x.1 = some (Function.update h₂ x.1 none) :=
    free_eq (by rw [hsome₂, hsome₁, hx]; rfl)
  refine ⟨Function.update h₂ x.1 none, head, ?_, ⟨e', seg_append.mpr ⟨b', n, ?_, ?_⟩⟩, fun a => ?_⟩
  · simp only [unlink, hx, Option.bind_some, hnext, hprev, hfree, Option.map_some]
  · exact seg_congr (fun a ha => Function.update_of_ne (ne_of_mem_of_not_mem ha hxl₁) _ _) hfront₂
  · exact seg_congr (fun a ha => Function.update_of_ne (ne_of_mem_of_not_mem ha hxl₂) _ _) hback₂
  · by_cases ha : a = x.1
    · simp [ha]
    · simp [ha, hsome₂, hsome₁]

/-- **The pointers are inverse to each other**: a cell of the list is what the one behind it points
back to, and what the one before it points to. -/
theorem chain_inverse {x : ℕ × α} (hs : Chain h p l) (hx : x ∈ l) :
    ∃ c, h x.1 = some c ∧ c.val = x.2 ∧
      (∀ y, c.next = some y → ∃ d, h y = some d ∧ d.prev = some x.1) ∧
      ∀ y, c.prev = some y → ∃ d, h y = some d ∧ d.next = some x.1 := by
  obtain ⟨e, hs⟩ := hs
  obtain ⟨l₁, l₂, rfl⟩ := List.append_of_mem hx
  obtain ⟨b', p', hfront, rfl, n, hx, hback⟩ := seg_append.mp hs
  refine ⟨_, hx, rfl, fun y hy => ?_, fun y hy => ?_⟩
  · obtain rfl : n = some y := hy
    cases l₂ with
    | nil => cases hback.1
    | cons z l₂ =>
      obtain ⟨hz, k, hcell, -⟩ := hback
      obtain rfl : y = z.1 := Option.some.inj hz
      exact ⟨_, hcell, rfl⟩
  · obtain rfl : b' = some y := hy
    obtain rfl | ⟨l₀, z, rfl⟩ := List.eq_nil_or_concat' l₁
    · cases hfront.2
    · obtain ⟨b'', m, -, -, k, hcell, rfl, hz⟩ := seg_append.mp hfront
      obtain rfl : z.1 = y := Option.some.inj hz
      exact ⟨_, hcell, rfl⟩

end Omap4.DoublyLinked
