import Mathlib.Data.List.Nodup
import Mathlib.Logic.Function.Basic

/-!
# Omap4.LinkedList — singly linked lists in a heap

A heap maps the addresses of the allocated blocks to their cells.  An access to a block that is not
allocated has no result, so that an operation with a result has touched allocated blocks only.

`Seg h p l q` says that the pointer `p` leads through the cells of `l` to the pointer `q`.  The
rules are those that loops over such lists need: how a segment splits (`seg_append`), that it does
not see the blocks outside it (`seg_congr`), that its last pointer can be redirected (`seg_relink`),
that a cell can be taken out and freed (`seg_unlink`), and that a walk with enough fuel reads the
list back (`walk_eq`).
-/

namespace Omap4.LinkedList

structure Cell (α : Type) where
  next : Option ℕ
  val : α
  deriving DecidableEq, Repr

abbrev Heap (α : Type) := ℕ → Option (Cell α)

variable {α : Type}

/-- `a->next = n`. -/
def setNext (h : Heap α) (a : ℕ) (n : Option ℕ) : Option (Heap α) :=
  (h a).map fun c => Function.update h a (some { c with next := n })

/-- `free(a)`. -/
def free (h : Heap α) (a : ℕ) : Option (Heap α) :=
  if (h a).isSome then some (Function.update h a none) else none

/-- The pointer after the cell at `p`, or the first one of the list, becomes `n`. -/
def relink (h : Heap α) (head p n : Option ℕ) : Option (Heap α × Option ℕ) :=
  match p with
  | none => some (h, n)
  | some a => (setNext h a n).map fun h' => (h', head)

/-- The pointer after the cell at `p`, or the first one of the list. -/
def nextAfter (h : Heap α) (head p : Option ℕ) : Option (Option ℕ) :=
  match p with
  | none => some head
  | some a => (h a).map Cell.next

/-- The cells that `p` leads to, at most `fuel` of them. -/
def walk (h : Heap α) : ℕ → Option ℕ → List (ℕ × α)
  | 0, _ => []
  | _ + 1, none => []
  | fuel + 1, some a =>
    match h a with
    | none => []
    | some c => (a, c.val) :: walk h fuel c.next

def Seg (h : Heap α) : Option ℕ → List (ℕ × α) → Option ℕ → Prop
  | p, [], q => p = q
  | p, x :: l, q => p = some x.1 ∧ ∃ n, h x.1 = some ⟨n, x.2⟩ ∧ Seg h n l q

/-- The address of the last cell. -/
def lastAddr (l : List (ℕ × α)) : Option ℕ := l.getLast?.map Prod.fst

@[simp] theorem lastAddr_nil : lastAddr ([] : List (ℕ × α)) = none := rfl

@[simp] theorem lastAddr_concat (l : List (ℕ × α)) (x : ℕ × α) :
    lastAddr (l ++ [x]) = some x.1 := by
  simp [lastAddr]

theorem lastAddr_cons (x : ℕ × α) (l : List (ℕ × α)) :
    lastAddr (x :: l) = (lastAddr l).or (some x.1) := by
  unfold lastAddr
  rw [List.getLast?_cons]
  cases l.getLast? <;> rfl

variable {h h' : Heap α} {p q : Option ℕ} {l l₁ l₂ : List (ℕ × α)}

theorem seg_append : Seg h p (l₁ ++ l₂) q ↔ ∃ m, Seg h p l₁ m ∧ Seg h m l₂ q := by
  induction l₁ generalizing p with
  | nil => simp [Seg]
  | cons x l₁ ih =>
    simp only [List.cons_append, Seg, ih]
    constructor
    · rintro ⟨rfl, n, hx, m, h1, h2⟩
      exact ⟨m, ⟨rfl, n, hx, h1⟩, h2⟩
    · rintro ⟨m, ⟨rfl, n, hx, h1⟩, h2⟩
      exact ⟨rfl, n, hx, m, h1, h2⟩

/-- **Frame rule**: a segment is a fact about its own cells. -/
theorem seg_congr (heq : ∀ a ∈ l.map Prod.fst, h' a = h a) (hs : Seg h p l q) : Seg h' p l q := by
  induction l generalizing p with
  | nil => exact hs
  | cons x l ih =>
    obtain ⟨rfl, n, hx, hrest⟩ := hs
    refine ⟨rfl, n, (heq x.1 (by simp)).trans hx, ih (fun a ha => heq a ?_) hrest⟩
    exact List.mem_cons_of_mem _ ha

theorem seg_mem (hs : Seg h p l q) : ∀ a ∈ l.map Prod.fst, (h a).isSome = true := by
  induction l generalizing p with
  | nil => simp
  | cons x l ih =>
    obtain ⟨rfl, n, hx, hrest⟩ := hs
    intro a ha
    obtain rfl | ha := List.mem_cons.mp ha
    · simp [hx]
    · exact ih hrest a ha

theorem walk_eq (hs : Seg h p l none) {fuel : ℕ} (hf : l.length ≤ fuel) : walk h fuel p = l := by
  induction l generalizing p fuel with
  | nil =>
    obtain rfl : p = none := hs
    cases fuel <;> rfl
  | cons x l ih =>
    obtain ⟨rfl, n, hx, hrest⟩ := hs
    obtain ⟨fuel, rfl⟩ : ∃ k, fuel = k + 1 := ⟨fuel - 1, by rw [List.length_cons] at hf; omega⟩
    simp only [walk, hx]
    rw [ih hrest (by simpa using hf)]

theorem setNext_eq {a : ℕ} {c : Cell α} (ha : h a = some c) (n : Option ℕ) :
    setNext h a n = some (Function.update h a (some { c with next := n })) := by
  rw [setNext, ha]
  rfl

theorem free_eq {a : ℕ} (ha : (h a).isSome = true) : free h a = some (Function.update h a none) :=
  if_pos ha

theorem nextAfter_eq (hs : Seg h p l q) : nextAfter h p (lastAddr l) = some q := by
  obtain rfl | ⟨l, x, rfl⟩ := List.eq_nil_or_concat' l
  · exact congrArg some hs
  · obtain ⟨m, -, -, k, hx, rfl⟩ := seg_append.mp hs
    rw [lastAddr_concat, nextAfter, hx]
    rfl

/-- **Relinking**: behind the last cell of a segment, the list goes on where it is told to.  The
other blocks stay as they are, and none is allocated or freed. -/
theorem seg_relink (hs : Seg h p l q) (hnd : (l.map Prod.fst).Nodup) (n : Option ℕ) :
    ∃ h' p', relink h p (lastAddr l) n = some (h', p') ∧ Seg h' p' l n ∧
      (∀ a, a ∉ l.map Prod.fst → h' a = h a) ∧ ∀ a, (h' a).isSome = (h a).isSome := by
  obtain rfl | ⟨l, x, rfl⟩ := List.eq_nil_or_concat' l
  · exact ⟨h, n, rfl, rfl, fun _ _ => rfl, fun _ => rfl⟩
  · obtain ⟨m, hl, rfl, k, hx, rfl⟩ := seg_append.mp hs
    have hxl : x.1 ∉ l.map Prod.fst := by
      rw [List.map_append, List.nodup_append] at hnd
      exact fun hmem => hnd.2.2 x.1 hmem x.1 (by simp) rfl
    refine ⟨Function.update h x.1 (some ⟨n, x.2⟩), p, ?_, ?_, ?_, ?_⟩
    · rw [lastAddr_concat, relink, setNext_eq hx]
      rfl
    · refine seg_append.mpr ⟨some x.1, seg_congr (fun a ha => ?_) hl, rfl, n, ?_, rfl⟩
      · exact Function.update_of_ne (ne_of_mem_of_not_mem ha hxl) _ _
      · exact Function.update_self _ _ _
    · intro a ha
      refine Function.update_of_ne (fun heq => ha ?_) _ _
      simp [heq]
    · intro a
      by_cases ha : a = x.1
      · subst ha
        simp [hx]
      · rw [Function.update_of_ne ha]

/-- **Unlinking**: a cell between two segments is taken out of the list and freed; no other block
is. -/
theorem seg_unlink {x : ℕ × α} {n : Option ℕ} (h₁ : Seg h p l₁ (some x.1))
    (hx : h x.1 = some ⟨n, x.2⟩) (h₂ : Seg h n l₂ q) (hnd : ((l₁ ++ x :: l₂).map Prod.fst).Nodup) :
    ∃ h' h'' p', relink h p (lastAddr l₁) n = some (h', p') ∧ free h' x.1 = some h'' ∧
      Seg h'' p' l₁ n ∧ Seg h'' n l₂ q ∧ ∀ a, (h'' a).isSome = true ↔ (h a).isSome = true ∧
      a ≠ x.1 := by
  rw [List.map_append, List.map_cons, List.nodup_append] at hnd
  obtain ⟨hnd₁, hnd₂, hapart⟩ := hnd
  have hxl₁ : x.1 ∉ l₁.map Prod.fst := fun hmem => hapart x.1 hmem x.1 (by simp) rfl
  have hxl₂ : x.1 ∉ l₂.map Prod.fst := (List.nodup_cons.mp hnd₂).1
  obtain ⟨h', p', hrelink, hseg, hkeep, hsome⟩ := seg_relink h₁ hnd₁ n
  refine ⟨h', Function.update h' x.1 none, p', hrelink, free_eq (by rw [hsome, hx]; rfl),
    ?_, ?_, ?_⟩
  · exact seg_congr (fun a ha => Function.update_of_ne (ne_of_mem_of_not_mem ha hxl₁) _ _) hseg
  · refine seg_congr (fun a ha => ?_) h₂
    rw [Function.update_of_ne (ne_of_mem_of_not_mem ha hxl₂)]
    exact hkeep a fun hmem => hapart a hmem a (List.mem_cons_of_mem _ ha) rfl
  · intro a
    by_cases ha : a = x.1
    · simp [ha]
    · simp [ha, hsome]

end Omap4.LinkedList
