import Mathlib.Logic.Function.Basic
import Mathlib.Data.List.Basic

/-!
# Omap4.SharedBuffers — reference-counted buffers

What a library of reference-counted buffers offers to code that keeps items of `itemSize` bytes in
them.  How its heap is organised, which address a request gets and when a request fails is left
open; the laws say what the buffers look like after each call.  `Pool` is one such library: fresh
addresses in turn, requests above a limit fail.
-/

namespace Omap4

/-- An allocated buffer: its references, its bytes, and its data as slots for items. -/
structure Buffer (α : Type) where
  refs : Nat
  size : Nat
  cells : List (Option α)
  deriving DecidableEq

variable {α : Type}

/-- A buffer that was just allocated. -/
def Buffer.fresh (itemSize n : Nat) : Buffer α := ⟨1, n, List.replicate (n / itemSize) none⟩

/-- The slots of a buffer cut off or made longer. -/
def Buffer.resized (itemSize n : Nat) (B : Buffer α) : Buffer α :=
  ⟨1, n, B.cells.take (n / itemSize) ++ List.replicate (n / itemSize - B.cells.length) none⟩

/-- One reference less; the last one frees the buffer. -/
def Buffer.unref (B : Buffer α) : Option (Buffer α) :=
  if B.refs = 1 then none else some { B with refs := B.refs - 1 }

structure SharedBuffers (α : Type) (itemSize : Nat) where
  Heap : Type
  /-- The buffer at an address, if one is allocated there. -/
  buf : Heap → Nat → Option (Buffer α)
  alloc : Heap → Nat → Option (Nat × Heap)
  acquire : Heap → Nat → Heap
  /-- Drops a reference and keeps the storage. -/
  release : Heap → Nat → Heap
  dealloc : Heap → Nat → Heap
  /-- Whether the caller holds the only reference. -/
  attemptEdit : Heap → Nat → Bool
  editResize : Heap → Nat → Nat → Option (Nat × Heap)
  /-- Writing the data of a buffer. -/
  put : Heap → Nat → List (Option α) → Heap
  buf_alloc : ∀ {h n b h'}, alloc h n = some (b, h') →
    buf h b = none ∧ buf h' = Function.update (buf h) b (some (Buffer.fresh itemSize n))
  buf_acquire : ∀ h a, buf (acquire h a) =
    Function.update (buf h) a ((buf h a).map fun B => { B with refs := B.refs + 1 })
  buf_release : ∀ h a, buf (release h a) =
    Function.update (buf h) a ((buf h a).map fun B => { B with refs := B.refs - 1 })
  buf_dealloc : ∀ h a, buf (dealloc h a) = Function.update (buf h) a none
  attemptEdit_iff : ∀ h a, attemptEdit h a = true ↔ ∃ B, buf h a = some B ∧ B.refs = 1
  /-- A sole owner may keep its address; otherwise the data goes to a fresh buffer and the reference
  to the old one is given up. -/
  buf_editResize : ∀ {h a n b h' B}, editResize h a n = some (b, h') → buf h a = some B →
    (b = a ∧ B.refs = 1 ∧ buf h' = Function.update (buf h) a (some (B.resized itemSize n))) ∨
    (buf h b = none ∧
      buf h' = Function.update (Function.update (buf h) a B.unref) b (some (B.resized itemSize n)))
  buf_put : ∀ h a cs, buf (put h a cs) =
    Function.update (buf h) a ((buf h a).map fun B => { B with cells := cs })

namespace SharedBuffers

variable {itemSize : Nat} (S : SharedBuffers α itemSize) (h : S.Heap) (a : Nat)

/-- The number of references to an address. -/
def refs : Nat := ((S.buf h a).map Buffer.refs).getD 0

/-- The data at an address. -/
def cells : List (Option α) := ((S.buf h a).map Buffer.cells).getD []

variable {S h a} {B : Buffer α}

theorem refs_eq (hB : S.buf h a = some B) : S.refs h a = B.refs := by simp [refs, hB]

theorem cells_eq (hB : S.buf h a = some B) : S.cells h a = B.cells := by simp [cells, hB]

end SharedBuffers

/-! ## A library that meets the laws -/

/-- Buffers at the addresses handed out so far. -/
structure Pool (α : Type) where
  buf : Nat → Option (Buffer α)
  next : Nat
  fresh : ∀ a, next ≤ a → buf a = none

namespace Pool

def empty : Pool α := ⟨fun _ => none, 0, fun _ _ => rfl⟩

/-- A change of the buffer at one address that allocates nothing there. -/
def change (h : Pool α) (a : Nat) (f : Buffer α → Option (Buffer α)) : Pool α where
  buf := Function.update h.buf a ((h.buf a).bind f)
  next := h.next
  fresh b hb := by
    by_cases hba : b = a
    · subst hba
      simp [h.fresh b hb]
    · rw [Function.update_of_ne hba]
      exact h.fresh b hb

def add (h : Pool α) (B : Buffer α) : Pool α where
  buf := Function.update h.buf h.next (some B)
  next := h.next + 1
  fresh b hb := by
    rw [Function.update_of_ne (by omega)]
    exact h.fresh b (by omega)

/-- Fresh addresses in turn; a sole owner is resized in place; requests for more than `limit` bytes
fail. -/
def sharedBuffers (α : Type) (itemSize limit : Nat) : SharedBuffers α itemSize where
  Heap := Pool α
  buf := Pool.buf
  alloc h n := if n ≤ limit then some (h.next, h.add (.fresh itemSize n)) else none
  acquire h a := h.change a fun B => some { B with refs := B.refs + 1 }
  release h a := h.change a fun B => some { B with refs := B.refs - 1 }
  dealloc h a := h.change a fun _ => none
  attemptEdit h a := ((h.buf a).map fun B => decide (B.refs = 1)).getD false
  editResize h a n :=
    match h.buf a with
    | none => none
    | some B =>
      if limit < n then none
      else if B.refs = 1 then some (a, h.change a fun B => some (B.resized itemSize n))
      else some (h.next, (h.change a Buffer.unref).add (B.resized itemSize n))
  put h a cs := h.change a fun B => some { B with cells := cs }
  buf_alloc {h n b h'} hb := by
    split at hb
    · obtain ⟨rfl, rfl⟩ := Prod.mk.inj (Option.some.inj hb)
      exact ⟨h.fresh _ (Nat.le_refl _), rfl⟩
    · cases hb
  buf_acquire h a := by rw [Option.map_eq_bind]; rfl
  buf_release h a := by rw [Option.map_eq_bind]; rfl
  buf_dealloc h a := by cases hB : h.buf a <;> simp [change, hB]
  attemptEdit_iff h a := by cases hB : h.buf a <;> simp
  buf_editResize {h a n b h' B} hb hB := by
    rw [hB] at hb
    simp only at hb
    split at hb
    · cases hb
    · split at hb
      · rename_i hrefs
        obtain ⟨rfl, rfl⟩ := Prod.mk.inj (Option.some.inj hb)
        refine Or.inl ⟨rfl, hrefs, ?_⟩
        simp [change, hB]
      · obtain ⟨rfl, rfl⟩ := Prod.mk.inj (Option.some.inj hb)
        refine Or.inr ⟨h.fresh _ (Nat.le_refl _), ?_⟩
        simp [change, add, hB]
  buf_put h a cs := by rw [Option.map_eq_bind]; rfl

end Pool

end Omap4
