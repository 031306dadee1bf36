import Omap4.Slots
import Omap4.SharedBuffers
import Mathlib.Algebra.Order.Ring.Nat

/-!
# Omap4.Libmotou.Vector — vectors over shared buffers (`VectorImpl`)

`MotoVectorImpl.cpp`.  A vector is an address and a count; copies of a vector share the buffer
behind the address, and whoever changes its items first makes a buffer of its own.  The item type
comes with its size, its flags and what its constructor makes; the buffers are those of
`SharedBuffer`, which is not part of this library.  Return values: `value n` for the `ssize_t` with
the bits of `n`, the others for the error codes.
-/

namespace Omap4.Libmotou

open Slots

/-- What a vector class is instantiated with. -/
structure Env (α : Type) where
  itemSize : Nat
  itemSize_pos : 0 < itemSize
  /-- `HAS_TRIVIAL_CTOR`, `HAS_TRIVIAL_DTOR`, `HAS_TRIVIAL_COPY`. -/
  flags : Traits
  /-- The item that `do_construct` makes. -/
  made : α
  buffers : SharedBuffers α itemSize

/-- Four-byte items that only have to be made, in buffers of up to `limit` bytes. -/
def words (limit : Nat) : Env Nat where
  itemSize := 4
  itemSize_pos := by decide
  flags := ⟨false, true, true⟩
  made := 0
  buffers := Pool.sharedBuffers Nat 4 limit

structure VectorImpl where
  mStorage : Option Nat
  mCount : Nat
  deriving DecidableEq, Repr

inductive Ret
  | value (n : Nat)
  | badIndex
  | badValue
  | noMemory
  | nameNotFound
  deriving DecidableEq, Repr

/-- A `size_t` read as an `ssize_t`. -/
def ssize (n : Nat) : Int := if n < 2 ^ 31 then n else n - 2 ^ 32

/-- `result < 0` -/
def Ret.failed : Ret → Bool
  | .value n => decide (ssize n < 0)
  | _ => true

def kMinVectorCapacity : Nat := 4

/-- `safe_add`, `safe_mul` under `LOG_ALWAYS_FATAL_IF`: a `size_t` or the end of the process. -/
def safe (n : Nat) : Except Fault Nat := if n < 2 ^ 32 then .ok n else .error .fatal

variable {α : Type} (E : Env α)

/-! ## The items of a vector -/

/-- The data behind `mStorage`. -/
def cellsOf (h : E.buffers.Heap) (v : VectorImpl) : List (Option α) :=
  v.mStorage.elim [] (E.buffers.cells h)

def capacity (h : E.buffers.Heap) (v : VectorImpl) : Nat :=
  v.mStorage.elim 0 fun a => ((E.buffers.buf h a).map Buffer.size).getD 0 / E.itemSize

/-- `_do_construct`: nothing for a trivial constructor. -/
def doConstruct (cs : List (Option α)) (i n : Nat) : Except Fault (List (Option α)) :=
  if E.flags.trivialCtor = true then .ok cs else place E.flags cs i (List.replicate n (some E.made))

/-- `_do_copy` of `n` items of `src` from `j` on. -/
def doCopy (cs : List (Option α)) (i : Nat) (src : List (Option α)) (j n : Nat) :
    Except Fault (List (Option α)) := do
  let xs ← fetch E.flags src j n
  place E.flags cs i xs

/-- `if (c) _do_copy(..)` -/
def copyIf (c : Prop) [Decidable c] (cs : List (Option α)) (i : Nat) (src : List (Option α))
    (j n : Nat) :
    Except Fault (List (Option α)) :=
  if c then doCopy E cs i src j n else .ok cs

/-- A write through the pointer to the data. -/
def onCells (h : E.buffers.Heap) (v : VectorImpl)
    (f : List (Option α) → Except Fault (List (Option α))) :
    Except Fault E.buffers.Heap :=
  match v.mStorage with
  | none => .error .misuse
  | some a => do
    let cs ← f (E.buffers.cells h a)
    .ok (E.buffers.put h a cs)

/-! ## Storage -/

/-- `release_storage`: the last owner destroys the items and frees the buffer.  To release a buffer
that is gone, or to free one in which an item still lives, is a misuse. -/
def releaseStorage (h : E.buffers.Heap) (v : VectorImpl) : Except Fault E.buffers.Heap :=
  match v.mStorage with
  | none => .ok h
  | some a =>
    if E.buffers.refs h a = 0 then .error .misuse
    else if E.buffers.refs h a = 1 then do
      let cs ← vacate E.flags (E.buffers.cells h a) 0 v.mCount
      if cs.all E.flags.dead = true then
        .ok (E.buffers.dealloc (E.buffers.put (E.buffers.release h a) a cs) a)
      else .error .misuse
    else .ok (E.buffers.release h a)

/-- The items are in the buffer `b` now: it is written, the old one is released. -/
def takeOver (h : E.buffers.Heap) (v : VectorImpl) (b : Nat) (cs : List (Option α)) :
    Except Fault (E.buffers.Heap × VectorImpl) := do
  let h ← releaseStorage E (E.buffers.put h b cs) v
  .ok (h, { v with mStorage := some b })

def editArrayImpl (h : E.buffers.Heap) (v : VectorImpl) :
    Except Fault (E.buffers.Heap × VectorImpl) :=
  match v.mStorage with
  | none => .ok (h, v)
  | some a =>
    if E.buffers.attemptEdit h a = true then .ok (h, v)
    else
      match E.buffers.alloc h (((E.buffers.buf h a).map Buffer.size).getD 0) with
      | none => .error .fatal
      | some (b, h) => do
        let cs ← doCopy E (E.buffers.cells h b) 0 (cellsOf E h v) 0 v.mCount
        takeOver E h v b cs

def itemLocation (h : E.buffers.Heap) (v : VectorImpl) (index : Nat) : Option Nat :=
  if index < capacity E h v then some index else none

/-! ## `_grow` -/

/-- The bytes for `new_size` items and half as many again. -/
def growBytes (newSize : Nat) : Except Fault Nat := do
  let newCapacity ← safe (newSize + newSize / 2)
  let newCapacity ← safe (newCapacity + 1)
  safe (max kMinVectorCapacity newCapacity * E.itemSize)

/-- A new buffer with a gap of `amount` slots at `pos`. -/
def growInto (h : E.buffers.Heap) (v : VectorImpl) (pos amount bytes : Nat) :
    Except Fault (Option (E.buffers.Heap × VectorImpl)) :=
  match E.buffers.alloc h bytes with
  | none => .ok none
  | some (b, h) => do
    let cs ← copyIf E (pos ≠ 0) (E.buffers.cells h b) 0 (cellsOf E h v) 0 pos
    let cs ← copyIf E (pos ≠ v.mCount) cs (pos + amount) (cellsOf E h v) pos (v.mCount - pos)
    let r ← takeOver E h v b cs
    .ok (some r)

def growStorage (h : E.buffers.Heap) (v : VectorImpl) (pos amount newSize : Nat) :
    Except Fault (Option (E.buffers.Heap × VectorImpl)) := do
  let bytes ← growBytes E newSize
  match v.mStorage with
  | none => growInto E h v pos amount bytes
  | some a =>
    if v.mCount = pos ∧ E.flags.trivialCopy = true ∧ E.flags.trivialDtor = true then
      .ok ((E.buffers.editResize h a bytes).map fun r => (r.2, { v with mStorage := some r.1 }))
    else growInto E h v pos amount bytes

def growInPlace (h : E.buffers.Heap) (v : VectorImpl) (pos amount : Nat) :
    Except Fault (Option (E.buffers.Heap × VectorImpl)) := do
  let r ← editArrayImpl E h v
  if pos ≠ v.mCount then do
    let h ← onCells E r.1 r.2 fun cs => move E.flags cs (pos + amount) pos (v.mCount - pos)
    .ok (some (h, r.2))
  else .ok (some r)

def makeRoom (h : E.buffers.Heap) (v : VectorImpl) (pos amount newSize : Nat) :
    Except Fault (Option (E.buffers.Heap × VectorImpl)) :=
  if capacity E h v < newSize then growStorage E h v pos amount newSize
    else growInPlace E h v pos amount

/-- `_grow`: room for `amount` items at `pos`, and where it is. -/
def grow (h : E.buffers.Heap) (v : VectorImpl) (pos amount : Nat) :
    Except Fault (Option Nat × E.buffers.Heap × VectorImpl) := do
  let newSize ← safe (v.mCount + amount)
  let r ← makeRoom E h v pos amount newSize
  match r with
  | none => .ok (none, h, v)
  | some r =>
    .ok (itemLocation E r.1 { r.2 with mCount := newSize } pos, r.1, { r.2 with mCount := newSize })

/-! ## `_shrink` -/

/-- `max(kMinVectorCapacity, new_size * 2) * mItemSize`, which is not checked. -/
def shrinkBytes (newSize : Nat) : Nat := max kMinVectorCapacity (newSize * 2) * E.itemSize % 2 ^ 32

def shrinkStorage (h : E.buffers.Heap) (v : VectorImpl) (a pos amount newSize : Nat) :
    Except Fault (E.buffers.Heap × VectorImpl) :=
  if pos = newSize ∧ E.flags.trivialCopy = true ∧ E.flags.trivialDtor = true then
    match E.buffers.editResize h a (shrinkBytes E newSize) with
    | none => .ok (h, v)
    | some (b, h) => .ok (h, ⟨some b, newSize⟩)
  else
    match E.buffers.alloc h (shrinkBytes E newSize) with
    | none => .ok (h, v)
    | some (b, h) => do
      let cs ← copyIf E (pos ≠ 0) (E.buffers.cells h b) 0 (cellsOf E h v) 0 pos
      let cs ← copyIf E (pos ≠ newSize) cs pos (cellsOf E h v) (pos + amount) (newSize - pos)
      let r ← takeOver E h v b cs
      .ok (r.1, { r.2 with mCount := newSize })

def shrinkInPlace (h : E.buffers.Heap) (v : VectorImpl) (pos amount newSize : Nat) :
    Except Fault (E.buffers.Heap × VectorImpl) := do
  let r ← editArrayImpl E h v
  let h ← onCells E r.1 r.2 fun cs => do
    let cs ← vacate E.flags cs pos amount
    if pos ≠ newSize then move E.flags cs pos (pos + amount) (newSize - pos) else .ok cs
  .ok (h, { r.2 with mCount := newSize })

/-- `_shrink`: without memory for the smaller buffer the items stay. -/
def shrink (h : E.buffers.Heap) (v : VectorImpl) (pos amount : Nat) :
    Except Fault (E.buffers.Heap × VectorImpl) :=
  match v.mStorage with
  | none => .ok (h, v)
  | some a =>
    if v.mCount < amount then .error .fatal
    else if v.mCount - amount < capacity E h v / 2 then shrinkStorage E h v a pos amount
      (v.mCount - amount)
    else shrinkInPlace E h v pos amount (v.mCount - amount)

/-! ## The operations -/

/-- `array` is a pointer, read when the room is there. -/
def insertArrayAt (h : E.buffers.Heap) (v : VectorImpl) (array : E.buffers.Heap → List (Option α))
    (index length : Nat) : Except Fault (Ret × E.buffers.Heap × VectorImpl) :=
  if v.mCount < index then .ok (.badIndex, h, v)
  else do
    let r ← grow E h v index length
    match r.1 with
    | none => .ok (.noMemory, r.2)
    | some pos => do
      let h ← onCells E r.2.1 r.2.2 fun cs => doCopy E cs pos (array r.2.1) 0 length
      .ok (.value index, h, r.2.2)

/-- `insertVectorAt`: the array of another vector. -/
def insertVectorAt (h : E.buffers.Heap) (v vector : VectorImpl) (index : Nat) :
    Except Fault (Ret × E.buffers.Heap × VectorImpl) :=
  insertArrayAt E h v (fun h => cellsOf E h vector) index vector.mCount

def appendVector (h : E.buffers.Heap) (v vector : VectorImpl) :
    Except Fault (Ret × E.buffers.Heap × VectorImpl) :=
  insertVectorAt E h v vector v.mCount

/-- What stands in the slots of new items: copies of `item` (`_do_splat`), or made items. -/
def fill (item : Option α) (cs : List (Option α)) (i n : Nat) : Except Fault (List (Option α)) :=
  match item with
  | some x => place E.flags cs i (List.replicate n (some x))
  | none => doConstruct E cs i n

/-- `insertAt(item, index, numItems)`; no item for the null pointer. -/
def insertAt (h : E.buffers.Heap) (v : VectorImpl) (item : Option α) (index numItems : Nat) :
    Except Fault (Ret × E.buffers.Heap × VectorImpl) :=
  if v.mCount < index then .ok (.badIndex, h, v)
  else do
    let r ← grow E h v index numItems
    match r.1 with
    | none => .ok (.noMemory, r.2)
    | some pos => do
      let h ← onCells E r.2.1 r.2.2 fun cs => fill E item cs pos numItems
      .ok (.value index, h, r.2.2)

/-- `push`, `add`. -/
def push (h : E.buffers.Heap) (v : VectorImpl) (item : Option α) :
    Except Fault (Ret × E.buffers.Heap × VectorImpl) :=
  insertAt E h v item v.mCount 1

def replaceAt (h : E.buffers.Heap) (v : VectorImpl) (prototype : Option α) (index : Nat) :
    Except Fault (Ret × E.buffers.Heap × VectorImpl) :=
  if v.mCount ≤ index then .ok (.badIndex, h, v)
  else if index < capacity E h v then do
    let r ← editArrayImpl E h v
    let h ← onCells E r.1 r.2 fun cs => do
      let cs ← vacate E.flags cs index 1
      fill E prototype cs index 1
    .ok (.value index, h, r.2)
  else .ok (if prototype.isSome then .noMemory else .value index, h, v)

/-- `removeItemsAt`; the sum of the two `size_t` wraps. -/
def removeItemsAt (h : E.buffers.Heap) (v : VectorImpl) (index count : Nat) :
    Except Fault (Ret × E.buffers.Heap × VectorImpl) :=
  if v.mCount < (index + count) % 2 ^ 32 then .ok (.badValue, h, v)
  else do
    let r ← shrink E h v index count
    .ok (.value index, r)

def pop (h : E.buffers.Heap) (v : VectorImpl) : Except Fault (E.buffers.Heap × VectorImpl) :=
  if v.mCount = 0 then .ok (h, v)
  else do
    let r ← removeItemsAt E h v (v.mCount - 1) 1
    .ok r.2

def clear (h : E.buffers.Heap) (v : VectorImpl) : Except Fault (E.buffers.Heap × VectorImpl) :=
  shrink E h v 0 v.mCount

def setCapacity (h : E.buffers.Heap) (v : VectorImpl) (newCapacity : Nat) :
    Except Fault (Ret × E.buffers.Heap × VectorImpl) :=
  if newCapacity ≤ v.mCount then .ok (.value (capacity E h v), h, v)
  else do
    let bytes ← safe (newCapacity * E.itemSize)
    match E.buffers.alloc h bytes with
    | none => .ok (.noMemory, h, v)
    | some (b, h) => do
      let cs ← doCopy E (E.buffers.cells h b) 0 (cellsOf E h v) 0 v.mCount
      let r ← takeOver E h v b cs
      .ok (.value newCapacity, r)

/-- New items at the end, or the last ones removed. -/
def adjust (h : E.buffers.Heap) (v : VectorImpl) (size : Nat) :
    Except Fault (Ret × E.buffers.Heap × VectorImpl) :=
  if v.mCount < size then insertAt E h v none v.mCount (size - v.mCount)
  else if size < v.mCount then removeItemsAt E h v size (v.mCount - size)
  else .ok (.value 0, h, v)

def resize (h : E.buffers.Heap) (v : VectorImpl) (size : Nat) :
    Except Fault (Ret × E.buffers.Heap × VectorImpl) := do
  let r ← adjust E h v size
  .ok (if r.1.failed then r.1 else .value size, r.2)

def finishVector (h : E.buffers.Heap) (v : VectorImpl) :
    Except Fault (E.buffers.Heap × VectorImpl) := do
  let h ← releaseStorage E h v
  .ok (h, ⟨none, 0⟩)

/-- The copy constructor. -/
def copyOf (h : E.buffers.Heap) (rhs : VectorImpl) : E.buffers.Heap × VectorImpl :=
  (rhs.mStorage.elim h (E.buffers.acquire h), rhs)

/-- `operator =` for two different vectors. -/
def assign (h : E.buffers.Heap) (v rhs : VectorImpl) :
    Except Fault (E.buffers.Heap × VectorImpl) := do
  let h ← releaseStorage E h v
  if rhs.mCount ≠ 0 then .ok (copyOf E h rhs) else .ok (h, ⟨none, 0⟩)

end Omap4.Libmotou
