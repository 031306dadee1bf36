import Mathlib.Data.Int.Basic
import Omap4.Machine

/-!
# Omap4.Audio.Registry — the stream registry of the audio wrapper (`audio/wrapper.c`)

The wrapper keeps one array of wrapped streams for each direction (`in_streams`, `out_streams`).
Every mutex-protected section is one step here:

* `wrapperOpenStream`: `wrapper_open_input_stream` and `wrapper_open_output_stream`;
* `wrapperCloseStream`: `wrapper_close_input_stream` and `wrapper_close_output_stream`.  The
  `WAIT_FOR_FREE` loops make the step disabled (`none`) while a counter is not 0;
* `wrapperIoBegin`, `wrapperIoEnd`: the lookup with `INCREMENT_IN_USE` and the `DECREMENT_IN_USE`
  of `wrapper_read` and `wrapper_write`.  The blob's call runs between the two.

An I/O keeps the address of the slot it found (`wrapper_stream`).  Slot `i` of an array at `base`
has the address `base + i` (the unit is the size of a slot), so an open or a close, whose `realloc`
may move the array and whose `memmove` shifts the slots, can leave that address pointing elsewhere.
Which stream a slot or an I/O belongs to is recorded by a serial number that the code does not have.
-/

namespace Omap4.Audio.Streams

/-- The directions: `in` and `out` in the names of the source. -/
inductive Dir
  | input
  | output
  deriving DecidableEq, Repr

/-- `struct wrapper_in_stream` and `struct wrapper_out_stream`. -/
structure Slot where
  /-- the wrapped stream handed to the client, from `malloc` -/
  stream : ℕ
  /-- the blob's stream -/
  jbStream : ℕ
  inUse : ℤ
  /-- the open call that created the slot (not in the code) -/
  serial : ℕ
  deriving DecidableEq, Repr

/-- `in_streams` with `n_in_streams`, or `out_streams` with `n_out_streams`. -/
structure Registry where
  base : ℕ
  slots : List Slot
  deriving DecidableEq, Repr

/-- A `wrapper_read` or `wrapper_write` between its two sections. -/
structure Io where
  tid : ℕ
  dir : Dir
  /-- `wrapper_stream` -/
  ptr : ℕ
  /-- the stream on which it began (not in the code) -/
  serial : ℕ
  deriving DecidableEq, Repr

structure State where
  inStreams : Registry
  outStreams : Registry
  /-- the HAL's own `in_use`; no function of the wrapper increments it -/
  halInUse : ℤ
  /-- the streams open in the blob -/
  blobOpen : List (Dir × ℕ)
  ios : List Io
  /-- the streams (by serial) that a client has asked to close -/
  closing : List ℕ
  nextSerial : ℕ
  deriving DecidableEq, Repr

def State.init : State := ⟨⟨0, []⟩, ⟨0, []⟩, 0, [], [], [], 0⟩

def State.reg (s : State) : Dir → Registry
  | .input => s.inStreams
  | .output => s.outStreams

def State.setReg (s : State) (d : Dir) (r : Registry) : State :=
  match d with
  | .input => { s with inStreams := r }
  | .output => { s with outStreams := r }

/-! ## Looking up slots -/

/-- The search loop over the array: the index of the first slot with the given stream. -/
def Registry.findIdx (r : Registry) (stream : ℕ) : Option ℕ :=
  r.slots.findIdx? fun x => x.stream = stream

/-- The slot a pointer refers to, if it lies in the array. -/
def Registry.slotAt (r : Registry) (ptr : ℕ) : Option Slot :=
  if ptr < r.base then none else r.slots[ptr - r.base]?

/-- `wrapper_stream->in_use += k`.  A pointer outside the array hits memory that is not a slot. -/
def Registry.addInUse (r : Registry) (ptr : ℕ) (k : ℤ) : Registry :=
  if ptr < r.base then r
  else { r with slots := r.slots.modify (ptr - r.base) fun x => { x with inUse := x.inUse + k } }

/-! ## The mutex-protected sections -/

/-- The outcomes of the calls an open makes: the blob's return value and stream, the address
`realloc` returns and the address `malloc` returns (`none` for `NULL`). -/
structure OpenRes where
  blobRet : ℤ
  jbStream : ℕ
  realloc : Option ℕ
  malloc : Option ℕ
  deriving DecidableEq, Repr

def ENOMEM : ℤ := 12

def wrapperOpenStream (d : Dir) (r : OpenRes) (s : State) : ℤ × State :=
  if r.blobRet ≠ 0 then (r.blobRet, s)
  else
    let s := { s with blobOpen := (d, r.jbStream) :: s.blobOpen }
    match r.realloc with
    | none => (-ENOMEM, s)
    | some base =>
      match r.malloc with
      | none => (-ENOMEM, s.setReg d ⟨base, (s.reg d).slots⟩)
      | some stream =>
        (0, State.setReg { s with nextSerial := s.nextSerial + 1 } d
          ⟨base, (s.reg d).slots ++ [⟨stream, r.jbStream, 0, s.nextSerial⟩]⟩)

/-- `base` is the address returned by the `realloc` that shrinks the array. -/
def wrapperCloseStream (d : Dir) (stream base : ℕ) (s : State) : Option State :=
  match (s.reg d).findIdx stream with
  | none => some s
  | some i =>
    match (s.reg d).slots[i]? with
    | none => some s
    | some x =>
      if x.inUse = 0 ∧ s.halInUse = 0 then
        some (State.setReg { s with blobOpen := s.blobOpen.erase (d, x.jbStream) } d
          ⟨base, (s.reg d).slots.eraseIdx i⟩)
      else none

/-- The first section of `wrapper_read` and `wrapper_write`.  An unknown stream starts no I/O. -/
def wrapperIoBegin (tid : ℕ) (d : Dir) (stream : ℕ) (s : State) : State :=
  match (s.reg d).findIdx stream with
  | none => s
  | some i =>
    match (s.reg d).slots[i]? with
    | none => s
    | some x =>
      State.setReg { s with ios := ⟨tid, d, (s.reg d).base + i, x.serial⟩ :: s.ios } d
        ((s.reg d).addInUse ((s.reg d).base + i) 1)

/-- The last section of `wrapper_read` and `wrapper_write`. -/
def wrapperIoEnd (io : Io) (s : State) : State :=
  State.setReg { s with ios := s.ios.erase io } io.dir ((s.reg io.dir).addInUse io.ptr (-1))

/-! ## Interleavings -/

inductive Act
  /-- an open that succeeds: the blob's stream, the `malloc` and the `realloc` result -/
  | opens (d : Dir) (jbStream stream base : ℕ)
  /-- an open that the blob refuses -/
  | openRefused (d : Dir) (blobRet : ℤ)
  /-- a client calls close; its mutex-protected section is still to come -/
  | askClose (d : Dir) (stream : ℕ)
  | close (d : Dir) (stream base : ℕ)
  | ioBegin (tid : ℕ) (d : Dir) (stream : ℕ)
  | ioEnd (io : Io)
  deriving DecidableEq, Repr

/-- The serial of the registered stream with a given address. -/
def State.serialOf (s : State) (d : Dir) (stream : ℕ) : Option ℕ :=
  ((s.reg d).slots.find? fun x => x.stream = stream).map Slot.serial

/-- One step of any client.  Opens wait for the HAL and get addresses that are not in use; an I/O
starts only on a stream nobody has asked to close; only an I/O in progress ends. -/
def step (s : State) : Act → Option State
  | .opens d jb stream base =>
    if s.halInUse = 0 ∧ (d, jb) ∉ s.blobOpen ∧ (∀ x ∈ (s.reg d).slots, x.stream ≠ stream) then
      some (wrapperOpenStream d ⟨0, jb, some base, some stream⟩ s).2
    else none
  | .openRefused d ret =>
    if s.halInUse = 0 ∧ ret ≠ 0 then some (wrapperOpenStream d ⟨ret, 0, none, none⟩ s).2
    else none
  | .askClose d stream =>
    some { s with closing := (s.serialOf d stream).toList ++ s.closing }
  | .close d stream base => wrapperCloseStream d stream base s
  | .ioBegin tid d stream =>
    if ∀ n ∈ s.serialOf d stream, n ∉ s.closing then some (wrapperIoBegin tid d stream s)
    else none
  | .ioEnd io => if io ∈ s.ios then some (wrapperIoEnd io s) else none

/-! ## Frame lemmas -/

@[simp] theorem State.setReg_reg (s : State) (d : Dir) (r : Registry) :
    (s.setReg d r).reg d = r := by
  cases d <;> rfl

theorem State.setReg_reg_of_ne (s : State) {d e : Dir} (r : Registry) (h : e ≠ d) :
    (s.setReg d r).reg e = s.reg e := by
  cases d <;> cases e <;> first | rfl | exact absurd rfl h

@[simp] theorem State.setReg_ios (s : State) (d : Dir) (r : Registry) :
    (s.setReg d r).ios = s.ios := by
  cases d <;> rfl

@[simp] theorem State.setReg_nextSerial (s : State) (d : Dir) (r : Registry) :
    (s.setReg d r).nextSerial = s.nextSerial := by
  cases d <;> rfl

@[simp] theorem State.reg_mk (s : State) (d : Dir) (u : ℤ) (b : List (Dir × ℕ)) (l : List Io)
    (c : List ℕ) (n : ℕ) : (State.mk s.inStreams s.outStreams u b l c n).reg d = s.reg d := by
  cases d <;> rfl

theorem Registry.slotAt_base (r : Registry) (i : ℕ) : r.slotAt (r.base + i) = r.slots[i]? := by
  unfold Registry.slotAt
  rw [if_neg (by omega), Nat.add_sub_cancel_left]

/-! ## Opens that fail -/

/-- A failing open leaves nothing behind: the streams open in the blob and the registered streams of
both directions, with their counters, are what they were. -/
def OpenClean (d : Dir) (r : OpenRes) (s : State) : Prop :=
  (wrapperOpenStream d r s).1 ≠ 0 →
    (wrapperOpenStream d r s).2.blobOpen = s.blobOpen ∧
      ∀ e, ((wrapperOpenStream d r s).2.reg e).slots = (s.reg e).slots

@[simp] theorem State.setReg_blobOpen (s : State) (d : Dir) (r : Registry) :
    (s.setReg d r).blobOpen = s.blobOpen := by
  cases d <;> rfl

/-- After an allocation that failed, the blob's stream is open and nothing refers to it. -/
theorem open_of_noMemory {d : Dir} {r : OpenRes} {s : State} (hret : r.blobRet = 0)
    (hmem : r.realloc = none ∨ r.malloc = none) :
    (wrapperOpenStream d r s).1 = -ENOMEM ∧
      (wrapperOpenStream d r s).2.blobOpen = (d, r.jbStream) :: s.blobOpen := by
  unfold wrapperOpenStream
  rw [if_neg (by simpa using hret)]
  cases hrealloc : r.realloc with
  | none => exact ⟨rfl, rfl⟩
  | some base =>
    cases hmalloc : r.malloc with
    | none => exact ⟨rfl, State.setReg_blobOpen _ d _⟩
    | some stream => rcases hmem with hmem | hmem <;> simp_all

/-- **When a failing open is clean**: if and only if the blob itself refused the stream or both
allocations succeeded.  The blob's stream is opened first, and neither allocation failure closes it
again. -/
theorem openClean_iff (d : Dir) (r : OpenRes) (s : State) :
    OpenClean d r s ↔ r.blobRet ≠ 0 ∨ (r.realloc ≠ none ∧ r.malloc ≠ none) := by
  constructor
  · intro hclean
    by_contra hcond
    rw [not_or, not_not, not_and_or, not_not, not_not] at hcond
    obtain ⟨hcode, hleak⟩ := open_of_noMemory (d := d) (s := s) hcond.1 hcond.2
    have hsame := (hclean (by rw [hcode]; decide)).1
    exact List.cons_ne_self _ _ (hleak.symm.trans hsame)
  · intro hcond hcode
    unfold wrapperOpenStream at hcode ⊢
    by_cases hret : r.blobRet ≠ 0
    · rw [if_pos hret]
      exact ⟨rfl, fun e => rfl⟩
    · obtain ⟨hrealloc, hmalloc⟩ := hcond.resolve_left hret
      obtain ⟨base, hbase⟩ := Option.ne_none_iff_exists'.mp hrealloc
      obtain ⟨stream, hstream⟩ := Option.ne_none_iff_exists'.mp hmalloc
      rw [if_neg hret, hbase, hstream] at hcode
      exact absurd rfl hcode

/-- The blob opens its stream 7 and `malloc` fails: the open fails and stream 7 stays open. -/
theorem malloc_failure_leaks :
    (wrapperOpenStream .output ⟨0, 7, some 100, none⟩ State.init).1 ≠ 0 ∧
      (wrapperOpenStream .output ⟨0, 7, some 100, none⟩ State.init).2.blobOpen = [(.output, 7)] ∧
      ¬ ∀ d r s, OpenClean d r s := by
  refine ⟨by decide, rfl, fun hall => ?_⟩
  have hclean := hall .output ⟨0, 7, some 100, none⟩ State.init (by decide)
  exact absurd hclean.1 (by decide)

end Omap4.Audio.Streams
