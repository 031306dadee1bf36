import Omap4.Aplogd.Lossless
import Omap4.Memory

/-!
# Omap4.Aplogd.Rambuf — the RAM buffers as memory (`rambuf.c`)

In `Omap4.Aplogd.LogIo` a buffer is the list of bytes between `input_buf_base` and `input_buf`.
Here are the pointers and the memory they point to: one allocation, of which every stream has a
part.  What reads or writes the buffers is modelled again with them (`aplogdRambufOutput`,
`logfilterAndBuffering`, the read loops and what calls these); everything else works on the state of
`LogIo`, which is got back from the memory by `Daemon.view`.

The record `Ram.log` is not in the code.  It has every result of `aplogd_rambuf_space`, every range
that was copied to and every value that an `input_buf` has got, also those of an iteration in which
the daemon exits.

`run_simulates` says that the lists of `LogIo` are what the memory holds.  The invariant of this
simulation (`Ok`) gives the bounds, `rambuf_in_bounds`.
-/

namespace Omap4.Aplogd.Rambuf

/-! ## The memory -/

/-- The index of a stream in `aplogd_io_array`. -/
def index : Stream → ℕ
  | .main => 0
  | .radio => 1
  | .events => 2
  | .system => 3
  | .kernel => 4

/-- `APLOGD_INPUT_LAST`. -/
def aplogdInputLast : ℕ := index .kernel

inductive Access
  /-- a result of `aplogd_rambuf_space` -/
  | space (i : Stream) (len : ℤ)
  /-- a `memcpy` of `len` bytes to `start` -/
  | copy (i : Stream) (start len : ℕ)
  /-- an assignment to `input_buf` -/
  | assign (i : Stream) (p : ℕ)

/-- The pointers of `aplogd_io_array` and the memory. -/
structure Ram where
  inputBufBase : Stream → ℕ
  inputBuf : Stream → ℕ
  mem : ℕ → UInt8
  log : List Access

/-- A pointer other than `NULL`. -/
abbrev Pointer := { a : ℕ // 0 < a }

/-- The size of the allocation. -/
def allocSize : ℕ := aplogdRamBuffSize * (aplogdInputLast + 1)

/-- `aplogd_rambuf_init`, with the result of `malloc` (the daemon exits if it is `NULL`). -/
def aplogdRambufInit (aplogdRamBuffer : Pointer) (mem : ℕ → UInt8) : Ram where
  inputBufBase i := aplogdRamBuffer.val + index i * aplogdRamBuffSize
  inputBuf i := aplogdRamBuffer.val + index i * aplogdRamBuffSize
  mem := mem
  log := []

def aplogdRambufBytesFilled (i : Stream) (m : Ram) : ℤ := (m.inputBuf i : ℤ) - m.inputBufBase i

def aplogdRambufSpace (i : Stream) (m : Ram) : ℤ :=
  if aplogdRambufBytesFilled i m < 0 ∨ aplogdRambufBytesFilled i m > aplogdRamBuffSize then -1
  else aplogdRamBuffSize - aplogdRambufBytesFilled i m

/-- A call of `aplogd_rambuf_space` is put on the record. -/
def Ram.askSpace (i : Stream) (m : Ram) : Ram :=
  { m with log := m.log ++ [.space i (aplogdRambufSpace i m)] }

/-- `memcpy(input_buf, b, ..); input_buf += ..`. -/
def Ram.copy (i : Stream) (b : Bytes) (m : Ram) : Ram :=
  { m with
    inputBuf := Function.update m.inputBuf i (m.inputBuf i + b.length)
    mem := Memory.copyTo m.mem (m.inputBuf i) b
    log := m.log ++ [.copy i (m.inputBuf i) b.length, .assign i (m.inputBuf i + b.length)] }

/-- `input_buf = input_buf_base`. -/
def Ram.rewind (i : Stream) (m : Ram) : Ram :=
  { m with
    inputBuf := Function.update m.inputBuf i (m.inputBufBase i)
    log := m.log ++ [.assign i (m.inputBufBase i)] }

/-- The bytes between `input_buf_base` and `input_buf`. -/
def Ram.contents (m : Ram) (i : Stream) : Bytes :=
  Memory.load m.mem (m.inputBufBase i) (m.inputBuf i - m.inputBufBase i)

/-! ## The daemon with its memory -/

/-- The daemon; the field `inputBuf` of `state` is not used. -/
structure Daemon where
  state : State
  ram : Ram
  running : Bool

/-- The state of `Omap4.Aplogd.LogIo`. -/
def Daemon.view (p : Daemon) : State := { p.state with inputBuf := p.ram.contents }

/-- What does not concern the buffers. -/
def Daemon.lift (f : State → State) (p : Daemon) : Daemon := { p with state := f p.view }

/-- What follows the write loop. -/
def afterWrites (cfg : Config) (r : OutRes) (i : Stream) (p : Daemon) : Bool × State → Daemon
  | (false, s) => { p with state := s }
  | (true, s) =>
    if s.logfileMax ≤ s.totalWriteSize then
      Daemon.lift (rotateOutputs cfg r) { p with ram := p.ram.rewind i, state := s }
    else { p with ram := p.ram.rewind i, state := s }

/-- The write loop reads the bytes from `input_buf_base` on, which are those of the view. -/
def aplogdRambufOutput (cfg : Config) (r : OutRes) (i : Stream) (p : Daemon) : Daemon :=
  if p.ram.inputBufBase i = 0 ∨ ¬ 0 < aplogdRambufBytesFilled i p.ram then p
  else match p.state.outputFd i with
    | none => { p with ram := p.ram.rewind i }
    | some fd =>
      afterWrites cfg r i p (writeLoop fd i r.writes (aplogdRambufBytesFilled i p.ram).toNat p.view)

def aplogdRambufOutputall (cfg : Config) (r : FlushRes) (p : Daemon) : Daemon :=
  Stream.all.foldl (fun p i => aplogdRambufOutput cfg (r i) i p) p

def logfilterAndBuffering (i : Stream) (e : LogEntry) (p : Daemon) : Option ℕ × Daemon :=
  match e with
  | .filtered => (some 0, p)
  | .line b =>
    if (b.length : ℤ) < aplogdRambufSpace i p.ram % 2 ^ 32 then
      (some b.length, { p with ram := (p.ram.askSpace i).copy i b, state := acceptBytes i b p.state })
    else
      (none, { p with
        ram := p.ram.askSpace i
        state := { acceptBytes i b p.state with
          bytesLost := (p.state.bytesLost + b.length) % 2 ^ 32
          noSpace := true } })
  | _ => (none, p)

def flushAll (cfg : Config) (r : FlushRes) (p : Daemon) : Daemon :=
  { aplogdRambufOutputall cfg r p with
    state := { (aplogdRambufOutputall cfg r p).state with unwrittenBytes := 0, pollTimeout := -1 } }

def countUnwritten (cfg : Config) (r : FlushRes) (ret : ℕ) (p : Daemon) : Daemon :=
  if aplogdOutputBuffering ≤ p.state.unwrittenBytes + ret then flushAll cfg r p
  else { p with
    state := { p.state with unwrittenBytes := p.state.unwrittenBytes + ret, pollTimeout := 60000 } }

def readLog (cfg : Config) (i : Stream) : List (LogRead × FlushRes) → ℤ → Daemon → Daemon
  | [], _, p => p
  | (r, fl) :: rs, readableLogSize, p =>
    if readableLogSize ≤ 0 then p
    else match r with
      | .eintr => readLog cfg i rs readableLogSize p
      | .eagain => p
      | .fatal => { p with running := false }
      | .entry .unparsed => p
      | .entry e =>
        match logfilterAndBuffering i e p with
        | (none, p) => p
        | (some ret, p) => readLog cfg i rs (readableLogSize - ret) (countUnwritten cfg fl ret p)

def readKernel (cfg : Config) : List (KernelRead × FlushRes) → Daemon → Daemon
  | [], p => p
  | (⟨b, _⟩, fl) :: rs, p =>
    if b.length = 0 then p
    else if 0 < aplogdRambufSpace .kernel p.ram ∧ (b.length : ℤ) ≤ aplogdRambufSpace .kernel p.ram ∧
        b.length ≤ 255 then
      readKernel cfg rs (countUnwritten cfg fl b.length
        { p with ram := (p.ram.askSpace .kernel).copy .kernel b, state := acceptBytes .kernel b p.state })
    else { p with
      ram := p.ram.askSpace .kernel
      state := { acceptBytes .kernel b p.state with noSpace := true } }

def aplogdIoReadData (cfg : Config) (d : Reads) (slot : Slot) (p : Daemon) : Daemon :=
  match slot with
  | .log .kernel => readKernel cfg d.kernel p
  | .log i => readLog cfg i (d.log i).2 (d.log i).1 p
  | .vold => p.lift (readVold cfg d.vold)

def handleHangup (rev : Revents) (slot : Slot) (p : Daemon) : Daemon :=
  if p.running && (rev.pollerr || rev.pollhup) then p.lift (aplogdIoHandlePollerr slot) else p

def aplogdIoHandlePoll (cfg : Config) (d : Reads) (rev : Revents) (slot : Slot)
    (p : Daemon) : Daemon :=
  if (p.state.pollFd slot).isNone then p
  else handleHangup rev slot (if rev.pollin then aplogdIoReadData cfg d slot p else p)

def handleSlots (cfg : Config) (rev : Slot → Revents) (d : Reads) : List Slot → Daemon → Daemon
  | [], p => p
  | slot :: L, p =>
    if (aplogdIoHandlePoll cfg d (rev slot) slot p).running then
      handleSlots cfg rev d L (aplogdIoHandlePoll cfg d (rev slot) slot p)
    else aplogdIoHandlePoll cfg d (rev slot) slot p

/-- A timeout that `poll` cannot report ends the run. -/
def handlePollRes (cfg : Config) (r : PollRes) (p : Daemon) : Daemon :=
  match r with
  | .timeout r => if p.state.pollTimeout = -1 then { p with running := false } else flushAll cfg r p
  | .failed => p
  | .ready rev d => handleSlots cfg rev d Slot.all p

def connect (it : Iter) (p : Daemon) : Daemon := if p.running then p.lift (connectVold it) else p

/-- An iteration of the loop of `aplogd_log_io`, up to where the daemon exits. -/
def step (cfg : Config) (p : Daemon) (it : Iter) : Daemon :=
  if p.running then connect it (handlePollRes cfg it.poll (p.lift (reloadConfig cfg it))) else p

/-- The daemon before its loop, in the state that `aplogd_io_boot_finish` left. -/
def start (ram : Pointer) (mem : ℕ → UInt8) (s : State) : Daemon :=
  ⟨s, aplogdRambufInit ram mem, true⟩

def run (cfg : Config) (ram : Pointer) (mem : ℕ → UInt8) (s : State) (l : List Iter) : Daemon :=
  l.foldl (step cfg) (start ram mem s)

/-! ## The bounds -/

/-- The part of the allocation that belongs to a stream. -/
def regionStart (ram : Pointer) (i : Stream) : ℕ := ram.val + index i * aplogdRamBuffSize

/-- `start` to `stop` lies in the part of the stream. -/
def InRegion (ram : Pointer) (i : Stream) (start stop : ℕ) : Prop :=
  regionStart ram i ≤ start ∧ stop ≤ regionStart ram i + aplogdRamBuffSize

def Access.InBounds (ram : Pointer) : Access → Prop
  | .space _ len => 0 ≤ len
  | .copy i start len => InRegion ram i start (start + len)
  | .assign i p => InRegion ram i p p

structure Ok (ram : Pointer) (m : Ram) : Prop where
  base : ∀ i, m.inputBufBase i = regionStart ram i
  bounds : ∀ i, InRegion ram i (m.inputBuf i) (m.inputBuf i)
  log : ∀ a ∈ m.log, a.InBounds ram

theorem index_injective : Function.Injective index := by
  intro i j h
  cases i <;> cases j <;> first | rfl | cases h

/-- The regions are parts of the allocation. -/
theorem region_alloc (ram : Pointer) (i : Stream) :
    ram.val ≤ regionStart ram i ∧ regionStart ram i + aplogdRamBuffSize ≤ ram.val + allocSize := by
  have hle : index i ≤ aplogdInputLast := by cases i <;> decide
  simp only [regionStart, allocSize, aplogdRamBuffSize]
  omega

/-- The regions of two streams are disjoint. -/
theorem region_disjoint (ram : Pointer) {i j : Stream} (h : i ≠ j) :
    regionStart ram i + aplogdRamBuffSize ≤ regionStart ram j ∨
      regionStart ram j + aplogdRamBuffSize ≤ regionStart ram i := by
  have hne : index i ≠ index j := fun he => h (index_injective he)
  simp only [regionStart, aplogdRamBuffSize]
  omega

section Ram

variable {ram : Pointer} {m : Ram}

theorem ok_init (ram : Pointer) (mem : ℕ → UInt8) : Ok ram (aplogdRambufInit ram mem) where
  base _ := rfl
  bounds _ := ⟨le_rfl, Nat.le_add_right _ _⟩
  log := nofun

theorem Ok.bytesFilled (h : Ok ram m) (i : Stream) :
    aplogdRambufBytesFilled i m = (m.contents i).length := by
  have hb := (h.bounds i).1
  rw [← h.base] at hb
  simp only [aplogdRambufBytesFilled, Ram.contents, Memory.length_load]
  omega

theorem Ok.length_contents (h : Ok ram m) (i : Stream) :
    m.inputBuf i = regionStart ram i + (m.contents i).length ∧
      (m.contents i).length ≤ aplogdRamBuffSize := by
  obtain ⟨hge, hle⟩ := h.bounds i
  simp only [Ram.contents, Memory.length_load, h.base]
  omega

theorem Ok.space (h : Ok ram m) (i : Stream) :
    aplogdRambufSpace i m = aplogdRamBuffSize - (m.contents i).length := by
  have hle := (h.length_contents i).2
  unfold aplogdRambufSpace
  rw [h.bytesFilled, if_neg (by omega)]

theorem Ok.askSpace (h : Ok ram m) (i : Stream) : Ok ram (m.askSpace i) where
  base := h.base
  bounds := h.bounds
  log a ha := by
    rcases List.mem_append.mp ha with ha | ha
    · exact h.log a ha
    · rw [List.mem_singleton.mp ha]
      have hle := (h.length_contents i).2
      show 0 ≤ aplogdRambufSpace i m
      rw [h.space]
      omega

theorem Ok.rewind (h : Ok ram m) (i : Stream) : Ok ram (m.rewind i) := by
  have hstart : InRegion ram i (m.inputBufBase i) (m.inputBufBase i) := by
    rw [h.base]
    exact ⟨le_rfl, Nat.le_add_right _ _⟩
  refine ⟨h.base, fun j => ?_, fun a ha => ?_⟩
  · by_cases hj : j = i
    · subst hj
      simpa [Ram.rewind] using hstart
    · simpa [Ram.rewind, Function.update_of_ne hj] using h.bounds j
  · rcases List.mem_append.mp ha with ha | ha
    · exact h.log a ha
    · rw [List.mem_singleton.mp ha]
      exact hstart

theorem contents_rewind (m : Ram) (i : Stream) :
    (m.rewind i).contents = Function.update m.contents i [] := by
  funext j
  by_cases hj : j = i
  · subst hj
    simp [Ram.contents, Ram.rewind]
  · simp [Ram.contents, Ram.rewind, Function.update_of_ne hj]

/-- A copy that the space allows stays in the region of its stream. -/
theorem Ok.copy_end (h : Ok ram m) {i : Stream} {b : Bytes}
    (hb : (b.length : ℤ) ≤ aplogdRambufSpace i m) :
    InRegion ram i (m.inputBuf i) (m.inputBuf i + b.length) := by
  have hlen := (h.length_contents i).1
  rw [h.space] at hb
  unfold InRegion
  omega

theorem Ok.copy (h : Ok ram m) {i : Stream} {b : Bytes}
    (hb : (b.length : ℤ) ≤ aplogdRambufSpace i m) : Ok ram (m.copy i b) := by
  have hend := h.copy_end hb
  have hnew : InRegion ram i (m.inputBuf i + b.length) (m.inputBuf i + b.length) :=
    ⟨hend.1.trans (Nat.le_add_right _ _), hend.2⟩
  refine ⟨h.base, fun j => ?_, fun a ha => ?_⟩
  · by_cases hj : j = i
    · subst hj
      simpa [Ram.copy] using hnew
    · simpa [Ram.copy, Function.update_of_ne hj] using h.bounds j
  · rcases List.mem_append.mp ha with ha | ha
    · exact h.log a ha
    · rcases List.mem_pair.mp ha with rfl | rfl
      · exact hend
      · exact hnew

/-- The other streams' bytes are not touched. -/
theorem Ok.contents_copy (h : Ok ram m) {i : Stream} {b : Bytes}
    (hb : (b.length : ℤ) ≤ aplogdRambufSpace i m) :
    (m.copy i b).contents = Function.update m.contents i (m.contents i ++ b) := by
  have hend := h.copy_end hb
  funext j
  by_cases hj : j = i
  · subst hj
    have hfill : m.inputBuf j = m.inputBufBase j + (m.inputBuf j - m.inputBufBase j) := by
      have hge := (h.bounds j).1
      rw [← h.base] at hge
      omega
    have hsize : m.inputBuf j + b.length - m.inputBufBase j =
        m.inputBuf j - m.inputBufBase j + b.length := by omega
    rw [Function.update_self]
    simp only [Ram.contents, Ram.copy, Function.update_self]
    rw [hsize]
    nth_rewrite 1 [hfill]
    exact Memory.load_copyTo_end m.mem
  · rw [Function.update_of_ne hj]
    simp only [Ram.contents, Ram.copy, Function.update_of_ne hj]
    refine Memory.load_copyTo_of_disjoint m.mem ?_
    have hdisj := region_disjoint ram hj
    have hj' := h.bounds j
    have hbase := h.base j
    unfold InRegion at hend hj'
    omega

end Ram

/-! ## The simulation -/

/-- From `p`, the daemon gets to `q` where the model of `LogIo` gets to `s`. -/
structure Matches (ram : Pointer) (p q : Daemon) (s : State) : Prop where
  ok : Ok ram q.ram
  view : q.view = s
  running : q.running = p.running

variable {cfg : Config} {ram : Pointer} {p : Daemon}

theorem Matches.refl (h : Ok ram p.ram) : Matches ram p p p.view := ⟨h, rfl, rfl⟩

theorem Matches.lift (h : Ok ram p.ram) {f : State → State}
    (hf : ∀ s, (f s).inputBuf = s.inputBuf) :
    Matches ram p (p.lift f) (f p.view) where
  ok := h
  view := by
    show { f p.view with inputBuf := p.ram.contents } = f p.view
    have hbuf : p.ram.contents = (f p.view).inputBuf := (hf p.view).symm
    rw [hbuf]
  running := rfl

theorem writeLoop_inputBuf (fd : ℕ) (i : Stream) (ws : List WriteRes) (need : ℕ) (s : State) :
    (writeLoop fd i ws need s).2.inputBuf = s.inputBuf := by
  induction ws generalizing need s with
  | nil =>
    unfold writeLoop
    split_ifs <;> rfl
  | cons w ws ih =>
    unfold writeLoop
    split_ifs
    · rfl
    · cases w with
      | wrote n => exact ih ..
      | enospc | ebadf | error => rfl

/-- The view after the pointer was set back. -/
theorem view_rewind (i : Stream) {s : State} (hs : s.inputBuf = p.ram.contents) :
    Daemon.view { p with ram := p.ram.rewind i, state := s } = clearBuf i s := by
  unfold Daemon.view clearBuf
  rw [contents_rewind, hs]

theorem afterWrites_matches (h : Ok ram p.ram) (r : OutRes) (i : Stream) {x : Bool × State}
    (hx : x.2.inputBuf = p.ram.contents) :
    Matches ram p (afterWrites cfg r i p x) (Aplogd.afterWrites cfg r i x) := by
  obtain ⟨done, s⟩ := x
  cases done with
  | false =>
    refine ⟨h, ?_, rfl⟩
    show { s with inputBuf := p.ram.contents } = s
    rw [← show s.inputBuf = p.ram.contents from hx]
  | true =>
    have hview := view_rewind (p := p) i hx
    simp only [afterWrites, Aplogd.afterWrites]
    split_ifs
    · have hlift : Matches ram { p with ram := p.ram.rewind i, state := s }
        _ (rotateOutputs cfg r _) :=
        .lift (h.rewind i) (rotateOutputs_inputBuf r)
      exact ⟨hlift.ok, by rw [hlift.view, hview], rfl⟩
    · exact ⟨h.rewind i, hview, rfl⟩

theorem output_matches (h : Ok ram p.ram) (r : OutRes) (i : Stream) :
    Matches ram p (aplogdRambufOutput cfg r i p) (Aplogd.aplogdRambufOutput cfg r i p.view) := by
  have hbase : p.ram.inputBufBase i ≠ 0 := by
    have hpos := ram.property
    rw [h.base]
    unfold regionStart
    omega
  have hfill := h.bytesFilled i
  unfold aplogdRambufOutput Aplogd.aplogdRambufOutput
  by_cases hnil : p.ram.contents i = []
  · have hview : p.view.inputBuf i = [] := hnil
    rw [if_pos hview, if_pos (.inr (by rw [hfill, hnil]; simp))]
    exact Matches.refl h
  · have hview : ¬ p.view.inputBuf i = [] := hnil
    have hpos : 0 < aplogdRambufBytesFilled i p.ram := by
      rw [hfill]
      exact Int.natCast_pos.mpr (List.length_pos_iff.mpr hnil)
    rw [if_neg hview, if_neg (by simp [hbase, hpos]), hfill, Int.toNat_natCast]
    show Matches ram p (match p.view.outputFd i with | none => _ | some fd => _) _
    cases p.view.outputFd i with
    | none => exact ⟨h.rewind i, view_rewind (s := p.view) i rfl, rfl⟩
    | some fd => exact afterWrites_matches h r i (writeLoop_inputBuf ..)

theorem Matches.trans {q q' : Daemon} {s s' : State} (h : Matches ram p q s)
    (h' : Matches ram q q' s') : Matches ram p q' s' := ⟨h'.ok, h'.view, h'.running.trans h.running⟩

theorem outputall_matches (h : Ok ram p.ram) (r : FlushRes) :
    Matches ram p (aplogdRambufOutputall cfg r p) (Aplogd.aplogdRambufOutputall cfg r p.view) := by
  have key : ∀ (L : List Stream) (p : Daemon), Ok ram p.ram →
      Matches ram p (L.foldl (fun p i => aplogdRambufOutput cfg (r i) i p) p)
        (L.foldl (fun s i => Aplogd.aplogdRambufOutput cfg (r i) i s) p.view) := by
    intro L
    induction L with
    | nil => exact fun p h => .refl h
    | cons i L ih =>
      intro p h
      have ho : Matches ram p (aplogdRambufOutput cfg (r i) i p) _ := output_matches h (r i) i
      rw [List.foldl_cons, List.foldl_cons, ← ho.view]
      exact ho.trans (ih _ ho.ok)
  exact key Stream.all p h

theorem flushAll_matches (h : Ok ram p.ram) (r : FlushRes) :
    Matches ram p (flushAll cfg r p) (Aplogd.flushAll cfg r p.view) := by
  have ho : Matches ram p (aplogdRambufOutputall cfg r p) _ := outputall_matches h r
  unfold flushAll Aplogd.flushAll
  rw [← ho.view]
  generalize aplogdRambufOutputall cfg r p = q at ho
  exact ⟨ho.ok, rfl, ho.running⟩

theorem countUnwritten_matches (h : Ok ram p.ram) (r : FlushRes) (ret : ℕ) :
    Matches ram p (countUnwritten cfg r ret p) (Aplogd.countUnwritten cfg r ret p.view) := by
  unfold countUnwritten Aplogd.countUnwritten
  show Matches ram p (if _ then _ else _) (if aplogdOutputBuffering ≤ p.state.unwrittenBytes +
    ret then _ else _)
  split_ifs
  · exact flushAll_matches h r
  · exact ⟨h, rfl, rfl⟩

/-- The space as both models see it. -/
theorem space_view (h : Ok ram p.ram) (i : Stream) :
    aplogdRambufSpace i p.ram = Aplogd.aplogdRambufSpace i p.view := by
  have hle := (h.length_contents i).2
  have hview : p.view.inputBuf i = p.ram.contents i := rfl
  unfold Aplogd.aplogdRambufSpace
  rw [h.space, hview, if_neg (by omega)]

/-- A copy of bytes that were accepted. -/
theorem copy_matches (h : Ok ram p.ram) {i : Stream} {b : Bytes}
    (hb : (b.length : ℤ) ≤ aplogdRambufSpace i p.ram) :
    Matches ram p { p with ram := (p.ram.askSpace i).copy i b, state := acceptBytes i b p.state }
      (bufferBytes i b (acceptBytes i b p.view)) := by
  have hask := h.askSpace i
  refine ⟨hask.copy hb, ?_, rfl⟩
  unfold Daemon.view
  rw [hask.contents_copy hb]
  rfl

theorem logfilter_matches (h : Ok ram p.ram) (i : Stream) (e : LogEntry) :
    (logfilterAndBuffering i e p).1 = (Aplogd.logfilterAndBuffering i e p.view).1 ∧
      Matches ram p (logfilterAndBuffering i e p).2
      (Aplogd.logfilterAndBuffering i e p.view).2 := by
  cases e with
  | unparsed | filtered | formatFailed => exact ⟨rfl, .refl h⟩
  | line b =>
    have hle := (h.length_contents i).2
    have hspace := h.space i
    simp only [logfilterAndBuffering, Aplogd.logfilterAndBuffering, ← space_view h]
    split_ifs with hlt
    · refine ⟨rfl, copy_matches h ?_⟩
      rw [Int.emod_eq_of_lt (by omega) (by rw [hspace]; simp only [aplogdRamBuffSize]; omega)] at hlt
      exact hlt.le
    · exact ⟨rfl, h.askSpace i, rfl, rfl⟩

/-! ### What may end the daemon -/

/-- The daemon in `q`, where the model of `LogIo` has the result `o`. -/
structure Simulates (ram : Pointer) (q : Daemon) (o : Option State) : Prop where
  ok : Ok ram q.ram
  result : o = if q.running then some q.view else none

theorem Simulates.refl (h : Ok ram p.ram) (hp : p.running = true) : Simulates ram p (some p.view) :=
  ⟨h, by rw [if_pos hp]⟩

/-- A daemon that has ended. -/
theorem Simulates.ended (h : Ok ram p.ram) (hp : ¬ p.running = true) : Simulates ram p none :=
  ⟨h, by rw [if_neg hp]⟩

theorem Matches.simulates {q : Daemon} {s : State} (h : Matches ram p q s) (hp : p.running = true) :
    Simulates ram q (some s) where
  ok := h.ok
  result := by rw [if_pos (h.running.trans hp), h.view]

/-- An entry that was parsed and is not put into the buffer ends the loop. -/
theorem readLog_entry_none {i : Stream} {e : LogEntry} {fl : FlushRes}
    {rs : List (LogRead × FlushRes)} {n : ℤ} {q : Daemon} {s t : State} (hn : ¬ n ≤ 0)
    (he : e ≠ .unparsed) (hq : logfilterAndBuffering i e p = (none, q))
    (ht : Aplogd.logfilterAndBuffering i e s = (none, t)) :
    readLog cfg i ((.entry e, fl) :: rs) n p = q ∧
      Aplogd.readLog cfg i ((.entry e, fl) :: rs) n s = some t := by
  cases e with
  | unparsed => exact absurd rfl he
  | filtered | formatFailed | line b =>
    simp only [readLog, Aplogd.readLog, if_neg hn, hq, ht, and_self]

theorem readLog_entry_some {i : Stream} {e : LogEntry} {fl : FlushRes}
    {rs : List (LogRead × FlushRes)} {n : ℤ} {q : Daemon} {s t : State} {ret : ℕ} (hn : ¬ n ≤ 0)
    (he : e ≠ .unparsed) (hq : logfilterAndBuffering i e p = (some ret, q))
    (ht : Aplogd.logfilterAndBuffering i e s = (some ret, t)) :
    readLog cfg i ((.entry e, fl) :: rs) n p = readLog cfg i rs (n - ret)
    (countUnwritten cfg fl ret q) ∧
      Aplogd.readLog cfg i ((.entry e, fl) :: rs) n s =
        Aplogd.readLog cfg i rs (n - ret) (Aplogd.countUnwritten cfg fl ret t) := by
  cases e with
  | unparsed => exact absurd rfl he
  | filtered | formatFailed | line b =>
    simp only [readLog, Aplogd.readLog, if_neg hn, hq, ht, and_self]

theorem readLog_simulates (i : Stream) (rs : List (LogRead × FlushRes)) (n : ℤ) (h : Ok ram p.ram)
    (hp : p.running = true) :
    Simulates ram (readLog cfg i rs n p) (Aplogd.readLog cfg i rs n p.view) := by
  induction rs generalizing n p with
  | nil => exact .refl h hp
  | cons x rs ih =>
    obtain ⟨r, fl⟩ := x
    by_cases hn : n ≤ 0
    · simp only [readLog, Aplogd.readLog, if_pos hn]
      exact .refl h hp
    have hentry : ∀ e, e ≠ .unparsed → Simulates ram (readLog cfg i ((.entry e, fl) :: rs) n p)
        (Aplogd.readLog cfg i ((.entry e, fl) :: rs) n p.view) := by
      intro e he
      obtain ⟨hret, hm⟩ := logfilter_matches h i e
      obtain ⟨⟨ret, q⟩, hq⟩ : ∃ x, logfilterAndBuffering i e p = x := ⟨_, rfl⟩
      obtain ⟨⟨ret', t⟩, ht⟩ : ∃ y, Aplogd.logfilterAndBuffering i e p.view = y := ⟨_, rfl⟩
      rw [hq, ht] at hret hm
      obtain rfl : ret = ret' := hret
      cases ret with
      | none =>
        have hread : readLog cfg i ((.entry e, fl) :: rs) n p = q ∧ _ :=
          readLog_entry_none hn he hq ht
        rw [hread.1, hread.2]
        exact hm.simulates hp
      | some ret =>
        have hread : readLog cfg i ((.entry e, fl) :: rs) n p = _ ∧ _ :=
          readLog_entry_some hn he hq ht
        have hc : Matches ram q (countUnwritten cfg fl ret q) _ :=
          countUnwritten_matches hm.ok fl ret
        rw [hread.1, hread.2, ← show q.view = t from hm.view, ← hc.view]
        exact ih _ hc.ok (hc.running.trans (hm.running.trans hp))
    cases r with
    | eintr =>
      simp only [readLog, Aplogd.readLog, if_neg hn]
      exact ih n h hp
    | eagain =>
      simp only [readLog, Aplogd.readLog, if_neg hn]
      exact .refl h hp
    | fatal =>
      simp only [readLog, Aplogd.readLog, if_neg hn]
      exact .ended h Bool.false_ne_true
    | entry e =>
      by_cases he : e = .unparsed
      · subst he
        simp only [readLog, Aplogd.readLog, if_neg hn]
        exact .refl h hp
      · exact hentry e he

theorem readKernel_matches (rs : List (KernelRead × FlushRes)) (h : Ok ram p.ram) :
    Matches ram p (readKernel cfg rs p) (Aplogd.readKernel cfg rs p.view) := by
  induction rs generalizing p with
  | nil => exact .refl h
  | cons x rs ih =>
    obtain ⟨⟨b, hb⟩, fl⟩ := x
    unfold readKernel Aplogd.readKernel
    rw [← space_view h]
    split_ifs with hlen hroom
    · exact .refl h
    · have hcopy := copy_matches h hroom.2.1
      have hcount : Matches ram _ (countUnwritten cfg fl b.length _) _ :=
        countUnwritten_matches hcopy.ok fl b.length
      rw [← hcopy.view, ← hcount.view]
      exact hcopy.trans (hcount.trans (ih hcount.ok))
    · exact ⟨h.askSpace .kernel, rfl, rfl⟩

/-! ### What does not concern the buffers -/

theorem outputSetup_inputBuf (r : SetupRes) (st : Storage) (s : State) :
    (aplogdOutputSetup cfg r st s).inputBuf = s.inputBuf :=
  congrArg Logs.inputBuf (aplogdOutputSetup_logs r st s)

theorem switchStorage_inputBuf (r : SwitchRes) (old new : Storage) (s : State) :
    (switchStorage cfg r old new s).inputBuf = s.inputBuf := by
  unfold switchStorage
  split_ifs
  · exact outputSetup_inputBuf r.new new _
  · exact (outputSetup_inputBuf r.old old _).trans (outputSetup_inputBuf r.new new _)

theorem logSave_inputBuf (r : SaveRes) (st : Storage) (s : State) :
    (aplogdLogSave cfg r st s).inputBuf = s.inputBuf :=
  congrArg Logs.inputBuf (aplogdLogSave_logs r st s)

theorem moveLogs_inputBuf (o : Stream → MoveOpens) (old new : Storage) (s : State) :
    (aplogdMoveLogs cfg o old new s).inputBuf = s.inputBuf := by
  obtain ⟨kern, files, hmove⟩ : ∃ kern files, aplogdMoveLogs cfg o old new s = _ :=
    aplogdMoveLogs_frame o old new s
  rw [hmove]

theorem storageMounted_inputBuf (r : MountRes) (st : Storage) (switches : Bool) (s : State) :
    (storageMounted cfg r st switches s).inputBuf = s.inputBuf := by
  unfold storageMounted moveAndSwitch
  split_ifs
  · exact (switchStorage_inputBuf ..).trans ((moveLogs_inputBuf ..).trans (logSave_inputBuf ..))
  · exact (switchStorage_inputBuf ..).trans (logSave_inputBuf ..)
  · exact logSave_inputBuf ..

theorem readVold_inputBuf (r : VoldRes) (s : State) : (readVold cfg r s).inputBuf = s.inputBuf := by
  have hsec : (secondaryMounted cfg r s).inputBuf = s.inputBuf := by
    unfold secondaryMounted
    split_ifs
    · exact storageMounted_inputBuf ..
    · rfl
  have hleave : ∀ s, (secondaryUnmounted cfg r s).inputBuf = s.inputBuf := by
    intro s
    unfold secondaryUnmounted leaveSecondary
    split_ifs
    · exact (switchStorage_inputBuf ..).trans (switchStorage_inputBuf ..)
    · exact switchStorage_inputBuf ..
    · rfl
  have hext : ∀ s, (externalMounted cfg r s).inputBuf = s.inputBuf := by
    intro s
    unfold externalMounted
    split_ifs
    · exact storageMounted_inputBuf ..
    · rfl
  have hgone : ∀ s, (externalUnmounted cfg r s).inputBuf = s.inputBuf := by
    intro s
    unfold externalUnmounted
    split_ifs
    · exact switchStorage_inputBuf ..
    · rfl
  unfold readVold
  rw [hgone, hext, hleave, hsec]

theorem handlePollerr_inputBuf (slot : Slot) (s : State) :
    (aplogdIoHandlePollerr slot s).inputBuf = s.inputBuf := by
  unfold aplogdIoHandlePollerr
  split <;> rfl

theorem reloadConfig_inputBuf (it : Iter) (s : State) :
    (reloadConfig cfg it s).inputBuf = s.inputBuf := by
  unfold reloadConfig
  split
  · show (State.inputBuf (if _ then _ else _)) = _
    split_ifs
    · rfl
    · exact switchStorage_inputBuf ..
  · rfl

theorem connectVold_inputBuf (it : Iter) (s : State) :
    (connectVold it s).inputBuf = s.inputBuf := by
  unfold connectVold
  split_ifs
  · exact congrArg Logs.inputBuf (openInput_logs ..)
  · rfl

/-! ### The loop -/

theorem readData_simulates (d : Reads) (slot : Slot) (h : Ok ram p.ram) (hp : p.running = true) :
    Simulates ram (aplogdIoReadData cfg d slot p) (Aplogd.aplogdIoReadData cfg d slot p.view) := by
  cases slot with
  | log i =>
    cases i with
    | kernel => exact (readKernel_matches d.kernel h).simulates hp
    | main => exact readLog_simulates .main _ _ h hp
    | radio => exact readLog_simulates .radio _ _ h hp
    | events => exact readLog_simulates .events _ _ h hp
    | system => exact readLog_simulates .system _ _ h hp
  | vold => exact (Matches.lift h (readVold_inputBuf d.vold)).simulates hp

theorem handleHangup_simulates (rev : Revents) (slot : Slot) {o : Option State}
    (h : Simulates ram p o) :
    Simulates ram (handleHangup rev slot p)
      (o.map fun s => if rev.pollerr || rev.pollhup then aplogdIoHandlePollerr slot s else s) := by
  rw [h.result]
  unfold handleHangup
  by_cases hp : p.running = true
  · rw [if_pos hp, hp, Bool.true_and, Option.map_some]
    split_ifs
    · exact (Matches.lift h.ok (handlePollerr_inputBuf slot)).simulates hp
    · exact .refl h.ok hp
  · rw [if_neg hp, if_neg (by simp [hp])]
    exact .ended h.ok hp

theorem handlePoll_simulates (d : Reads) (rev : Revents) (slot : Slot) (h : Ok ram p.ram)
    (hp : p.running = true) :
    Simulates ram (aplogdIoHandlePoll cfg d rev slot p)
      (Aplogd.aplogdIoHandlePoll cfg d rev slot p.view) := by
  unfold aplogdIoHandlePoll Aplogd.aplogdIoHandlePoll
  by_cases hnone : (p.state.pollFd slot).isNone = true
  · have hview : (p.view.pollFd slot).isNone = true := hnone
    rw [if_pos hnone, if_pos hview]
    exact .refl h hp
  · have hview : ¬ (p.view.pollFd slot).isNone = true := hnone
    rw [if_neg hnone, if_neg hview]
    refine handleHangup_simulates rev slot ?_
    split_ifs
    · exact readData_simulates d slot h hp
    · exact .refl h hp

theorem handleSlots_simulates (rev : Slot → Revents) (d : Reads) (L : List Slot) (h : Ok ram p.ram)
    (hp : p.running = true) :
    Simulates ram (handleSlots cfg rev d L p) (Aplogd.handleSlots cfg rev d L p.view) := by
  induction L generalizing p with
  | nil => exact .refl h hp
  | cons slot L ih =>
    have hs : Simulates ram (aplogdIoHandlePoll cfg d (rev slot) slot p) _ :=
      handlePoll_simulates d (rev slot) slot h hp
    unfold handleSlots Aplogd.handleSlots
    rw [hs.result]
    split_ifs with hq
    · exact ih hs.ok hq
    · exact .ended hs.ok hq

theorem handlePollRes_simulates (r : PollRes) (h : Ok ram p.ram) (hp : p.running = true) :
    Simulates ram (handlePollRes cfg r p) (Aplogd.handlePollRes cfg r p.view) := by
  cases r with
  | timeout r =>
    show Simulates ram (if _ then _ else _) (if p.state.pollTimeout = -1 then none else _)
    split_ifs
    · exact .ended h Bool.false_ne_true
    · exact (flushAll_matches h r).simulates hp
  | failed => exact .refl h hp
  | ready rev d => exact handleSlots_simulates rev d Slot.all h hp

/-- **Step lemma**: an iteration does to the memory what the model of `LogIo` does to its lists. -/
theorem step_simulates (it : Iter) (h : Ok ram p.ram) (hp : p.running = true) :
    Simulates ram (step cfg p it) (aplogdLogIo cfg p.view it) := by
  have hreload : Matches ram p (p.lift (reloadConfig cfg it)) _ :=
    .lift h (reloadConfig_inputBuf it)
  have hpoll : Simulates ram (handlePollRes cfg it.poll (p.lift (reloadConfig cfg it))) _ :=
    handlePollRes_simulates it.poll hreload.ok (hreload.running.trans hp)
  unfold step aplogdLogIo connect
  rw [if_pos hp, ← hreload.view, hpoll.result]
  split_ifs with hq
  · exact (Matches.lift hpoll.ok (connectVold_inputBuf it)).simulates hq
  · exact .ended hpoll.ok hq

/-- The iterations `l`, whether or not the daemon is still there. -/
theorem foldl_simulates {o : Option State} (l : List Iter) (h : Simulates ram p o) :
    Simulates ram (l.foldl (step cfg) p) (o.bind fun s => Machine.exec (aplogdLogIo cfg) s l) := by
  induction l generalizing p o with
  | nil =>
    have hend : (o.bind fun s => Machine.exec (aplogdLogIo cfg) s []) = o := Option.bind_fun_some o
    rw [hend]
    exact h
  | cons it l ih =>
    have hstep : Simulates ram (step cfg p it) (o.bind fun s => aplogdLogIo cfg s it) := by
      rw [h.result]
      by_cases hp : p.running = true
      · rw [if_pos hp]
        exact step_simulates it h.ok hp
      · rw [if_neg hp, step, if_neg hp]
        exact .ended h.ok hp
    have hl := ih hstep
    rw [Option.bind_assoc] at hl
    exact hl

/-- **Run lemma**: from start-up on, the memory holds the lists of `Omap4.Aplogd.LogIo`. -/
theorem run_simulates (ram : Pointer) (mem : ℕ → UInt8) {kern : FdTable Desc}
    {files : CStr → FileMap LogFile Bytes} {r : BootRes} {s : State}
    (hboot : aplogdIoBootFinish cfg r (State.start kern files) = some s) (l : List Iter) :
    Simulates ram (run cfg ram mem s l) (Machine.exec (aplogdLogIo cfg) s l) := by
  have hempty : (start ram mem s).ram.contents = s.inputBuf := by
    rw [show s.inputBuf = _ from congrArg Logs.inputBuf (aplogdIoBootFinish_logs hboot)]
    funext i
    simp [start, Ram.contents, aplogdRambufInit, State.logs, State.start]
  have hview : (start ram mem s).view = s := by
    show { s with inputBuf := (start ram mem s).ram.contents } = s
    rw [hempty]
  have hstart : Simulates ram (start ram mem s) (some s) := ⟨ok_init ram mem, by rw [hview]; rfl⟩
  exact foldl_simulates l hstart

/-! ## The bounds in every state -/

/-- The buffers are where they belong: the pointers, the space that is left, the regions of the
allocation, and everything on the record. -/
structure Bounds (ram : Pointer) (m : Ram) : Prop where
  pointers : ∀ i, m.inputBufBase i ≤ m.inputBuf i ∧ m.inputBuf i ≤ m.inputBufBase i +
    aplogdRamBuffSize
  space : ∀ i, aplogdRambufSpace i m ≠ -1
  alloc : ∀ i, ram.val ≤ m.inputBufBase i ∧ m.inputBufBase i + aplogdRamBuffSize ≤ ram.val +
    allocSize
  disjoint : ∀ i j, i ≠ j → m.inputBufBase i + aplogdRamBuffSize ≤ m.inputBufBase j ∨
    m.inputBufBase j + aplogdRamBuffSize ≤ m.inputBufBase i
  log : ∀ a ∈ m.log, a.InBounds ram

theorem Ok.toBounds {m : Ram} (h : Ok ram m) : Bounds ram m where
  pointers i := by
    rw [h.base]
    exact h.bounds i
  space i := by
    have hle := (h.length_contents i).2
    rw [h.space]
    omega
  alloc i := by
    rw [h.base]
    exact region_alloc ram i
  disjoint i j hij := by
    rw [h.base, h.base]
    exact region_disjoint ram hij
  log := h.log

/-- **The buffers stay in bounds**: after any iterations of the main loop, in whatever state it
starts and whatever the calls in it return.  The record makes this a statement about every state in
between too. -/
theorem rambuf_in_bounds (cfg : Config) (ram : Pointer) (mem : ℕ → UInt8) (s : State)
    (l : List Iter) :
    Bounds ram (run cfg ram mem s l).ram := by
  have hstart : Simulates ram (start ram mem s) (some (start ram mem s).view) :=
    ⟨ok_init ram mem, rfl⟩
  have hrun : Simulates ram (run cfg ram mem s l) _ := foldl_simulates l hstart
  exact hrun.ok.toBounds

end Omap4.Aplogd.Rambuf
