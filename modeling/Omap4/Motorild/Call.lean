import Mathlib.Data.List.Basic
import Mathlib.Data.List.TakeWhile
import Omap4.Transfer

/-!
# Omap4.Motorild.Call — the calls that motorilc makes to motorild

`motorilc` fills a `struct motoril_call` from its arguments and writes it to the socket; `motorild`
serves one connection after the other and reads each into the same `call`.  The kernel may cut the
writes and the reads at any byte, and a connection may end before the record has arrived.

`motorild_executes` says that none of this is visible: for every connection the command of its
client is executed, or nothing.
-/

namespace Omap4.Motorild

/-! ## The record -/

inductive MotorilCmd
  | route
  | ring
deriving DecidableEq, Repr

def MotorilCmd.value : MotorilCmd → ℕ
  | .route => 0
  | .ring => 1

/-- The length of `dev` and of `gw`. -/
def fieldSize : ℕ := 64

/-- `struct motoril_call`. -/
structure MotorilCall where
  cmd : MotorilCmd
  dev : List UInt8
  gw : List UInt8
  dev_length : dev.length = fieldSize
  gw_length : gw.length = fieldSize

/-- The bytes of an `int`, the lowest first. -/
def le32 (n : ℕ) : List UInt8 :=
  [n.toUInt8, (n / 256).toUInt8, (n / 65536).toUInt8, (n / 16777216).toUInt8]

def ofLe (bytes : List UInt8) : ℕ := bytes.foldr (fun b n => b.toNat + 256 * n) 0

/-- The record as it stands in memory. -/
def MotorilCall.bytes (call : MotorilCall) : List UInt8 :=
  le32 call.cmd.value ++ call.dev ++ call.gw

/-- `sizeof(struct motoril_call)`. -/
def sizeofCall : ℕ := 132

theorem MotorilCall.length_bytes (call : MotorilCall) : call.bytes.length = sizeofCall := by
  simp [bytes, le32, call.dev_length, call.gw_length, fieldSize, sizeofCall]

/-- The string that starts at the first byte. -/
def cString (buf : List UInt8) : List UInt8 := buf.takeWhile (· ≠ 0)

/-! ## The client -/

/-- An argument of a program: a string without NUL. -/
structure Arg where
  bytes : List UInt8
  noNul : 0 ∉ bytes

/-- `strncpy(dst, src, n)`. -/
def strncpy (dst src : List UInt8) (n : ℕ) : List UInt8 :=
  src.take n ++ List.replicate (n - src.length) 0 ++ dst.drop n

theorem length_strncpy {dst : List UInt8} (src : List UInt8) {n : ℕ} (h : n ≤ dst.length) :
    (strncpy dst src n).length = dst.length := by
  simp only [strncpy, List.length_append, List.length_take, List.length_replicate, List.length_drop]
  omega

/-- The record after `memset`. -/
def zeroed : MotorilCall where
  cmd := .route
  dev := List.replicate fieldSize 0
  gw := List.replicate fieldSize 0
  dev_length := List.length_replicate
  gw_length := List.length_replicate

/-- `"ring"`. -/
def ringArg : List UInt8 := [114, 105, 110, 103]

/-- The record for the arguments, or none if they are not accepted. -/
def parseArgs : List Arg → Option MotorilCall
  | [arg] => if arg.bytes = ringArg then some { zeroed with cmd := .ring } else none
  | [dev, gw] => some
    { cmd := .route
      dev := strncpy zeroed.dev dev.bytes (fieldSize - 1)
      gw := strncpy zeroed.gw gw.bytes (fieldSize - 1)
      dev_length := (length_strncpy _ (by decide)).trans zeroed.dev_length
      gw_length := (length_strncpy _ (by decide)).trans zeroed.gw_length }
  | _ => none

/-! ## The server -/

inductive Command
  | setGw (iface gw : List UInt8)
  | ring
deriving DecidableEq, Repr

inductive Reply
  | ok
  | ko
deriving DecidableEq, Repr

/-- A client that has connected: its arguments were accepted.  `writes` and `reads` say how much the
calls of the client and of the server may transfer, `status` what `set_gw` returns. -/
structure Connection where
  argv : List Arg
  call : MotorilCall
  accepted : parseArgs argv = some call
  writes : List ℕ
  reads : List ℕ
  status : ℤ := 0

/-- What was done for a connection: the command that was executed, and the reply. -/
structure Outcome where
  executed : Option Command := none
  reply : Option Reply := none
deriving DecidableEq, Repr

/-- The `switch` over `call.cmd`: the command, and what it returns. -/
def execute (call : List UInt8) (status : ℤ) : Option Command × ℤ :=
  match ofLe (call.take 4) with
  | 0 => (some (.setGw (cString (call.drop 4)) (cString (call.drop 68))), status)
  | 1 => (some .ring, 0)
  | _ => (none, 1)

/-- One turn of the loop: the buffer afterwards, and what was done. -/
def serve (call : List UInt8) (c : Connection) : List UInt8 × Outcome :=
  match Transfer.receive sizeofCall c.reads (Transfer.send c.call.bytes 0 c.writes) 0 call with
  | (pos, call) =>
    if pos < sizeofCall then (call, {})
    else (call, ⟨(execute call c.status).1, some (if (execute call c.status).2 = 0 then .ok else .ko)⟩)

def serveAll : List UInt8 → List Connection → List Outcome
  | _, [] => []
  | call, c :: cs => (serve call c).2 :: serveAll (serve call c).1 cs

/-! ## What was asked for -/

/-- The command that the arguments of an accepted client ask for. -/
def requested : List Arg → Option Command
  | [_] => some .ring
  | [dev, gw] => some (.setGw dev.bytes gw.bytes)
  | _ => none

/-- The bytes of the record that arrive at the server. -/
def Connection.arrived (c : Connection) : ℕ := min (min c.reads.sum c.writes.sum) sizeofCall

/-! ## The record is read back -/

theorem cString_append_zero {text : List UInt8} (h : 0 ∉ text) (rest : List UInt8) :
    cString (text ++ 0 :: rest) = text := by
  have hne : ∀ b ∈ text, decide (b ≠ 0) = true := by
    intro b hb
    rw [decide_eq_true_eq]
    rintro rfl
    exact h hb
  rw [cString, List.takeWhile_append_of_pos hne, List.takeWhile_cons_of_neg (by simp),
    List.append_nil]

/-- A field that was cleared keeps a NUL behind the string that is copied to it. -/
theorem cString_strncpy {src : List UInt8} (h : 0 ∉ src) (hlen : src.length ≤ fieldSize - 1)
    (rest : List UInt8) :
    cString (strncpy (List.replicate fieldSize 0) src (fieldSize - 1) ++ rest) = src := by
  have hzeros : ∃ tail, List.replicate (fieldSize - 1 - src.length) (0 : UInt8) ++
      (List.replicate fieldSize 0).drop (fieldSize - 1) ++ rest = 0 :: tail := by
    cases fieldSize - 1 - src.length with
    | zero => exact ⟨rest, rfl⟩
    | succ k => exact ⟨_, rfl⟩
  obtain ⟨tail, htail⟩ := hzeros
  unfold strncpy
  rw [List.append_assoc, List.append_assoc, ← List.append_assoc (List.replicate _ _), htail,
    List.take_of_length_le hlen]
  exact cString_append_zero h tail

@[simp] theorem ofLe_value (cmd : MotorilCmd) : ofLe (le32 cmd.value) = cmd.value := by
  cases cmd <;> rfl

theorem MotorilCall.take_bytes (call : MotorilCall) : call.bytes.take 4 = le32 call.cmd.value := by
  rw [bytes, List.append_assoc]
  exact List.take_left' rfl

theorem MotorilCall.drop_bytes_dev (call : MotorilCall) :
    call.bytes.drop 4 = call.dev ++ call.gw := by
  rw [bytes, List.append_assoc]
  exact List.drop_left' rfl

theorem MotorilCall.drop_bytes_gw (call : MotorilCall) : call.bytes.drop 68 = call.gw := by
  have hlen : (le32 call.cmd.value ++ call.dev).length = 68 := by
    simp [le32, call.dev_length, fieldSize]
  rw [bytes, ← hlen, List.drop_left]

/-- The record of a client whose arguments fit is executed as what they ask for. -/
theorem execute_bytes {argv : List Arg} {call : MotorilCall} (h : parseArgs argv = some call)
    (hfits : ∀ a ∈ argv, a.bytes.length ≤ 63) (status : ℤ) :
    (execute call.bytes status).1 = requested argv := by
  unfold execute
  rw [call.take_bytes, ofLe_value, call.drop_bytes_dev, call.drop_bytes_gw]
  match argv, h with
  | [arg], h =>
    simp only [parseArgs] at h
    split_ifs at h
    cases h
    rfl
  | [dev, gw], h =>
    cases h
    have hdev := cString_strncpy dev.noNul (hfits dev (by simp))
      (strncpy zeroed.gw gw.bytes (fieldSize - 1))
    have hgw := cString_strncpy gw.noNul (hfits gw (by simp)) []
    rw [List.append_nil] at hgw
    exact congrArg some (congrArg₂ Command.setGw hdev hgw)

/-! ## One connection, and all of them -/

/-- One connection: the buffer keeps its length, and the outcome does not depend on what it held. -/
theorem serve_eq {call : List UInt8} (hcall : call.length = sizeofCall) {c : Connection}
    (hfits : ∀ a ∈ c.argv, a.bytes.length ≤ 63) (hpos : ∀ n ∈ c.reads, 0 < n) :
    (serve call c).1.length = sizeofCall ∧
      (serve call c).2.executed = if c.arrived = sizeofCall then requested c.argv else none := by
  have hrec := c.call.length_bytes
  unfold serve
  by_cases hall : c.arrived = sizeofCall
  · have hsum : sizeofCall ≤ min c.reads.sum c.writes.sum := by
      unfold Connection.arrived at hall
      omega
    rw [Transfer.receive_send_complete hpos hrec hcall (by omega) (by omega), if_pos hall]
    exact ⟨hrec, execute_bytes c.accepted hfits c.status⟩
  · have hpos' : (Transfer.receive sizeofCall c.reads (Transfer.send c.call.bytes 0 c.writes) 0 call).1 <
        sizeofCall := by
      rw [Transfer.receive_send hpos hrec hcall]
      unfold Connection.arrived at hall
      show min _ _ < _
      omega
    simp only [if_pos hpos', if_neg hall]
    exact ⟨Transfer.length_receive_send hpos hrec hcall, trivial⟩

/-- **The server executes what the clients ask for**: for all connections, however their writes and
reads are cut and whatever the buffer held at first, a connection whose record arrives has the
command of its client executed, with its strings, and one that ends before has none. -/
theorem motorild_executes {call : List UInt8} (hcall : call.length = sizeofCall)
    (cs : List Connection) (hfits : ∀ c ∈ cs, ∀ a ∈ c.argv, a.bytes.length ≤ 63)
    (hpos : ∀ c ∈ cs, ∀ n ∈ c.reads, 0 < n) :
    (serveAll call cs).map Outcome.executed =
      cs.map fun c => if c.arrived = sizeofCall then requested c.argv else none := by
  induction cs generalizing call with
  | nil => rfl
  | cons c cs ih =>
    obtain ⟨hlen, hexec⟩ := serve_eq hcall (hfits c (by simp)) (hpos c (by simp))
    have hrest := ih hlen (fun d hd => hfits d (by simp [hd])) (fun d hd => hpos d (by simp [hd]))
    rw [serveAll, List.map_cons, List.map_cons, hexec, hrest]

/-- The interface `ppp0` and the gateway `1.1`. -/
def routeArgs : List Arg := [⟨[112, 112, 112, 48], by decide⟩, ⟨[49, 46, 49], by decide⟩]

/-- A call that breaks off after 70 bytes, then a whole one in three writes and four reads, then a
ring. -/
theorem motorild_executes_after_break :
    (serveAll (List.replicate sizeofCall 255)
      [⟨routeArgs, _, rfl, [70], [60, 60, 60], 0⟩,
        ⟨routeArgs, _, rfl, [1, 100, 40], [3, 1, 120, 9], 2⟩,
        ⟨[⟨ringArg, by decide⟩], _, rfl, [132], [132], 0⟩]).map Outcome.executed =
          [none, some (.setGw [112, 112, 112, 48] [49, 46, 49]), some .ring] :=
  (motorild_executes List.length_replicate _ (by decide) (by decide)).trans (by decide)

end Omap4.Motorild
