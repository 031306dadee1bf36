import Mathlib.Algebra.Order.Ring.Nat
import Mathlib.Data.List.Basic
import Mathlib.Tactic.SplitIfs

/-!
# Omap4.Transfer — a record of fixed size over a stream with partial transfers

The writer puts a record on a stream, the reader fills a buffer from it; both loop until all is
done, and each call transfers as much as the system likes.  `ns` lists how much the calls of one
side may transfer; a loop whose list is used up ends early.  `send_eq` and `receive_eq` say that the
way the record is cut up does not matter: only the sums count.

A writer that starts each of its calls at the beginning of the record puts the record on the stream
only where the pieces happen to repeat its beginning (`resend_eq_iff`).
-/

namespace Omap4.Transfer

variable {α : Type}

/-- What the loop that writes `record` from `pos` on puts on the stream. -/
def send (record : List α) : ℕ → List ℕ → List α
  | _, [] => []
  | pos, n :: ns =>
    if pos < record.length then
      (record.drop pos).take n ++ send record (pos + min n (record.length - pos)) ns
    else []

/-- The buffer with `chunk` at `pos`. -/
def store (buf : List α) (pos : ℕ) (chunk : List α) : List α :=
  buf.take pos ++ chunk ++ buf.drop (pos + chunk.length)

/-- The loop that reads into a buffer of `size` elements from `pos` on: the position it ends at, and
the buffer.  A read that gets nothing finds the stream closed. -/
def receive (size : ℕ) : List ℕ → List α → ℕ → List α → ℕ × List α
  | [], _, pos, buf => (pos, buf)
  | n :: ns, stream, pos, buf =>
    if (stream.take (min n (size - pos))).isEmpty then (pos, buf)
    else if pos + (stream.take (min n (size - pos))).length < size then
      receive size ns (stream.drop (min n (size - pos)))
        (pos + (stream.take (min n (size - pos))).length)
        (store buf pos (stream.take (min n (size - pos))))
    else
      (pos + (stream.take (min n (size - pos))).length,
        store buf pos (stream.take (min n (size - pos))))

theorem send_eq (record : List α) (pos : ℕ) (ns : List ℕ) :
    send record pos ns = (record.drop pos).take ns.sum := by
  induction ns generalizing pos with
  | nil => simp [send]
  | cons n ns ih =>
    unfold send
    split_ifs with hpos
    · have hcut : record.drop (pos + min n (record.length - pos)) = (record.drop pos).drop n := by
        rw [List.drop_drop]
        rcases Nat.le_total n (record.length - pos) with hle | hle
        · rw [Nat.min_eq_left hle]
        · rw [Nat.min_eq_right hle, List.drop_of_length_le (by omega),
            List.drop_of_length_le (by omega)]
      rw [ih, hcut, List.sum_cons, List.take_add]
    · rw [List.drop_of_length_le (by omega), List.take_nil]

/-! ## Stores -/

@[simp] theorem store_nil (buf : List α) (pos : ℕ) : store buf pos [] = buf := by
  simp [store]

theorem length_store {buf chunk : List α} {pos : ℕ} (h : pos + chunk.length ≤ buf.length) :
    (store buf pos chunk).length = buf.length := by
  simp only [store, List.length_append, List.length_take, List.length_drop]
  omega

/-- Two stores next to each other are one. -/
theorem store_store {buf a b : List α} {pos : ℕ} (h : pos ≤ buf.length) :
    store (store buf pos a) (pos + a.length) b = store buf pos (a ++ b) := by
  have hlen : (buf.take pos ++ a).length = pos + a.length := by
    rw [List.length_append, List.length_take_of_le h]
  unfold store
  rw [List.take_append_of_le_length (Nat.le_of_eq hlen.symm), ← hlen, List.take_length,
    List.drop_append, List.drop_of_length_le (by omega), List.nil_append, List.drop_drop, hlen,
    List.length_append,
    List.append_assoc (buf.take pos)]
  congr 2
  omega

/-! ## The reader -/

/-- A read that does not fill the buffer got all it was offered. -/
theorem take_min_of_lt {n k : ℕ} {stream : List α} (h : (stream.take (min n k)).length < k) :
    stream.take (min n k) = stream.take n ∧ stream.drop (min n k) = stream.drop n := by
  rcases Nat.lt_or_ge n k with hn | hn
  · rw [Nat.min_eq_left (Nat.le_of_lt hn)]
    exact ⟨rfl, rfl⟩
  · rw [Nat.min_eq_right hn, List.length_take] at *
    rw [List.take_of_length_le (by omega), List.take_of_length_le (by omega),
      List.drop_of_length_le (by omega), List.drop_of_length_le (by omega)]
    exact ⟨rfl, rfl⟩

/-- **The reader**: however the reads are cut, the buffer gets what arrives of the stream. -/
theorem receive_eq {size : ℕ} {ns : List ℕ} (hpos : ∀ n ∈ ns, 0 < n) (stream : List α) {pos : ℕ}
    {buf : List α} (hbuf : buf.length = size) (hle : pos ≤ size) :
    receive size ns stream pos buf =
      (pos + ((stream.take ns.sum).take (size - pos)).length,
        store buf pos ((stream.take ns.sum).take (size - pos))) := by
  induction ns generalizing stream pos buf with
  | nil => simp [receive]
  | cons n ns ih =>
    have hn : 0 < n := hpos n (by simp)
    rw [List.sum_cons]
    unfold receive
    split_ifs with hempty hlt
    · -- nothing arrives: the stream is closed, or the buffer was full
      have hnone : (stream.take (n + ns.sum)).take (size - pos) = [] := by
        rw [List.isEmpty_iff, List.take_eq_nil_iff] at hempty
        rw [List.take_take, List.take_eq_nil_iff]
        exact hempty.imp_left fun h => by omega
      rw [hnone]
      simp
    · have hshort : (stream.take (min n (size - pos))).length < size - pos := by omega
      obtain ⟨htake, hdrop⟩ := take_min_of_lt hshort
      rw [htake] at hlt ⊢
      have hall : (stream.take (n + ns.sum)).take (size - pos) =
          stream.take n ++ ((stream.drop n).take ns.sum).take
          (size - (pos + (stream.take n).length)) := by
        rw [List.take_add, List.take_append, List.take_of_length_le (by omega), Nat.sub_sub]
      rw [hdrop, ih (fun k hk => hpos k (by simp [hk])) _ ?_ (Nat.le_of_lt hlt), hall,
        store_store (by omega), List.length_append, Nat.add_assoc]
      rw [length_store (by omega), hbuf]
    · -- the buffer is full
      have hfull : stream.take (min n (size - pos)) = (stream.take (n + ns.sum)).take
          (size - pos) := by
        rw [List.length_take] at hlt
        rw [List.take_take]
        congr 1
        omega
      rw [hfull]

/-! ## A record from the writer to the reader -/

section Record

variable {size : ℕ} {ns ms : List ℕ} {record buf : List α}

theorem receive_send (hpos : ∀ n ∈ ns, 0 < n) (hrec : record.length = size)
    (hbuf : buf.length = size) :
    receive size ns (send record 0 ms) 0 buf =
      (min (min ns.sum ms.sum) size, store buf 0 (record.take (min ns.sum ms.sum))) := by
  have harrived : ((send record 0 ms).take ns.sum).take size = record.take (min ns.sum ms.sum) := by
    rw [send_eq, List.drop_zero, List.take_of_length_le, List.take_take]
    rw [List.length_take, List.length_take]
    omega
  rw [receive_eq hpos _ hbuf (Nat.zero_le _), Nat.sub_zero, harrived, Nat.zero_add,
    List.length_take, hrec]

/-- **A complete transfer**: the buffer is the record, and nothing of what it held before is
left. -/
theorem receive_send_complete (hpos : ∀ n ∈ ns, 0 < n) (hrec : record.length = size)
    (hbuf : buf.length = size) (hms : size ≤ ms.sum) (hns : size ≤ ns.sum) :
    receive size ns (send record 0 ms) 0 buf = (size, record) := by
  have hmin : size ≤ min ns.sum ms.sum := by omega
  rw [receive_send hpos hrec hbuf, Nat.min_eq_right hmin, List.take_of_length_le (by omega)]
  simp [store, hrec, ← hbuf]

theorem length_receive_send (hpos : ∀ n ∈ ns, 0 < n) (hrec : record.length = size)
    (hbuf : buf.length = size) :
    (receive size ns (send record 0 ms) 0 buf).2.length = size := by
  rw [receive_send hpos hrec hbuf, length_store, hbuf]
  rw [List.length_take]
  omega

end Record

/-! ## A writer that starts over -/

/-- What a loop puts on the stream whose calls all start at the beginning of `record`, with `need`
elements to go.  The calls after the list transfer what they are asked to. -/
def resend (record : List α) : List ℕ → ℕ → List α
  | [], need => record.take need
  | n :: ns, need => record.take (min n need) ++ resend record ns (need - min n need)

@[simp] theorem resend_zero (record : List α) (ns : List ℕ) : resend record ns 0 = [] := by
  induction ns with
  | nil => rfl
  | cons n ns ih => simp [resend, ih]

/-- The pieces of `record` that the calls are to transfer from `pos` on repeat its beginning. -/
def Repeats (record : List α) : List ℕ → ℕ → Prop
  | [], pos => record.drop pos = record.take (record.length - pos)
  | n :: ns, pos => (record.drop pos).take n = record.take (min n (record.length - pos)) ∧
      Repeats record ns (pos + min n (record.length - pos))

theorem resend_eq_iff {record : List α} {ns : List ℕ} {pos : ℕ} (h : pos ≤ record.length) :
    resend record ns (record.length - pos) = record.drop pos ↔ Repeats record ns pos := by
  induction ns generalizing pos with
  | nil => exact eq_comm
  | cons n ns ih =>
    have hle : pos + min n (record.length - pos) ≤ record.length := by omega
    have hneed : record.length - pos - min n (record.length - pos) =
        record.length - (pos + min n (record.length - pos)) := by omega
    have htake : (record.drop pos).take (min n (record.length - pos)) =
        (record.drop pos).take n := by
      rw [List.take_eq_take_iff, List.length_drop]
      omega
    -- the piece and the rest are compared apart, as their lengths agree
    have hsplit : record.drop pos =
        (record.drop pos).take n ++ record.drop (pos + min n (record.length - pos)) := by
      rw [← htake, ← List.drop_drop, List.take_append_drop]
    have hlen : (record.take (min n (record.length - pos))).length =
        ((record.drop pos).take n).length := by
      simp only [List.length_take, List.length_drop]
      omega
    rw [resend, Repeats, hneed, ← ih hle]
    constructor
    · intro heq
      rw [hsplit] at heq
      obtain ⟨hpiece, hrest⟩ := List.append_inj heq hlen
      exact ⟨hpiece.symm, hrest⟩
    · rintro ⟨hpiece, hrest⟩
      rw [hrest, ← hpiece, ← hsplit]

end Omap4.Transfer
