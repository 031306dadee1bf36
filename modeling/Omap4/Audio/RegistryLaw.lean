import Mathlib.Order.Basic
import Omap4.Audio.Registry

/-!
# Omap4.Audio.RegistryLaw — what the stream registry guarantees, and when

`Law s` is what the `in_use` counters are for: each counter is the number of I/Os in progress on
its stream, the end of an I/O decrements the counter of the stream on which it began, and a close
reaches the blob only when no I/O is in progress on the stream.

The counters alone do not give it, since an I/O remembers an address (`shiftRun_breaks_law`).  They
do in every run whose opens and closes are `Steady`: they leave the slots of the I/Os in progress
where they are (`law_of_steady`).  The invariant is `RegOk`, for the slots of one direction and the
I/Os of that direction; each section keeps it (`RegOk.push`, `RegOk.eraseIdx`, `RegOk.addInUse`).
-/

namespace Omap4.Audio.Streams

open Omap4.Machine

/-- The number of I/Os in progress on a stream. -/
def State.inProgress (s : State) (d : Dir) (serial : ℕ) : ℕ :=
  s.ios.countP fun io => io.dir = d ∧ io.serial = serial

/-- The purpose of the `in_use` counters. -/
structure Law (s : State) : Prop where
  counts : ∀ d, ∀ x ∈ (s.reg d).slots, x.inUse = s.inProgress d x.serial
  ends : ∀ io ∈ s.ios, ∃ x, (s.reg io.dir).slotAt io.ptr = some x ∧ x.serial = io.serial
  closes : ∀ (d : Dir) (stream base : ℕ) (s' : State) (i : ℕ) (x : Slot),
    step s (.close d stream base) = some s' → (s.reg d).findIdx stream = some i →
      (s.reg d).slots[i]? = some x → s.inProgress d x.serial = 0

/-- The step leaves the slot of every I/O in progress at its address: an open or a close does not
move an array that is in use, and a close does not remove a slot before one that is in use. -/
def Steady (s : State) : Act → Prop
  | .opens d _ _ base => ∀ io ∈ s.ios, io.dir = d → base = (s.reg d).base
  | .close d stream base => ∀ i ∈ (s.reg d).findIdx stream,
      ∀ io ∈ s.ios, io.dir = d → base = (s.reg d).base ∧ io.ptr < (s.reg d).base + i
  | _ => True

instance (s : State) : ∀ a, Decidable (Steady s a)
  | .opens d _ _ base =>
    inferInstanceAs (Decidable (∀ io ∈ s.ios, io.dir = d → base = (s.reg d).base))
  | .close d stream base => inferInstanceAs (Decidable (∀ i ∈ (s.reg d).findIdx stream,
      ∀ io ∈ s.ios, io.dir = d → base = (s.reg d).base ∧ io.ptr < (s.reg d).base + i))
  | .openRefused _ _ | .askClose _ _ | .ioBegin _ _ _ | .ioEnd _ => isTrue trivial

/-! ## The invariant of one direction -/

/-- The slots `r` of one direction agree with the I/Os `L` in progress in that direction; the next
serial is `n`. -/
structure RegOk (r : Registry) (L : List Io) (n : ℕ) : Prop where
  serials : ∀ (i j : ℕ) (x y : Slot), r.slots[i]? = some x → r.slots[j]? = some y →
    x.serial = y.serial → i = j
  fresh : ∀ (i : ℕ) (x : Slot), r.slots[i]? = some x → x.serial < n
  counts : ∀ (i : ℕ) (x : Slot), r.slots[i]? = some x → x.inUse = L.countP fun io =>
    io.serial = x.serial
  ends : ∀ io ∈ L, ∃ (i : ℕ) (x : Slot), io.ptr = r.base + i ∧ r.slots[i]? = some x ∧
    x.serial = io.serial

namespace RegOk

variable {r : Registry} {L : List Io} {n : ℕ}

theorem mono (h : RegOk r L n) {m : ℕ} (hm : n ≤ m) : RegOk r L m :=
  ⟨h.serials, fun i x hx => (h.fresh i x hx).trans_le hm, h.counts, h.ends⟩

/-- No I/O is in progress on a stream that is still to be opened. -/
theorem countP_next (h : RegOk r L n) : (L.countP fun io => io.serial = n) = 0 := by
  rw [List.countP_eq_zero]
  intro io hio
  obtain ⟨i, x, -, hx, hs⟩ := h.ends io hio
  have := h.fresh i x hx
  simp only [decide_eq_true_eq]
  omega

/-- **Open**: a new slot at the end of an array that stays in place unless it is idle. -/
theorem push (h : RegOk r L n) {base : ℕ} (hb : ∀ io ∈ L, base = r.base) (stream jb : ℕ) :
    RegOk ⟨base, r.slots ++ [⟨stream, jb, 0, n⟩]⟩ L (n + 1) := by
  -- a slot of the new array is an old one, or the new one at the end
  have hnew : ∀ {i : ℕ} {x : Slot}, (r.slots ++ [⟨stream, jb, 0, n⟩])[i]? = some x →
      r.slots[i]? = some x ∨ (i = r.slots.length ∧ x = ⟨stream, jb, 0, n⟩) := by
    intro i x hx
    rw [List.getElem?_append] at hx
    split_ifs at hx with hi
    · exact Or.inl hx
    · obtain ⟨h0, hx⟩ := List.getElem?_eq_some_iff.mp hx
      simp only [List.length_singleton, Nat.lt_one_iff] at h0
      simp only [h0, List.getElem_cons_zero] at hx
      exact Or.inr ⟨by omega, hx.symm⟩
  refine ⟨?_, ?_, ?_, ?_⟩
  · intro i j x y hx hy hs
    rcases hnew hx with hx | ⟨hi, rfl⟩ <;> rcases hnew hy with hy | ⟨hj, rfl⟩
    · exact h.serials i j x y hx hy hs
    · exact absurd hs (h.fresh i x hx).ne
    · exact absurd hs.symm (h.fresh j y hy).ne
    · rw [hi, hj]
  · intro i x hx
    rcases hnew hx with hx | ⟨-, rfl⟩
    · exact (h.fresh i x hx).trans (Nat.lt_succ_self n)
    · exact Nat.lt_succ_self n
  · intro i x hx
    rcases hnew hx with hx | ⟨-, rfl⟩
    · exact h.counts i x hx
    · simp [h.countP_next]
  · intro io hio
    obtain ⟨i, x, hp, hx, hs⟩ := h.ends io hio
    refine ⟨i, x, by rw [hp, hb io hio], ?_, hs⟩
    show (r.slots ++ [⟨stream, jb, 0, n⟩])[i]? = some x
    rw [List.getElem?_append_left (List.getElem?_eq_some_iff.mp hx).1, hx]

/-- **Close**: the slots of the I/Os in progress come before the one that is removed. -/
theorem eraseIdx (h : RegOk r L n) {i base : ℕ}
    (hb : ∀ io ∈ L, base = r.base ∧ io.ptr < r.base + i) :
    RegOk ⟨base, r.slots.eraseIdx i⟩ L n := by
  -- slot `j` of the new array is slot `j` or slot `j + 1` of the old one
  have hold : ∀ {j : ℕ} {x : Slot}, (r.slots.eraseIdx i)[j]? = some x →
      r.slots[if j < i then j else j + 1]? = some x := by
    intro j x hx
    rw [List.getElem?_eraseIdx] at hx
    split_ifs at hx ⊢ <;> exact hx
  refine ⟨fun j k x y hx hy hs => ?_, fun j x hx => h.fresh _ x (hold hx),
    fun j x hx => h.counts _ x (hold hx), fun io hio => ?_⟩
  · have := h.serials _ _ x y (hold hx) (hold hy) hs
    split_ifs at this <;> omega
  · obtain ⟨j, x, hp, hx, hs⟩ := h.ends io hio
    obtain ⟨hb1, hb2⟩ := hb io hio
    refine ⟨j, x, by rw [hp, hb1], ?_, hs⟩
    show (r.slots.eraseIdx i)[j]? = some x
    rw [List.getElem?_eraseIdx_of_lt (by omega), hx]

/-- Slot `j` of an array in which the counter of slot `i` has changed. -/
theorem slot_of_modify {l : List Slot} {i j : ℕ} {k : ℤ} {y : Slot}
    (hy : (l.modify i fun x => { x with inUse := x.inUse + k })[j]? = some y) :
    ∃ z, l[j]? = some z ∧ y.serial = z.serial ∧ y.inUse = z.inUse + if j = i then k else 0 := by
  rw [List.getElem?_modify] at hy
  obtain ⟨z, hz, rfl⟩ := Option.map_eq_some_iff.mp hy
  by_cases hij : i = j
  · exact ⟨z, hz, by simp [hij], by simp [hij]⟩
  · exact ⟨z, hz, by simp [hij], by simp [hij, Ne.symm hij]⟩

theorem modify_of_slot {l : List Slot} (i : ℕ) {j : ℕ} (k : ℤ) {z : Slot} (hz : l[j]? = some z) :
    ∃ y : Slot, (l.modify i fun x => { x with inUse := x.inUse + k })[j]? = some y ∧
      y.serial = z.serial := by
  rw [List.getElem?_modify, hz]
  by_cases hij : i = j
  · exact ⟨_, rfl, by simp [hij]⟩
  · exact ⟨_, rfl, by simp [hij]⟩

/-- **Begin and end of an I/O**: the counter of a slot and the I/Os on its stream change alike. -/
theorem addInUse (h : RegOk r L n) {i : ℕ} {x : Slot} (hx : r.slots[i]? = some x) {k : ℤ}
    {L' : List Io}
    (hcount : ∀ m, ((L'.countP fun io => io.serial = m : ℕ) : ℤ) =
      (L.countP fun io => io.serial = m : ℕ) + if m = x.serial then k else 0)
    (hL' : ∀ io ∈ L', io ∈ L ∨ (io.ptr = r.base + i ∧ io.serial = x.serial)) :
    RegOk (r.addInUse (r.base + i) k) L' n := by
  have hr : r.addInUse (r.base + i) k =
      ⟨r.base, r.slots.modify i fun x => { x with inUse := x.inUse + k }⟩ := by
    unfold Registry.addInUse
    rw [if_neg (by omega), Nat.add_sub_cancel_left]
  rw [hr]
  refine ⟨?_, ?_, ?_, ?_⟩
  · intro j l y z hy hz hs
    obtain ⟨y', hy', hsy, -⟩ := slot_of_modify hy
    obtain ⟨z', hz', hsz, -⟩ := slot_of_modify hz
    exact h.serials j l y' z' hy' hz' (by rw [← hsy, ← hsz, hs])
  · intro j y hy
    obtain ⟨y', hy', hsy, -⟩ := slot_of_modify hy
    rw [hsy]
    exact h.fresh j y' hy'
  · intro j y hy
    obtain ⟨y', hy', hsy, hu⟩ := slot_of_modify hy
    -- the serial says which slot it is
    have hiff : j = i ↔ y.serial = x.serial := by
      constructor
      · rintro rfl
        rw [hsy, Option.some.inj (hy'.symm.trans hx)]
      · intro hs
        exact h.serials j i y' x hy' hx (by rw [← hsy, hs])
    rw [hu, h.counts j y' hy', hcount y.serial, ← hsy]
    simp only [hiff]
  · intro io hio
    rcases hL' io hio with hio | ⟨hp, hs⟩
    · obtain ⟨j, z, hp, hz, hs⟩ := h.ends io hio
      obtain ⟨y, hy, hsy⟩ := modify_of_slot i k hz
      exact ⟨j, y, hp, hy, hsy.trans hs⟩
    · obtain ⟨y, hy, hsy⟩ := modify_of_slot i k hx
      exact ⟨i, y, hp, hy, hsy.trans hs.symm⟩

end RegOk

/-! ## The invariant of the wrapper -/

def State.iosOf (s : State) (d : Dir) : List Io := s.ios.filter fun io => io.dir = d

/-- Both directions agree with their I/Os. -/
def Inv (s : State) : Prop := ∀ d, RegOk (s.reg d) (s.iosOf d) s.nextSerial

theorem inProgress_eq (s : State) (d : Dir) (n : ℕ) :
    s.inProgress d n = (s.iosOf d).countP fun io => io.serial = n := by
  unfold State.inProgress State.iosOf
  rw [List.countP_filter]
  congr 1
  funext io
  simp [and_comm]

theorem init_inv : Inv State.init := by
  intro d
  cases d <;> exact ⟨by simp [State.init, State.reg], by simp [State.init, State.reg],
    by simp [State.init, State.reg], by simp [State.init, State.iosOf]⟩

theorem opens_inv {s : State} (hI : Inv s) {d : Dir} {base : ℕ} (jb stream : ℕ)
    (hb : ∀ io ∈ s.ios, io.dir = d → base = (s.reg d).base) :
    Inv (wrapperOpenStream d ⟨0, jb, some base, some stream⟩ s).2 := by
  intro e
  by_cases he : e = d
  · subst he
    have hbase : ∀ io ∈ s.iosOf e, base = (s.reg e).base := fun io hio =>
      hb io (List.mem_filter.mp hio).1 (by simpa using (List.mem_filter.mp hio).2)
    have := (hI e).push hbase stream jb
    simpa [wrapperOpenStream, State.iosOf] using this
  · have := (hI e).mono (Nat.le_succ s.nextSerial)
    simpa [wrapperOpenStream, State.iosOf, State.setReg_reg_of_ne _ _ he] using this

theorem close_inv {s s' : State} (hI : Inv s) {d : Dir} {stream base : ℕ}
    (hb : ∀ i ∈ (s.reg d).findIdx stream, ∀ io ∈ s.ios,
      io.dir = d → base = (s.reg d).base ∧ io.ptr < (s.reg d).base + i)
    (h : wrapperCloseStream d stream base s = some s') : Inv s' := by
  unfold wrapperCloseStream at h
  cases hi : (s.reg d).findIdx stream with
  | none =>
    rw [hi] at h
    exact Option.some.inj h ▸ hI
  | some i =>
    cases hx : (s.reg d).slots[i]? with
    | none =>
      simp only [hi, hx, Option.some.injEq] at h
      exact h ▸ hI
    | some x =>
      simp only [hi, hx] at h
      split_ifs at h with hfree
      rw [← Option.some.inj h]
      intro e
      by_cases he : e = d
      · subst he
        have hbase : ∀ io ∈ s.iosOf e, base = (s.reg e).base ∧ io.ptr < (s.reg e).base + i :=
          fun io hio =>
          hb i hi io (List.mem_filter.mp hio).1 (by simpa using (List.mem_filter.mp hio).2)
        have := (hI e).eraseIdx hbase
        simpa [State.iosOf] using this
      · simpa [State.iosOf, State.setReg_reg_of_ne _ _ he] using hI e

theorem ioBegin_inv {s : State} (hI : Inv s) (tid : ℕ) (d : Dir) (stream : ℕ) :
    Inv (wrapperIoBegin tid d stream s) := by
  unfold wrapperIoBegin
  cases (s.reg d).findIdx stream with
  | none => exact hI
  | some i =>
    cases hx : (s.reg d).slots[i]? with
    | none => simpa only [hx] using hI
    | some x =>
      simp only [hx]
      intro e
      by_cases he : e = d
      · subst he
        have hcount : ∀ m, (((⟨tid, e, (s.reg e).base + i, x.serial⟩ :: s.iosOf e).countP
            fun io => io.serial = m : ℕ) : ℤ) =
              ((s.iosOf e).countP fun io => io.serial = m : ℕ) + if m = x.serial then 1 else 0 := by
          intro m
          rw [List.countP_cons]
          by_cases hm : m = x.serial
          · simp [hm]
          · simp [hm, Ne.symm hm]
        have := (hI e).addInUse hx hcount fun io hio => by
          rcases List.mem_cons.mp hio with rfl | hio
          · exact Or.inr ⟨rfl, rfl⟩
          · exact Or.inl hio
        simpa [State.iosOf] using this
      · simpa [State.iosOf, State.setReg_reg_of_ne _ _ he, Ne.symm he] using hI e

/-- Ending one I/O leaves one less in progress on its stream. -/
theorem countP_erase_serial {L : List Io} {io : Io} (hio : io ∈ L) (m : ℕ) :
    (((L.erase io).countP fun io => io.serial = m : ℕ) : ℤ) =
      (L.countP fun io => io.serial = m : ℕ) + if m = io.serial then -1 else 0 := by
  have hperm := (List.perm_cons_erase hio).countP_eq fun io => decide (io.serial = m)
  rw [hperm, List.countP_cons]
  by_cases hm : m = io.serial
  · simp only [hm, decide_true, if_true]
    omega
  · simp [hm, Ne.symm hm]

theorem ioEnd_inv {s : State} (hI : Inv s) {io : Io} (hio : io ∈ s.ios) :
    Inv (wrapperIoEnd io s) := by
  intro e
  have hL : (wrapperIoEnd io s).iosOf e = (s.iosOf e).erase io := by
    simp only [State.iosOf, wrapperIoEnd, State.setReg_ios, List.erase_filter]
  rw [hL]
  by_cases he : e = io.dir
  · subst he
    have hmem : io ∈ s.iosOf io.dir := List.mem_filter.mpr ⟨hio, by simp⟩
    obtain ⟨i, x, hp, hx, hs⟩ := (hI io.dir).ends io hmem
    have hcount := countP_erase_serial hmem
    rw [← hs] at hcount
    have := (hI io.dir).addInUse hx hcount fun io' hio' => Or.inl (List.mem_of_mem_erase hio')
    simpa [wrapperIoEnd, hp] using this
  · have hnot : io ∉ s.iosOf e := fun h =>
      he (Eq.symm (by simpa using (List.mem_filter.mp h).2))
    rw [List.erase_of_not_mem hnot]
    simpa [wrapperIoEnd, State.setReg_reg_of_ne _ _ he] using hI e

/-- **One step keeps the invariant**, unless it moves a slot that is in use. -/
theorem step_inv (s : State) (a : Act) (s' : State) (hI : Inv s) (hC : Steady s a)
    (h : step s a = some s') : Inv s' := by
  cases a with
  | opens d jb stream base =>
    simp only [step] at h
    split_ifs at h
    exact Option.some.inj h ▸ opens_inv hI jb stream hC
  | openRefused d ret =>
    simp only [step] at h
    split_ifs at h with hret
    rw [← Option.some.inj h]
    simpa [wrapperOpenStream, hret.2] using hI
  | askClose d stream =>
    simp only [step, Option.some.injEq] at h
    rw [← h]
    intro e
    simpa [State.iosOf] using hI e
  | close d stream base => exact close_inv hI hC h
  | ioBegin tid d stream =>
    simp only [step] at h
    split_ifs at h
    exact Option.some.inj h ▸ ioBegin_inv hI tid d stream
  | ioEnd io =>
    simp only [step] at h
    split_ifs at h with hio
    exact Option.some.inj h ▸ ioEnd_inv hI hio

theorem law_of_inv {s : State} (hI : Inv s) : Law s := by
  have hcount : ∀ (d : Dir) (i : ℕ) (x : Slot), (s.reg d).slots[i]? = some x →
      x.inUse = s.inProgress d x.serial := by
    intro d i x hx
    rw [inProgress_eq]
    exact (hI d).counts i x hx
  refine ⟨?_, ?_, ?_⟩
  · intro d x hx
    obtain ⟨i, hi⟩ := List.mem_iff_getElem?.mp hx
    exact hcount d i x hi
  · intro io hio
    obtain ⟨i, x, hp, hx, hs⟩ := (hI io.dir).ends io (List.mem_filter.mpr ⟨hio, by simp⟩)
    exact ⟨x, by rw [hp, Registry.slotAt_base, hx], hs⟩
  · intro d stream base s' i x h hi hx
    simp only [step, wrapperCloseStream, hi, hx] at h
    split_ifs at h with hfree
    have := hcount d i x hx
    omega

/-- **The registry law** holds in every state of every run whose opens and closes are steady. -/
theorem law_of_steady (acts : List Act) (s : State) (hC : Along step Steady State.init acts)
    (h : exec step State.init acts = some s) : Law s :=
  law_of_inv (exec_inv_along step_inv acts State.init s init_inv hC h)

/-! ## Steady and unsteady runs -/

/-- Two output streams; the first is written while the second is closed. -/
def steadyRun : List Act :=
  [.opens .output 1 10 100, .opens .output 2 20 100, .ioBegin 0 .output 10, .askClose .output 20,
    .close .output 20 100, .ioEnd ⟨0, .output, 100, 0⟩]

theorem law_of_steadyRun : ∃ s, exec step State.init steadyRun = some s ∧ Law s :=
  ⟨_, rfl, law_of_steady steadyRun _ (by decide) rfl⟩

/-- The first of three output streams is closed while the second is written: the end of that write
decrements the counter of the third stream.  A write then begins on the third. -/
def shiftRun : List Act :=
  [.opens .output 1 10 100, .opens .output 2 20 100, .opens .output 3 30 100,
    .ioBegin 0 .output 20, .askClose .output 10, .close .output 10 100,
    .ioEnd ⟨0, .output, 101, 1⟩, .ioBegin 1 .output 30]

/-- The unsteady close costs the law: one counter is left at 1 with no I/O in progress, and the
blob is allowed to close a stream under a write. -/
theorem shiftRun_breaks_law :
    ∃ s s', exec step State.init shiftRun = some s ∧ ¬ Law s ∧
      s.outStreams.slots = [⟨20, 2, 1, 1⟩, ⟨30, 3, 0, 2⟩] ∧
      s.inProgress .output 1 = 0 ∧ s.inProgress .output 2 = 1 ∧
      step s (.close .output 30 100) = some s' := by
  refine ⟨_, _, rfl, fun hL => ?_, rfl, rfl, rfl, rfl⟩
  have := hL.counts .output ⟨20, 2, 1, 1⟩ (by decide)
  revert this
  decide

end Omap4.Audio.Streams
