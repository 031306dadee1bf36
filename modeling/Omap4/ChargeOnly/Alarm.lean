import Omap4.Machine
import Omap4.LinkedList
import Omap4.ChargeOnly.Queue

/-!
# Omap4.ChargeOnly.Alarm — the linked list of alarms (`alarm.c`)

The list hangs at `alarms`, and its nodes are blocks of a heap.  A step is a call of
`alarm_set_relative` or `alarm_cancel`, or a part of a call of `alarm_process`: its start with the
reading of the clock, one round of its loop, and the return of a callback to it.  Between a round
that called a callback and the return, the calls are those of the callback; in this time its node is
out of the list and not yet freed.

What the clock shows and what `malloc` returns is input.  The alarms that fired or were cancelled
are recorded (`fired`, `cancelled`), and `made` counts the alarms that were set; these are not in
the code.

`Inv` relates the heap to the list of `Omap4.ChargeOnly.Queue`.  Each operation is first shown to do
to the list what the queue does (`linkNode_spec`, `cancelLoop_spec`), never touching a block that is
not allocated.
-/

namespace Omap4.ChargeOnly

open Omap4.LinkedList
open scoped List

/-! ## The code -/

/-- The value of a signed integer of 32 bits, as `int`, `time_t` and `suseconds_t` are. -/
def wrap32 (x : ℤ) : ℤ := x.bmod 4294967296

def carryUsec (t : Timeval) : Timeval :=
  if 1000000 ≤ t.usec then ⟨wrap32 (t.sec + t.usec.tdiv 1000000), t.usec.tmod 1000000⟩ else t

/-- The `alarm_time` that `alarm_set_relative` computes. -/
def alarmTime (now : Timeval) (ms : ℤ) : Timeval :=
  carryUsec ⟨now.sec, wrap32 (now.usec + wrap32 (ms * 1000))⟩

structure AlarmState (F C : Type) where
  heap : Heap (Alarm F C)
  alarms : Option ℕ
  /-- `now` of the call of `alarm_process` that has not returned -/
  now : Option Timeval
  /-- `a` of this call, while its callback runs -/
  a : Option ℕ
  made : ℕ
  fired : List (Alarm F C)
  cancelled : List (Alarm F C)

variable {F C : Type}

/-- The loop of `alarm_set_relative`: the last node that the new one is put behind. -/
def findPlace (h : Heap (Alarm F C)) (t : Timeval) : ℕ → Option ℕ → Option ℕ → Option (Option ℕ)
  | _, p, none => some p
  | 0, _, some _ => none
  | fuel + 1, p, some c =>
    match h c with
    | none => none
    | some cell => if t.before cell.val.time then some p else findPlace h t fuel (some c) cell.next

/-- The new node is in the block `a`. -/
def linkNode (a : ℕ) (x : Alarm F C) (s : AlarmState F C) : Option (AlarmState F C) := do
  let p ← findPlace (Function.update s.heap a (some ⟨none, x⟩)) x.time s.made none s.alarms
  let n ← nextAfter (Function.update s.heap a (some ⟨none, x⟩)) s.alarms p
  let h ← setNext (Function.update s.heap a (some ⟨none, x⟩)) a n
  let r ← relink h s.alarms p (some a)
  return { s with heap := r.1, alarms := r.2, made := s.made + 1 }

/-- `block` is what `malloc` returns, which is no block in use. -/
def alarmSetRelative (f : F) (cookie : C) (ms : ℤ) (block : Option ℕ) (now : Timeval)
    (s : AlarmState F C) : Option (AlarmState F C × ℤ) :=
  match block with
  | none => some (s, -1)
  | some a =>
    if (s.heap a).isSome then none
    else (linkNode a ⟨s.made, alarmTime now ms, f, cookie⟩ s).map fun s' => (s', 0)

/-- The loop of `alarm_cancel`, with the alarms it cancelled so far. -/
def cancelLoop [DecidableEq F] (f : F) : ℕ → Heap (Alarm F C) → Option ℕ → Option ℕ → Option ℕ →
    List (Alarm F C) →
    Option (Heap (Alarm F C) × Option ℕ × List (Alarm F C))
  | _, h, alarms, _, none, k => some (h, alarms, k)
  | 0, _, _, _, some _, _ => none
  | fuel + 1, h, alarms, p, some c, k =>
    match h c with
    | none => none
    | some cell =>
      if cell.val.f = f then
        (relink h alarms p cell.next).bind fun r => (free r.1 c).bind fun h' =>
          cancelLoop f fuel h' r.2 p cell.next (k ++ [cell.val])
      else cancelLoop f fuel h alarms (some c) cell.next k

/-- The result is the number of the alarms that were cancelled. -/
def alarmCancel [DecidableEq F] (f : F) (s : AlarmState F C) : Option (AlarmState F C × ℕ) :=
  (cancelLoop f s.made s.heap s.alarms none s.alarms []).map fun r =>
    ({ s with heap := r.1, alarms := r.2.1, cancelled := s.cancelled ++ r.2.2 }, r.2.2.length)

/-- One round of the loop of `alarm_process`, up to the call of the callback; the loop ends when
there is no alarm, or none that is due. -/
def processRound (now : Timeval) (s : AlarmState F C) : Option (AlarmState F C) :=
  match s.alarms with
  | none => some { s with now := none }
  | some a =>
    match s.heap a with
    | none => none
    | some cell =>
      if now.before cell.val.time then some { s with now := none }
      else some { s with alarms := cell.next, a := some a, fired := s.fired ++ [cell.val] }

/-- A call, or a part of one. -/
inductive AlarmCall (F C : Type)
  | set (f : F) (cookie : C) (ms : ℤ) (block : Option ℕ) (now : Timeval)
  | cancel (f : F)
  | process (now : Timeval)
  | round
  | callbackReturns

/-- The program or a callback runs, not the loop of `alarm_process` itself. -/
def AlarmState.ready (s : AlarmState F C) : Bool := s.now.isNone || s.a.isSome

def alarmStep [DecidableEq F] (s : AlarmState F C) : AlarmCall F C → Option (AlarmState F C)
  | .set f cookie ms block now =>
    if s.ready then (alarmSetRelative f cookie ms block now s).map Prod.fst else none
  | .cancel f => if s.ready then (alarmCancel f s).map Prod.fst else none
  | .process now => if s.now.isNone then some { s with now := some now } else none
  | .round =>
    match s.now, s.a with
    | some now, none => processRound now s
    | _, _ => none
  | .callbackReturns =>
    match s.a with
    | some a => (free s.heap a).map fun h => { s with heap := h, a := none }
    | none => none

/-- No alarm has been set. -/
def noAlarms : AlarmState F C where
  heap _ := none
  alarms := none
  now := none
  a := none
  made := 0
  fired := []
  cancelled := []

/-- The alarms in the list. -/
def AlarmState.pending (s : AlarmState F C) : List (Alarm F C) :=
  (walk s.heap s.made s.alarms).map Prod.snd

/-! ## The operations on the list -/

/-- `Queue.upTo` for the nodes of the list. -/
def nodeUpTo (t : Timeval) (x : ℕ × Alarm F C) : Bool := Queue.upTo t x.2

theorem findPlace_eq {h : Heap (Alarm F C)} {t : Timeval} {l : List (ℕ × Alarm F C)} {fuel : ℕ}
    {p c : Option ℕ} (hs : Seg h c l none) (hf : l.length ≤ fuel) :
    findPlace h t fuel p c = some ((lastAddr (l.takeWhile (nodeUpTo t))).or p) := by
  induction l generalizing p c fuel with
  | nil =>
    obtain rfl : c = none := hs
    cases fuel <;> rfl
  | cons x l ih =>
    obtain ⟨rfl, n, hx, hrest⟩ := hs
    obtain ⟨fuel, rfl⟩ : ∃ k, fuel = k + 1 := ⟨fuel - 1, by rw [List.length_cons] at hf; omega⟩
    simp only [findPlace, hx]
    split_ifs with hb
    · simp [nodeUpTo, Queue.upTo, hb]
    · have htake : (x :: l).takeWhile (nodeUpTo t) = x :: l.takeWhile (nodeUpTo t) := by
        simp [nodeUpTo, Queue.upTo, hb]
      rw [ih hrest (by simpa using hf), htake, lastAddr_cons, Option.or_assoc, Option.some_or]

/-- **`alarm_set_relative` inserts its node** behind those that are not later. -/
theorem linkNode_spec {s : AlarmState F C} {a : ℕ} {x : Alarm F C} {l : List (ℕ × Alarm F C)}
    (hs : Seg s.heap s.alarms l none) (hnd : (l.map Prod.fst).Nodup) (hlen : l.length ≤ s.made)
    (ha : s.heap a = none) :
    ∃ h alarms, linkNode a x s = some { s with heap := h, alarms := alarms, made := s.made + 1 } ∧
      Seg h alarms (l.takeWhile (nodeUpTo x.time) ++ (a, x) :: l.dropWhile (nodeUpTo x.time)) none ∧
      ∀ b, (h b).isSome = true ↔ (s.heap b).isSome = true ∨ b = a := by
  have hal : a ∉ l.map Prod.fst := by
    intro hmem
    have hsome := seg_mem hs a hmem
    rw [ha] at hsome
    cases hsome
  set h₁ : Heap (Alarm F C) := Function.update s.heap a (some ⟨none, x⟩) with hh₁
  have hs₁ : Seg h₁ s.alarms l none :=
    seg_congr (fun b hb => Function.update_of_ne (ne_of_mem_of_not_mem hb hal) _ _) hs
  set l₁ := l.takeWhile (nodeUpTo x.time) with hl₁
  set l₂ := l.dropWhile (nodeUpTo x.time) with hl₂
  have hsplit : l₁ ++ l₂ = l := List.takeWhile_append_dropWhile
  obtain ⟨n, hfront, hback⟩ : ∃ n, Seg h₁ s.alarms l₁ n ∧ Seg h₁ n l₂ none :=
    seg_append.mp (hsplit.symm ▸ hs₁)
  rw [← hsplit, List.map_append] at hnd hal
  have hal₁ : a ∉ l₁.map Prod.fst := fun h => hal (List.mem_append_left _ h)
  have hal₂ : a ∉ l₂.map Prod.fst := fun h => hal (List.mem_append_right _ h)
  set h₂ : Heap (Alarm F C) := Function.update h₁ a (some ⟨n, x⟩) with hh₂
  have hset : setNext h₁ a n = some h₂ := setNext_eq (c := ⟨none, x⟩) (Function.update_self _ _ _) n
  have hfront₂ : Seg h₂ s.alarms l₁ n :=
    seg_congr (fun b hb => Function.update_of_ne (ne_of_mem_of_not_mem hb hal₁) _ _) hfront
  obtain ⟨h₃, alarms, hrelink, hfront₃, hkeep, hsome⟩ :=
    seg_relink hfront₂ (List.nodup_append.mp hnd).1 (some a)
  refine ⟨h₃, alarms, ?_, ?_, ?_⟩
  · simp only [linkNode, findPlace_eq hs₁ hlen, ← hl₁, Option.or_none, bind, Option.bind_some,
      nextAfter_eq hfront, hset, hrelink, pure, ← hh₁]
  · refine seg_append.mpr ⟨some a, hfront₃, rfl, n, ?_, seg_congr (fun b hb => ?_) hback⟩
    · rw [hkeep a hal₁]
      exact Function.update_self _ _ _
    · have hb₁ : b ∉ l₁.map Prod.fst := fun h => (List.nodup_append.mp hnd).2.2 b h b hb rfl
      rw [hkeep b hb₁]
      exact Function.update_of_ne (ne_of_mem_of_not_mem hb hal₂) _ _
  · intro b
    rw [hsome, hh₂, hh₁]
    by_cases hb : b = a
    · simp [hb]
    · simp [hb]

/-- **`alarm_cancel` removes the nodes of a callback** and frees them.  The nodes `l₁` have been
looked at, `l₂` are to come. -/
theorem cancelLoop_spec [DecidableEq F] {f : F} {l₁ l₂ : List (ℕ × Alarm F C)} {fuel : ℕ}
    {h : Heap (Alarm F C)} {alarms c : Option ℕ} {k : List (Alarm F C)} (h₁ : Seg h alarms l₁ c)
    (h₂ : Seg h c l₂ none) (hnd : ((l₁ ++ l₂).map Prod.fst).Nodup) (hf : l₂.length ≤ fuel) :
    ∃ h' alarms', cancelLoop f fuel h alarms (lastAddr l₁) c k =
        some (h', alarms', k ++ (l₂.map Prod.snd).filter (·.f = f)) ∧
      Seg h' alarms' (l₁ ++ l₂.filter (·.2.f ≠ f)) none ∧
      ∀ b, (h' b).isSome = true ↔
        (h b).isSome = true ∧ b ∉ (l₂.filter (·.2.f = f)).map Prod.fst := by
  induction l₂ generalizing l₁ fuel h alarms c k with
  | nil =>
    obtain rfl : c = none := h₂
    refine ⟨h, alarms, ?_, by simpa using h₁, by simp⟩
    cases fuel <;> simp [cancelLoop]
  | cons x l₂ ih =>
    obtain ⟨rfl, n, hx, hrest⟩ := h₂
    obtain ⟨fuel, rfl⟩ : ∃ k, fuel = k + 1 := ⟨fuel - 1, by rw [List.length_cons] at hf; omega⟩
    have hfuel : l₂.length ≤ fuel := by simpa using hf
    simp only [cancelLoop, hx]
    split_ifs with hxf
    · -- the node goes, and the one before it stays the last that was looked at
      obtain ⟨h', h'', alarms', hrelink, hfree, hseg₁, hseg₂, hsome⟩ := seg_unlink h₁ hx hrest hnd
      have hnd' : ((l₁ ++ l₂).map Prod.fst).Nodup := by
        refine hnd.sublist (List.Sublist.map _ ?_)
        exact List.Sublist.append_left (List.sublist_cons_self x l₂) l₁
      obtain ⟨hend, alarms'', hloop, hseg, hsome'⟩ := ih (k := k ++ [x.2]) hseg₁ hseg₂ hnd' hfuel
      refine ⟨hend, alarms'', ?_, ?_, ?_⟩
      · simpa [hrelink, hfree, hxf] using hloop
      · simpa [hxf] using hseg
      · intro b
        rw [hsome', hsome]
        simp [hxf, and_assoc]
    · have h₁' : Seg h alarms (l₁ ++ [x]) n := seg_append.mpr ⟨some x.1, h₁, rfl, n, hx, rfl⟩
      have hnd' : ((l₁ ++ [x] ++ l₂).map Prod.fst).Nodup := by simpa using hnd
      obtain ⟨h', alarms', hloop, hseg, hsome⟩ := ih (k := k) h₁' hrest hnd' hfuel
      rw [lastAddr_concat] at hloop
      refine ⟨h', alarms', ?_, ?_, ?_⟩
      · simpa [hxf] using hloop
      · simpa [hxf] using hseg
      · simpa [hxf] using hsome

/-! ## The invariant -/

/-- The list `l` of nodes hangs at `alarms`, the blocks in use are its nodes and that of the running
callback, and every alarm that was set is in one of three places. -/
structure Inv (s : AlarmState F C) (l : List (ℕ × Alarm F C)) : Prop where
  seg : Seg s.heap s.alarms l none
  nodup : (l.map Prod.fst).Nodup
  running : ∀ a, s.a = some a → a ∉ l.map Prod.fst
  inUse : ∀ a, (s.heap a).isSome = true ↔ a ∈ l.map Prod.fst ∨ s.a = some a
  ordered : Queue.Ordered (l.map Prod.snd)
  usec : ∀ x ∈ l.map Prod.snd, 0 ≤ x.time.usec ∧ x.time.usec < 1000000
  ids : ((l.map Prod.snd ++ s.fired ++ s.cancelled).map Alarm.id).Perm (List.range s.made)

namespace Inv

variable {s : AlarmState F C} {l : List (ℕ × Alarm F C)}

theorem id_lt (hi : Inv s l) : ∀ x ∈ l.map Prod.snd, x.id < s.made := by
  intro x hx
  refine List.mem_range.mp (hi.ids.subset (List.mem_map_of_mem ?_))
  exact List.mem_append_left _ (List.mem_append_left _ hx)

theorem length_le (hi : Inv s l) : l.length ≤ s.made := by
  have hlen := hi.ids.length_eq
  simp only [List.length_map, List.length_append, List.length_range] at hlen
  omega

theorem pending_eq (hi : Inv s l) : s.pending = l.map Prod.snd := by
  rw [AlarmState.pending, walk_eq hi.seg hi.length_le]

/-- An alarm is not in two of the three places, nor twice in one. -/
theorem id_ne (hi : Inv s l) {x y : Alarm F C} (hx : x ∈ s.cancelled)
    (hy : y ∈ s.fired) : y.id ≠ x.id := by
  have hnd : ((l.map Prod.snd ++ s.fired ++ s.cancelled).map Alarm.id).Nodup :=
    hi.ids.nodup_iff.mpr List.nodup_range
  rw [List.map_append, List.nodup_append] at hnd
  refine hnd.2.2 y.id ?_ x.id (List.mem_map_of_mem hx)
  exact List.mem_map_of_mem (List.mem_append_right _ hy)

end Inv

theorem noAlarms_inv : Inv (noAlarms : AlarmState F C) [] where
  seg := rfl
  nodup := List.nodup_nil
  running _ h := by cases h
  inUse _ := by simp [noAlarms]
  ordered := List.Pairwise.nil
  usec := by simp
  ids := List.Perm.refl _

theorem wrap32_of_lt {x : ℤ} (h₀ : 0 ≤ x) (h₁ : x < 2147483648) : wrap32 x = x := by
  rw [wrap32, Int.bmod_def]
  omega

theorem carryUsec_usec {t : Timeval} (h : 0 ≤ t.usec) :
    0 ≤ (carryUsec t).usec ∧ (carryUsec t).usec < 1000000 := by
  unfold carryUsec
  split_ifs with hc
  · show 0 ≤ t.usec.tmod 1000000 ∧ t.usec.tmod 1000000 < 1000000
    rw [Int.tmod_eq_emod_of_nonneg h]
    omega
  · exact ⟨h, by omega⟩

/-- With a delay of at most 2000 seconds nothing overflows in the sum of the microseconds. -/
theorem alarmTime_usec {now : Timeval} {ms : ℤ} (h₀ : 0 ≤ ms) (h₁ : ms ≤ 2000000)
    (hn₀ : 0 ≤ now.usec) (hn₁ : now.usec < 1000000) :
    0 ≤ (alarmTime now ms).usec ∧ (alarmTime now ms).usec < 1000000 := by
  have hms : wrap32 (ms * 1000) = ms * 1000 := wrap32_of_lt (by omega) (by omega)
  have hsum : wrap32 (now.usec + ms * 1000) = now.usec + ms * 1000 :=
    wrap32_of_lt (by omega) (by omega)
  refine carryUsec_usec ?_
  show 0 ≤ wrap32 (now.usec + wrap32 (ms * 1000))
  rw [hms, hsum]
  omega

section Steps

variable {s : AlarmState F C} {l : List (ℕ × Alarm F C)}

theorem linkNode_inv {a : ℕ} {x : Alarm F C} (hi : Inv s l) (ha : s.heap a = none)
    (hid : x.id = s.made) (hx : 0 ≤ x.time.usec ∧ x.time.usec < 1000000) :
    ∃ s' l', linkNode a x s = some s' ∧ Inv s' l' ∧
      l'.map Prod.snd = Queue.insert x (l.map Prod.snd) ∧ s'.fired = s.fired ∧
      s'.cancelled = s.cancelled ∧ s'.now = s.now ∧ s'.a = s.a := by
  obtain ⟨h, alarms, hlink, hseg, hsome⟩ := linkNode_spec (x := x) hi.seg hi.nodup hi.length_le ha
  have hfree : ∀ b, (s.heap b).isSome = true → b ≠ a := by
    rintro b hb rfl
    rw [ha] at hb
    cases hb
  have hperm :
      (l.takeWhile (nodeUpTo x.time) ++ (a, x) :: l.dropWhile (nodeUpTo x.time)).Perm
      ((a, x) :: l) := by
    refine List.perm_middle.trans ?_
    rw [List.takeWhile_append_dropWhile]
  have hmap : (l.takeWhile (nodeUpTo x.time) ++ (a, x) :: l.dropWhile (nodeUpTo x.time)).map
      Prod.snd = Queue.insert x (l.map Prod.snd) := by
    simp only [Queue.insert, List.takeWhile_map, List.dropWhile_map, List.map_append, List.map_cons]
    rfl
  have haddr : ∀ b, b ∈
      (l.takeWhile (nodeUpTo x.time) ++ (a, x) :: l.dropWhile (nodeUpTo x.time)).map
      Prod.fst ↔ b = a ∨ b ∈ l.map Prod.fst := by
    intro b
    rw [(hperm.map Prod.fst).mem_iff, List.map_cons, List.mem_cons]
  refine ⟨_, _, hlink, ?_, hmap, rfl, rfl, rfl, rfl⟩
  constructor
  · exact hseg
  · rw [(hperm.map Prod.fst).nodup_iff, List.map_cons, List.nodup_cons]
    exact ⟨fun hmem => hfree a ((hi.inUse a).mpr (.inl hmem)) rfl, hi.nodup⟩
  · intro b hb hmem
    obtain rfl | hmem := (haddr b).mp hmem
    · exact hfree b ((hi.inUse b).mpr (.inr hb)) rfl
    · exact hi.running b hb hmem
  · intro b
    rw [haddr, hsome, hi.inUse]
    tauto
  · rw [hmap]
    exact Queue.insert_ordered hi.ordered fun y hy => hid ▸ hi.id_lt y hy
  · intro y hy
    rw [hmap, (Queue.insert_perm x _).mem_iff, List.mem_cons] at hy
    obtain rfl | hy := hy
    · exact hx
    · exact hi.usec y hy
  · rw [hmap]
    have hins := ((Queue.insert_perm x (l.map Prod.snd)).append_right (s.fired ++ s.cancelled)).map
      Alarm.id
    simp only [← List.append_assoc] at hins
    refine hins.trans ?_
    rw [List.range_succ, List.cons_append, List.cons_append, List.map_cons, hid]
    exact (hi.ids.cons s.made).trans (List.perm_append_singleton _ _).symm

/-- A node of `l` that is not among those with `P` is among the others. -/
theorem mem_filter_of_not_mem {P : ℕ × Alarm F C → Prop} [DecidablePred P] {b : ℕ}
    (hb : b ∈ l.map Prod.fst) (hgone : b ∉ (l.filter (P ·)).map Prod.fst) :
    b ∈ (l.filter (¬ P ·)).map Prod.fst := by
  obtain ⟨x, hx, rfl⟩ := List.mem_map.mp hb
  refine List.mem_map_of_mem (List.mem_filter.mpr ⟨hx, ?_⟩)
  simp only [decide_not, Bool.not_eq_true', decide_eq_false_iff_not]
  exact fun hP => hgone (List.mem_map_of_mem (List.mem_filter.mpr ⟨hx, by simpa using hP⟩))

theorem not_mem_of_mem_filter {P : ℕ × Alarm F C → Prop} [DecidablePred P] {b : ℕ}
    (hnd : (l.map Prod.fst).Nodup) (hb : b ∈ (l.filter (¬ P ·)).map Prod.fst) :
    b ∉ (l.filter (P ·)).map Prod.fst := by
  intro hgone
  obtain ⟨x, hx, rfl⟩ := List.mem_map.mp hb
  obtain ⟨y, hy, hxy⟩ := List.mem_map.mp hgone
  obtain ⟨hxl, hxP⟩ := List.mem_filter.mp hx
  obtain ⟨hyl, hyP⟩ := List.mem_filter.mp hy
  obtain rfl := List.inj_on_of_nodup_map hnd hyl hxl hxy
  simp only [decide_not, Bool.not_eq_true', decide_eq_false_iff_not, decide_eq_true_eq] at hxP hyP
  exact hxP hyP

theorem alarmCancel_inv [DecidableEq F] (f : F) (hi : Inv s l) :
    ∃ s' l', alarmCancel f s = some (s', (l.map Prod.snd).countP (·.f = f)) ∧ Inv s' l' ∧
      l'.map Prod.snd = Queue.cancel f (l.map Prod.snd) ∧ s'.fired = s.fired ∧
      s'.cancelled = s.cancelled ++ (l.map Prod.snd).filter (·.f = f) ∧ s'.now = s.now ∧
        s'.a = s.a := by
  have hnil : Seg s.heap s.alarms [] s.alarms := rfl
  obtain ⟨h, alarms, hloop, hseg, hsome⟩ : ∃ h alarms,
      cancelLoop f s.made s.heap s.alarms none s.alarms [] =
        some (h, alarms, [] ++ (l.map Prod.snd).filter (·.f = f)) ∧
      Seg h alarms ([] ++ l.filter (·.2.f ≠ f)) none ∧
      ∀ b, (h b).isSome = true ↔ (s.heap b).isSome = true ∧
        b ∉ (l.filter (·.2.f = f)).map Prod.fst :=
    cancelLoop_spec hnil hi.seg hi.nodup hi.length_le
  rw [List.nil_append] at hloop hseg
  have hmap : (l.filter (·.2.f ≠ f)).map Prod.snd = Queue.cancel f (l.map Prod.snd) := by
    rw [Queue.cancel, List.filter_map]
    rfl
  have hsub : ∀ b ∈ (l.filter (·.2.f ≠ f)).map Prod.fst, b ∈ l.map Prod.fst := by
    intro b hb
    exact (List.filter_sublist.map _).subset hb
  refine ⟨{ s with heap := h, alarms := alarms, cancelled := s.cancelled ++ (l.map Prod.snd).filter (·.f = f) },
    l.filter (·.2.f ≠ f), ?_, ?_, hmap, rfl, rfl, rfl, rfl⟩
  · rw [alarmCancel, hloop, Option.map_some, List.countP_eq_length_filter]
  · constructor
    · exact hseg
    · exact hi.nodup.sublist (List.filter_sublist.map _)
    · exact fun b hb hmem => hi.running b hb (hsub b hmem)
    · intro b
      rw [hsome, hi.inUse]
      constructor
      · rintro ⟨hb | hb, hgone⟩
        · exact .inl (mem_filter_of_not_mem hb hgone)
        · exact .inr hb
      · rintro (hb | hb)
        · exact ⟨.inl (hsub b hb), not_mem_of_mem_filter hi.nodup hb⟩
        · exact ⟨.inr hb, fun hgone => hi.running b hb ((List.filter_sublist.map _).subset hgone)⟩
    · rw [hmap]
      exact Queue.cancel_ordered f hi.ordered
    · intro x hx
      rw [hmap] at hx
      exact hi.usec x (List.filter_sublist.subset hx)
    · rw [hmap]
      refine (List.Perm.map Alarm.id ?_).trans hi.ids
      calc Queue.cancel f (l.map Prod.snd) ++ s.fired ++
        (s.cancelled ++ (l.map Prod.snd).filter (·.f = f))
          = Queue.cancel f (l.map Prod.snd) ++
              (s.fired ++ s.cancelled ++ (l.map Prod.snd).filter (·.f = f)) := by
            simp only [List.append_assoc]
        _ ~ Queue.cancel f (l.map Prod.snd) ++
              ((l.map Prod.snd).filter (·.f = f) ++ (s.fired ++ s.cancelled)) :=
            List.perm_append_comm.append_left _
        _ = Queue.cancel f (l.map Prod.snd) ++ (l.map Prod.snd).filter (·.f = f) ++
          (s.fired ++ s.cancelled) :=
            (List.append_assoc _ _ _).symm
        _ ~ l.map Prod.snd ++ (s.fired ++ s.cancelled) := (Queue.cancel_perm f _).append_right _
        _ = l.map Prod.snd ++ s.fired ++ s.cancelled := (List.append_assoc _ _ _).symm

/-- **A round of `alarm_process`** ends the loop when no alarm is due, or takes the first alarm out
of the list. -/
theorem processRound_inv (now : Timeval) (hi : Inv s l) (ha : s.a = none) :
    ∃ s', processRound now s = some s' ∧ s'.cancelled = s.cancelled ∧
      ((s'.fired = s.fired ∧ Inv s' l ∧ ∀ x ∈ l.map Prod.snd, now.before x.time) ∨
        ∃ x l', l = x :: l' ∧ Inv s' l' ∧ s'.fired = s.fired ++ [x.2] ∧ ¬ now.before x.2.time) := by
  cases l with
  | nil =>
    have hnone : s.alarms = none := hi.seg
    refine ⟨{ s with now := none }, by simp only [processRound, hnone], rfl,
      .inl ⟨rfl, ?_, by simp⟩⟩
    exact ⟨hi.seg, hi.nodup, hi.running, hi.inUse, hi.ordered, hi.usec, hi.ids⟩
  | cons x l =>
    obtain ⟨hx, n, hcell, hrest⟩ := hi.seg
    obtain ⟨hfirst, hord⟩ := List.pairwise_cons.mp hi.ordered
    obtain ⟨hxl, hnd⟩ := List.nodup_cons.mp hi.nodup
    by_cases hb : now.before x.2.time
    · refine ⟨{ s with now := none }, by simp only [processRound, hx, hcell, if_pos hb], rfl,
        .inl ⟨rfl, ?_, ?_⟩⟩
      · exact ⟨hi.seg, hi.nodup, hi.running, hi.inUse, hi.ordered, hi.usec, hi.ids⟩
      · intro y hy
        obtain rfl | hy := List.mem_cons.mp hy
        · exact hb
        · exact Timeval.before_of_before_of_not hb (hfirst y hy).not_before
    · refine ⟨{ s with alarms := n, a := some x.1, fired := s.fired ++ [x.2] },
        by simp only [processRound, hx, hcell, if_neg hb], rfl, .inr ⟨x, l, rfl, ?_, rfl, hb⟩⟩
      constructor
      · exact hrest
      · exact hnd
      · rintro b ⟨⟩
        exact hxl
      · intro b
        have hin := hi.inUse b
        rw [ha, List.map_cons, List.mem_cons] at hin
        rw [hin]
        simp only [reduceCtorEq, or_false, Option.some.injEq]
        rw [or_comm, eq_comm]
      · exact hord
      · exact fun y hy => hi.usec y (List.mem_cons_of_mem _ hy)
      · refine (List.Perm.map Alarm.id ?_).trans hi.ids
        show (l.map Prod.snd ++ (s.fired ++ [x.2]) ++ s.cancelled) ~
          (x.2 :: l.map Prod.snd ++ s.fired ++ s.cancelled)
        refine List.Perm.append_right _ ?_
        rw [← List.append_assoc, List.cons_append]
        exact List.perm_append_singleton _ _

theorem callbackReturns_inv {a : ℕ} (hi : Inv s l) (ha : s.a = some a) :
    ∃ h, free s.heap a = some h ∧ Inv { s with heap := h, a := none } l := by
  have hal := hi.running a ha
  refine ⟨_, free_eq ((hi.inUse a).mpr (.inr ha)), ?_⟩
  constructor
  · exact seg_congr (fun b hb => Function.update_of_ne (ne_of_mem_of_not_mem hb hal) _ _) hi.seg
  · exact hi.nodup
  · exact fun b hb => by cases hb
  · intro b
    by_cases hb : b = a
    · subst hb
      simp [hal]
    · have hin := hi.inUse b
      rw [ha] at hin
      simp only [Function.update_of_ne hb, hin, Option.some.injEq, reduceCtorEq, or_false]
      exact ⟨fun h => h.resolve_right (Ne.symm hb), .inl⟩
  · exact hi.ordered
  · exact hi.usec
  · exact hi.ids

end Steps

/-! ## Calls -/

/-- The delays and clock readings that the queue is made for. -/
def AlarmCall.Ok : AlarmCall F C → Prop
  | .set _ _ ms _ now => 0 ≤ ms ∧ ms ≤ 2000000 ∧ 0 ≤ now.usec ∧ now.usec < 1000000
  | .cancel _ | .process _ | .round | .callbackReturns => True

/-- What the program and the C library see to: the calls are nested as they are written, and
`malloc` returns no block in use. -/
def AlarmCall.Enabled (s : AlarmState F C) : AlarmCall F C → Prop
  | .set _ _ _ block _ => s.ready = true ∧ ∀ a, block = some a → s.heap a = none
  | .cancel _ => s.ready = true
  | .process _ => s.now = none
  | .round => s.now.isSome = true ∧ s.a = none
  | .callbackReturns => s.a.isSome = true

/-- What a call does to the alarms: an alarm fires only when it is due, and before the others. -/
def Fires (s s' : AlarmState F C) : Prop :=
  s'.fired = s.fired ∨ ∃ now x, s.now = some now ∧ s'.fired = s.fired ++ [x] ∧ x ∈ s.pending ∧
    ¬ now.before x.time ∧ ∀ y ∈ s.pending, ¬ y.time.before x.time

section Calls

variable [DecidableEq F] {s s' : AlarmState F C} {l : List (ℕ × Alarm F C)}

/-- **Step lemma**: an enabled call has a result, and the result meets the invariant. -/
theorem alarmStep_inv (hi : Inv s l) {c : AlarmCall F C} (hok : c.Ok) (hen : c.Enabled s) :
    ∃ s' l', alarmStep s c = some s' ∧ Inv s' l' ∧ s.cancelled <+: s'.cancelled ∧ Fires s s' := by
  cases c with
  | set f cookie ms block now =>
    obtain ⟨hready, hblock⟩ := hen
    simp only [alarmStep, hready, if_true]
    cases block with
    | none => exact ⟨s, l, rfl, hi, List.prefix_rfl, .inl rfl⟩
    | some a =>
      have ha := hblock a rfl
      obtain ⟨h₀, h₁, h₂, h₃⟩ := hok
      obtain ⟨s', l', hlink, hinv, -, hf, hc, -, -⟩ :=
        linkNode_inv (x := ⟨s.made, alarmTime now ms, f, cookie⟩) hi ha rfl
          (alarmTime_usec h₀ h₁ h₂ h₃)
      refine ⟨s', l', ?_, hinv, hc ▸ List.prefix_rfl, .inl hf⟩
      simp [alarmSetRelative, ha, hlink]
  | cancel f =>
    obtain ⟨s', l', hcancel, hinv, -, hf, hc, -, -⟩ := alarmCancel_inv f hi
    have hready : s.ready = true := hen
    refine ⟨s', l', ?_, hinv, hc ▸ List.prefix_append _ _, .inl hf⟩
    simp only [alarmStep, hready, if_true, hcancel, Option.map_some]
  | process now =>
    have hnone : s.now = none := hen
    refine ⟨{ s with now := some now }, l, by simp [alarmStep, hnone], ?_,
      List.prefix_rfl, .inl rfl⟩
    exact ⟨hi.seg, hi.nodup, hi.running, hi.inUse, hi.ordered, hi.usec, hi.ids⟩
  | round =>
    obtain ⟨hnow, ha⟩ := hen
    obtain ⟨now, hnow⟩ := Option.isSome_iff_exists.mp hnow
    have hround : alarmStep s .round = processRound now s := by simp only [alarmStep, hnow, ha]
    obtain ⟨s', hs', hc, ⟨hf, hinv, -⟩ | ⟨x, l', rfl, hinv, hf, hdue⟩⟩ := processRound_inv now hi ha
    · exact ⟨s', l, hround.trans hs', hinv, hc ▸ List.prefix_rfl, .inl hf⟩
    · refine ⟨s', l', hround.trans hs', hinv, hc ▸ List.prefix_rfl,
        .inr ⟨now, x.2, hnow, hf, ?_, hdue, ?_⟩⟩
      · rw [hi.pending_eq]
        exact List.mem_cons_self
      · rw [hi.pending_eq]
        exact hi.ordered.not_before_head
  | callbackReturns =>
    obtain ⟨a, ha⟩ := Option.isSome_iff_exists.mp hen
    obtain ⟨h, hfree, hinv⟩ := callbackReturns_inv hi ha
    exact ⟨_, l, by simp only [alarmStep, ha, hfree, Option.map_some], hinv,
      List.prefix_rfl, .inl rfl⟩

theorem enabled_of_alarmStep {c : AlarmCall F C} (h : alarmStep s c = some s') : c.Enabled s := by
  cases c with
  | set f cookie ms block now =>
    simp only [alarmStep] at h
    split_ifs at h with hready
    refine ⟨hready, ?_⟩
    rintro a rfl
    by_contra ha
    simp [alarmSetRelative, Option.isSome_iff_ne_none.mpr ha] at h
  | cancel f =>
    simp only [alarmStep] at h
    split_ifs at h with hready
    exact hready
  | process now =>
    simp only [alarmStep] at h
    split_ifs at h with hnow
    exact Option.isNone_iff_eq_none.mp hnow
  | round =>
    simp only [alarmStep] at h
    split at h
    · next hnow ha => exact ⟨by rw [hnow]; rfl, ha⟩
    · cases h
  | callbackReturns =>
    simp only [alarmStep] at h
    split at h
    · next ha => exact (by rw [AlarmCall.Enabled, ha]; rfl)
    · cases h

theorem alarmStep_run_inv {c : AlarmCall F C} (hi : Inv s l) (hok : c.Ok)
    (h : alarmStep s c = some s') :
    ∃ l', Inv s' l' ∧ s.cancelled <+: s'.cancelled ∧ Fires s s' := by
  obtain ⟨t, l', ht, hinv, hc, hf⟩ := alarmStep_inv hi hok (enabled_of_alarmStep h)
  obtain rfl : t = s' := Option.some.inj (ht.symm.trans h)
  exact ⟨l', hinv, hc, hf⟩

/-- **Run lemma.** -/
theorem alarmRun_inv {calls : List (AlarmCall F C)} (hi : Inv s l) (hok : ∀ c ∈ calls, c.Ok)
    (h : Machine.exec alarmStep s calls = some s') :
    (∃ l', Inv s' l') ∧ s.cancelled <+: s'.cancelled := by
  refine Machine.exec_inv_along (C := fun _ c => c.Ok)
    (P := fun t => (∃ l', Inv t l') ∧ s.cancelled <+: t.cancelled) ?_ calls s s'
    ⟨⟨l, hi⟩, List.prefix_rfl⟩
    (Machine.along_of_forall calls s fun c hc _ => hok c hc) h
  rintro t c t' ⟨⟨k, hk⟩, hpre⟩ hc ht
  obtain ⟨k', hk', hpre', -⟩ := alarmStep_run_inv hk hc ht
  exact ⟨⟨k', hk'⟩, hpre.trans hpre'⟩

end Calls

/-- **The alarm queue**, after every sequence of calls, with callbacks that set and cancel alarms,
and for any readings of the clock. The list is ordered by deadline, and by age where deadlines are
equal; the microseconds are below a million. Every alarm that was set is once in the list or has
fired once or was cancelled once, and no alarm that was cancelled fires later.  A call fires at most
one alarm, which is not later than the reading at the start of `alarm_process` and has the least
deadline in the list.  `alarm_cancel` takes the alarms of its callback out of the list, and these
only, and returns their number.  No call touches a block that is not allocated. -/
theorem alarm_queue {F C : Type} [DecidableEq F] {calls : List (AlarmCall F C)} {s : AlarmState F C}
    (hok : ∀ c ∈ calls, c.Ok) (h : Machine.exec alarmStep noAlarms calls = some s) :
    Queue.Ordered s.pending ∧ (∀ x ∈ s.pending, 0 ≤ x.time.usec ∧ x.time.usec < 1000000) ∧
    ((s.pending ++ s.fired ++ s.cancelled).map Alarm.id).Perm (List.range s.made) ∧
    (∀ (later : List (AlarmCall F C)) (s' : AlarmState F C), (∀ c ∈ later, c.Ok) →
      Machine.exec alarmStep s later = some s' → ∀ x ∈ s.cancelled, ∀ y ∈ s'.fired, y.id ≠ x.id) ∧
    (∀ (c : AlarmCall F C) (s' : AlarmState F C), c.Ok → alarmStep s c = some s' →
      s'.fired = s.fired ∨ ∃ now x, s.now = some now ∧ s'.fired = s.fired ++ [x] ∧ x ∈ s.pending ∧
        ¬ now.before x.time ∧ ∀ y ∈ s.pending, ¬ y.time.before x.time) ∧
    (∀ f : F, ∃ s', alarmCancel f s = some (s', s.pending.countP (·.f = f)) ∧
      s'.pending = s.pending.filter (·.f ≠ f) ∧ s'.cancelled = s.cancelled ++
      s.pending.filter (·.f = f)) ∧
    (∀ c : AlarmCall F C, c.Ok → c.Enabled s → ∃ s', alarmStep s c = some s') := by
  obtain ⟨⟨l, hi⟩, -⟩ := alarmRun_inv noAlarms_inv hok h
  have hp := hi.pending_eq
  refine ⟨hp ▸ hi.ordered, hp ▸ hi.usec, hp ▸ hi.ids, ?_, ?_, ?_, ?_⟩
  · intro later s' hlater hrun x hx y hy
    obtain ⟨⟨l', hi'⟩, hpre⟩ := alarmRun_inv hi hlater hrun
    exact hi'.id_ne (hpre.subset hx) hy
  · intro c s' hc hstep
    obtain ⟨-, -, -, hfires⟩ := alarmStep_run_inv hi hc hstep
    exact hfires
  · intro f
    obtain ⟨s', l', hcancel, hi', hmap, -, hc, -, -⟩ := alarmCancel_inv f hi
    refine ⟨s', hp ▸ hcancel, ?_, hp ▸ hc⟩
    rw [hi'.pending_eq, hmap, hp]
    rfl
  · intro c hc hen
    obtain ⟨s', -, hstep, -⟩ := alarmStep_inv hi hc hen
    exact ⟨s', hstep⟩

/-- **`alarm.c` implements the queue**: on the alarms in the list the calls are the operations of
`Omap4.ChargeOnly.Queue`, and a round that fires takes the first alarm. -/
theorem alarm_refines_queue {F C : Type} [DecidableEq F] {s : AlarmState F C}
    {l : List (ℕ × Alarm F C)} (hi : Inv s l) :
    (∀ f cookie ms a now, 0 ≤ ms → ms ≤ 2000000 → 0 ≤ now.usec → now.usec < 1000000 →
    s.heap a = none →
      ∃ s', alarmSetRelative f cookie ms (some a) now s = some (s', 0) ∧
        s'.pending = Queue.insert ⟨s.made, alarmTime now ms, f, cookie⟩ s.pending) ∧
    (∀ f, ∃ s', alarmCancel f s = some (s', s.pending.countP (·.f = f)) ∧
      s'.pending = Queue.cancel f s.pending) ∧
    (∀ now, s.a = none → ∃ s', processRound now s = some s' ∧
      (s'.pending = s.pending ∧ (∀ x ∈ s.pending, now.before x.time) ∨
        ∃ x, s.pending = x :: s'.pending ∧ ¬ now.before x.time)) := by
  have hp := hi.pending_eq
  refine ⟨?_, ?_, ?_⟩
  · intro f cookie ms a now h₀ h₁ h₂ h₃ ha
    obtain ⟨s', l', hlink, hi', hmap, -⟩ :=
      linkNode_inv (x := ⟨s.made, alarmTime now ms, f, cookie⟩) hi ha rfl
        (alarmTime_usec h₀ h₁ h₂ h₃)
    refine ⟨s', by simp [alarmSetRelative, ha, hlink], ?_⟩
    rw [hi'.pending_eq, hmap, hp]
  · intro f
    obtain ⟨s', l', hcancel, hi', hmap, -⟩ := alarmCancel_inv f hi
    refine ⟨s', hp ▸ hcancel, ?_⟩
    rw [hi'.pending_eq, hmap, hp]
  · intro now ha
    obtain ⟨s', hs', -, ⟨-, hi', hlate⟩ | ⟨x, l', rfl, hi', -, hdue⟩⟩ := processRound_inv now hi ha
    · exact ⟨s', hs', .inl ⟨hi'.pending_eq.trans hp.symm, hp ▸ hlate⟩⟩
    · refine ⟨s', hs', .inr ⟨x.2, ?_, hdue⟩⟩
      rw [hp, hi'.pending_eq, List.map_cons]

/-- Two alarms are set; the first one fires, sets itself again and cancels the other. -/
def alarmCalls : List (AlarmCall ℕ Unit) :=
  [.set 1 () 500 (some 100) ⟨10, 999999⟩, .set 2 () 5000 (some 101) ⟨10, 0⟩,
    .process ⟨11, 700000⟩, .round, .set 1 () 500 (some 102) ⟨11, 700001⟩, .cancel 2,
    .callbackReturns, .round]

theorem alarm_queue_calls :
    ∃ s, Machine.exec alarmStep noAlarms alarmCalls = some s ∧
      s.fired.map Alarm.id = [0] ∧ s.cancelled.map Alarm.id = [1] ∧ s.pending.map Alarm.id = [2] ∧
      (s.pending.map Alarm.time) = [⟨12, 200001⟩] ∧ Queue.Ordered s.pending := by
  obtain ⟨s, hrun, hf, hc, hp, ht⟩ : ∃ s, Machine.exec alarmStep noAlarms alarmCalls = some s ∧
      s.fired.map Alarm.id = [0] ∧ s.cancelled.map Alarm.id = [1] ∧ s.pending.map Alarm.id = [2] ∧
      (s.pending.map Alarm.time) = [⟨12, 200001⟩] := ⟨_, rfl, rfl, rfl, rfl, rfl⟩
  exact ⟨s, hrun, hf, hc, hp, ht, (alarm_queue (by simp [alarmCalls, AlarmCall.Ok]) hrun).1⟩

end Omap4.ChargeOnly
