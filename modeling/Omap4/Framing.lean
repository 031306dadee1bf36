import Mathlib.Data.List.Basic
import Mathlib.Data.List.TakeWhile

/-!
# Omap4.Framing — terminated messages in a stream that is cut into chunks

A sender writes messages, each followed by a terminator `z`, to a stream; a receiver gets the stream
in non-empty chunks, cut at any place.  The receiver here keeps nothing between two chunks: of each
chunk it takes the part before the first terminator and serves it if it is a known message
(`served`). `served_eq_iff` says when it serves just the messages that were sent: when every message
is known and has a chunk that starts where the message starts and holds all of it.

The messages that are known have to be told apart from their own tails (`Vocabulary`): otherwise a
chunk that starts inside of a message could be taken for another message.
-/

namespace Omap4.Framing

variable {α : Type} (z : α) (known : List α → Bool)

def encode (rs : List (List α)) : List α := rs.flatMap (· ++ [z])

structure Vocabulary : Prop where
  clean : ∀ {r}, known r = true → z ∉ r
  apart : ∀ {r k : List α} {n : ℕ}, known r = true → known k = true → 0 < n → ¬ k <+: r.drop n

/-- Every message of `rs` has a chunk that starts where the message starts and holds all of it; the
first message starts after the elements `u`. -/
def Aligned (u : List α) (rs cs : List (List α)) : Prop :=
  ∀ pre r post, rs = pre ++ r :: post →
    ∃ a c b, cs = a ++ c :: b ∧ a.flatten = u ++ encode z pre ∧ r <+: c

/-- What is left of a known message and its terminator when a part of it has been delivered, or
nothing. -/
def Tail (u : List α) : Prop :=
  u = [] ∨ ∃ r n, known r = true ∧ 0 < n ∧ n ≤ r.length ∧ u = r.drop n ++ [z]

variable {z known}

@[simp] theorem encode_nil : encode z [] = [] := rfl

@[simp] theorem encode_cons (r : List α) (rs : List (List α)) :
    encode z (r :: rs) = r ++ z :: encode z rs := by
  simp [encode]

theorem encode_eq_nil {rs : List (List α)} (h : encode z rs = []) : rs = [] := by
  cases rs with
  | nil => rfl
  | cons r rs => simp at h

/-! ## What is left after a chunk -/

/-- A chunk ends in the first part of the stream, or reaches into the second. -/
theorem append_cases {c w u v : List α} (h : c ++ w = u ++ v) :
    (∃ d, u = c ++ d ∧ w = d ++ v) ∨ ∃ d, d ≠ [] ∧ c = u ++ d ∧ v = d ++ w := by
  rcases List.append_eq_append_iff.mp h with hin | ⟨d, hd, hw⟩
  · exact .inl hin
  · by_cases hdn : d = []
    · subst hdn
      exact .inl ⟨[], by simpa using hd.symm, by simpa using hw.symm⟩
    · exact .inr ⟨d, hdn, hd, hw⟩

theorem Tail.drop {u c u' : List α} (hu : Tail z known u) (hc : u = c ++ u') : Tail z known u' := by
  obtain rfl | ⟨r, n, hr, hn, hle, rfl⟩ := hu
  · exact .inl (List.append_eq_nil_iff.mp hc.symm).2
  · by_cases hlen : n + c.length ≤ r.length
    · refine .inr ⟨r, n + c.length, hr, by omega, hlen, ?_⟩
      have hd := congrArg (List.drop c.length) hc
      rw [List.drop_left, List.drop_append_of_le_length (by rw [List.length_drop]; omega),
        List.drop_drop] at hd
      exact hd.symm
    · have hl := congrArg List.length hc
      simp only [List.length_append, List.length_drop, List.length_singleton] at hl
      exact .inl (List.length_eq_zero_iff.mp (by omega))

theorem tail_of_message {r c u : List α} (hr : known r = true) (hne : c ≠ [])
    (hc : r ++ [z] = c ++ u) :
    Tail z known u := by
  have hpos := List.length_pos_iff.mpr hne
  by_cases hlen : c.length ≤ r.length
  · refine .inr ⟨r, c.length, hr, hpos, hlen, ?_⟩
    have hd := congrArg (List.drop c.length) hc
    rw [List.drop_left, List.drop_append_of_le_length hlen] at hd
    exact hd.symm
  · have hl := congrArg List.length hc
    simp only [List.length_append, List.length_singleton] at hl
    exact .inl (List.length_eq_zero_iff.mp (by omega))

/-- What is left of a stream of messages when it is cut somewhere after its start: the tail of one
message, and the messages after it. -/
theorem encode_cut {rs : List (List α)} {c w : List α} (hk : ∀ r ∈ rs, known r = true)
    (hne : c ≠ []) (h : encode z rs = c ++ w) :
    ∃ u ss, Tail z known u ∧ w = u ++ encode z ss ∧ (∀ r ∈ ss, known r = true) ∧
      ss.length < rs.length := by
  induction rs generalizing c with
  | nil => exact absurd (List.append_eq_nil_iff.mp h.symm).1 hne
  | cons r rs ih =>
    have hk' : ∀ s ∈ rs, known s = true := fun s hs => hk s (by simp [hs])
    rw [encode_cons, ← List.singleton_append, ← List.append_assoc] at h
    rcases append_cases h.symm with ⟨d, hd, hw⟩ | ⟨d, hdn, -, hw⟩
    · exact ⟨d, rs, tail_of_message (hk r (by simp)) hne hd, hw, hk', by simp⟩
    · obtain ⟨u, ss, hu, hwu, hss, hlen⟩ := ih hk' hdn hw
      exact ⟨u, ss, hu, hwu, hss, hlen.trans (Nat.lt_succ_self _)⟩

/-! ## Alignment -/

theorem Aligned.length_le {u c : List α} {rs cs pre post : List (List α)} {r : List α}
    (h : Aligned z u rs (c :: cs)) (hrs : rs = pre ++ r :: post) (hne : u ++ encode z pre ≠ []) :
    c.length ≤ (u ++ encode z pre).length := by
  obtain ⟨a, c', b, hcs, ha, -⟩ := h pre r post hrs
  cases a with
  | nil => exact absurd ha.symm hne
  | cons d a =>
    obtain ⟨rfl, -⟩ := List.cons.inj hcs
    rw [← ha, List.flatten_cons, List.length_append]
    omega

/-- A chunk before the first message does not matter. -/
theorem aligned_skip {u c u' : List α} {rs cs : List (List α)} (hne : u ≠ []) (hu : u = c ++ u') :
    Aligned z u rs (c :: cs) ↔ Aligned z u' rs cs := by
  constructor
  · intro h pre r post hrs
    obtain ⟨a, c', b, hcs, ha, hr⟩ := h pre r post hrs
    cases a with
    | nil =>
      exact absurd (List.append_eq_nil_iff.mp ha.symm).1 hne
    | cons d a =>
      obtain ⟨rfl, rfl⟩ := List.cons.inj hcs
      refine ⟨a, c', b, rfl, ?_, hr⟩
      rw [hu, List.flatten_cons, List.append_assoc] at ha
      exact List.append_cancel_left ha
  · intro h pre r post hrs
    obtain ⟨a, c', b, rfl, ha, hr⟩ := h pre r post hrs
    exact ⟨c :: a, c', b, rfl, by rw [List.flatten_cons, ha, hu, List.append_assoc], hr⟩

/-- A chunk that starts with the first message has to hold all of it. -/
theorem aligned_start {r c u' : List α} {rs cs : List (List α)} (hne : c ≠ [])
    (hu : r ++ [z] = c ++ u') :
    Aligned z [] (r :: rs) (c :: cs) ↔ r <+: c ∧ Aligned z u' rs cs := by
  have hskip : Aligned z (r ++ [z]) rs (c :: cs) ↔ Aligned z u' rs cs := aligned_skip (by simp) hu
  rw [← hskip]
  constructor
  · intro h
    refine ⟨?_, ?_⟩
    · obtain ⟨a, c', b, hcs, ha, hr⟩ := h [] r rs rfl
      cases a with
      | nil =>
        obtain ⟨rfl, -⟩ := List.cons.inj hcs
        exact hr
      | cons d a =>
        obtain ⟨rfl, -⟩ := List.cons.inj hcs
        exact absurd (List.append_eq_nil_iff.mp ha).1 hne
    · intro pre s post hrs
      obtain ⟨a, c', b, hcs, ha, hr⟩ := h (r :: pre) s post (by rw [hrs]; rfl)
      exact ⟨a, c', b, hcs, by simpa using ha, hr⟩
  · rintro ⟨hr, h⟩ pre s post hrs
    cases pre with
    | nil =>
      obtain ⟨rfl, rfl⟩ := List.cons.inj hrs
      exact ⟨[], c, cs, rfl, rfl, hr⟩
    | cons d pre =>
      obtain ⟨rfl, rfl⟩ := List.cons.inj hrs
      obtain ⟨a, c', b, hcs, ha, hr'⟩ := h pre s post rfl
      exact ⟨a, c', b, hcs, by simpa using ha, hr'⟩

/-! ## The receiver -/

theorem takeWhile_isPrefix {p : α → Bool} {l m : List α} (h : l <+: m) :
    l.takeWhile p <+: m.takeWhile p := by
  obtain ⟨t, rfl⟩ := h
  induction l with
  | nil => simp
  | cons a l ih =>
    by_cases ha : p a = true
    · simpa [ha] using ih
    · simp [ha]

variable [DecidableEq α]

variable (z known) in
/-- The part of a chunk before the first terminator. -/
def firstMessage (c : List α) : List α := c.takeWhile (· ≠ z)

variable (z known) in
def served (cs : List (List α)) : List (List α) := (cs.map (firstMessage z)).filter known

@[simp] theorem served_cons (c : List α) (cs : List (List α)) :
    served z known (c :: cs) =
      if known (firstMessage z c) = true then firstMessage z c :: served z known cs
      else served z known cs := by
  simp [served, List.filter_cons]

theorem served_append (cs ds : List (List α)) :
    served z known (cs ++ ds) = served z known cs ++ served z known ds := by
  simp [served]

theorem served_length_cons (c : List α) (cs : List (List α)) :
    (served z known (c :: cs)).length ≤ (served z known cs).length + 1 := by
  rw [served_cons]
  split_ifs
  · simp
  · omega

theorem takeWhile_terminated {r w : List α} (hr : z ∉ r) : (r ++ z :: w).takeWhile (· ≠ z) = r := by
  rw [List.takeWhile_append_of_pos, List.takeWhile_cons_of_neg (by simp), List.append_nil]
  intro x hx
  have hne : x ≠ z := fun h => hr (h ▸ hx)
  simpa using hne

theorem firstMessage_isPrefix {c r w : List α} (hr : z ∉ r) (hc : c <+: r ++ z :: w) :
    firstMessage z c <+: r := by
  have h := takeWhile_isPrefix (p := fun x => decide (x ≠ z)) hc
  rwa [takeWhile_terminated hr] at h

/-- A chunk that starts with a message is taken for it if it holds all of it. -/
theorem firstMessage_eq_iff {c r w : List α} (hr : z ∉ r) (hc : c <+: r ++ z :: w) :
    firstMessage z c = r ↔ r <+: c := by
  constructor
  · intro h
    rw [← h]
    exact List.takeWhile_prefix _
  · intro h
    have hle : r <+: firstMessage z c := by
      have hpre := takeWhile_isPrefix (p := fun x => decide (x ≠ z)) h
      have hself : r.takeWhile (fun x => decide (x ≠ z)) = r :=
        List.takeWhile_eq_self_iff.mpr fun x hx => by
          have hne : x ≠ z := fun e => hr (e ▸ hx)
          simpa using hne
      rwa [hself] at hpre
    exact ((firstMessage_isPrefix hr hc).eq_of_length_le hle.length_le)

/-- A chunk that starts inside of a message is not served. -/
theorem Tail.silent (hv : Vocabulary z known) {u c w : List α} (hu : Tail z known u) (hne : u ≠ [])
    (hc : c <+: u ++ w) : known (firstMessage z c) = false := by
  obtain rfl | ⟨r, n, hr, hn, -, rfl⟩ := hu
  · exact absurd rfl hne
  · have hclean : z ∉ r.drop n := fun h => hv.clean hr (List.mem_of_mem_drop h)
    rw [List.append_assoc, List.singleton_append] at hc
    have hpre := firstMessage_isPrefix hclean hc
    by_contra hk
    exact hv.apart hr (by simpa using hk) hn hpre

variable (z known) in
/-- From the elements `u` on, the receiver serves at most the messages that are still to come, and
serves just these if they are aligned. -/
def Serves (u : List α) (rs cs : List (List α)) : Prop :=
  (served z known cs).length ≤ rs.length ∧ (served z known cs = rs ↔ Aligned z u rs cs)

/-- A chunk that ends inside of the message it starts in. -/
theorem Serves.skip (hv : Vocabulary z known) {u c d : List α} {rs cs : List (List α)}
    (hu : Tail z known u) (hne : u ≠ []) (hd : u = c ++ d) (h : Serves z known d rs cs) :
    Serves z known u rs (c :: cs) := by
  have hsilent : served z known (c :: cs) = served z known cs := by
    have hk := hu.silent hv hne (c := c) (w := []) ⟨d, by simpa using hd.symm⟩
    rw [served_cons, if_neg (by simp [hk])]
  unfold Serves
  rw [hsilent, aligned_skip hne hd]
  exact h

/-- A chunk that starts with a message and ends in it. -/
theorem Serves.start (hv : Vocabulary z known) {r c d : List α} {rs cs : List (List α)}
    (hr : known r = true) (hne : c ≠ []) (hd : r ++ [z] = c ++ d) (h : Serves z known d rs cs) :
    Serves z known [] (r :: rs) (c :: cs) := by
  have hmsg : firstMessage z c = r ↔ r <+: c := firstMessage_eq_iff (hv.clean hr) ⟨d, hd.symm⟩
  by_cases hpre : r <+: c
  · have hc : served z known (c :: cs) = r :: served z known cs := by
      rw [served_cons, hmsg.mpr hpre, if_pos hr]
    unfold Serves
    rw [hc, aligned_start hne hd, ← h.2]
    exact ⟨Nat.succ_le_succ h.1, by simp [hpre]⟩
  · have hlen : (served z known cs).length ≤ rs.length := h.1
    refine ⟨(served_length_cons c cs).trans (Nat.succ_le_succ hlen), ?_, ?_⟩
    · intro hs
      -- the part of the message would have to be served, and as the whole message
      rw [served_cons] at hs
      split_ifs at hs
      · exact absurd (hmsg.mp (List.cons.inj hs).1) hpre
      · rw [hs, List.length_cons] at hlen
        omega
    · intro ha
      exact absurd ((aligned_start hne hd).mp ha).1 hpre

/-- A chunk that reaches into a later message: that message is lost. -/
theorem Serves.overrun {u c d r : List α} (pre : List (List α)) {post cs : List (List α)}
    (hne : u ++ encode z pre ≠ []) (hdn : d ≠ []) (hd : c = u ++ encode z pre ++ d)
    (hlen : (served z known (c :: cs)).length < (pre ++ r :: post).length) :
    Serves z known u (pre ++ r :: post) (c :: cs) := by
  refine ⟨hlen.le, fun hs => absurd (congrArg List.length hs) hlen.ne, fun ha => ?_⟩
  have hle := ha.length_le rfl hne
  have hpos := List.length_pos_iff.mpr hdn
  rw [hd, List.length_append] at hle
  omega

/-- Induction on the chunks: which of the three cases applies depends on where the chunk starts and
ends. -/
theorem serves (hv : Vocabulary z known) {cs rs : List (List α)} {u : List α} (hu : Tail z known u)
    (hk : ∀ r ∈ rs, known r = true) (hcs : ∀ c ∈ cs, c ≠ [])
    (hflat : cs.flatten = u ++ encode z rs) :
    Serves z known u rs cs := by
  induction cs generalizing u rs with
  | nil =>
    obtain ⟨rfl, hrs⟩ := List.append_eq_nil_iff.mp hflat.symm
    obtain rfl := encode_eq_nil hrs
    exact ⟨le_rfl, fun _ pre r post h => by simp at h, fun _ => rfl⟩
  | cons c cs ih =>
    have hne : c ≠ [] := hcs c (by simp)
    have hcs' : ∀ c ∈ cs, c ≠ [] := fun d hd => hcs d (by simp [hd])
    rw [List.flatten_cons] at hflat
    by_cases hun : u = []
    · subst hun
      cases rs with
      | nil => exact absurd (List.append_eq_nil_iff.mp hflat).1 hne
      | cons r rs =>
        have hr : known r = true := hk r (by simp)
        have hk' : ∀ r ∈ rs, known r = true := fun s hs => hk s (by simp [hs])
        have hsplit : c ++ cs.flatten = (r ++ [z]) ++ encode z rs := by simpa using hflat
        rcases append_cases hsplit with ⟨d, hd, hw⟩ | ⟨d, hdn, hd, hw⟩
        · exact .start hv hr hne hd (ih (tail_of_message hr hne hd) hk' hcs' hw)
        · obtain ⟨u', ss, hu', hw', hss, hlt⟩ := encode_cut hk' hdn hw
          have hlen := (ih hu' hss hcs' hw').1
          have hcons : (served z known (c :: cs)).length ≤ (served z known cs).length + 1 :=
            served_length_cons c cs
          obtain ⟨r', rs', rfl⟩ : ∃ r' rs', rs = r' :: rs' :=
            List.exists_cons_of_length_pos (by omega)
          exact .overrun [r] (by simp) hdn (by simpa using hd)
            (by simp only [List.length_append, List.length_cons] at hlt ⊢; omega)
    · rcases append_cases hflat with ⟨d, hd, hw⟩ | ⟨d, hdn, hd, hw⟩
      · exact .skip hv hu hun hd (ih (hu.drop hd) hk hcs' hw)
      · obtain ⟨u', ss, hu', hw', hss, hlt⟩ := encode_cut hk hdn hw
        have hlen := (ih hu' hss hcs' hw').1
        have hsilent : served z known (c :: cs) = served z known cs := by
          rw [served_cons, if_neg (by simp [hu.silent hv hun ⟨cs.flatten, hflat⟩])]
        obtain ⟨r', rs', rfl⟩ : ∃ r' rs', rs = r' :: rs' :=
          List.exists_cons_of_length_pos (by omega)
        exact .overrun [] (by simpa using hun) hdn (by simpa using hd)
          (by rw [hsilent]; exact hlen.trans_lt hlt)

theorem known_of_mem_served {r : List α} {cs : List (List α)} (h : r ∈ served z known cs) :
    known r = true := (List.mem_filter.mp h).2

/-- **When a receiver without a buffer serves just what was sent**: when every message is known and
has a chunk that starts where the message starts and holds all of it. -/
theorem served_eq_iff (hv : Vocabulary z known) {rs cs : List (List α)} (hcs : ∀ c ∈ cs, c ≠ [])
    (hflat : cs.flatten = encode z rs) :
    served z known cs = rs ↔ (∀ r ∈ rs, known r = true) ∧ Aligned z [] rs cs := by
  constructor
  · intro h
    have hk : ∀ r ∈ rs, known r = true := by
      intro r hr
      rw [← h] at hr
      exact known_of_mem_served hr
    exact ⟨hk, (serves hv (.inl rfl) hk hcs hflat).2.mp h⟩
  · rintro ⟨hk, ha⟩
    exact (serves hv (.inl rfl) hk hcs hflat).2.mpr ha

end Omap4.Framing
