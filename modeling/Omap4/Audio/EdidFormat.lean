import Mathlib.Data.List.Nodup
import Mathlib.Order.Basic
import Omap4.Audio.Edid

/-!
# Omap4.Audio.EdidFormat — the parser on well-formed images

A CEA extension block holds a collection of data blocks, each a header byte with its tag and its
size and then its payload (`DataBlock`).  `Collection` says that the bytes from 4 to `d` are such a
collection.  On an image whose first CEA block has one, the parser finds the audio bit and what the
last speaker allocation block says, and no byte matters but those that locate the block, its header
and its collection (`hdmiQueryAudioCaps_wellFormed`).
-/

namespace Omap4.Audio.Edid

/-! ## The format -/

/-- A data block of a CEA extension block. -/
structure DataBlock where
  header : UInt8
  payload : List UInt8
  size : payload.length = ceaSize header

namespace DataBlock

def bytes (b : DataBlock) : List UInt8 := b.header :: b.payload

def isSpeaker (b : DataBlock) : Bool := ceaTag b.header = ceaTagSpkrs

theorem length_bytes (b : DataBlock) : b.bytes.length = 1 + ceaSize b.header := by
  simp only [bytes, List.length_cons, b.size]
  omega

end DataBlock

/-- The speaker allocation of a collection: the first byte of its last speaker allocation block, or
0. -/
def speakerAllocation (blocks : List DataBlock) : UInt8 :=
  ((blocks.filter DataBlock.isSpeaker).getLast?.bind fun b => b.payload.head?).getD 0

/-- The data blocks of the extension block at `index` fill the bytes from 4 up to `d`. -/
structure Collection (mem : Mem) (index : ℕ) (blocks : List DataBlock) : Prop where
  short : (mem (index + 2)).toNat ≤ 127
  tiles : blocks.flatMap DataBlock.bytes =
    (List.range' 4 ((mem (index + 2)).toNat - 4)).map fun n => mem (index + n)
  speakers : ∀ b ∈ blocks, b.isSpeaker = true → b.payload ≠ []

/-! ## The walk over a collection -/

/-- What a data block does to the speaker allocation found so far. -/
def speakerStep (alloc : UInt8) (b : DataBlock) : UInt8 :=
  if b.isSpeaker then b.payload.headD 0 else alloc

theorem parseDataBlock_hasAudio (mem : Mem) (i : ℕ) (s : Parse) :
    (parseDataBlock mem i s).hasAudio = s.hasAudio := by
  unfold parseDataBlock
  split_ifs <;> rfl

theorem parseDataBlock_speakerAlloc (mem : Mem) (i : ℕ) (s : Parse) :
    (parseDataBlock mem i s).speakerAlloc =
      if ceaTag (mem i) = ceaTagSpkrs then mem (i + 1) else s.speakerAlloc := by
  unfold parseDataBlock
  by_cases haudio : ceaTag (mem i) = ceaTagAudio
  · have hspkrs : ceaTag (mem i) ≠ ceaTagSpkrs := by
      rw [haudio]
      decide
    rw [if_pos haudio, if_neg hspkrs]
  · rw [if_neg haudio]
    split_ifs <;> rfl

/-- The bytes of a collection, split behind its first block. -/
theorem tiles_cons {mem : Mem} {index d n : ℕ} {b : DataBlock} {bs : List DataBlock}
    (h : (b :: bs).flatMap DataBlock.bytes = (List.range' n (d - n)).map fun n => mem (index + n)) :
    n + 1 + ceaSize b.header ≤ d ∧ mem (index + n) = b.header ∧
      b.payload = (List.range' (n + 1) (ceaSize b.header)).map (fun n => mem (index + n)) ∧
      bs.flatMap DataBlock.bytes =
        (List.range' (n + 1 + ceaSize b.header) (d - (n + 1 + ceaSize b.header))).map
          fun n => mem (index + n) := by
  have hlen := congrArg List.length h
  rw [List.flatMap_cons, List.length_append, b.length_bytes, List.length_map,
    List.length_range'] at hlen
  obtain ⟨k, hk⟩ : ∃ k, d - n = 1 + ceaSize b.header + k :=
    ⟨d - n - (1 + ceaSize b.header), by omega⟩
  have hrest : d - (n + 1 + ceaSize b.header) = k := by omega
  have hcount : d - n = (ceaSize b.header + 1) + k := by omega
  have hnext : n + (ceaSize b.header + 1) = n + 1 + ceaSize b.header := by omega
  rw [List.flatMap_cons, hcount, ← List.range'_append_1, List.map_append, hnext] at h
  obtain ⟨hfirst, hbs⟩ := List.append_inj h (by simp [b.length_bytes, Nat.add_comm])
  rw [List.range'_succ, List.map_cons, DataBlock.bytes, List.cons.injEq] at hfirst
  exact ⟨by omega, hfirst.1.symm, hfirst.2, hrest ▸ hbs⟩

theorem dataBlockLoop_tiles {mem : Mem} {index d : ℕ} :
    ∀ {blocks : List DataBlock} {fuel n : ℕ} {s : Parse}, d ≤ n + fuel →
      blocks.flatMap DataBlock.bytes = (List.range' n (d - n)).map (fun n => mem (index + n)) →
      (∀ b ∈ blocks, b.isSpeaker = true → b.payload ≠ []) →
      (dataBlockLoop mem index d fuel n s).hasAudio = s.hasAudio ∧
        (dataBlockLoop mem index d fuel n s).speakerAlloc = blocks.foldl speakerStep s.speakerAlloc
  | [], fuel, n, s, hf, h, hs => by
    have hlen := congrArg List.length h
    rw [List.flatMap_nil, List.length_nil, List.length_map, List.length_range'] at hlen
    have hn : ¬ n < d := by omega
    cases fuel with
    | zero => exact ⟨rfl, rfl⟩
    | succ fuel =>
      rw [dataBlockLoop, if_neg hn]
      exact ⟨rfl, rfl⟩
  | b :: bs, fuel, n, s, hf, h, hs => by
    obtain ⟨hle, hheader, hpayload, hbs⟩ := tiles_cons h
    obtain ⟨fuel, rfl⟩ : ∃ k, fuel = k + 1 := ⟨fuel - 1, by omega⟩
    have hspeakers : ∀ c ∈ bs, c.isSpeaker = true → c.payload ≠ [] :=
      fun c hc => hs c (List.mem_cons_of_mem b hc)
    rw [dataBlockLoop, if_pos (by omega), hheader]
    obtain ⟨haudio, halloc⟩ := dataBlockLoop_tiles (s := parseDataBlock mem (index + n) s)
      (show d ≤ n + 1 + ceaSize b.header + fuel by omega) hbs hspeakers
    refine ⟨haudio.trans (parseDataBlock_hasAudio _ _ _), halloc.trans ?_⟩
    rw [List.foldl_cons, parseDataBlock_speakerAlloc, hheader]
    congr 1
    -- the byte behind the header is the first one of the payload
    unfold speakerStep DataBlock.isSpeaker
    by_cases hspk : ceaTag b.header = ceaTagSpkrs
    · have hne := hs b List.mem_cons_self (by simp [DataBlock.isSpeaker, hspk])
      obtain ⟨k, hk⟩ : ∃ k, ceaSize b.header = k + 1 := by
        refine ⟨ceaSize b.header - 1, ?_⟩
        have hpos := List.length_pos_iff.mpr hne
        have hsize := b.size
        omega
      rw [hk, List.range'_succ, List.map_cons] at hpayload
      simp [hspk, hpayload, Nat.add_assoc]
    · simp [hspk]

/-- The last speaker allocation block decides. -/
theorem foldl_speakerStep {blocks : List DataBlock} (alloc : UInt8)
    (hs : ∀ b ∈ blocks, b.isSpeaker = true → b.payload ≠ []) :
    blocks.foldl speakerStep alloc =
      ((blocks.filter DataBlock.isSpeaker).getLast?.bind fun b => b.payload.head?).getD alloc := by
  induction blocks generalizing alloc with
  | nil => rfl
  | cons b bs ih =>
    rw [List.foldl_cons, ih _ fun c hc => hs c (List.mem_cons_of_mem b hc)]
    unfold speakerStep
    cases hspk : b.isSpeaker with
    | false => rw [List.filter_cons_of_neg (by simp [hspk]), if_neg Bool.false_ne_true]
    | true =>
      rw [List.filter_cons_of_pos hspk, if_pos rfl, List.getLast?_cons]
      cases hlast : (bs.filter DataBlock.isSpeaker).getLast? with
      | none =>
        have hne := hs b List.mem_cons_self hspk
        simp [List.headD_eq_head?_getD, List.head?_eq_some_head hne]
      | some c =>
        have hc := List.mem_filter.mp (List.mem_of_getLast? hlast)
        have hne := hs c (List.mem_cons_of_mem b hc.1) hc.2
        simp [List.head?_eq_some_head hne]

/-! ## Images -/

/-- The bytes that locate the first CEA block: the number of extension blocks, the byte that marks a
block map, and the identification of the blocks up to it. -/
def Locates (mem : Mem) (i : ℕ) : Prop :=
  i = 0x7E ∨ i = 128 ∨ ∃ k ∈ List.range' 128 3 128, k < edidSize mem ∧
    (∀ index, firstCea mem = some index → k ≤ index) ∧ i ∈ ceaIdReads mem k

/-- The bytes that may matter: besides those that locate the first CEA block, its header and its
collection. -/
def Relevant (mem : Mem) (i : ℕ) : Prop :=
  Locates mem i ∨ ∃ index, firstCea mem = some index ∧ index ≤ i ∧
    i < index + max 4 (mem (index + 2)).toNat

theorem parseEdid_none {mem : Mem} (h : firstCea mem = none) :
    (parseEdid mem).hasAudio = false ∧ (parseEdid mem).speakerAlloc = 0 := by
  obtain ⟨reads, -, ⟨-, hparse⟩ | ⟨index, hsome, -⟩⟩ := parseEdid_cases mem
  · rw [hparse]
    exact ⟨rfl, rfl⟩
  · rw [h] at hsome
    cases hsome

theorem parseEdid_collection {mem : Mem} {index : ℕ} {blocks : List DataBlock}
    (h : firstCea mem = some index) (hc : Collection mem index blocks) :
    (parseEdid mem).hasAudio = ceaBitAudio (mem (index + 3)) ∧
      (parseEdid mem).speakerAlloc =
        if ceaBitAudio (mem (index + 3)) then speakerAllocation blocks else 0 := by
  obtain ⟨reads, -, ⟨hnone, -⟩ | ⟨index', hsome, hparse⟩⟩ := parseEdid_cases mem
  · rw [h] at hnone
    cases hnone
  · obtain rfl : index = index' := Option.some.inj (h.symm.trans hsome)
    rw [hparse]
    unfold parseCeaBlock
    cases haudio : ceaBitAudio (mem (index + 3)) with
    | false => exact ⟨rfl, rfl⟩
    | true =>
      have hd : (mem (index + 2)).toNat ≤ 4 + 255 := by
        have hshort := hc.short
        omega
      obtain ⟨h₁, h₂⟩ := dataBlockLoop_tiles
        (s := ⟨true, 0, reads ++ [index + 2, index + 3]⟩) hd hc.tiles hc.speakers
      exact ⟨h₁, h₂.trans (foldl_speakerStep 0 hc.speakers)⟩

/-- Two searches agree if they agree on everything up to what the first one finds. -/
theorem find?_congr_upTo {p q : ℕ → Bool} {l : List ℕ} (hl : l.Pairwise (· < ·))
    (h : ∀ x ∈ l, (∀ y, l.find? p = some y → x ≤ y) → q x = p x) : l.find? q = l.find? p := by
  induction l with
  | nil => rfl
  | cons x l ih =>
    obtain ⟨hx, hl⟩ := List.pairwise_cons.mp hl
    have hqx : q x = p x := by
      refine h x List.mem_cons_self fun y hy => ?_
      rcases List.mem_cons.mp (List.mem_of_find?_eq_some hy) with rfl | hy
      · exact le_refl y
      · exact le_of_lt (hx y hy)
    cases hp : p x with
    | true => rw [List.find?_cons_of_pos hp, List.find?_cons_of_pos (hqx.trans hp)]
    | false =>
      have hneg : ¬ p x = true := by simp [hp]
      rw [List.find?_cons_of_neg hneg, List.find?_cons_of_neg (by simp [hqx, hp])]
      refine ih hl fun z hz hup => h z (List.mem_cons_of_mem x hz) fun y hy => hup y ?_
      rwa [List.find?_cons_of_neg hneg] at hy

section Agree

variable {mem mem' : Mem}

theorem edidSize_congr (h : ∀ i, Locates mem i → mem' i = mem i) :
    edidSize mem' = edidSize mem := by
  unfold edidSize nblocks edidBlockSize
  rw [h 0x7E (.inl rfl), h 128 (.inr (.inl rfl))]

theorem firstCea_congr (h : ∀ i, Locates mem i → mem' i = mem i) :
    firstCea mem' = firstCea mem := by
  refine find?_congr_upTo (by decide) fun k hk hup => ?_
  rw [edidSize_congr h]
  by_cases hsize : k < edidSize mem
  · have hid : ∀ i ∈ ceaIdReads mem k, mem' i = mem i :=
      fun i hi => h i (.inr (.inr ⟨k, hk, hsize, hup, hi⟩))
    have hk₀ : mem' k = mem k := hid k List.mem_cons_self
    unfold isCeaBlock
    by_cases hcea : mem k = 0x02
    · have hk₁ : mem' (k + 1) = mem (k + 1) := hid (k + 1) (by simp [ceaIdReads, hcea])
      rw [hk₀, hk₁]
    · simp [hk₀, hcea]
  · simp [hsize]

/-- A collection is one in every image with the same bytes. -/
theorem Collection.congr {index : ℕ} {blocks : List DataBlock} (hc : Collection mem index blocks)
    (h : ∀ i, index ≤ i → i < index + max 4 (mem (index + 2)).toNat → mem' i = mem i) :
    Collection mem' index blocks := by
  have hd : mem' (index + 2) = mem (index + 2) := h _ (by omega) (by omega)
  refine ⟨hd ▸ hc.short, ?_, hc.speakers⟩
  rw [hd, hc.tiles]
  refine List.map_congr_left fun n hn => (h _ (by omega) ?_).symm
  obtain ⟨j, hj, rfl⟩ := List.mem_range'.mp hn
  omega

end Agree

/-- The image has no CEA block of revision 3, or the first one holds a collection. -/
def WellFormed (mem : Mem) : Prop :=
  ∀ index, firstCea mem = some index → ∃ blocks, Collection mem index blocks

theorem parseEdid_congr {mem mem' : Mem} (hw : WellFormed mem)
    (h : ∀ i, Relevant mem i → mem' i = mem i) :
    (parseEdid mem').hasAudio = (parseEdid mem).hasAudio ∧
      (parseEdid mem').speakerAlloc = (parseEdid mem).speakerAlloc := by
  have hcea : firstCea mem' = firstCea mem := firstCea_congr fun i hi => h i (.inl hi)
  cases hfirst : firstCea mem with
  | none =>
    have hnone := parseEdid_none hfirst
    have hnone' := parseEdid_none (hcea.trans hfirst)
    exact ⟨hnone'.1.trans hnone.1.symm, hnone'.2.trans hnone.2.symm⟩
  | some index =>
    obtain ⟨blocks, hc⟩ := hw index hfirst
    have hblock : ∀ i, index ≤ i → i < index + max 4 (mem (index + 2)).toNat → mem' i = mem i :=
      fun i h₁ h₂ => h i (.inr ⟨index, hfirst, h₁, h₂⟩)
    have hbit : mem' (index + 3) = mem (index + 3) := hblock _ (by omega) (by omega)
    have hsome := parseEdid_collection hfirst hc
    have hsome' := parseEdid_collection (hcea.trans hfirst) (hc.congr hblock)
    rw [hbit] at hsome'
    exact ⟨hsome'.1.trans hsome.1.symm, hsome'.2.trans hsome.2.symm⟩

/-- **The parser on well-formed images**: without a CEA block of revision 3 there is no audio; else
the audio bit is that of the first such block, and with audio the speaker allocation is that of its
collection. No byte matters but those of `Relevant`. -/
theorem hdmiQueryAudioCaps_wellFormed (b : List UInt8) (behind : Mem) :
    (firstCea (edidImage b behind) = none → hdmiQueryAudioCaps behind (.bytes b) = .ok ⟨false, 0⟩) ∧
    (∀ index blocks, firstCea (edidImage b behind) = some index →
      Collection (edidImage b behind) index blocks →
      hdmiQueryAudioCaps behind (.bytes b) = .ok ⟨ceaBitAudio (edidImage b behind (index + 3)),
        if ceaBitAudio (edidImage b behind (index + 3)) then speakerAllocation blocks else 0⟩) ∧
    (WellFormed (edidImage b behind) → ∀ b' behind',
      (∀ i, Relevant (edidImage b behind) i → edidImage b' behind' i = edidImage b behind i) →
      hdmiQueryAudioCaps behind' (.bytes b') = hdmiQueryAudioCaps behind (.bytes b)) := by
  simp only [hdmiQueryAudioCaps]
  refine ⟨fun h => ?_, fun index blocks h hc => ?_, fun hw b' behind' h => ?_⟩
  · rw [(parseEdid_none h).1, (parseEdid_none h).2]
  · rw [(parseEdid_collection h hc).1, (parseEdid_collection h hc).2]
  · rw [(parseEdid_congr hw h).1, (parseEdid_congr hw h).2]

/-- One extension block, with a short audio descriptor and a speaker allocation block. -/
def stereoEdid : List UInt8 :=
  List.replicate 126 0 ++ [1, 0] ++ [0x02, 0x03, 12, 0x40] ++ [0x23, 0x09, 0x07, 0x07] ++
    [0x83, 0x01, 0x00, 0x00]

theorem hdmiQueryAudioCaps_stereo :
    hdmiQueryAudioCaps (fun _ => 0) (.bytes stereoEdid) = .ok ⟨true, 0x01⟩ := by
  have hfirst : firstCea (edidImage stereoEdid fun _ => 0) = some 128 := by decide +kernel
  have hc : Collection (edidImage stereoEdid fun _ => 0) 128
      [⟨0x23, [0x09, 0x07, 0x07], by decide⟩, ⟨0x83, [0x01, 0x00, 0x00], by decide⟩] := by
    refine ⟨by decide +kernel, by decide +kernel, ?_⟩
    simp
  exact (hdmiQueryAudioCaps_wellFormed stereoEdid fun _ => 0).2.1 128 _ hfirst hc

end Omap4.Audio.Edid
