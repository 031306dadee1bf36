import Mathlib.Data.Int.Basic
import Mathlib.Data.List.Basic

/-!
# Omap4.Audio.Edid — the audio capabilities of a display (`hdmi_audio_utils.c`)

`hdmi_query_audio_caps` reads the EDID of a display into an array of 512 bytes, looks for the first
CEA extension block of revision 3, and walks through its data blocks.  The memory behind the array
is part of the model, since the walk may leave the array, and `reads` lists the indexes that are
read, in order.

The end of the walk is a byte of the block and the steps are made of the sizes in the data blocks,
neither of which is checked against the array.  A block at 128 is too far from the end for this to
matter (`reads_lt_of_first`); `reads_lt_iff` says exactly which images are read within the array.

The messages that are logged are left out.
-/

namespace Omap4.Audio.Edid

/-! ## The code -/

/-- The array `edid` and what lies behind it. -/
abbrev Mem := ℕ → UInt8

/-- `HDMI_MAX_EDID`. -/
def hdmiMaxEdid : ℕ := 512

/-- `EDID_BLOCK_SIZE`. -/
def edidBlockSize : ℕ := 128

/-- `byte & CEA_TAG_MASK`. -/
def ceaTag (byte : UInt8) : UInt8 := byte &&& 0xE0

/-- `byte & CEA_SIZE_MASK`. -/
def ceaSize (byte : UInt8) : ℕ := (byte &&& 0x1F).toNat

/-- `CEA_TAG_AUDIO`. -/
def ceaTagAudio : UInt8 := 0x20

/-- `CEA_TAG_SPKRS`. -/
def ceaTagSpkrs : UInt8 := 0x80

/-- `byte & CEA_BIT_AUDIO`. -/
def ceaBitAudio (byte : UInt8) : Bool := byte &&& 0x40 ≠ 0

/-- The loop of `hdmi_dump_short_audio_descriptor_block`, from `p` on: the indexes it reads. -/
def dumpLoop (fin : ℕ) : ℕ → ℕ → List ℕ
  | 0, _ => []
  | fuel + 1, p => if p < fin then p :: (p + 1) :: (p + 2) :: dumpLoop fin fuel (p + 3) else []

def hdmiDumpShortAudioDescriptorBlock (mem : Mem) (i : ℕ) : List ℕ :=
  i :: dumpLoop (i + 1 + ceaSize (mem i)) (ceaSize (mem i)) (i + 1)

/-- What the parser has found, and the indexes it has read. -/
structure Parse where
  hasAudio : Bool
  speakerAlloc : UInt8
  reads : List ℕ
  deriving DecidableEq, Repr

/-- The data block whose header is at `i`. -/
def parseDataBlock (mem : Mem) (i : ℕ) (s : Parse) : Parse :=
  if ceaTag (mem i) = ceaTagAudio then
    { s with reads := s.reads ++ i :: hdmiDumpShortAudioDescriptorBlock mem i }
  else if ceaTag (mem i) = ceaTagSpkrs then
    { s with speakerAlloc := mem (i + 1), reads := s.reads ++ [i, i + 1] }
  else { s with reads := s.reads ++ [i] }

/-- The loop over the data blocks of the extension block at `index`. -/
def dataBlockLoop (mem : Mem) (index d : ℕ) : ℕ → ℕ → Parse → Parse
  | 0, _, s => s
  | fuel + 1, n, s =>
    if n < d then
      dataBlockLoop mem index d fuel (n + 1 + ceaSize (mem (index + n)))
        (parseDataBlock mem (index + n) s)
    else s

/-- The CEA extension block at `index`.  `d` is a byte, so that the walk has at most 255 steps. -/
def parseCeaBlock (mem : Mem) (index : ℕ) (s : Parse) : Parse :=
  if ceaBitAudio (mem (index + 3)) then
    dataBlockLoop mem index (mem (index + 2)).toNat 255 4
      { s with hasAudio := true, reads := s.reads ++ [index + 2, index + 3] }
  else { s with reads := s.reads ++ [index + 2, index + 3] }

/-- The comparison with `EDID_BLOCK_CEA_ID` and `EDID_BLOCK_CEA_REV_3`. -/
def isCeaBlock (mem : Mem) (index : ℕ) : Bool := mem index = 0x02 ∧ mem (index + 1) = 0x03

def ceaIdReads (mem : Mem) (index : ℕ) : List ℕ :=
  index :: if mem index = 0x02 then [index + 1] else []

/-- The loop over the extension blocks. -/
def extensionLoop (mem : Mem) (edidSize : ℕ) : ℕ → ℕ → Parse → Parse
  | 0, _, s => s
  | fuel + 1, index, s =>
    if index < edidSize then
      if isCeaBlock mem index then
        parseCeaBlock mem index { s with reads := s.reads ++ ceaIdReads mem index }
      else
        extensionLoop mem edidSize fuel (index + edidBlockSize)
          { s with reads := s.reads ++ ceaIdReads mem index }
    else s

/-- `nblocks`; `0xF0` is `EDID_BLOCK_MAP_ID`. -/
def nblocks (mem : Mem) : ℕ := (mem 0x7E).toNat + if mem edidBlockSize = 0xF0 then 1 else 0

def edidSize (mem : Mem) : ℕ := min (edidBlockSize * (nblocks mem + 1)) hdmiMaxEdid

/-- What follows the `read`; the extension blocks begin at 128, 256 and 384. -/
def parseEdid (mem : Mem) : Parse :=
  extensionLoop mem (edidSize mem) 3 edidBlockSize ⟨false, 0, [0x7E, edidBlockSize]⟩

/-- `hdmi_audio_caps_t`. -/
structure HdmiAudioCaps where
  hasAudio : Bool
  speakerAlloc : UInt8
  deriving DecidableEq, Repr

/-- What becomes of the `open` and the `read`. -/
inductive EdidFile
  | openFails (errno : ℤ)
  | readFails (errno : ℤ)
  | bytes (b : List UInt8)

/-- The array after the `read`: at most 512 bytes of the file, and zeros. -/
def edidImage (b : List UInt8) (behind : Mem) : Mem :=
  fun i => if i < hdmiMaxEdid then b.getD i 0 else behind i

/-- `hdmi_query_audio_caps`: its error, or `caps`. -/
def hdmiQueryAudioCaps (behind : Mem) : EdidFile → Except ℤ HdmiAudioCaps
  | .openFails errno => .error (-errno)
  | .readFails errno => .error (-errno)
  | .bytes b =>
    .ok ⟨(parseEdid (edidImage b behind)).hasAudio, (parseEdid (edidImage b behind)).speakerAlloc⟩

/-! ## What the loops read -/

theorem ceaSize_lt (byte : UInt8) : ceaSize byte < 32 := by
  unfold ceaSize
  rw [UInt8.toNat_and]
  exact Nat.lt_succ_of_le Nat.and_le_right

/-- The dump goes on until `fin` in steps of three bytes, and reads all three of each step. -/
theorem mem_dumpLoop {fin : ℕ} : ∀ {fuel p : ℕ}, fin ≤ p + fuel → ∀ i,
    i ∈ dumpLoop fin fuel p ↔ p ≤ i ∧ i < p + 3 * ((fin - p + 2) / 3)
  | 0, p, hf, i => by
    simp only [dumpLoop, List.not_mem_nil, false_iff]
    omega
  | fuel + 1, p, hf, i => by
    rw [dumpLoop]
    split_ifs with hp
    · simp only [List.mem_cons, mem_dumpLoop (show fin ≤ p + 3 + fuel by omega) i]
      omega
    · simp only [List.not_mem_nil, false_iff]
      omega

/-- The number of bytes behind the header that a data block makes the parser read. -/
def dataBlockReach (byte : UInt8) : ℕ :=
  if ceaTag byte = ceaTagAudio then 3 * ((ceaSize byte + 2) / 3)
  else if ceaTag byte = ceaTagSpkrs then 1 else 0

theorem mem_hdmiDump {mem : Mem} {i k : ℕ} :
    k ∈ hdmiDumpShortAudioDescriptorBlock mem i ↔ i ≤ k ∧
    k ≤ i + 3 * ((ceaSize (mem i) + 2) / 3) := by
  unfold hdmiDumpShortAudioDescriptorBlock
  rw [List.mem_cons, mem_dumpLoop (Nat.le_refl _)]
  omega

/-- A data block is read from its header to its reach. -/
theorem mem_parseDataBlock {mem : Mem} {i k : ℕ} {s : Parse} :
    k ∈ (parseDataBlock mem i s).reads ↔
      k ∈ s.reads ∨ i ≤ k ∧ k ≤ i + dataBlockReach (mem i) := by
  unfold parseDataBlock dataBlockReach
  split_ifs
  · rw [List.mem_append, List.mem_cons, mem_hdmiDump]
    exact or_congr_right (by omega)
  · rw [List.mem_append, List.mem_pair]
    exact or_congr_right (by omega)
  · rw [List.mem_append, List.mem_singleton]
    exact or_congr_right (by omega)

/-! ## The data blocks -/

/-- In the walk over the data blocks of the extension block at `index`, from `n` on, one begins at
`m`.  The next one begins behind the payload, as long as this is before `d`. -/
inductive Header (mem : Mem) (index d : ℕ) : ℕ → ℕ → Prop
  | here {n : ℕ} : n < d → Header mem index d n n
  | next {n m : ℕ} : n < d → Header mem index d (n + 1 + ceaSize (mem (index + n))) m →
      Header mem index d n m

theorem Header.bounds {mem : Mem} {index d n m : ℕ} (h : Header mem index d n m) : n ≤ m ∧
    m < d := by
  induction h with
  | here h => exact ⟨Nat.le_refl _, h⟩
  | next _ _ ih => exact ⟨by omega, ih.2⟩

theorem not_header {mem : Mem} {index d n m : ℕ} (h : d ≤ n) : ¬ Header mem index d n m := by
  intro hm
  have hb := hm.bounds
  omega

theorem mem_dataBlockLoop {mem : Mem} {index d k : ℕ} : ∀ {fuel n : ℕ} {s : Parse}, d ≤ n + fuel →
    (k ∈ (dataBlockLoop mem index d fuel n s).reads ↔
      k ∈ s.reads ∨ ∃ m, Header mem index d n m ∧
        index + m ≤ k ∧ k ≤ index + m + dataBlockReach (mem (index + m)))
  | 0, n, s, hf => by
    refine ⟨.inl, ?_⟩
    rintro (h | ⟨m, hm, -⟩)
    · exact h
    · exact absurd hm (not_header hf)
  | fuel + 1, n, s, hf => by
    rw [dataBlockLoop]
    split_ifs with hn
    · rw [mem_dataBlockLoop (by omega), mem_parseDataBlock, or_assoc]
      refine or_congr_right ⟨?_, ?_⟩
      · rintro (h | ⟨m, hm, h⟩)
        · exact ⟨n, .here hn, h⟩
        · exact ⟨m, .next hn hm, h⟩
      · rintro ⟨m, hm, h⟩
        cases hm with
        | here _ => exact .inl h
        | next _ hm => exact .inr ⟨m, hm, h⟩
    · refine ⟨.inl, ?_⟩
      rintro (h | ⟨m, hm, -⟩)
      · exact h
      · exact absurd hm (not_header (Nat.le_of_not_lt hn))

theorem mem_parseCeaBlock {mem : Mem} {index k : ℕ} {s : Parse} :
    k ∈ (parseCeaBlock mem index s).reads ↔ k ∈ s.reads ∨ (k = index + 2 ∨ k = index + 3) ∨
      ceaBitAudio (mem (index + 3)) = true ∧ ∃ m, Header mem index (mem (index + 2)).toNat 4 m ∧
        index + m ≤ k ∧ k ≤ index + m + dataBlockReach (mem (index + m)) := by
  have hd : (mem (index + 2)).toNat ≤ 4 + 255 := by
    have hlt := (mem (index + 2)).toNat_lt
    omega
  unfold parseCeaBlock
  split_ifs with haudio
  · rw [mem_dataBlockLoop hd, List.mem_append, List.mem_pair, or_assoc, and_iff_right haudio]
  · rw [List.mem_append, List.mem_pair]
    exact or_congr_right (or_iff_left fun h => haudio h.1).symm

/-! ## The extension blocks -/

/-- The first CEA block of revision 3 among the extension blocks that are announced and in the
array. -/
def firstCea (mem : Mem) : Option ℕ :=
  (List.range' 128 3 128).find? fun index => index < edidSize mem ∧ isCeaBlock mem index

/-- The parser looks at the identification of the blocks up to the first CEA block, and parses this
one. -/
theorem extensionLoop_cases {mem : Mem} {size : ℕ} : ∀ {fuel index : ℕ} {s : Parse},
    index + 128 * fuel = 512 → (∀ k ∈ s.reads, k < 512) →
    ∃ reads, (∀ k ∈ reads, k < 512) ∧
      ((List.range' index fuel 128).find? (fun i => i < size ∧ isCeaBlock mem i) = none ∧
          extensionLoop mem size fuel index s = { s with reads := reads } ∨
        ∃ i, (List.range' index fuel 128).find? (fun i => i < size ∧ isCeaBlock mem i) = some i ∧
          extensionLoop mem size fuel index s = parseCeaBlock mem i { s with reads := reads })
  | 0, index, s, hf, hs => ⟨s.reads, hs, .inl ⟨rfl, rfl⟩⟩
  | fuel + 1, index, s, hf, hs => by
    rw [extensionLoop, List.range'_succ]
    by_cases hi : index < size
    · have hreads : ∀ k ∈ s.reads ++ ceaIdReads mem index, k < 512 := by
        intro k hk
        rcases List.mem_append.mp hk with hk | hk
        · exact hs k hk
        · have hle : k ≤ index + 1 := by
            unfold ceaIdReads at hk
            split_ifs at hk <;> simp at hk <;> omega
          omega
      rw [if_pos hi]
      by_cases hcea : isCeaBlock mem index = true
      · rw [if_pos hcea, List.find?_cons_of_pos (by simp [hi, hcea])]
        exact ⟨_, hreads, .inr ⟨index, rfl, rfl⟩⟩
      · rw [if_neg hcea, List.find?_cons_of_neg (by simp [hcea])]
        exact extensionLoop_cases (s := { s with reads := s.reads ++ ceaIdReads mem index })
          (by omega) hreads
    · rw [if_neg hi]
      refine ⟨s.reads, hs, .inl ⟨?_, rfl⟩⟩
      rw [List.find?_eq_none]
      intro i hmem
      -- the blocks behind the announced ones are not announced either
      have hle : index ≤ i := by
        rcases List.mem_cons.mp hmem with rfl | hmem
        · exact Nat.le_refl _
        · obtain ⟨j, -, rfl⟩ := List.mem_range'.mp hmem
          omega
      simp only [Bool.decide_and, Bool.decide_eq_true, Bool.and_eq_true, decide_eq_true_eq, not_and]
      omega

theorem parseEdid_cases (mem : Mem) :
    ∃ reads, (∀ k ∈ reads, k < 512) ∧
      (firstCea mem = none ∧ parseEdid mem = ⟨false, 0, reads⟩ ∨
        ∃ index, firstCea mem = some index ∧ parseEdid mem = parseCeaBlock mem index
        ⟨false, 0, reads⟩) :=
  extensionLoop_cases rfl (by decide)

theorem firstCea_some {mem : Mem} {index : ℕ} (h : firstCea mem = some index) :
    index ≤ 384 ∧ isCeaBlock mem index = true := by
  unfold firstCea at h
  have hmem := List.mem_of_find?_eq_some h
  have hprop := List.find?_some h
  simp only [Bool.decide_and, Bool.decide_eq_true, Bool.and_eq_true] at hprop
  obtain ⟨j, hj, rfl⟩ := List.mem_range'.mp hmem
  exact ⟨by omega, hprop.2⟩

/-- **The reads of the parser** stay within the array if and only if every data block of the first
CEA block with audio does, from its header to what is read of it. -/
theorem reads_lt_iff (b : List UInt8) (behind : Mem) :
    (∀ k ∈ (parseEdid (edidImage b behind)).reads, k < 512) ↔
      ∀ index, firstCea (edidImage b behind) = some index →
        ceaBitAudio (edidImage b behind (index + 3)) = true →
        ∀ m, Header (edidImage b behind) index (edidImage b behind (index + 2)).toNat 4 m →
          index + m + dataBlockReach (edidImage b behind (index + m)) < 512 := by
  generalize edidImage b behind = mem
  obtain ⟨reads, hreads, ⟨hnone, hparse⟩ | ⟨index, hsome, hparse⟩⟩ := parseEdid_cases mem
  · rw [hparse, hnone]
    refine ⟨fun _ index h => ?_, fun _ => hreads⟩
    cases h
  · have hindex := (firstCea_some hsome).1
    rw [hparse, hsome]
    constructor
    · rintro h index ⟨⟩ haudio m hm
      refine h _ (mem_parseCeaBlock.mpr (.inr (.inr ⟨haudio, m, hm, by omega, Nat.le_refl _⟩)))
    · intro h k hk
      rcases mem_parseCeaBlock.mp hk with hk | hk | ⟨haudio, m, hm, -, hle⟩
      · exact hreads k hk
      · omega
      · have hlt := h index rfl haudio m hm
        omega

/-- Three extension blocks; the third one is a CEA block whose data blocks are said to end at
200. -/
def farBlock : List UInt8 :=
  List.replicate 126 0 ++ [3] ++ List.replicate 257 0 ++ [0x02, 0x03, 200, 0x40] ++
    List.replicate 124 0x1F

/-- The parser goes on reading headers behind the array. -/
theorem farBlock_reads :
    farBlock.length = 512 ∧ 516 ∈ (parseEdid (edidImage farBlock fun _ => 0)).reads ∧
      ¬ ∀ k ∈ (parseEdid (edidImage farBlock fun _ => 0)).reads, k < 512 := by
  have hread : 516 ∈ (parseEdid (edidImage farBlock fun _ => 0)).reads := by decide +kernel
  refine ⟨by decide +kernel, hread, fun h => ?_⟩
  have hlt := h 516 hread
  omega

theorem dataBlockReach_lt (byte : UInt8) : dataBlockReach byte < 34 := by
  have hsize := ceaSize_lt byte
  unfold dataBlockReach
  split_ifs <;> omega

/-- A CEA block right behind the base block is never read out of bounds, whatever it holds. -/
theorem reads_lt_of_first {mem : Mem} (h : firstCea mem = some 128) :
    ∀ k ∈ (parseEdid mem).reads, k < 512 := by
  obtain ⟨reads, hreads, ⟨hnone, -⟩ | ⟨index, hsome, hparse⟩⟩ := parseEdid_cases mem
  · rw [h] at hnone
    cases hnone
  · obtain rfl : 128 = index := Option.some.inj (h.symm.trans hsome)
    intro k hk
    rw [hparse] at hk
    rcases mem_parseCeaBlock.mp hk with hk | hk | ⟨-, m, hm, -, hle⟩
    · exact hreads k hk
    · omega
    · have hd := (mem (128 + 2)).toNat_lt
      have hm := hm.bounds
      have hreach := dataBlockReach_lt (mem (128 + m))
      omega

end Omap4.Audio.Edid
