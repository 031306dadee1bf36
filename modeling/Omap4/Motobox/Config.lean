import Omap4.CString

/-!
# Omap4.Motobox.Config — configuration ids (`getsetconfig.h`, `getconfig.c`)

The check of an id, which `getconfig.c` and `setconfig.c` both write out, and the id that the phone
has now. Inputs are the files under `/system/multiconfig` and whether the one that is read can be
opened and read. The check decides the grammar of an id but for zeros alone
(`validConfigId_iff_isConfigId`), and an id that it accepts is read back where it fits into the
buffer (`getconfig_returns_iff`).
-/

namespace Omap4.Motobox

/-- `MOTOBOX_CONFIG_ERR_T`. -/
inductive ConfigErr
  | none
  | invalidParam
  | fileOperation
  | invalidFormat
  | repeatId
  | setRecovery
  | needsReconfig
  | notMulticonfig
  deriving DecidableEq, Repr

/-- `MOTOBOX_CONFIG_ID_MAX`. -/
def configIdMax : ℤ := 2147483647

/-- `MOTOBOX_CONFIG_ID_INVALID`. -/
def configIdInvalid : ℤ := -2

/-- `MOTOBOX_CONFIG_ID_UNCONFIGURED`. -/
def configIdUnconfigured : ℤ := -1

/-- The id behind its leading zeros; the zeros of a single character stay. -/
def skipZeros (confid : CStr) : CStr :=
  if 1 < confid.length then confid.dropWhile (· = '0') else confid

/-- The value is printed and compared with the text, and has to be in range. -/
def validConfigId (confid : CStr) : Bool :=
  CStr.decInt (CStr.atoi confid) = skipZeros confid && configIdUnconfigured ≤ CStr.atoi confid &&
    CStr.atoi confid ≤ configIdMax

/-- `/system`: whether there is the folder `multiconfig`, the two files with an id, and whether
there is a package. -/
structure SystemFiles where
  multiconfig : Bool
  configId : Option (List Char)
  masterConfigId : Option (List Char)
  bota : Bool
  deriving DecidableEq, Repr

/-- The size of the buffers. -/
def configBuf : ℕ := 255

/-- `getconfig`: the result, and what it leaves in `out`.  The file is the first of the two that
exists. -/
def getconfig (sys : SystemFiles) (openOk readOk : Bool) : ConfigErr × CStr :=
  if ¬ sys.multiconfig then (.notMulticonfig, CStr.decInt configIdInvalid)
  else match sys.configId.or sys.masterConfigId with
    | none => (.fileOperation, CStr.decInt configIdInvalid)
    | some content =>
      if ¬ openOk then (.fileOperation, CStr.decInt configIdInvalid)
      else match if readOk then CStr.fgets configBuf content else none with
        | none => (.fileOperation, CStr.decInt configIdInvalid)
        | some confid =>
          if validConfigId confid then (.none, confid)
          else (.invalidFormat, CStr.decInt configIdInvalid)

/-! ## The grammar of an id -/

/-- What an id is meant to be: `-1`, or digits with a value in range. -/
def IsConfigId (confid : CStr) : Prop :=
  confid = "-1".toList ∨ (confid ≠ [] ∧ (∀ c ∈ confid, c.isDigit = true) ∧
    (Nat.ofDigitChars 10 confid 0 : ℤ) ≤ configIdMax)

/-- Two or more zeros and nothing else. -/
def LongZero (confid : CStr) : Prop := 1 < confid.length ∧ ∀ c ∈ confid, c = '0'

/-- Zeros at the front do not change the value. -/
theorem ofDigitChars_zeros {s : CStr} (hs : ∀ c ∈ s, c = '0') (t : CStr) :
    Nat.ofDigitChars 10 (s ++ t) 0 = Nat.ofDigitChars 10 t 0 := by
  rw [Nat.ofDigitChars_append, List.eq_replicate_iff.mpr ⟨rfl, hs⟩, Nat.ofDigitChars_replicate_zero,
    Nat.mul_zero]

theorem isDigit_of_zeros {s : CStr} (hs : ∀ c ∈ s, c = '0') : ∀ c ∈ s, c.isDigit = true := by
  intro c hc
  rw [hs c hc]
  rfl

/-- The text before and behind the point where the comparison starts. -/
theorem skipZeros_split (confid : CStr) :
    ∃ zeros, confid = zeros ++ skipZeros confid ∧ ∀ c ∈ zeros, c = '0' := by
  unfold skipZeros
  split_ifs
  · refine ⟨confid.takeWhile (· = '0'), List.takeWhile_append_dropWhile.symm, fun c hc => ?_⟩
    simpa using List.mem_takeWhile_imp hc
  · exact ⟨[], rfl, by simp⟩

theorem isConfigId_of_longZero {confid : CStr} (h : LongZero confid) : IsConfigId confid := by
  refine .inr ⟨List.ne_nil_of_length_pos (by have := h.1; omega), isDigit_of_zeros h.2, ?_⟩
  rw [← List.append_nil confid, ofDigitChars_zeros h.2]
  decide

theorem skipZeros_of_longZero {confid : CStr} (h : LongZero confid) : skipZeros confid = [] := by
  unfold skipZeros
  rw [if_pos h.1]
  exact List.dropWhile_eq_nil_iff.mpr fun c hc => decide_eq_true (h.2 c hc)

/-- What the comparison accepts is an id. -/
theorem isConfigId_of_valid {confid : CStr} (h : validConfigId confid = true) :
    IsConfigId confid := by
  simp only [validConfigId, Bool.and_eq_true, decide_eq_true_eq] at h
  obtain ⟨⟨heq, hlow⟩, hhigh⟩ := h
  obtain ⟨zeros, hsplit, hzeros⟩ := skipZeros_split confid
  rw [← heq] at hsplit
  by_cases hneg : CStr.atoi confid < 0
  · -- zeros before a sign end the number: its value is 0
    have hone : CStr.atoi confid = -1 := by
      rw [configIdUnconfigured] at hlow
      omega
    rw [hone] at hsplit hneg
    cases zeros with
    | nil => exact .inl hsplit
    | cons c zeros =>
      rw [hsplit] at hone
      have hdigits := isDigit_of_zeros hzeros
      have htake : (c :: zeros ++ CStr.decInt (-1)).takeWhile Char.isDigit = c :: zeros ++ [] :=
        List.takeWhile_append_of_pos hdigits
      rw [List.cons_append, CStr.atoi_of_isDigit (hdigits c (by simp)), ← List.cons_append, htake,
        ofDigitChars_zeros hzeros] at hone
      exact absurd hone (by decide)
  · have hdec : CStr.decInt (CStr.atoi confid) = CStr.dec (CStr.atoi confid).natAbs := if_neg hneg
    rw [hdec] at hsplit
    have hdigits : ∀ c ∈ confid, c.isDigit = true := by
      intro c hc
      rw [hsplit] at hc
      rcases List.mem_append.mp hc with hc | hc
      · exact isDigit_of_zeros hzeros c hc
      · exact CStr.isDigit_of_mem_dec hc
    have hne : confid ≠ [] := by
      rw [hsplit]
      exact List.append_ne_nil_of_right_ne_nil zeros Nat.toDigits_ne_nil
    refine .inr ⟨hne, hdigits, ?_⟩
    have hval := ofDigitChars_zeros hzeros (CStr.dec (CStr.atoi confid).natAbs)
    rw [← hsplit] at hval
    rw [hval, CStr.dec, Nat.ofDigitChars_ten_toDigits]
    omega

/-- The value of digits, printed, is the text behind the zeros, unless nothing is left of it. -/
theorem dec_skipZeros {confid : CStr} (hne : confid ≠ []) (hdigits : ∀ c ∈ confid, c.isDigit = true)
    (hlong : ¬ LongZero confid) : CStr.dec (Nat.ofDigitChars 10 confid 0) = skipZeros confid := by
  obtain ⟨zeros, hsplit, hzeros⟩ := skipZeros_split confid
  have hval := ofDigitChars_zeros hzeros (skipZeros confid)
  rw [← hsplit] at hval
  rw [hval]
  have hsub : ∀ c ∈ skipZeros confid, c.isDigit = true := by
    intro c hc
    exact hdigits c (hsplit ▸ List.mem_append_right zeros hc)
  cases hrest : skipZeros confid with
  | nil =>
    rw [hrest, List.append_nil] at hsplit
    rw [← hsplit] at hzeros
    refine absurd ⟨?_, hzeros⟩ hlong
    by_contra hlen
    rw [skipZeros, if_neg hlen] at hrest
    exact hne hrest
  | cons c rest =>
    rw [hrest] at hsub
    by_cases hzero : c = '0'
    · -- a zero is left only where no zero is skipped
      have hshort : ¬ 1 < confid.length := by
        intro hlen
        rw [skipZeros, if_pos hlen] at hrest
        have hhead := List.head_dropWhile_not (· = '0') (l := confid) (by rw [hrest]; simp)
        simp only [hrest, List.head_cons, hzero] at hhead
        exact absurd hhead (by decide)
      rw [skipZeros, if_neg hshort] at hrest
      have hnil : rest = [] := by
        rw [hrest, List.length_cons] at hshort
        exact List.length_eq_zero_iff.mp (by omega)
      rw [hzero, hnil]
      rfl
    · exact CStr.dec_of_digits hzero hsub

theorem valid_of_isConfigId {confid : CStr} (h : IsConfigId confid) (hlong : ¬ LongZero confid) :
    validConfigId confid = true := by
  rcases h with rfl | ⟨hne, hdigits, hhigh⟩
  · decide +kernel
  · have hatoi : CStr.atoi confid = (Nat.ofDigitChars 10 confid 0 : ℤ) := by
      rw [CStr.atoi_of_digits hdigits]
      rw [configIdMax] at hhigh
      omega
    simp only [validConfigId, Bool.and_eq_true, decide_eq_true_eq, hatoi]
    refine ⟨⟨?_, ?_⟩, hhigh⟩
    · rw [CStr.decInt, if_neg (by omega)]
      exact dec_skipZeros hne hdigits hlong
    · rw [configIdUnconfigured]
      omega

/-- **Which texts the check decides by the grammar of an id**: all but two or more zeros.  The loop
skips every zero of such a text, and the printed value `0` is compared with nothing. -/
theorem validConfigId_iff_isConfigId (confid : CStr) :
    (validConfigId confid = true ↔ IsConfigId confid) ↔ ¬ LongZero confid := by
  constructor
  · intro hiff hlong
    have hvalid := hiff.mpr (isConfigId_of_longZero hlong)
    simp only [validConfigId, skipZeros_of_longZero hlong, Bool.and_eq_true,
      decide_eq_true_eq] at hvalid
    exact absurd hvalid.1.1 (CStr.decInt_ne_nil _)
  · intro hlong
    exact ⟨isConfigId_of_valid, fun h => valid_of_isConfigId h hlong⟩

/-- `00` is digits with the value 0, and the check rejects it. -/
theorem double_zero_rejected :
    IsConfigId "00".toList ∧ validConfigId "00".toList = false ∧
      ¬ ∀ confid, validConfigId confid = true ↔ IsConfigId confid := by
  have hid : IsConfigId "00".toList := isConfigId_of_longZero ⟨by decide +kernel, by simp⟩
  refine ⟨hid, by decide +kernel, fun hall => ?_⟩
  exact absurd ((hall "00".toList).mpr hid) (by decide +kernel)

/-! ## The writer and the reader -/

/-- An id has digits and a sign in it, and nothing else. -/
theorem mem_validConfigId {confid : CStr} (h : validConfigId confid = true) {c : Char}
    (hc : c ∈ confid) :
    c.isDigit = true ∨ c = '-' := by
  rcases isConfigId_of_valid h with rfl | ⟨-, hdigits, -⟩
  · have htext : "-1".toList = ['-', '1'] := by decide +kernel
    rw [htext, List.mem_pair] at hc
    rcases hc with rfl | rfl
    · exact .inr rfl
    · exact .inl (by decide)
  · exact .inl (hdigits c hc)

theorem validConfigId_ne_nil {confid : CStr} (h : validConfigId confid = true) : confid ≠ [] := by
  rintro rfl
  revert h
  decide

/-- What `getconfig` makes of a file that holds an id and nothing else: it sees the first 254
characters. -/
theorem getconfig_of_valid {sys : SystemFiles} {confid : CStr} (hmulti : sys.multiconfig = true)
    (hfile : sys.configId = some confid) (h : validConfigId confid = true) :
    getconfig sys true true = if validConfigId (confid.take (configBuf - 1)) then
      (.none, confid.take (configBuf - 1)) else (.invalidFormat, CStr.decInt configIdInvalid) := by
  have hchar : ∀ c, c.isDigit = false → c ≠ '-' → c ∉ confid := by
    intro c hdigit hsign hc
    rcases mem_validConfigId h hc with hd | hs
    · rw [hd] at hdigit
      cases hdigit
    · exact hsign hs
  have hread : CStr.fgets configBuf confid = some (confid.take (configBuf - 1)) :=
    CStr.fgets_of_line (validConfigId_ne_nil h) (hchar _ (by decide) (by decide))
      (hchar _ (by decide) (by decide))
  simp [getconfig, hmulti, hfile, hread]

/-- **When the reader agrees with the writer.**  An id that `setconfig` accepts, as the whole
content of `config-id`, comes back from `getconfig` if and only if it fits into the buffer of the
reader: the writer accepts any number of leading zeros. -/
theorem getconfig_returns_iff {sys : SystemFiles} {confid : CStr} (hmulti : sys.multiconfig = true)
    (hfile : sys.configId = some confid) (h : validConfigId confid = true) :
    getconfig sys true true = (.none, confid) ↔ confid.length < configBuf := by
  have hpos : 0 < configBuf := by decide
  rw [getconfig_of_valid hmulti hfile h]
  constructor
  · intro heq
    split_ifs at heq
    · have hlen := congrArg (fun r => r.2.length) heq
      simp only [List.length_take] at hlen
      omega
    · cases congrArg Prod.fst heq
  · intro hlen
    rw [List.take_of_length_le (by omega), if_pos h]

theorem getconfig_returns_padded :
    validConfigId "0012".toList = true ∧ "0012".toList.length < configBuf ∧
      getconfig ⟨true, some "0012".toList, none, true⟩ true true = (.none, "0012".toList) :=
  ⟨by decide +kernel, by decide, (getconfig_returns_iff rfl rfl (by decide +kernel)).mpr
    (by decide)⟩

/-- An id of 253 zeros and `12` loses its last character, and `getconfig` succeeds with the id 1. -/
theorem long_id_cut :
    ¬ ∀ confid, validConfigId confid = true →
      getconfig ⟨true, some confid, none, true⟩ true true = (.none, confid) := by
  intro hall
  have hvalid : validConfigId (List.replicate 253 '0' ++ "12".toList) = true := by decide +kernel
  have hcut : getconfig ⟨true, some (List.replicate 253 '0' ++ "12".toList), none, true⟩ true true =
      (.none, List.replicate 253 '0' ++ "1".toList) := by decide +kernel
  have heq := congrArg (fun r => r.2.length) (hcut.symm.trans (hall _ hvalid))
  rw [List.length_append, List.length_append, List.length_replicate] at heq
  exact absurd heq (by decide)

end Omap4.Motobox
