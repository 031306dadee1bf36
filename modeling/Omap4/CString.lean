import Mathlib.Data.List.Basic
import Mathlib.Data.List.TakeWhile

/-!
# Omap4.CString — C strings and the library calls on them

A C string is the list of its characters before the terminating NUL.  `dec n` is what `%d` prints.
-/

namespace Omap4

/-- The characters of a C string before its NUL. -/
abbrev CStr := List Char

namespace CStr

/-- `strstr`: the rest of the string from the first occurrence on. -/
def strstr (needle : CStr) : CStr → Option CStr
  | [] => if needle = [] then some [] else none
  | c :: s => if needle.isPrefixOf (c :: s) then some (c :: s) else strstr needle s

/-- `strcasestr`: whether the needle occurs, in any case of its ASCII letters. -/
def strcasestr (needle s : CStr) : Bool :=
  (strstr (needle.map Char.toLower) (s.map Char.toLower)).isSome

/-- `strchr`: the rest of the string from the first `c` on. -/
def strchr (c : Char) : CStr → Option CStr
  | [] => none
  | d :: s => if d = c then some (d :: s) else strchr c s

/-- What `snprintf` leaves in a buffer of `size` bytes. -/
def snprintf (size : ℕ) (s : CStr) : CStr := s.take (size - 1)

/-- The terminating character. -/
def nul : Char := Char.ofNat 0

/-- The string that starts at the first byte of a buffer. -/
def ofBuffer (buf : List Char) : CStr := buf.takeWhile (· ≠ nul)

/-- `isspace`. -/
def isSpace (c : Char) : Bool := c = ' ' || (9 ≤ c.toNat && c.toNat ≤ 13)

/-- `%d` of a natural number. -/
def dec (n : ℕ) : CStr := Nat.toDigits 10 n

/-- `%d` of an integer. -/
def decInt (n : ℤ) : CStr := if n < 0 then '-' :: dec n.natAbs else dec n.natAbs

/-- The sign that `strtol` accepts and the digits behind it. -/
def signed (s : CStr) : Bool × CStr :=
  match s with
  | '-' :: s => (true, s)
  | '+' :: s => (false, s)
  | s => (false, s)

/-- `atoi`, which stays at the limits of `int`. -/
def atoi (s : CStr) : ℤ :=
  match signed (s.dropWhile isSpace) with
  | (true, d) => max (-2147483648) (-(Nat.ofDigitChars 10 (d.takeWhile Char.isDigit) 0 : ℤ))
  | (false, d) => min 2147483647 (Nat.ofDigitChars 10 (d.takeWhile Char.isDigit) 0 : ℤ)

/-- What a `write` of the first `n` bytes of `text` leaves in a file that was opened without
truncation. -/
def overwrite (text : List Char) (n : ℕ) (old : List Char) : List Char :=
  text.take n ++ old.drop (min n text.length)

/-- `fgets` with a buffer of `size` bytes: at most a line, or nothing at the end of the file. -/
def fgets (size : ℕ) (content : List Char) : Option CStr :=
  if content = [] then none
  else some (ofBuffer (((content.takeWhile (· ≠ '\n')) ++ ['\n']).take (min (size - 1) content.length)))

theorem ofBuffer_of_nul_notMem {buf : List Char} (h : nul ∉ buf) : ofBuffer buf = buf := by
  refine List.takeWhile_eq_self_iff.mpr fun c hc => ?_
  have hne : c ≠ nul := fun heq => h (heq ▸ hc)
  simpa using hne

theorem length_ofBuffer_lt {buf : List Char} (h : nul ∈ buf) :
    (ofBuffer buf).length < buf.length := by
  have hpre : ofBuffer buf <+: buf := List.takeWhile_prefix _
  refine Nat.lt_of_le_of_ne hpre.length_le fun hlen => ?_
  have hall := List.takeWhile_eq_self_iff.mp (hpre.eq_of_length hlen)
  simpa using hall nul h

/-- What lies behind the first NUL is not part of the string. -/
theorem ofBuffer_append {a : List Char} (h : nul ∈ a) (b : List Char) :
    ofBuffer (a ++ b) = ofBuffer a := by
  have hlt := length_ofBuffer_lt h
  unfold ofBuffer at hlt ⊢
  rw [List.takeWhile_append, if_neg (by omega)]

theorem ofBuffer_terminated {s : CStr} (hs : nul ∉ s) (rest : List Char) :
    ofBuffer (s ++ nul :: rest) = s := by
  have hall : ∀ c ∈ s, decide (c ≠ nul) = true := by
    intro c hc
    exact decide_eq_true fun heq => hs (heq ▸ hc)
  unfold ofBuffer
  rw [List.takeWhile_append_of_pos hall, List.takeWhile_cons_of_neg (by simp), List.append_nil]

/-- A file of one line without a newline is read up to the size of the buffer. -/
theorem fgets_of_line {size : ℕ} {content : List Char} (hne : content ≠ []) (hline : '\n' ∉ content)
    (hnul : nul ∉ content) : fgets size content = some (content.take (size - 1)) := by
  have hwhole : content.takeWhile (· ≠ '\n') = content := by
    refine List.takeWhile_eq_self_iff.mpr fun c hc => ?_
    have hc' : c ≠ '\n' := fun heq => hline (heq ▸ hc)
    simpa using hc'
  have hlen : min (size - 1) content.length ≤ content.length := by omega
  have htake : content.take (min (size - 1) content.length) = content.take (size - 1) := by
    rw [List.take_eq_take_iff]
    omega
  unfold fgets
  rw [if_neg hne, hwhole, List.take_append_of_le_length hlen, htake, ofBuffer_of_nul_notMem]
  exact fun h => hnul (List.mem_of_mem_take h)

theorem snprintf_of_lt {size : ℕ} {s : CStr} (h : s.length < size) : snprintf size s = s :=
  List.take_of_length_le (by omega)

theorem isDigit_of_mem_dec {n : ℕ} {c : Char} (h : c ∈ dec n) : c.isDigit = true :=
  Nat.isDigit_of_mem_toDigits (by decide) (by decide) h

theorem decInt_ne_nil (n : ℤ) : decInt n ≠ [] := by
  unfold decInt
  split_ifs
  · exact List.cons_ne_nil _ _
  · exact Nat.toDigits_ne_nil

theorem dec_injective : Function.Injective dec := by
  intro a b h
  have := congrArg (fun l => Nat.ofDigitChars 10 l 0) h
  simpa [dec] using this

/-- The digits of a number end at the first character that is not one. -/
theorem takeWhile_dec_append (n : ℕ) {c : Char} (hc : c.isDigit = false) (s : CStr) :
    (dec n ++ c :: s).takeWhile Char.isDigit = dec n := by
  rw [List.takeWhile_append_of_pos fun x hx => isDigit_of_mem_dec hx,
    List.takeWhile_cons_of_neg (by simp [hc]), List.append_nil]

theorem dec_append_inj {a b : ℕ} {c : Char} (hc : c.isDigit = false) {s t : CStr}
    (h : dec a ++ c :: s = dec b ++ c :: t) : a = b ∧ s = t := by
  have hd : dec a = dec b := by
    rw [← takeWhile_dec_append a hc s, h, takeWhile_dec_append b hc t]
  obtain rfl := dec_injective hd
  exact ⟨rfl, by simpa using h⟩

/-! ## Reading decimal numbers back -/

theorem toNat_of_isDigit {c : Char} (h : c.isDigit = true) : 48 ≤ c.toNat ∧ c.toNat ≤ 57 := by
  simp only [Char.isDigit, Bool.and_eq_true, decide_eq_true_eq] at h
  exact ⟨h.1, h.2⟩

/-- The characters below the digits. -/
theorem ne_of_isDigit {c : Char} (h : c.isDigit = true) {d : Char} (hd : d.toNat < 48) : c ≠ d := by
  rintro rfl
  exact absurd (toNat_of_isDigit h).1 (Nat.not_le.mpr hd)

theorem digitChar_of_isDigit {c : Char} (h : c.isDigit = true) :
    (c.toNat - '0'.toNat).digitChar = c ∧ c.toNat - '0'.toNat < 10 := by
  obtain ⟨hlow, hhigh⟩ := toNat_of_isDigit h
  have hten : c.toNat - '0'.toNat < 10 := by
    show c.toNat - 48 < 10
    omega
  refine ⟨Char.toNat_inj.mp ?_, hten⟩
  rw [Nat.toNat_digitChar_of_lt_ten hten]
  show 48 + (c.toNat - 48) = c.toNat
  omega

/-- Digits behind a number that is not 0 are printed back. -/
theorem dec_ofDigitChars {n : ℕ} (hn : 0 < n) {s : CStr} (hs : ∀ x ∈ s, x.isDigit = true) :
    dec (Nat.ofDigitChars 10 s n) = dec n ++ s := by
  induction s generalizing n with
  | nil => rw [Nat.ofDigitChars_nil, List.append_nil]
  | cons c s ih =>
    obtain ⟨hchar, hten⟩ := digitChar_of_isDigit (hs c (by simp))
    have hstep : dec (10 * n + (c.toNat - '0'.toNat)) = dec n ++ [c] := by
      rw [dec, ← Nat.toDigits_append_toDigits (by decide) hn hten,
        Nat.toDigits_of_lt_base hten, hchar]
      rfl
    rw [Nat.ofDigitChars_cons, ih (by omega) fun x hx => hs x (List.mem_cons_of_mem c hx), hstep,
      List.append_assoc]
    rfl

/-- A text of digits that does not begin with a zero. -/
theorem dec_of_digits {c : Char} (hzero : c ≠ '0') {s : CStr}
    (hs : ∀ x ∈ c :: s, x.isDigit = true) :
    dec (Nat.ofDigitChars 10 (c :: s) 0) = c :: s := by
  obtain ⟨hchar, hten⟩ := digitChar_of_isDigit (hs c (by simp))
  have hpos : 0 < c.toNat - '0'.toNat := by
    refine Nat.pos_of_ne_zero fun h => hzero ?_
    rw [← hchar, h]
    rfl
  rw [Nat.ofDigitChars_cons, Nat.mul_zero, Nat.zero_add,
    dec_ofDigitChars hpos fun x hx => hs x (List.mem_cons_of_mem c hx), dec,
    Nat.toDigits_of_lt_base hten, hchar]
  rfl

theorem isSpace_of_isDigit {c : Char} (hc : c.isDigit = true) : isSpace c = false := by
  obtain ⟨hlow, -⟩ := toNat_of_isDigit hc
  have hbig : ¬ c.toNat ≤ 13 := by omega
  simp [isSpace, ne_of_isDigit hc (d := ' ') (by decide), hbig]

theorem signed_of_isDigit {c : Char} (hc : c.isDigit = true) (s : CStr) :
    signed (c :: s) = (false, c :: s) := by
  unfold signed
  split
  · exact absurd (List.head_eq_of_cons_eq ‹_›) (ne_of_isDigit hc (by decide))
  · exact absurd (List.head_eq_of_cons_eq ‹_›) (ne_of_isDigit hc (by decide))
  · rfl

/-- `atoi` of a text that begins with a digit. -/
theorem atoi_of_isDigit {c : Char} (hc : c.isDigit = true) (s : CStr) :
    atoi (c :: s) = min 2147483647
    (Nat.ofDigitChars 10 ((c :: s).takeWhile Char.isDigit) 0 : ℤ) := by
  unfold atoi
  rw [List.dropWhile_cons_of_neg (by simp [isSpace_of_isDigit hc]), signed_of_isDigit hc]

theorem atoi_of_digits {s : CStr} (hs : ∀ x ∈ s, x.isDigit = true) :
    atoi s = min 2147483647 (Nat.ofDigitChars 10 s 0 : ℤ) := by
  cases s with
  | nil => rfl
  | cons c s => rw [atoi_of_isDigit (hs c (by simp)), List.takeWhile_eq_self_iff.mpr hs]

/-! ## Searching -/

/-- What `strstr` returns begins with the text that was searched for. -/
theorem prefix_of_strstr {needle s r : CStr} (h : strstr needle s = some r) : needle <+: r := by
  induction s with
  | nil =>
    unfold strstr at h
    split_ifs at h with hnil
    rw [hnil]
    exact List.nil_prefix
  | cons c s ih =>
    unfold strstr at h
    split_ifs at h with hpre
    · rw [← Option.some.inj h]
      exact List.isPrefixOf_iff_prefix.mp hpre
    · exact ih h

theorem suffix_of_strstr {needle s r : CStr} (h : strstr needle s = some r) : r <:+ s := by
  induction s with
  | nil =>
    unfold strstr at h
    split_ifs at h
    exact Option.some.inj h ▸ List.suffix_rfl
  | cons c s ih =>
    unfold strstr at h
    split_ifs at h
    · exact Option.some.inj h ▸ List.suffix_rfl
    · exact (ih h).trans (List.suffix_cons c s)

theorem strstr_self (needle : CStr) : strstr needle needle = some needle := by
  cases needle with
  | nil => rfl
  | cons c s => rw [strstr, if_pos (List.isPrefixOf_iff_prefix.mpr List.prefix_rfl)]

/-- A search passes over a text without the first character that it looks for. -/
theorem strstr_append_of_notMem {c : Char} (needle : CStr) {a : CStr} (ha : c ∉ a) (s : CStr) :
    strstr (c :: needle) (a ++ s) = strstr (c :: needle) s := by
  induction a with
  | nil => rfl
  | cons d a ih =>
    have hne : c ≠ d := fun h => ha (h ▸ List.mem_cons_self)
    have hpre : ¬ (c :: needle).isPrefixOf (d :: (a ++ s)) = true := by
      rw [List.isPrefixOf_iff_prefix, List.cons_prefix_cons]
      exact fun h => hne h.1
    rw [List.cons_append, strstr, if_neg hpre]
    exact ih fun h => ha (List.mem_cons_of_mem d h)

/-- A text without `d` does not reach over a `d`. -/
theorem prefix_append_cons_iff {d : Char} {needle : CStr} (hd : d ∉ needle) (a s : CStr) :
    needle <+: a ++ d :: s ↔ needle <+: a := by
  constructor
  · intro h
    rcases List.prefix_or_prefix_of_prefix h (List.prefix_append a (d :: s)) with h' | ⟨t, rfl⟩
    · exact h'
    · cases t with
      | nil => simp
      | cons e t =>
        rw [List.prefix_append_right_inj, List.cons_prefix_cons] at h
        refine absurd ?_ hd
        rw [h.1]
        simp
  · intro h
    exact h.trans (List.prefix_append a _)

/-- A search for a text without `d` looks before a `d` and then behind it. -/
theorem strstr_append_cons {d : Char} {needle : CStr} (hne : needle ≠ []) (hd : d ∉ needle)
    (a s : CStr) :
    strstr needle (a ++ d :: s) = ((strstr needle a).map (· ++ d :: s)).or (strstr needle s) := by
  induction a with
  | nil =>
    have hpre : ¬ needle.isPrefixOf (d :: s) = true := by
      rw [List.isPrefixOf_iff_prefix, ← List.nil_append (d :: s), prefix_append_cons_iff hd]
      exact fun h => hne (List.prefix_nil.mp h)
    have hnil : strstr needle [] = none := if_neg hne
    rw [List.nil_append, hnil, strstr, if_neg hpre]
    rfl
  | cons c a ih =>
    have hiff := prefix_append_cons_iff hd (c :: a) s
    rw [← List.isPrefixOf_iff_prefix, ← List.isPrefixOf_iff_prefix] at hiff
    rw [List.cons_append, strstr, strstr, ← List.cons_append]
    by_cases hpre : needle.isPrefixOf (c :: a) = true
    · rw [if_pos (hiff.mpr hpre), if_pos hpre]
      rfl
    · rw [if_neg fun h => hpre (hiff.mp h), if_neg hpre]
      exact ih

theorem strchr_append_of_notMem {c : Char} {a : CStr} (ha : c ∉ a) (s : CStr) :
    strchr c (a ++ s) = strchr c s := by
  induction a with
  | nil => rfl
  | cons d a ih =>
    have hne : d ≠ c := fun h => ha (h ▸ List.mem_cons_self)
    rw [List.cons_append, strchr, if_neg hne]
    exact ih fun h => ha (List.mem_cons_of_mem d h)

/-- Where the character is not the first, less than the whole text is left. -/
theorem length_strchr {c : Char} {s r : CStr} (h : strchr c s = some r) :
    r.length ≤ s.length ∧ (r.length = s.length → ∃ t, s = c :: t) := by
  induction s with
  | nil => cases h
  | cons d s ih =>
    unfold strchr at h
    split_ifs at h with hd
    · rw [← Option.some.inj h, hd]
      exact ⟨le_rfl, fun _ => ⟨s, rfl⟩⟩
    · have hle := (ih h).1
      refine ⟨hle.trans (Nat.le_succ _), fun hlen => ?_⟩
      rw [hlen, List.length_cons] at hle
      omega

end CStr

end Omap4
