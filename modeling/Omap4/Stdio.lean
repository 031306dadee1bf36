import Omap4.CBuffer

/-!
# Omap4.Stdio — reading a file line by line

An `InFile` is a `FILE` that is read: what is left of it, and its end-of-file indicator.  `fgets`
reads up to the end of a line or until the buffer is full; the indicator is set only when it had to
look behind the end of the file, so that after the last line of a text that ends with a newline it
is not set yet (`fgets_line`), and the next call finds nothing and leaves the buffer alone
(`fgets_end`).

`whileNotEof` is the loop `while (!feof(f))` with a bound for its rounds.  A loop that calls `fgets`
in each round ends (`whileNotEof_isSome`), so that `runNotEof` needs none (`runNotEof_eq`).
-/

namespace Omap4

structure InFile where
  rest : List Char
  eof : Bool
  deriving DecidableEq, Repr

/-- A file that was just opened. -/
def InFile.opened (content : List Char) : InFile := ⟨content, false⟩

/-- At most `n` characters, and no further than the first newline. -/
def takeLine : ℕ → List Char → List Char
  | 0, _ => []
  | _ + 1, [] => []
  | n + 1, c :: s => if c = '\n' then [c] else c :: takeLine n s

theorem length_takeLine_le : ∀ (n : ℕ) (s : List Char), (takeLine n s).length ≤ n
  | 0, _ => Nat.le_refl 0
  | n + 1, [] => Nat.zero_le _
  | n + 1, c :: s => by
    have hle := length_takeLine_le n s
    rw [takeLine]
    split_ifs
    · simp
    · simpa using hle

namespace Buf

variable {n : ℕ}

/-- A string and its NUL are stored at the start of the array. -/
def put (s : CStr) (h : s.length ≤ n) (b : Buf (n + 1)) : Buf (n + 1) :=
  ⟨s ++ CStr.nul :: b.1.drop (s.length + 1), by
    have hb := b.2
    simp
    omega⟩

theorem put_string {s : CStr} {h : s.length ≤ n} {b : Buf (n + 1)} (hs : CStr.nul ∉ s) {k : ℕ}
    (hk : k ≤ s.length) (behind : List Char) :
    CStr.ofBuffer (((b.put s h).1 ++ behind).drop k) = s.drop k := by
  have hdrop : ((b.put s h).1 ++ behind).drop k =
      s.drop k ++ CStr.nul :: (b.1.drop (s.length + 1) ++ behind) := by
    simp only [put, List.append_assoc, List.cons_append]
    exact List.drop_append_of_le_length hk
  rw [hdrop, CStr.ofBuffer_terminated fun hmem => hs (List.mem_of_mem_drop hmem)]

theorem put_cstr {s : CStr} {h : s.length ≤ n} {b : Buf (n + 1)} (hs : CStr.nul ∉ s) :
    (b.put s h).cstr = s := by
  have hput := put_string (h := h) (b := b) hs (Nat.zero_le s.length) []
  rwa [List.append_nil] at hput

end Buf

/-- `fgets(buf, n + 1, f)`. -/
def fgets {n : ℕ} (buf : Buf (n + 1)) (f : InFile) : Buf (n + 1) × InFile :=
  (if takeLine n f.rest = [] then buf else buf.put (takeLine n f.rest)
    (length_takeLine_le n f.rest), ⟨f.rest.drop (takeLine n f.rest).length,
      f.eof || decide ((takeLine n f.rest).length < n ∧ (takeLine n f.rest).getLast? ≠ some '\n')⟩)

theorem takeLine_line {l : CStr} (hl : '\n' ∉ l) :
    ∀ {n : ℕ}, l.length < n → ∀ rest, takeLine n (l ++ '\n' :: rest) = l ++ ['\n'] := by
  induction l with
  | nil =>
    intro n hn rest
    obtain ⟨n, rfl⟩ : ∃ k, n = k + 1 := ⟨n - 1, by simp at hn; omega⟩
    simp [takeLine]
  | cons c l ih =>
    intro n hn rest
    rw [List.mem_cons, not_or] at hl
    obtain ⟨n, rfl⟩ : ∃ k, n = k + 1 := ⟨n - 1, by simp at hn; omega⟩
    rw [List.cons_append, takeLine, if_neg fun h => hl.1 h.symm, ih hl.2 (by simpa using hn)]
    rfl

/-- What is read is a line, or as much of one as fits, or an unfinished line at the end. -/
theorem takeLine_cases : ∀ (n : ℕ) (s : List Char),
    (∃ l rest, s = l ++ '\n' :: rest ∧ '\n' ∉ l ∧ l.length < n ∧ takeLine n s = l ++ ['\n']) ∨
    (∃ c rest, s = c ++ rest ∧ '\n' ∉ c ∧ c.length = n ∧ takeLine n s = c) ∨
    '\n' ∉ s ∧ s.length < n ∧ takeLine n s = s
  | 0, s => .inr (.inl ⟨[], s, rfl, by simp, rfl, rfl⟩)
  | n + 1, [] => .inr (.inr ⟨by simp, by simp, rfl⟩)
  | n + 1, c :: s => by
    by_cases hc : c = '\n'
    · subst hc
      exact .inl ⟨[], s, rfl, by simp, by simp, by simp [takeLine]⟩
    · have htake : takeLine (n + 1) (c :: s) = c :: takeLine n s := by rw [takeLine, if_neg hc]
      have hne : '\n' ≠ c := fun h => hc h.symm
      rw [htake]
      rcases takeLine_cases n s with ⟨l, rest, rfl, hl, hlen, heq⟩ | ⟨b, rest, rfl, hb, hlen,
        heq⟩ | ⟨hs, hlen, heq⟩
      · exact .inl ⟨c :: l, rest, rfl, by simp [hne, hl], by simpa using hlen, by rw [heq]; rfl⟩
      · exact .inr (.inl ⟨c :: b, rest, rfl, by simp [hne, hb], by simpa using hlen, by rw [heq]⟩)
      · exact .inr (.inr ⟨by simp [hne, hs], by simpa using hlen, by rw [heq]⟩)

theorem takeLine_long {c : List Char} (hc : '\n' ∉ c) (rest : List Char) :
    takeLine c.length (c ++ rest) = c := by
  induction c with
  | nil => rfl
  | cons x c ih =>
    rw [List.mem_cons, not_or] at hc
    rw [List.length_cons, List.cons_append, takeLine, if_neg fun h => hc.1 h.symm, ih hc.2]

/-- **A line that fits** is read with its newline, and the indicator stays as it was. -/
theorem fgets_line {n : ℕ} {buf : Buf (n + 1)} {l : CStr} (hl : '\n' ∉ l) (hn : l.length < n)
    (rest : List Char) (eof : Bool) :
    ∃ h, fgets buf ⟨l ++ '\n' :: rest, eof⟩ = (buf.put (l ++ ['\n']) h, ⟨rest, eof⟩) := by
  have hline := takeLine_line hl hn rest
  have hlen : (l ++ ['\n']).length ≤ n := by
    rw [List.length_append, List.length_singleton]
    exact hn
  refine ⟨hlen, ?_⟩
  unfold fgets
  simp only [hline]
  have hdrop : (l ++ '\n' :: rest).drop (l ++ ['\n']).length = rest := by
    have heq : l ++ '\n' :: rest = (l ++ ['\n']) ++ rest := by simp
    rw [heq, List.drop_left]
  rw [if_neg (by simp), hdrop]
  simp

/-- **At the end of the file** nothing is read, and the indicator is set. -/
theorem fgets_end {n : ℕ} (hn : 0 < n) (buf : Buf (n + 1)) (eof : Bool) :
    fgets buf ⟨[], eof⟩ = (buf, ⟨[], true⟩) := by
  obtain ⟨n, rfl⟩ : ∃ k, n = k + 1 := ⟨n - 1, by omega⟩
  simp [fgets, takeLine]

/-- As much of a long line as fits is read without the indicator being set. -/
theorem fgets_long {n : ℕ} (hn : 0 < n) {buf : Buf (n + 1)} {c : List Char} (hc : '\n' ∉ c)
    (hlen : c.length = n) (rest : List Char) (eof : Bool) :
    ∃ h, fgets buf ⟨c ++ rest, eof⟩ = (buf.put c h, ⟨rest, eof⟩) := by
  have htake : takeLine n (c ++ rest) = c := hlen ▸ takeLine_long hc rest
  have hne : c ≠ [] := by
    rintro rfl
    rw [List.length_nil] at hlen
    omega
  refine ⟨Nat.le_of_eq hlen, ?_⟩
  unfold fgets
  simp only [htake]
  rw [if_neg hne, List.drop_left]
  simp [hlen]

/-- **An unfinished line** at the end is read with the indicator being set. -/
theorem fgets_unfinished {n : ℕ} {buf : Buf (n + 1)} {c : List Char} (hc : '\n' ∉ c)
    (hlen : c.length < n) (eof : Bool) : (fgets buf ⟨c, eof⟩).2 = ⟨[], true⟩ := by
  have htake : takeLine n c = c := by
    rcases takeLine_cases n c with ⟨l, rest, rfl, -⟩ | ⟨b, rest, rfl, -, hb, -⟩ | ⟨-, -, heq⟩
    · exact absurd (by simp) hc
    · rw [List.length_append] at hlen
      omega
    · exact heq
  have hlast : c.getLast? ≠ some '\n' := fun h => hc (List.mem_of_getLast? h)
  simp [fgets, htake, hlen, hlast]

/-! ## Loops -/

/-- `while (!feof(f))`, with a body that may break; there is no result if the rounds do not
suffice. -/
def whileNotEof {σ : Type} (file : σ → InFile) (body : σ → Bool × σ) : ℕ → σ → Option σ
  | 0, s => if (file s).eof then some s else none
  | fuel + 1, s =>
    if (file s).eof then some s
    else if (body s).1 then some (body s).2 else whileNotEof file body fuel (body s).2

/-- A bound for the calls of `fgets` until the indicator is set. -/
def InFile.left (f : InFile) : ℕ := f.rest.length + if f.eof then 0 else 1

theorem takeLine_eq_nil {n : ℕ} {s : List Char} (hn : 0 < n) (h : takeLine n s = []) : s = [] := by
  obtain ⟨n, rfl⟩ : ∃ k, n = k + 1 := ⟨n - 1, by omega⟩
  cases s with
  | nil => rfl
  | cons c s =>
    rw [takeLine] at h
    split_ifs at h

theorem length_takeLine_le_self : ∀ (n : ℕ) (s : List Char), (takeLine n s).length ≤ s.length
  | 0, _ => Nat.zero_le _
  | n + 1, [] => Nat.le_refl 0
  | n + 1, c :: s => by
    have hle := length_takeLine_le_self n s
    rw [takeLine]
    split_ifs
    · simp
    · simpa using hle

theorem fgets_left {n : ℕ} (hn : 0 < n) (buf : Buf (n + 1)) {f : InFile} (hf : f.eof = false) :
    (fgets buf f).2.left < f.left := by
  by_cases hnil : takeLine n f.rest = []
  · have hrest := takeLine_eq_nil hn hnil
    obtain ⟨rest, eof⟩ := f
    obtain rfl : rest = [] := hrest
    obtain rfl : eof = false := hf
    rw [fgets_end hn]
    simp [InFile.left]
  · have hpos := List.length_pos_iff.mpr hnil
    have hle := length_takeLine_le_self n f.rest
    simp only [InFile.left, fgets, hf, List.length_drop, Bool.false_or,
      Bool.false_eq_true, if_false]
    split_ifs <;> omega

/-- **A loop that reads in each round ends.** -/
theorem whileNotEof_isSome {σ : Type} {file : σ → InFile} {body : σ → Bool × σ}
    (hbody : ∀ s, (file s).eof = false → (file (body s).2).left < (file s).left) :
    ∀ {fuel : ℕ} {s : σ}, (file s).left ≤ fuel → (whileNotEof file body fuel s).isSome
  | 0, s, hf => by
    have heof : (file s).eof = true := by
      unfold InFile.left at hf
      by_contra h
      rw [if_neg h] at hf
      omega
    simp [whileNotEof, heof]
  | fuel + 1, s, hf => by
    rw [whileNotEof]
    split_ifs with heof hbreak
    · rfl
    · rfl
    · have hlt := hbody s (by simpa using heof)
      exact whileNotEof_isSome hbody (by omega)

theorem whileNotEof_mono {σ : Type} {file : σ → InFile} {body : σ → Bool × σ} :
    ∀ {fuel k : ℕ} {s r : σ}, whileNotEof file body fuel s = some r → fuel ≤ k →
      whileNotEof file body k s = some r
  | 0, k, s, r, h, _ => by
    rw [whileNotEof] at h
    split_ifs at h with heof
    cases k <;> simpa [whileNotEof, heof] using h
  | fuel + 1, k, s, r, h, hk => by
    obtain ⟨k, rfl⟩ : ∃ j, k = j + 1 := ⟨k - 1, by omega⟩
    rw [whileNotEof] at h ⊢
    split_ifs at h ⊢ with heof hbreak
    · exact h
    · exact h
    · exact whileNotEof_mono h (by omega)

/-- The loop, for a body that reads in each round. -/
def runNotEof {σ : Type} (file : σ → InFile) (body : σ → Bool × σ) (s : σ) : σ :=
  (whileNotEof file body (file s).left s).getD s

theorem runNotEof_eq {σ : Type} {file : σ → InFile} {body : σ → Bool × σ}
    (hbody : ∀ s, (file s).eof = false → (file (body s).2).left < (file s).left) (s : σ) :
    runNotEof file body s =
      if (file s).eof then s else if (body s).1 then (body s).2
      else runNotEof file body (body s).2 := by
  have hrun : ∀ s, whileNotEof file body (file s).left s = some (runNotEof file body s) := by
    intro s
    obtain ⟨r, hr⟩ := Option.isSome_iff_exists.mp
      (whileNotEof_isSome hbody (Nat.le_refl (file s).left))
    rw [runNotEof, hr]
    rfl
  split_ifs with heof hbreak
  · cases hk : (file s).left <;> simp [runNotEof, hk, whileNotEof, heof]
  · have hlt := hbody s (by simpa using heof)
    obtain ⟨k, hk⟩ : ∃ k, (file s).left = k + 1 := ⟨(file s).left - 1, by omega⟩
    simp [runNotEof, hk, whileNotEof, heof, hbreak]
  · have hlt := hbody s (by simpa using heof)
    obtain ⟨k, hk⟩ : ∃ k, (file s).left = k + 1 := ⟨(file s).left - 1, by omega⟩
    have hnext := whileNotEof_mono (hrun (body s).2) (show _ ≤ k by omega)
    have hfirst := hrun s
    rw [hk, whileNotEof, if_neg heof, if_neg hbreak, hnext] at hfirst
    exact (Option.some.inj hfirst).symm

end Omap4
