import Omap4.CString
import Omap4.Transfer

/-!
# Omap4.CBuffer — character arrays and the library calls that stay inside them, or do not

A `Buf n` is an array of `n` bytes.  The calls return `none` where the real ones leave an array: a
string that does not fit, a scan or a `strlen` that finds no NUL.  `%[^c]` copies the characters up
to the next `c` (`field`), and leaves its target alone if there are none.

The two facts about such a scan that programs rest on: a field that is not empty and fits is what
the target holds afterwards, whatever it held before (`scanUntil_eq_some`); and a scan whose result
can be measured whatever the target held before had such a field (`field_of_scanUntil`).
-/

namespace Omap4

/-- An array of `n` characters. -/
abbrev Buf (n : ℕ) := { l : List Char // l.length = n }

namespace Buf

variable {n k : ℕ}

def fill (c : Char) (n : ℕ) : Buf n := ⟨List.replicate n c, List.length_replicate⟩

/-- `memset(buf, 0, n)`. -/
def zero (n : ℕ) : Buf n := fill CStr.nul n

/-- The string at the start of the array. -/
def cstr (b : Buf n) : CStr := CStr.ofBuffer b.1

def strlen (b : Buf n) : Option ℕ := if CStr.nul ∈ b.1 then some b.cstr.length else none

/-- The bytes `data` are stored at the start of the array. -/
def write (data : List Char) (b : Buf n) : Option (Buf n) :=
  if h : data.length ≤ n then
    some ⟨Transfer.store b.1 0 data, by rw [Transfer.length_store (by simpa [b.2] using h), b.2]⟩
  else none

/-- `memcpy(dst, src + p, len)`. -/
def copyFrom (src : Buf k) (p len : ℕ) (dst : Buf n) : Option (Buf n) :=
  if p + len ≤ k then dst.write ((src.1.drop p).take len) else none

/-- What `%[^c]` matches. -/
def field (c : Char) (src : List Char) : CStr := src.takeWhile fun x => x ≠ c && x ≠ CStr.nul

/-- `sscanf(src + p, "%[^c]", dst)`. -/
def scanUntil (c : Char) (src : Buf k) (p : ℕ) (dst : Buf n) : Option (Buf n) :=
  if CStr.nul ∈ src.1.drop p then
    if field c (src.1.drop p) = [] then some dst
      else dst.write (field c (src.1.drop p) ++ [CStr.nul])
  else none

/-! ## Stores -/

theorem write_eq_some {data : List Char} {b b' : Buf n} :
    b.write data = some b' ↔ data.length ≤ n ∧ b'.1 = data ++ b.1.drop data.length := by
  unfold write
  split_ifs with h
  · rw [Option.some.injEq, Subtype.ext_iff, eq_comm (a := b'.1)]
    simp [Transfer.store, h]
  · simp [h]

/-- A string that fits can be read back. -/
theorem write_string {s : CStr} (hs : CStr.nul ∉ s) (hlen : s.length < n) (b : Buf n) :
    ∃ b', b.write (s ++ [CStr.nul]) = some b' ∧ b'.cstr = s ∧ b'.strlen = some s.length := by
  obtain ⟨b', hb'⟩ : ∃ b', b.write (s ++ [CStr.nul]) = some b' := by
    unfold write
    rw [dif_pos (by rw [List.length_append]; exact hlen)]
    exact ⟨_, rfl⟩
  obtain ⟨-, hdata⟩ := write_eq_some.mp hb'
  have hmem : CStr.nul ∈ s ++ [CStr.nul] := by simp
  have hcstr : b'.cstr = s := by
    unfold cstr
    rw [hdata, List.append_assoc, List.singleton_append, CStr.ofBuffer_terminated hs]
  refine ⟨b', hb', hcstr, ?_⟩
  rw [strlen, if_pos (by rw [hdata]; exact List.mem_append_left _ hmem), hcstr]

/-- An array without a NUL cannot be measured. -/
theorem strlen_fill {c : Char} (hc : c ≠ CStr.nul) (n : ℕ) : (fill c n).strlen = none := by
  rw [strlen, if_neg]
  intro hmem
  exact hc (List.eq_of_mem_replicate hmem).symm

theorem strlen_lt {b : Buf n} {m : ℕ} (h : b.strlen = some m) : m < n := by
  unfold strlen at h
  split_ifs at h with hmem
  rw [Option.some.injEq] at h
  have hlt : b.cstr.length < b.1.length := CStr.length_ofBuffer_lt hmem
  have hn := b.2
  omega

/-! ## Scans -/

theorem field_spec (c : Char) (src : List Char) : c ∉ field c src ∧ CStr.nul ∉ field c src := by
  constructor <;> intro hmem <;> simpa using List.mem_takeWhile_imp hmem

theorem field_append {c : Char} {s : CStr} (hc : c ∉ s) (hs : CStr.nul ∉ s) (rest : List Char) :
    field c (s ++ c :: rest) = s := by
  have hall : ∀ x ∈ s, (decide (x ≠ c) && decide (x ≠ CStr.nul)) = true := by
    intro x hx
    have hxc : x ≠ c := fun heq => hc (heq ▸ hx)
    have hxn : x ≠ CStr.nul := fun heq => hs (heq ▸ hx)
    simp [hxc, hxn]
  unfold field
  rw [List.takeWhile_append_of_pos hall, List.takeWhile_cons_of_neg (by simp), List.append_nil]

/-- **A field that fits** is what the target holds, whatever it held before. -/
theorem scanUntil_eq_some {c : Char} {src : Buf k} {p : ℕ} (hsrc : CStr.nul ∈ src.1.drop p)
    (hne : field c (src.1.drop p) ≠ []) (hlen : (field c (src.1.drop p)).length < n) (dst : Buf n) :
    ∃ dst', scanUntil c src p dst = some dst' ∧ dst'.cstr = field c (src.1.drop p) ∧
      dst'.strlen = some (field c (src.1.drop p)).length := by
  rw [scanUntil, if_pos hsrc, if_neg hne]
  exact write_string (field_spec c _).2 hlen dst

/-- **A scan into an array without a NUL** whose result can be measured had a field that fits. -/
theorem field_of_scanUntil {c x : Char} (hx : x ≠ CStr.nul) {src : Buf k} {p : ℕ}
    {dst' : Buf n} {m : ℕ} (h : scanUntil c src p (fill x n) = some dst')
    (hm : dst'.strlen = some m) :
    field c (src.1.drop p) ≠ [] ∧ (field c (src.1.drop p)).length < n ∧
      m = (field c (src.1.drop p)).length := by
  unfold scanUntil at h
  split_ifs at h with hsrc hne
  · rw [Option.some.injEq] at h
    rw [← h, strlen_fill hx] at hm
    cases hm
  · obtain ⟨hlen, -⟩ := write_eq_some.mp h
    rw [List.length_append, List.length_singleton] at hlen
    obtain ⟨b, hb, -, hstrlen⟩ := write_string (field_spec c _).2 hlen (fill x n)
    rw [h, Option.some.injEq] at hb
    rw [← hb, hm, Option.some.injEq] at hstrlen
    exact ⟨hne, hlen, hstrlen⟩

end Buf

end Omap4
