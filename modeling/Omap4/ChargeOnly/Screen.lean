import Omap4.Memory
import Omap4.RunLength

/-!
# Omap4.ChargeOnly.Screen — the logo on the screen (`show_565rle`)

The frame buffer is mapped as a memory of 16-bit pixels; a store that is not in the mapping is a
fault, and there is no result.  `show_565rle` maps a file of records of a count and a pixel, writes
the runs into the first page until one of them does not fit, and copies the first page to the
second.

The decoder is right for every file that it sees as a whole (`rleLoop_eq`).  It sees as much of the
file as the size says after it was cut to 32 bits, for `mmap` and for the counter of the loop;
`showsImage_iff` says for which files nothing is missing then.
-/

namespace Omap4.ChargeOnly

open Memory RunLength

/-! ## The code -/

/-- `unsigned` arithmetic. -/
def u32 (x : ℕ) : ℕ := x % 2 ^ 32

/-- `struct FB`, with the fields of `fi` and `vi` that are used. -/
structure FB where
  /-- the mapping -/
  bits : ℕ → UInt16
  /-- its size in pixels of 16 bits, from `fi.smem_len` -/
  size : ℕ
  lineLength : ℕ
  yres : ℕ
  yresVirtual : ℕ
  yoffset : ℕ
  bitsPerPixel : ℕ
  word : 2 * size < 2 ^ 32
  /-- there is room for two pages of `lineLength * yres` bytes -/
  twoPages : lineLength * yres ≤ size

namespace FB

def fbHeight (fb : FB) : ℕ := fb.yres

def fbWidth (fb : FB) : ℕ := fb.lineLength / (fb.bitsPerPixel / 8)

/-- The pixels of a page. -/
def pixels (fb : FB) : ℕ := fb.fbWidth * fb.fbHeight

/-- `memcpy(fb->bits + dst, fb->bits, n)` of 16-bit pixels. -/
def memcpy (fb : FB) (dst n : ℕ) (m : ℕ → UInt16) : Option (ℕ → UInt16) :=
  if dst + n ≤ fb.size then some (copyTo m dst (load m 0 n)) else none

end FB

/-- What `show_565rle` finds. -/
inductive RleFile
  | openFails
  | fstatFails
  | mmapFails
  | content (bytes : List UInt8)

/-- A little-endian `unsigned short`. -/
def unsignedShort (lo hi : UInt8) : UInt16 := UInt16.ofNat (lo.toNat + 256 * hi.toNat)

/-- `while (n--) *(bits++) = value;` -/
def storeRun (size : ℕ) (value : UInt16) : ℕ → ℕ → (ℕ → UInt16) → Option (ℕ → UInt16)
  | 0, _, m => some m
  | n + 1, pos, m =>
    if pos < size then storeRun size value n (pos + 1) (copyTo m pos [value]) else none

/-- The loop over the records.  `ptr` is what the mapping of the file has left. -/
def rleLoop (size : ℕ) : List UInt8 → ℕ → ℕ → ℕ → (ℕ → UInt16) → Option (ℕ → UInt16)
  | b0 :: b1 :: b2 :: b3 :: ptr, count, max, pos, m =>
    if 3 < count then
      if max < (unsignedShort b0 b1).toNat then some m
      else
        (storeRun size (unsignedShort b2 b3) (unsignedShort b0 b1).toNat pos m).bind fun m' =>
          rleLoop size ptr (count - 4) (max - (unsignedShort b0 b1).toNat)
            (pos + (unsignedShort b0 b1).toNat) m'
    else some m
  | _, count, _, _, m => if 3 < count then none else some m

/-- The part of `show_565rle` with a mapping of `data`. -/
def showMapped (fb : FB) (data : List UInt8) (count : ℕ) : Option (ℤ × FB) :=
  (rleLoop fb.size data count (u32 (fb.fbWidth * fb.fbHeight)) 0 fb.bits).bind fun m =>
    (fb.memcpy (u32 (fb.yres * fb.fbWidth)) (u32 (u32 (fb.fbWidth * fb.fbHeight) * 2) / 2) m).map
      fun m' =>
      (0, { fb with
        bits := m'
        yresVirtual := u32 (fb.yres * 2)
        yoffset := if fb.yoffset ≠ 0 then 0 else fb.yres
        bitsPerPixel := 16 })

/-- `show_565rle`: what it returns, and the frame buffer.  The length for `mmap` is a `size_t`, and
there is no mapping of length 0. -/
def show565rle (fb : FB) : RleFile → Option (ℤ × FB)
  | .openFails => some (-1, fb)
  | .fstatFails => some (-1, fb)
  | .mmapFails => some (-1, fb)
  | .content bytes =>
    if u32 bytes.length = 0 then some (-1, fb)
    else showMapped fb (bytes.take (u32 bytes.length)) (u32 bytes.length)

/-! ## The decoder -/

/-- The complete records of a file. -/
def records : List UInt8 → List (ℕ × UInt16)
  | b0 :: b1 :: b2 :: b3 :: rest =>
    ((unsignedShort b0 b1).toNat, unsignedShort b2 b3) :: records rest
  | _ => []

/-- The pixels of the records that fit `max` pixels. -/
def image (max : ℕ) (bytes : List UInt8) : List UInt16 := expand (within max (records bytes))

theorem length_image_le (max : ℕ) (bytes : List UInt8) : (image max bytes).length ≤ max := by
  rw [image, length_expand]
  exact total_within_le max (records bytes)

theorem storeRun_eq {size : ℕ} {value : UInt16} : ∀ {n pos : ℕ} {m : ℕ → UInt16}, pos + n ≤ size →
    storeRun size value n pos m = some (copyTo m pos (List.replicate n value))
  | 0, pos, m, _ => by rw [storeRun, List.replicate_zero, copyTo_nil]
  | n + 1, pos, m, h => by
    have happend : copyTo (copyTo m pos [value]) (pos + 1) (List.replicate n value) =
        copyTo m pos ([value] ++ List.replicate n value) := copyTo_append m _
    rw [storeRun, if_pos (by omega), storeRun_eq (by omega), happend]
    rfl

theorem image_cons (max : ℕ) (b0 b1 b2 b3 : UInt8) (rest : List UInt8) :
    image max (b0 :: b1 :: b2 :: b3 :: rest) = if (unsignedShort b0 b1).toNat ≤ max then
      List.replicate (unsignedShort b0 b1).toNat (unsignedShort b2 b3) ++
        image (max - (unsignedShort b0 b1).toNat) rest
    else [] := by
  rw [image, records, within_cons]
  split_ifs
  · rfl
  · rfl

/-- **The loop over the records** writes the image of what it sees. -/
theorem rleLoop_eq {size : ℕ} : ∀ {data : List UInt8} {max pos : ℕ} {m : ℕ → UInt16},
    pos + max ≤ size →
    rleLoop size data data.length max pos m = some (copyTo m pos (image max data))
  | b0 :: b1 :: b2 :: b3 :: ptr, max, pos, m, h => by
    rw [rleLoop, if_pos (by simp), image_cons]
    by_cases hle : (unsignedShort b0 b1).toNat ≤ max
    · rw [if_neg (Nat.not_lt.mpr hle), if_pos hle, storeRun_eq (by omega), Option.bind_some]
      have happend := copyTo_append m (a := pos)
        (l := List.replicate (unsignedShort b0 b1).toNat (unsignedShort b2 b3))
        (image (max - (unsignedShort b0 b1).toNat) ptr)
      rw [List.length_replicate] at happend
      rw [← happend]
      exact rleLoop_eq (by omega)
    · rw [if_pos (Nat.not_le.mp hle), if_neg hle, copyTo_nil]
  | [], max, pos, m, _ => by simp [rleLoop, image, records, within_nil]
  | [b0], max, pos, m, _ => by simp [rleLoop, image, records, within_nil]
  | [b0, b1], max, pos, m, _ => by simp [rleLoop, image, records, within_nil]
  | [b0, b1, b2], max, pos, m, _ => by simp [rleLoop, image, records, within_nil]

theorem records_short : ∀ {bytes : List UInt8}, bytes.length < 4 → records bytes = []
  | [], _ => rfl
  | [_], _ => rfl
  | [_, _], _ => rfl
  | [_, _, _], _ => rfl
  | _ :: _ :: _ :: _ :: rest, h => by
    simp only [List.length_cons] at h
    omega

/-- Part of a file has the first of its records. -/
theorem records_take (bytes : List UInt8) (n : ℕ) :
    records (bytes.take n) = (records bytes).take (n / 4) := by
  induction bytes using records.induct generalizing n with
  | case1 b0 b1 b2 b3 rest ih =>
    by_cases hn : n < 4
    · have hshort : ((b0 :: b1 :: b2 :: b3 :: rest).take n).length < 4 :=
        lt_of_le_of_lt (List.length_take_le n _) hn
      rw [records_short hshort, Nat.div_eq_of_lt hn, List.take_zero]
    · obtain ⟨k, rfl⟩ : ∃ k, n = k + 4 := ⟨n - 4, by omega⟩
      have hdiv : (k + 4) / 4 = k / 4 + 1 := by omega
      have htake : (b0 :: b1 :: b2 :: b3 :: rest).take (k + 4) =
          b0 :: b1 :: b2 :: b3 :: rest.take k := rfl
      rw [htake, hdiv, records, records, List.take_succ_cons, ih k]
  | case2 bytes hne =>
    have hshort : bytes.length < 4 := by
      by_contra hlen
      obtain ⟨b0, b1, b2, b3, rest, rfl⟩ : ∃ b0 b1 b2 b3 rest, bytes =
        b0 :: b1 :: b2 :: b3 :: rest := by
        rcases bytes with _ | ⟨b0, _ | ⟨b1, _ | ⟨b2, _ | ⟨b3, rest⟩⟩⟩⟩
        · exact absurd (by simp) hlen
        · exact absurd (by simp) hlen
        · exact absurd (by simp) hlen
        · exact absurd (by simp) hlen
        · exact ⟨b0, b1, b2, b3, rest, rfl⟩
      exact hne b0 b1 b2 b3 rest rfl
    rw [records_short hshort, List.take_nil,
      records_short (lt_of_le_of_lt (List.length_take_le' n bytes) hshort)]

/-- What is seen of a file, and what is missing then. -/
theorem image_eq_append (max n : ℕ) (bytes : List UInt8) :
    image max bytes = image max (bytes.take n) ++
    expand ((within max (records bytes)).drop (n / 4)) := by
  rw [image, image, records_take, within_take, ← expand_append, List.take_append_drop]

/-! ## The two pages -/

/-- The memory with `e` in the first page, and a copy of the page behind it. -/
def withPages (pixels : ℕ) (e : List UInt16) (m : ℕ → UInt16) : ℕ → UInt16 :=
  copyTo (copyTo m 0 e) pixels (load (copyTo m 0 e) 0 pixels)

section WithPages

variable {pixels : ℕ} {e : List UInt16} (m : ℕ → UInt16)

theorem withPages_page0 (he : e.length ≤ pixels) :
    load (withPages pixels e m) 0 pixels = e ++ (load m 0 pixels).drop e.length := by
  rw [withPages, load_copyTo_of_disjoint _ (.inl (by omega)), load_copyTo_start m he]

theorem withPages_page1 :
    load (withPages pixels e m) pixels pixels = load (withPages pixels e m) 0 pixels := by
  have hpage : load (withPages pixels e m) 0 pixels = load (copyTo m 0 e) 0 pixels :=
    load_copyTo_of_disjoint _ (.inl (by omega))
  have hcopy := load_copyTo (copyTo m 0 e) (a := pixels) (l := load (copyTo m 0 e) 0 pixels)
  rw [length_load] at hcopy
  rw [hpage]
  exact hcopy

theorem withPages_of_le (he : e.length ≤ pixels) {x : ℕ} (hx : 2 * pixels ≤ x) :
    withPages pixels e m x = m x := by
  rw [withPages, copyTo_of_le _ (by rw [length_load]; omega), copyTo_of_le _ (by omega)]

end WithPages

theorem FB.two_mul_pixels_le {fb : FB} (h16 : fb.bitsPerPixel = 16) : 2 * fb.pixels ≤ fb.size := by
  have hline : 2 * (fb.lineLength / 2) ≤ fb.lineLength := Nat.mul_div_le fb.lineLength 2
  have hwidth : fb.fbWidth = fb.lineLength / 2 := by rw [FB.fbWidth, h16]
  calc 2 * fb.pixels = 2 * (fb.lineLength / 2) * fb.yres := by
        rw [FB.pixels, hwidth, FB.fbHeight, Nat.mul_assoc]
    _ ≤ fb.lineLength * fb.yres := Nat.mul_le_mul_right _ hline
    _ ≤ fb.size := fb.twoPages

/-- **`show_565rle`** on a file with a mapping. -/
theorem show565rle_eq (fb : FB) (h16 : fb.bitsPerPixel = 16) {bytes : List UInt8}
    (hmap : u32 bytes.length ≠ 0) :
    show565rle fb (.content bytes) = some (0, { fb with
      bits := withPages fb.pixels (image fb.pixels (bytes.take (u32 bytes.length))) fb.bits
      yresVirtual := u32 (fb.yres * 2)
      yoffset := if fb.yoffset ≠ 0 then 0 else fb.yres
      bitsPerPixel := 16 }) := by
  have hpages := fb.two_mul_pixels_le h16
  have hword := fb.word
  have hlen : (bytes.take (u32 bytes.length)).length = u32 bytes.length :=
    List.length_take_of_le (Nat.mod_le _ _)
  have hpixels : u32 (fb.fbWidth * fb.fbHeight) = fb.pixels :=
    Nat.mod_eq_of_lt (by rw [← FB.pixels]; omega)
  have hpage1 : u32 (fb.yres * fb.fbWidth) = fb.pixels := by
    rw [Nat.mul_comm]
    exact hpixels
  have hbytes : u32 (fb.pixels * 2) / 2 = fb.pixels := by
    rw [u32, Nat.mod_eq_of_lt (by omega)]
    omega
  have hloop : rleLoop fb.size (bytes.take (u32 bytes.length))
      (u32 bytes.length) fb.pixels 0 fb.bits =
        some (copyTo fb.bits 0 (image fb.pixels (bytes.take (u32 bytes.length)))) := by
    have hdecode := @rleLoop_eq fb.size (bytes.take (u32 bytes.length)) fb.pixels 0 fb.bits
      (by omega)
    rwa [hlen] at hdecode
  have hcopy : ∀ m, fb.memcpy fb.pixels fb.pixels m =
      some (copyTo m fb.pixels (load m 0 fb.pixels)) :=
    fun m => if_pos (by omega)
  rw [show565rle, if_neg hmap, showMapped, hpixels, hpage1, hbytes, hloop, Option.bind_some, hcopy,
    Option.map_some]
  rfl

/-! ## The image -/

/-- After `show_565rle` of a file the first page has the image and its old pixels behind it, the
second page is a copy of the first, and the rest of the memory is as it was. -/
def ShowsImage (fb : FB) (bytes : List UInt8) : Prop :=
  ∃ ret fb', show565rle fb (.content bytes) = some (ret, fb') ∧
    load fb'.bits 0 fb.pixels =
      image fb.pixels bytes ++ (load fb.bits 0 fb.pixels).drop (image fb.pixels bytes).length ∧
    load fb'.bits fb.pixels fb.pixels = load fb'.bits 0 fb.pixels ∧
    ∀ x, 2 * fb.pixels ≤ x → fb'.bits x = fb.bits x

/-- Nothing is missing in what is seen of the file. -/
theorem showsImage_of_image_eq (fb : FB) (h16 : fb.bitsPerPixel = 16) {bytes : List UInt8}
    (hmap : u32 bytes.length ≠ 0)
    (himage : image fb.pixels (bytes.take (u32 bytes.length)) = image fb.pixels bytes) :
    ShowsImage fb bytes := by
  have he := length_image_le fb.pixels bytes
  refine ⟨_, _, show565rle_eq fb h16 hmap, ?_, ?_, ?_⟩
  · rw [himage]
    exact withPages_page0 fb.bits he
  · exact withPages_page1 fb.bits
  · intro x hx
    rw [himage]
    exact withPages_of_le fb.bits he hx

theorem showsImage_of_small {fb : FB} (h16 : fb.bitsPerPixel = 16) {bytes : List UInt8}
    (hne : bytes ≠ []) (hsmall : bytes.length < 2 ^ 32) : ShowsImage fb bytes := by
  have hlen : u32 bytes.length = bytes.length := Nat.mod_eq_of_lt hsmall
  have hpos := List.length_pos_iff.mpr hne
  refine showsImage_of_image_eq fb h16 (by omega) ?_
  rw [hlen, List.take_length]

/-- A screen without pixels. -/
theorem showsImage_of_pixels_eq_zero (fb : FB) (h16 : fb.bitsPerPixel = 16) (hzero : fb.pixels = 0)
    (bytes : List UInt8) : ShowsImage fb bytes := by
  have hnil : ∀ data, image fb.pixels data = [] := fun data =>
    List.length_eq_zero_iff.mp (Nat.le_zero.mp (hzero ▸ length_image_le fb.pixels data))
  by_cases hmap : u32 bytes.length = 0
  · refine ⟨-1, fb, ?_, ?_, ?_, fun x _ => rfl⟩
    · rw [show565rle, if_pos hmap]
    · rw [hnil, hzero]
      rfl
    · rw [hzero]
  · exact showsImage_of_image_eq fb h16 hmap (by rw [hnil, hnil])

/-- The frame buffer with another memory. -/
def FB.withBits (fb : FB) (m : ℕ → UInt16) : FB := { fb with bits := m }

/-- Without a mapping the second page is no copy. -/
theorem not_showsImage_of_unmapped {fb : FB} {bytes : List UInt8} (hmap : u32 bytes.length = 0)
    (hpos : fb.pixels ≠ 0) : ∃ m, ¬ ShowsImage (fb.withBits m) bytes := by
  refine ⟨fun x => if x = 0 then 0 else 1, ?_⟩
  rintro ⟨ret, fb', hshow, -, hcopy, -⟩
  rw [show565rle, if_pos hmap, Option.some.injEq, Prod.mk.injEq] at hshow
  obtain ⟨-, rfl⟩ := hshow
  obtain ⟨n, hn⟩ := Nat.exists_eq_succ_of_ne_zero hpos
  have hpixels : (fb.withBits fun x => if x = 0 then 0 else 1).pixels = n + 1 := hn
  rw [hpixels] at hcopy
  simp [FB.withBits, load_succ] at hcopy

/-- A pixel of the image that is not seen is missing on a screen that has another one there. -/
theorem not_showsImage_of_missing {fb : FB} (h16 : fb.bitsPerPixel = 16) {bytes : List UInt8}
    (hmap : u32 bytes.length ≠ 0) {v : UInt16} {rest : List UInt16}
    (himage : image fb.pixels bytes = image fb.pixels (bytes.take (u32 bytes.length)) ++
    v :: rest) :
    ∃ m, ¬ ShowsImage (fb.withBits m) bytes := by
  refine ⟨fun _ => v + 1, ?_⟩
  rintro ⟨ret, fb', hshow, hpage, -, -⟩
  have hseen := length_image_le fb.pixels (bytes.take (u32 bytes.length))
  have hlen := length_image_le fb.pixels bytes
  rw [himage, List.length_append, List.length_cons] at hlen
  have heq := Option.some.inj
    ((show565rle_eq (fb.withBits fun _ => v + 1) h16 hmap).symm.trans hshow)
  rw [Prod.mk.injEq] at heq
  obtain ⟨-, rfl⟩ := heq
  -- behind what was seen, the page has the old pixel and should have `v`
  have hdrop : (load (fun _ => v + 1) 0 fb.pixels).drop
      (image fb.pixels (bytes.take (u32 bytes.length))).length =
        v :: rest ++ (load (fun _ => v + 1) 0 fb.pixels).drop (image fb.pixels bytes).length := by
    have hpage0 := (withPages_page0 (fun _ => v + 1) hseen).symm.trans hpage
    have himage' : image (fb.withBits fun _ => v + 1).pixels bytes =
        image fb.pixels (bytes.take (u32 bytes.length)) ++ v :: rest := himage
    rw [himage', List.append_assoc, List.append_cancel_left_eq, ← himage] at hpage0
    exact hpage0
  obtain ⟨n, hn⟩ : ∃ n, fb.pixels - (image fb.pixels (bytes.take (u32 bytes.length))).length =
    n + 1 :=
    ⟨fb.pixels - (image fb.pixels (bytes.take (u32 bytes.length))).length - 1, by omega⟩
  rw [load_drop, hn, load_succ, List.cons_append, List.cons.injEq] at hdrop
  exact absurd hdrop.1 (by simp)

/-- **The image is shown, whatever the screen had before, just if no pixel of it is in the part of
the file that is not seen.**  All of a file of less than `2 ^ 32` bytes is seen. -/
theorem showsImage_iff (fb : FB) (h16 : fb.bitsPerPixel = 16) (bytes : List UInt8) :
    (∀ m, ShowsImage (fb.withBits m) bytes) ↔ fb.pixels = 0 ∨ u32 bytes.length ≠ 0 ∧
      ∀ r ∈ (within fb.pixels (records bytes)).drop (u32 bytes.length / 4), r.1 = 0 := by
  have hsplit := image_eq_append fb.pixels (u32 bytes.length) bytes
  constructor
  · intro hall
    by_cases hzero : fb.pixels = 0
    · exact .inl hzero
    · by_cases hmap : u32 bytes.length = 0
      · obtain ⟨m, hm⟩ := not_showsImage_of_unmapped hmap hzero
        exact absurd (hall m) hm
      · refine .inr ⟨hmap, expand_eq_nil_iff.mp ?_⟩
        cases hrest : expand ((within fb.pixels (records bytes)).drop (u32 bytes.length / 4)) with
        | nil => rfl
        | cons v rest =>
          rw [hrest] at hsplit
          obtain ⟨m, hm⟩ := not_showsImage_of_missing h16 hmap hsplit
          exact absurd (hall m) hm
  · rintro (hzero | ⟨hmap, hcounts⟩) m
    · exact showsImage_of_pixels_eq_zero (fb.withBits m) h16 hzero bytes
    · refine showsImage_of_image_eq (fb.withBits m) h16 hmap ?_
      rw [expand_eq_nil_iff.mpr hcounts, List.append_nil] at hsplit
      exact hsplit.symm

/-- A screen of two pixels. -/
def twoPixels : FB where
  bits := fun _ => 7
  size := 4
  lineLength := 4
  yres := 1
  yresVirtual := 2
  yoffset := 0
  bitsPerPixel := 16
  word := by decide
  twoPages := by decide

theorem showsImage_iff_twoPixels :
    ShowsImage (twoPixels.withBits fun _ => 7) [1, 0, 1, 0, 1, 0, 2, 0] :=
  (showsImage_iff twoPixels rfl _).mpr (.inr ⟨by decide, by decide⟩) _

/-- Two runs of one pixel, in a file that is so long that only the first is seen. -/
def longFile : List UInt8 := [1, 0, 1, 0, 1, 0, 2, 0] ++ List.replicate (2 ^ 32 - 4) 0

theorem longFile_missing :
    longFile.length = 2 ^ 32 + 4 ∧ image twoPixels.pixels longFile = [1, 2] ∧
    (show565rle twoPixels (.content longFile)).map (fun r => load r.2.bits 0 4) = some
    [1, 7, 1, 7] ∧
    ¬ ShowsImage twoPixels longFile := by
  have hlen : longFile.length = 2 ^ 32 + 4 := by
    rw [longFile, List.length_append, List.length_replicate]
    rfl
  have hseen : u32 longFile.length = 4 := (congrArg u32 hlen).trans (by decide)
  have himage : image twoPixels.pixels longFile = [1, 2] := by
    have hsplit := image_eq_append twoPixels.pixels 8 longFile
    have hfirst : image twoPixels.pixels (longFile.take 8) = [1, 2] := by
      rw [longFile, List.take_append_of_le_length (by decide)]
      decide
    have hle := length_image_le twoPixels.pixels longFile
    rw [hsplit, hfirst, List.length_append] at hle
    have hnil : expand ((within twoPixels.pixels (records longFile)).drop (8 / 4)) = [] :=
      List.length_eq_zero_iff.mp (Nat.le_zero.mp (Nat.le_of_add_le_add_left hle))
    rw [hsplit, hfirst, hnil, List.append_nil]
  have hmap : u32 longFile.length ≠ 0 := by
    rw [hseen]
    decide
  have htake : longFile.take 4 = [1, 0, 1, 0] := rfl
  have hshow := show565rle_eq twoPixels rfl hmap
  rw [hseen, htake] at hshow
  refine ⟨hlen, himage, ?_, ?_⟩
  · rw [hshow]
    decide
  · rintro ⟨ret, fb', hr, hpage, -, -⟩
    rw [hshow, Option.some.injEq, Prod.mk.injEq] at hr
    obtain ⟨-, rfl⟩ := hr
    rw [himage] at hpage
    revert hpage
    decide

end Omap4.ChargeOnly
