import Mathlib.Data.Nat.Basic
import Mathlib.Algebra.Order.Ring.Nat
import Omap4.Memory

/-!
# Omap4.ChargeOnly.Blit — blending an image into the screen (`ai_blit` in `draw.c`)

An image is a plane of alpha values and one of intensities.  `ai_blit` walks through both and
through a rectangle of the buffer with three running pointers; behind each row the third skips what
the buffer has beside the rectangle.  A read outside of a plane and an access outside of the buffer
are faults, and there is no result.

The pixels are RGB565.  `aiBlit_blends`: nothing beside the rectangle changes, and every pixel
inside becomes the packing of its blended channels, none of which is too large for its bits.
-/

namespace Omap4.ChargeOnly

open Memory

/-! ## The code -/

/-- A `struct asset` whose `bits` are bytes. -/
structure Plane where
  w : ℕ
  h : ℕ
  bits : List UInt8
  size : bits.length = w * h
  deriving DecidableEq, Repr

/-- The pixel for an alpha value of 255. -/
def solidPixel (i : UInt8) : UInt16 :=
  UInt16.ofNat (((i.toNat >>> 3) <<< 11) ||| ((i.toNat >>> 2) <<< 5) ||| (i.toNat >>> 3))

/-- One channel: `(c * a + t * (255 - a)) / 255`. -/
def mix (c a t : ℕ) : ℕ := (c * a + t * (255 - a)) / 255

/-- The pixel for the other alpha values. -/
def mixedPixel (a i : UInt8) (t : UInt16) : UInt16 :=
  UInt16.ofNat ((mix (i.toNat >>> 3) a.toNat (t.toNat >>> 11) <<< 11) |||
    (mix (i.toNat >>> 2) a.toNat ((t.toNat >>> 5) &&& 0x3f) <<< 5) |||
      mix (i.toNat >>> 3) a.toNat (t.toNat &&& 0x1f))

/-- The body of the inner loop.  An alpha value of 0 does not touch the buffer. -/
def blendAt (size : ℕ) (a i : UInt8) (t : ℕ) (m : ℕ → UInt16) : Option (ℕ → UInt16) :=
  if a = 0 then some m
  else if ¬ t < size then none
  else if a = 255 then some (copyTo m t [solidPixel i])
  else some (copyTo m t [mixedPixel a i (m t)])

/-- The loop over a row of `n` pixels, with the pointers `a`, `i` and `t`. -/
def blitRow (size : ℕ) (alpha intensity : List UInt8) :
    ℕ → ℕ → ℕ → ℕ → (ℕ → UInt16) → Option (ℕ → UInt16)
  | 0, _, _, _, m => some m
  | n + 1, a, i, t, m =>
    match alpha[a]?, intensity[i]? with
    | some av, some iv =>
      (blendAt size av iv t m).bind (blitRow size alpha intensity n (a + 1) (i + 1) (t + 1))
    | _, _ => none

/-- The loop over the rows. -/
def blitRows (size fbWidth w : ℕ) (alpha intensity : List UInt8) :
    ℕ → ℕ → ℕ → ℕ → (ℕ → UInt16) → Option (ℕ → UInt16)
  | 0, _, _, _, m => some m
  | n + 1, a, i, t, m =>
    (blitRow size alpha intensity w a i t m).bind
      (blitRows size fbWidth w alpha intensity n (a + w) (i + w) (t + w + fbWidth - w))

/-- `ai_blit` with a buffer of `size` pixels in lines of `fbWidth`. -/
def aiBlit (fbWidth size : ℕ) (a i : Plane) (x y : ℕ) (buffer : ℕ → UInt16) : Option (ℕ → UInt16) :=
  blitRows size fbWidth i.w a.bits i.bits i.h 0 0 (fbWidth * y + x) buffer

/-! ## RGB565 -/

/-- Five bits of red, six of green and five of blue. -/
def rgb565 (r g b : ℕ) : UInt16 := UInt16.ofNat (r * 2048 + g * 32 + b)

def red (t : UInt16) : ℕ := t.toNat / 2048

def green (t : UInt16) : ℕ := t.toNat / 32 % 64

def blue (t : UInt16) : ℕ := t.toNat % 32

/-- The blended channels of an intensity `i` with the alpha value `a` over the pixel `t`. -/
def blend (a i : UInt8) (t : UInt16) : UInt16 :=
  rgb565 (mix (i.toNat / 8) a.toNat (red t)) (mix (i.toNat / 4) a.toNat (green t))
    (mix (i.toNat / 8) a.toNat (blue t))

theorem channels_lt (t : UInt16) : red t < 32 ∧ green t < 64 ∧ blue t < 32 := by
  have := t.toNat_lt
  unfold red green blue
  omega

theorem intensity_lt (i : UInt8) : i.toNat / 8 < 32 ∧ i.toNat / 4 < 64 := by
  have := i.toNat_lt
  omega

theorem rgb565_channels (t : UInt16) : rgb565 (red t) (green t) (blue t) = t := by
  have hsum : t.toNat / 2048 * 2048 + t.toNat / 32 % 64 * 32 + t.toNat % 32 = t.toNat := by omega
  rw [rgb565, red, green, blue, hsum, UInt16.ofNat_toNat]

/-- The channels of a pixel, none of which is too large for its bits. -/
def HasChannels (t : UInt16) (r g b : ℕ) : Prop :=
  r < 32 ∧ g < 64 ∧ b < 32 ∧ red t = r ∧ green t = g ∧ blue t = b

theorem hasChannels_rgb565 {r g b : ℕ} (hr : r < 32) (hg : g < 64) (hb : b < 32) :
    HasChannels (rgb565 r g b) r g b := by
  have hval : (rgb565 r g b).toNat = r * 2048 + g * 32 + b := by
    rw [rgb565, UInt16.toNat_ofNat']
    exact Nat.mod_eq_of_lt (by omega)
  simp only [HasChannels, red, green, blue, hval]
  omega

/-- The shifts and the `|` of the code. -/
theorem pack_eq {r g b : ℕ} (hg : g < 64) (hb : b < 32) :
    (r <<< 11) ||| (g <<< 5) ||| b = r * 2048 + g * 32 + b := by
  have hgreen : g <<< 5 = g * 32 := Nat.shiftLeft_eq g 5
  have hlow : g <<< 5 ||| b = g * 32 + b := by
    rw [← Nat.shiftLeft_add_eq_or_of_lt (by omega), hgreen]
  rw [Nat.or_assoc, hlow, ← Nat.shiftLeft_add_eq_or_of_lt (by omega), Nat.shiftLeft_eq]
  omega

/-- A mixture of two values is not above a bound of both. -/
theorem mix_lt {c a t n : ℕ} (ha : a ≤ 255) (hc : c < n) (ht : t < n) : mix c a t < n := by
  have hsource : c * a ≤ (n - 1) * a := Nat.mul_le_mul_right a (by omega)
  have htarget : t * (255 - a) ≤ (n - 1) * (255 - a) := Nat.mul_le_mul_right _ (by omega)
  have hsum : (n - 1) * a + (n - 1) * (255 - a) = (n - 1) * 255 := by
    rw [← Nat.mul_add]
    congr 1
    omega
  have hle : mix c a t ≤ n - 1 := Nat.div_le_of_le_mul (by omega)
  omega

theorem mix_zero (c t : ℕ) : mix c 0 t = t := by
  unfold mix
  omega

theorem mix_full (c t : ℕ) : mix c 255 t = c := by
  unfold mix
  omega

/-- The blended channels fit their bits. -/
theorem mix_channels_lt (a i : UInt8) (t : UInt16) :
    mix (i.toNat / 8) a.toNat (red t) < 32 ∧ mix (i.toNat / 4) a.toNat (green t) < 64 ∧
      mix (i.toNat / 8) a.toNat (blue t) < 32 := by
  have ha : a.toNat ≤ 255 := by
    have := a.toNat_lt
    omega
  obtain ⟨hi8, hi4⟩ := intensity_lt i
  obtain ⟨hr, hg, hb⟩ := channels_lt t
  exact ⟨mix_lt ha hi8 hr, mix_lt ha hi4 hg, mix_lt ha hi8 hb⟩

theorem mixedPixel_eq (a i : UInt8) (t : UInt16) : mixedPixel a i t = blend a i t := by
  obtain ⟨-, hg, hb⟩ := mix_channels_lt a i t
  have hgreen : (t.toNat >>> 5) &&& 0x3f = green t := by
    rw [Nat.shiftRight_eq_div_pow]
    exact Nat.and_two_pow_sub_one_eq_mod _ 6
  have hblue : t.toNat &&& 0x1f = blue t := Nat.and_two_pow_sub_one_eq_mod _ 5
  have hred : t.toNat >>> 11 = red t := Nat.shiftRight_eq_div_pow _ 11
  have hi3 : i.toNat >>> 3 = i.toNat / 8 := Nat.shiftRight_eq_div_pow _ 3
  have hi2 : i.toNat >>> 2 = i.toNat / 4 := Nat.shiftRight_eq_div_pow _ 2
  rw [mixedPixel, hgreen, hblue, hred, hi3, hi2, pack_eq hg hb]
  rfl

/-- The first shortcut. -/
theorem blend_zero (i : UInt8) (t : UInt16) : blend 0 i t = t := by
  have hzero : (0 : UInt8).toNat = 0 := rfl
  rw [blend, hzero, mix_zero, mix_zero, mix_zero, rgb565_channels]

/-- The second shortcut. -/
theorem solidPixel_eq (i : UInt8) (t : UInt16) : solidPixel i = blend 255 i t := by
  have hfull : (255 : UInt8).toNat = 255 := rfl
  obtain ⟨hi8, hi4⟩ := intensity_lt i
  have hi3 : i.toNat >>> 3 = i.toNat / 8 := Nat.shiftRight_eq_div_pow _ 3
  have hi2 : i.toNat >>> 2 = i.toNat / 4 := Nat.shiftRight_eq_div_pow _ 2
  rw [solidPixel, hi3, hi2, pack_eq hi4 hi8, blend, hfull, mix_full, mix_full, mix_full]
  rfl

/-! ## The loops -/

/-- With the three cases of the alpha value, one pixel is blended. -/
theorem blendAt_eq {size t : ℕ} (ht : t < size) (a i : UInt8) (m : ℕ → UInt16) :
    blendAt size a i t m = some (Function.update m t (blend a i (m t))) := by
  unfold blendAt
  by_cases hzero : a = 0
  · rw [if_pos hzero, hzero, blend_zero, Function.update_eq_self]
  · rw [if_neg hzero, if_neg (not_not.mpr ht)]
    by_cases hfull : a = 255
    · rw [if_pos hfull, hfull, solidPixel_eq i (m t), copyTo_singleton]
    · rw [if_neg hfull, mixedPixel_eq, copyTo_singleton]

/-- A read inside of a plane. -/
theorem getElem?_eq_getD {bits : List UInt8} {k : ℕ} (h : k < bits.length) :
    bits[k]? = some (bits.getD k 0) := by
  rw [List.getD_eq_getElem?_getD, List.getElem?_eq_getElem h]
  rfl

section

variable (size : ℕ) {fbWidth w : ℕ} (alpha intensity : List UInt8)

/-- A row: `n` pixels from `t` on are blended, and the others stay. -/
theorem blitRow_spec : ∀ {n a i t : ℕ} (m : ℕ → UInt16), a + n ≤ alpha.length →
    i + n ≤ intensity.length →
    t + n ≤ size → ∃ out, blitRow size alpha intensity n a i t m = some out ∧
      (∀ p, p < t ∨ t + n ≤ p → out p = m p) ∧
      ∀ col, col < n → out (t + col) = blend (alpha.getD (a + col) 0) (intensity.getD (i + col) 0)
        (m (t + col))
  | 0, a, i, t, m, _, _, _ =>
    ⟨m, rfl, fun _ _ => rfl, fun col hcol => absurd hcol (Nat.not_lt_zero col)⟩
  | n + 1, a, i, t, m, ha, hi, ht => by
    obtain ⟨out, hrun, hout, hin⟩ := blitRow_spec (n := n) (a := a + 1) (i := i + 1) (t := t + 1)
      (Function.update m t (blend (alpha.getD a 0) (intensity.getD i 0) (m t))) (by omega)
      (by omega) (by omega)
    refine ⟨out, ?_, fun p hp => ?_, fun col hcol => ?_⟩
    · have hav : alpha[a]? = some (alpha.getD a 0) := getElem?_eq_getD (by omega)
      have hiv : intensity[i]? = some (intensity.getD i 0) := getElem?_eq_getD (by omega)
      simp only [blitRow, hav, hiv, blendAt_eq (by omega : t < size)]
      exact hrun
    · rw [hout p (by omega), Function.update_of_ne (by omega)]
    · cases col with
      | zero =>
        rw [Nat.add_zero, hout t (by omega), Function.update_self, Nat.add_zero, Nat.add_zero]
      | succ col =>
        have hnext : ∀ k : ℕ, k + (col + 1) = k + 1 + col := fun k => by omega
        rw [hnext, hnext, hnext, hin col (by omega), Function.update_of_ne (by omega)]

/-- The rows: `w` pixels of `n` lines from `t` on are blended, and the others stay. -/
theorem blitRows_spec (hw : w ≤ fbWidth) :
    ∀ {n a i t : ℕ} (m : ℕ → UInt16), a + w * n ≤ alpha.length →
    i + w * n ≤ intensity.length → (∀ row, row < n → t + fbWidth * row + w ≤ size) →
    ∃ out, blitRows size fbWidth w alpha intensity n a i t m = some out ∧
      (∀ p, (∀ row col, row < n → col < w → p ≠ t + fbWidth * row + col) → out p = m p) ∧
      ∀ row col, row < n → col < w → out (t + fbWidth * row + col) =
        blend (alpha.getD (a + w * row + col) 0) (intensity.getD (i + w * row + col) 0)
          (m (t + fbWidth * row + col))
  | 0, a, i, t, m, _, _, _ =>
    ⟨m, rfl, fun _ _ => rfl, fun row col hrow => absurd hrow (Nat.not_lt_zero row)⟩
  | n + 1, a, i, t, m, ha, hi, ht => by
    rw [Nat.mul_succ] at ha hi
    obtain ⟨mid, hrow, hbeside, hblend⟩ :=
      blitRow_spec size alpha intensity (n := w) (a := a) (i := i) (t := t) m
      (by omega) (by omega) (ht 0 (by omega))
    have hnext : ∀ row, row < n → t + fbWidth + fbWidth * row + w ≤ size := by
      intro row hlt
      have := ht (row + 1) (by omega)
      rw [Nat.mul_succ] at this
      omega
    obtain ⟨out, hrows, hout, hin⟩ :=
      blitRows_spec hw (n := n) (a := a + w) (i := i + w) (t := t + fbWidth) mid
      (by omega) (by omega) hnext
    refine ⟨out, ?_, fun p hp => ?_, fun row col hlt hcol => ?_⟩
    · rw [blitRows, hrow, Option.bind_some, show t + w + fbWidth - w = t + fbWidth from by omega]
      exact hrows
    · have hfirst : p < t ∨ t + w ≤ p := by
        by_contra hcon
        exact hp 0 (p - t) (by omega) (by omega) (by omega)
      rw [hout p fun row col hlt hcol => ?_, hbeside p hfirst]
      have := hp (row + 1) col (by omega) hcol
      rw [Nat.mul_succ] at this
      omega
    · cases row with
      | zero =>
        -- the later rows begin behind this one
        have hkeep : out (t + col) = mid (t + col) := hout (t + col) fun r c _ _ => by omega
        rw [Nat.mul_zero, Nat.mul_zero, Nat.add_zero, Nat.add_zero, Nat.add_zero, hkeep,
          hblend col hcol]
      | succ row =>
        have hline : t + fbWidth * (row + 1) + col = t + fbWidth + fbWidth * row + col := by
          rw [Nat.mul_succ]
          omega
        have hplane : ∀ k, k + w * (row + 1) + col = k + w + w * row + col := by
          intro k
          rw [Nat.mul_succ]
          omega
        rw [hline, hplane, hplane, hin row col (by omega) hcol, hbeside _ (.inr (by omega))]

end

/-! ## The rectangle -/

/-- The pixel at a column and a row of a buffer with lines of `fbWidth`. -/
def pixelAt (fbWidth col row : ℕ) : ℕ := fbWidth * row + col

/-- `out` is `buffer` with the planes blended in at `x` and `y`. -/
structure Blended (fbWidth : ℕ) (a i : Plane) (x y : ℕ) (buffer out : ℕ → UInt16) : Prop where
  outside : ∀ p, (∀ col row, col < i.w → row < i.h → p ≠ pixelAt fbWidth (x + col) (y + row)) →
    out p = buffer p
  inside : ∀ col row, col < i.w → row < i.h → out (pixelAt fbWidth (x + col) (y + row)) =
    blend (a.bits.getD (pixelAt i.w col row) 0) (i.bits.getD (pixelAt i.w col row) 0)
      (buffer (pixelAt fbWidth (x + col) (y + row)))

/-- **Alpha blending.**  For planes of one size and a rectangle inside the buffer, `ai_blit`
finishes without a fault, leaves every pixel outside the rectangle alone and blends every pixel
inside, whatever its alpha value. The blended channels fit their 5, 6 and 5 bits, and the two
shortcuts give what the formula gives. -/
theorem aiBlit_blends (fbWidth fbHeight : ℕ) (a i : Plane) (x y : ℕ) (buffer : ℕ → UInt16)
    (hw : a.w = i.w) (hh : a.h = i.h) (hx : x + i.w ≤ fbWidth) (hy : y + i.h ≤ fbHeight) :
    (∃ out, aiBlit fbWidth (fbWidth * fbHeight) a i x y buffer = some out ∧
      Blended fbWidth a i x y buffer out) ∧
    (∀ av iv t, HasChannels (blend av iv t) (mix (iv.toNat / 8) av.toNat (red t))
      (mix (iv.toNat / 4) av.toNat (green t)) (mix (iv.toNat / 8) av.toNat (blue t))) ∧
    ∀ iv t, blend 0 iv t = t ∧ blend 255 iv t = solidPixel iv := by
  have hline : ∀ row, fbWidth * (y + row) = fbWidth * y + fbWidth * row :=
    fun row => Nat.mul_add fbWidth y row
  have hfits : ∀ row, row < i.h → fbWidth * y + x + fbWidth * row + i.w ≤ fbWidth * fbHeight := by
    intro row hrow
    have hlast : fbWidth * (y + row + 1) ≤ fbWidth * fbHeight := Nat.mul_le_mul_left _ (by omega)
    rw [Nat.mul_succ, hline] at hlast
    omega
  obtain ⟨out, hrun, hout, hin⟩ :=
    blitRows_spec (fbWidth * fbHeight) a.bits i.bits (by omega : i.w ≤ fbWidth)
    (n := i.h) (a := 0) (i := 0) (t := fbWidth * y + x) buffer (by rw [a.size, hw, hh]; omega)
      (by rw [i.size]; omega)
    hfits
  refine ⟨⟨out, hrun, ?_, ?_⟩, fun av iv t => ?_,
    fun iv t => ⟨blend_zero iv t, (solidPixel_eq iv t).symm⟩⟩
  · intro p hp
    refine hout p fun row col hrow hcol => ?_
    have := hp col row hcol hrow
    rw [pixelAt, hline] at this
    omega
  · intro col row hcol hrow
    have haddr : pixelAt fbWidth (x + col) (y + row) = fbWidth * y + x + fbWidth * row + col := by
      rw [pixelAt, hline]
      omega
    rw [haddr, hin row col hrow hcol, Nat.zero_add]
    rfl
  · obtain ⟨hr, hg, hb⟩ := mix_channels_lt av iv t
    exact hasChannels_rgb565 hr hg hb

/-- Alpha values of two rows and two columns, and a bright plane of the same size. -/
def halfAlpha : Plane := ⟨2, 2, [0, 128, 255, 64], rfl⟩

def bright : Plane := ⟨2, 2, [255, 255, 128, 200], rfl⟩

/-- The planes go to the lower right of three rows of three pixels: the two rows are three pixels
apart in the buffer and two in the planes. -/
theorem aiBlit_blends_twoRows :
    ∃ out, aiBlit 3 (3 * 3) halfAlpha bright 1 1 (fun p => UInt16.ofNat p) = some out ∧
      Blended 3 halfAlpha bright 1 1 (fun p => UInt16.ofNat p) out ∧
      (List.range 9).map out =
        [0, 1, 2, 3, 4, blend 128 255 5, 6, solidPixel 128, blend 64 200 8] := by
  obtain ⟨out, hrun, hout⟩ :=
    (aiBlit_blends 3 3 halfAlpha bright 1 1 (fun p => UInt16.ofNat p) rfl rfl
    (by decide) (by decide)).1
  refine ⟨out, hrun, hout, ?_⟩
  obtain rfl := Option.some.inj (hrun.symm.trans rfl)
  decide

end Omap4.ChargeOnly
