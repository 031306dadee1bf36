import Mathlib.Algebra.Order.Ring.Nat
import Mathlib.Data.List.Induction
import Omap4.Memory

/-!
# Omap4.ChargeOnly.Anim — the frames of an animation (`load_anim_asset` in `draw.c`)

The frames of a transparent GIF are cut to what changes.  `load_anim_asset` unpacks each of them
into a canvas of the first frame's height, one row down, over transparent pixels, and takes over
from the frame before what is transparent then.  A write outside of a canvas is a fault, and so is a
read; there is no result.

`pixel_step` is one frame: its own pixel where it has one, and the pixel of the frame before
elsewhere. `loadAnimAsset_composites` says what the whole list makes of this.
-/

namespace Omap4.ChargeOnly.Anim

open Memory

/-! ## The code -/

/-- A `struct asset` of the animation before it is loaded, and what loading it meets. -/
structure Frame where
  w : ℕ
  h : ℕ
  /-- what `inflate` makes of `gz` -/
  pixels : List UInt16
  size : pixels.length = w * h
  /-- the memory that `malloc` returns, with any content, or `NULL` -/
  malloc : Option (ℕ → UInt16)
  /-- the three calls of `inflate` return 0 -/
  inflateOk : Bool

/-- A loaded asset; `canvas` is the number of pixels at `bits`. -/
structure Asset where
  w : ℕ
  h : ℕ
  bits : ℕ → UInt16
  canvas : ℕ

/-- The transparent pixel. -/
def transparent : UInt16 := 0xffff

/-- `memset(b, 0xff, n * 2)`. -/
def memsetFF (n : ℕ) (b : ℕ → UInt16) : ℕ → UInt16 := copyTo b 0 (List.replicate n transparent)

/-- `__load_asset`: the outer `none` is a fault, the inner one a result of -1. -/
def loadAsset (f : Frame) (canvasH y0 : ℕ) : Option (Option (ℕ → UInt16)) :=
  match f.malloc with
  | none => some none
  | some b =>
    if f.w * canvasH < y0 * f.w + f.w * f.h then none
    else if ¬ f.inflateOk then some none
    else some (some (copyTo (if canvasH ≠ f.h then memsetFF (f.w * canvasH) b else b) (y0 * f.w) f.pixels))

/-- The loop that patches transparent values, over the last `n` pixels from `i` on. -/
def patch (prev : Asset) (canvas : ℕ) : ℕ → ℕ → (ℕ → UInt16) → Option (ℕ → UInt16)
  | 0, _, bits => some bits
  | n + 1, i, bits =>
    if ¬ i < canvas then none
    else if bits i = transparent then
      if ¬ i < prev.canvas then none else patch prev canvas n (i + 1) (copyTo bits i [prev.bits i])
    else patch prev canvas n (i + 1) bits

/-- One round of the `while`: the canvas has the height of the first frame, the field `h` and the
bound of the loop are those of the frame before. -/
def loadFrame (h0 : ℕ) (prev : Asset) (f : Frame) : Option (Option Asset) :=
  (loadAsset f h0 1).bind fun r =>
    match r with
    | none => some none
    | some bits =>
      (patch prev (f.w * h0) (f.w * prev.h) 0 bits).map fun bits =>
        some ⟨f.w, prev.h, bits, f.w * h0⟩

/-- The `while` loop: the result, and the assets that were loaded. -/
def loadFrames (h0 : ℕ) : Asset → List Frame → Option (ℤ × List Asset)
  | _, [] => some (0, [])
  | prev, f :: fs =>
    (loadFrame h0 prev f).bind fun r =>
      match r with
      | none => some (-1, [])
      | some a => (loadFrames h0 a fs).map fun (ret, loaded) => (ret, a :: loaded)

/-- `load_anim_asset` of a list with the first frame `f0`. -/
def loadAnimAsset (f0 : Frame) (fs : List Frame) : Option (ℤ × List Asset) :=
  (loadAsset f0 f0.h 0).bind fun r =>
    match r with
    | none => some (-1, [])
    | some bits =>
      (loadFrames f0.h ⟨f0.w, f0.h, bits, f0.w * f0.h⟩ fs).map fun (ret, loaded) =>
        (ret, ⟨f0.w, f0.h, bits, f0.w * f0.h⟩ :: loaded)

/-! ## What the frames show -/

/-- The pixel of a frame at the position `i` of the canvas, if it has rows there. -/
def ownPixel (f : Frame) (y0 i : ℕ) : Option UInt16 :=
  if i < y0 * f.w then none else f.pixels[i - y0 * f.w]?

/-- A pixel that is there and not transparent. -/
def visible (p : Option UInt16) : Option UInt16 := p.filter (· ≠ transparent)

/-- The pixel `i` of frame `k`: that of the latest frame up to it with a visible pixel, or that of
the first. -/
def composite (f0 : Frame) (fs : List Frame) (k i : ℕ) : UInt16 :=
  (((ownPixel f0 0 i :: fs.map fun f => ownPixel f 1 i).take (k + 1)).reverse.findSome? visible).getD
    ((ownPixel f0 0 i).getD 0)

/-! ## One frame -/

theorem copyTo_apply {α : Type} (m : ℕ → α) (a : ℕ) (l : List α) (i : ℕ) :
    copyTo m a l i = (if i < a then none else l[i - a]?).getD (m i) := by
  unfold copyTo
  by_cases h : a ≤ i
  · rw [if_pos h, if_neg (Nat.not_lt.mpr h)]
  · rw [if_neg h, if_pos (Nat.lt_of_not_le h)]
    rfl

theorem memsetFF_of_lt {n i : ℕ} (h : i < n) (b : ℕ → UInt16) : memsetFF n b i = transparent := by
  rw [memsetFF, copyTo_apply, if_neg (Nat.not_lt_zero i), Nat.sub_zero,
    List.getElem?_replicate_of_lt h]
  rfl

theorem memsetFF_of_le {n i : ℕ} (h : n ≤ i) (b : ℕ → UInt16) : memsetFF n b i = b i :=
  copyTo_of_le b (by rw [List.length_replicate]; omega)

/-- The loop patches the pixels from `i` on and no others. -/
theorem patch_spec (prev : Asset) (canvas : ℕ) : ∀ {n i : ℕ} (bits : ℕ → UInt16), i + n ≤ canvas →
    i + n ≤ prev.canvas → ∃ out, patch prev canvas n i bits = some out ∧
      ∀ p, out p = if i ≤ p ∧ p < i + n ∧ bits p = transparent then prev.bits p else bits p
  | 0, i, bits, _, _ => by
    refine ⟨bits, rfl, fun p => ?_⟩
    rw [if_neg]
    omega
  | n + 1, i, bits, hc, hp => by
    have hic : ¬ ¬ i < canvas := by omega
    have hip : ¬ ¬ i < prev.canvas := by omega
    by_cases ht : bits i = transparent
    · obtain ⟨out, hrun, hout⟩ := patch_spec prev canvas (n := n) (i := i + 1)
        (copyTo bits i [prev.bits i]) (by omega) (by omega)
      refine ⟨out, by rw [patch, if_neg hic, if_pos ht, if_neg hip, hrun], fun p => ?_⟩
      rw [hout p, copyTo_singleton]
      by_cases hpi : p = i
      · rw [hpi, Function.update_self, if_neg (by omega), if_pos ⟨le_rfl, by omega, ht⟩]
      · rw [Function.update_of_ne hpi]
        refine if_congr ?_ rfl rfl
        rw [← and_assoc, ← and_assoc]
        exact and_congr_left' (by omega)
    · obtain ⟨out, hrun, hout⟩ :=
        patch_spec prev canvas (n := n) (i := i + 1) bits (by omega) (by omega)
      refine ⟨out, by rw [patch, if_neg hic, if_neg ht, hrun], fun p => ?_⟩
      rw [hout p]
      by_cases hpi : p = i
      · rw [hpi, if_neg (by omega), if_neg fun h => ht h.2.2]
      · refine if_congr ?_ rfl rfl
        rw [← and_assoc, ← and_assoc]
        exact and_congr_left' (by omega)

/-- `a` is the frame `f` in a canvas of `w * h0` pixels that shows `value`; the memory behind the
canvas is as `malloc` returned it. -/
structure Composed (w h0 : ℕ) (value : ℕ → UInt16) (f : Frame) (a : Asset) : Prop where
  width : a.w = w
  height : a.h = h0
  canvas : a.canvas = w * h0
  shown : ∀ p, p < w * h0 → a.bits p = value p
  beside : ∀ b, f.malloc = some b → ∀ p, w * h0 ≤ p → a.bits p = b p

/-- Where the image fits into the canvas, only `malloc` decides whether it is loaded. -/
theorem loadAsset_eq {f : Frame} {canvasH y0 : ℕ} (hfit : y0 * f.w + f.w * f.h ≤ f.w * canvasH)
    (hok : f.inflateOk = true) :
    loadAsset f canvasH y0 = some (f.malloc.map fun b =>
      copyTo (if canvasH ≠ f.h then memsetFF (f.w * canvasH) b else b) (y0 * f.w) f.pixels) := by
  unfold loadAsset
  cases f.malloc with
  | none => rfl
  | some b =>
    simp only [Option.map_some]
    rw [if_neg (Nat.not_lt.mpr hfit), if_neg (by simp [hok])]

theorem visible_getD (o : Option UInt16) (v : UInt16) :
    (visible o).getD v = if o.getD transparent = transparent then v else o.getD transparent := by
  cases o with
  | none => rfl
  | some x =>
    simp only [visible, Option.getD_some]
    by_cases hx : x = transparent
    · simp [Option.filter, hx]
    · simp [Option.filter, hx]

/-- **One frame**: its own pixel where it is visible, and the pixel of the frame before
elsewhere. -/
theorem pixel_step {w h0 : ℕ} {prev : Asset} {f : Frame} (hprev : prev.h = h0)
    (hcanvas : prev.canvas = w * h0) (hw : f.w = w) (hh : f.h < h0) (hok : f.inflateOk = true) :
    (f.malloc = none ∧ loadFrame h0 prev f = some none) ∨
      ∃ a, f.malloc ≠ none ∧ loadFrame h0 prev f = some (some a) ∧
        Composed w h0 (fun p => (visible (ownPixel f 1 p)).getD (prev.bits p)) f a := by
  have hrows : w * (f.h + 1) ≤ w * h0 := Nat.mul_le_mul_left w hh
  rw [Nat.mul_succ] at hrows
  have hfit : 1 * f.w + f.w * f.h ≤ f.w * h0 := by rw [hw]; omega
  have hload := loadAsset_eq hfit hok
  cases hmalloc : f.malloc with
  | none =>
    refine .inl ⟨rfl, ?_⟩
    rw [loadFrame, hload, hmalloc]
    rfl
  | some b =>
    rw [hmalloc, Option.map_some, if_pos (by omega : h0 ≠ f.h)] at hload
    obtain ⟨out, hrun, hout⟩ := patch_spec prev (f.w * h0) (n := f.w * prev.h) (i := 0)
      (copyTo (memsetFF (f.w * h0) b) (1 * f.w) f.pixels) (by rw [hprev]; omega)
      (by rw [hprev, hcanvas, hw]; omega)
    refine .inr ⟨⟨f.w, prev.h, out, f.w * h0⟩, by simp, ?_, hw, hprev, by rw [hw],
      fun p hp => ?_, ?_⟩
    · rw [loadFrame, hload, Option.bind_some]
      simp only [hrun, Option.map_some]
    · have hpixel : copyTo (memsetFF (f.w * h0) b) (1 * f.w) f.pixels p =
          (ownPixel f 1 p).getD transparent := by
        rw [copyTo_apply, memsetFF_of_lt (by rw [hw]; exact hp)]
        rfl
      show out p = _
      rw [hout p, hpixel, visible_getD]
      refine if_congr ?_ rfl rfl
      rw [hprev, hw]
      exact ⟨fun h => h.2.2, fun h => ⟨Nat.zero_le p, by omega, h⟩⟩
    · intro b' hb' p hp
      show out p = b' p
      have hpixel : copyTo (memsetFF (f.w * h0) b) (1 * f.w) f.pixels p = b p := by
        rw [copyTo_of_le _ (by rw [f.size, hw]; omega), memsetFF_of_le (by rw [hw]; exact hp)]
      rw [hout p, hpixel, if_neg, Option.some.inj (hmalloc.symm.trans hb')]
      rw [hprev, hw]
      omega

/-! ## The list of frames -/

/-- The pixel that frames leave of `v`, one after the other. -/
def shownThrough (p : ℕ) (v : UInt16) (fs : List Frame) : UInt16 :=
  fs.foldl (fun v f => (visible (ownPixel f 1 p)).getD v) v

/-- The loop over the frames behind one that has the height of the canvas. -/
theorem loadFrames_spec (w h0 : ℕ) : ∀ {fs : List Frame} (prev : Asset), prev.h = h0 →
    prev.canvas = w * h0 →
    (∀ f ∈ fs, f.w = w ∧ f.h < h0 ∧ f.inflateOk = true) →
    ∃ ret loaded, loadFrames h0 prev fs = some (ret, loaded) ∧
      (ret = 0 ↔ ∀ f ∈ fs, f.malloc ≠ none) ∧ (ret = 0 → loaded.length = fs.length) ∧
      ∀ k f a, fs[k]? = some f → loaded[k]? = some a →
        Composed w h0 (fun p => shownThrough p (prev.bits p) (fs.take (k + 1))) f a
  | [], prev, _, _, _ => by
    refine ⟨0, [], rfl, by simp, fun _ => rfl, fun k f a hf => ?_⟩
    cases hf
  | f :: fs, prev, hprev, hcanvas, hfs => by
    obtain ⟨hw, hh, hok⟩ := hfs f (by simp)
    rcases pixel_step hprev hcanvas hw hh hok with ⟨hnone, hrun⟩ | ⟨a, hsome, hrun, hstep⟩
    · refine ⟨-1, [], by rw [loadFrames, hrun]; rfl, ?_, fun hret => absurd hret (by decide),
        fun k g a _ ha => ?_⟩
      · exact iff_of_false (by decide) fun hall => hall f (by simp) hnone
      · cases ha
    · obtain ⟨ret, loaded, hrest, hret, hlen, hall⟩ :=
        loadFrames_spec w h0 a hstep.height hstep.canvas fun g hg =>
          hfs g (List.mem_cons_of_mem f hg)
      refine ⟨ret, a :: loaded, ?_, ?_, fun h => by rw [List.length_cons, hlen h, List.length_cons],
        ?_⟩
      · rw [loadFrames, hrun, Option.bind_some]
        simp only [hrest, Option.map_some]
      · rw [hret, List.forall_mem_cons, and_iff_right hsome]
      · intro k g b hg hb
        cases k with
        | zero =>
          obtain rfl : f = g := Option.some.inj hg
          obtain rfl : a = b := Option.some.inj hb
          exact hstep
        | succ k =>
          have hnext := hall k g b hg hb
          refine ⟨hnext.width, hnext.height, hnext.canvas, fun p hp => ?_, hnext.beside⟩
          rw [hnext.shown p hp, hstep.shown p hp]
          rfl

/-- The last frame that shows something decides. -/
theorem foldl_visible (l : List (Option UInt16)) (v : UInt16) :
    l.foldl (fun v o => (visible o).getD v) v = (l.reverse.findSome? visible).getD v := by
  induction l using List.reverseRecOn with
  | nil => rfl
  | append_singleton l o ih =>
    rw [List.foldl_append, List.reverse_append]
    show (visible o).getD _ = (([o] ++ l.reverse).findSome? visible).getD v
    rw [ih, List.singleton_append, List.findSome?_cons]
    cases visible o with
    | none => rfl
    | some x => rfl

theorem shownThrough_eq (f0 : Frame) (fs : List Frame) (k p : ℕ) {v : UInt16}
    (hv : ownPixel f0 0 p = some v) :
    shownThrough p v (fs.take k) = composite f0 fs k p := by
  have hfirst : (visible (some v)).getD v = v := by
    rw [visible_getD, Option.getD_some]
    split_ifs
    · rfl
    · rfl
  rw [composite, hv, List.take_succ_cons, ← foldl_visible, List.foldl_cons,
    Option.getD_some, hfirst, ← List.map_take, List.foldl_map]
  rfl

/-- What was loaded of the first frame is its own pixel everywhere. -/
theorem ownPixel_first (f : Frame) (b : ℕ → UInt16) {p : ℕ} (hp : p < f.w * f.h) :
    ownPixel f 0 p = some (copyTo b 0 f.pixels p) := by
  have hget : f.pixels[p]? = some (f.pixels.get ⟨p, by rw [f.size]; exact hp⟩) :=
    List.getElem?_eq_getElem _
  rw [copyTo_apply, ownPixel, Nat.zero_mul, if_neg (Nat.not_lt_zero p), Nat.sub_zero, hget]
  rfl

/-- **Compositing.**  For frames of one width of which the later ones are shorter than the first,
when `inflate` succeeds: no access leaves a canvas, the result is 0 unless some `malloc` fails, and
each frame that was loaded has the height of the first and shows at each position the latest visible
pixel up to it. -/
theorem loadAnimAsset_composites (f0 : Frame) (fs : List Frame) (hok : f0.inflateOk = true)
    (hfs : ∀ f ∈ fs, f.w = f0.w ∧ f.h < f0.h ∧ f.inflateOk = true) :
    ∃ ret loaded, loadAnimAsset f0 fs = some (ret, loaded) ∧
      (ret = 0 ↔ ∀ f ∈ f0 :: fs, f.malloc ≠ none) ∧ (ret = 0 → loaded.length = (f0 :: fs).length) ∧
      ∀ k f a, (f0 :: fs)[k]? = some f → loaded[k]? = some a →
        Composed f0.w f0.h (composite f0 fs k) f a := by
  have hload : loadAsset f0 f0.h 0 = some (f0.malloc.map fun b => copyTo b 0 f0.pixels) := by
    rw [loadAsset_eq (by omega) hok]
    simp
  cases hmalloc : f0.malloc with
  | none =>
    refine ⟨-1, [], by rw [loadAnimAsset, hload, hmalloc]; rfl, ?_,
      fun hret => absurd hret (by decide), ?_⟩
    · exact iff_of_false (by decide) fun hall => hall f0 (by simp) hmalloc
    · intro k f a _ ha
      cases ha
  | some b =>
    rw [hmalloc, Option.map_some] at hload
    obtain ⟨ret, loaded, hrest, hret, hlen, hall⟩ := loadFrames_spec f0.w f0.h
      ⟨f0.w, f0.h, copyTo b 0 f0.pixels, f0.w * f0.h⟩ rfl rfl hfs
    refine ⟨ret, ⟨f0.w, f0.h, copyTo b 0 f0.pixels, f0.w * f0.h⟩ :: loaded, ?_, ?_, fun h => ?_, ?_⟩
    · rw [loadAnimAsset, hload, Option.bind_some]
      simp only [hrest, Option.map_some]
    · rw [hret, List.forall_mem_cons, and_iff_right (by rw [hmalloc]; simp)]
    · rw [List.length_cons, hlen h, List.length_cons]
    · intro k f a hf ha
      cases k with
      | zero =>
        obtain rfl : f0 = f := Option.some.inj hf
        obtain rfl := Option.some.inj ha
        refine ⟨rfl, rfl, rfl, fun p hp => ?_, fun b' hb' p hp => ?_⟩
        · exact shownThrough_eq f0 fs 0 p (ownPixel_first f0 b hp)
        · rw [← Option.some.inj (hmalloc.symm.trans hb')]
          have hend : 0 + f0.pixels.length ≤ p := by rw [f0.size, Nat.zero_add]; exact hp
          exact copyTo_of_le b hend
      | succ k =>
        have hnext := hall k f a hf ha
        refine ⟨hnext.width, hnext.height, hnext.canvas, fun p hp => ?_, hnext.beside⟩
        rw [hnext.shown p hp]
        exact shownThrough_eq f0 fs (k + 1) p (ownPixel_first f0 b hp)

/-- A first frame of two rows and a second of one row, in canvases with zeros. -/
def onePixelWide (h : ℕ) (v : UInt16) : Frame :=
  ⟨1, h, List.replicate h v, by rw [List.length_replicate, Nat.one_mul], some fun _ => 0, true⟩

theorem composites_twoFrames :
    ∃ ret loaded, loadAnimAsset (onePixelWide 2 5) [onePixelWide 1 7] = some (ret, loaded) ∧
      (ret = 0 ↔ ∀ f ∈ [onePixelWide 2 5, onePixelWide 1 7], f.malloc ≠ none) ∧
      (ret = 0 → loaded.length = 2) ∧
      ∀ k f a, [onePixelWide 2 5, onePixelWide 1 7][k]? = some f → loaded[k]? = some a →
        Composed 1 2 (composite (onePixelWide 2 5) [onePixelWide 1 7] k) f a := by
  refine loadAnimAsset_composites (onePixelWide 2 5) [onePixelWide 1 7] rfl fun f hf => ?_
  rw [List.mem_singleton.mp hf]
  exact ⟨rfl, by decide, rfl⟩

end Omap4.ChargeOnly.Anim
