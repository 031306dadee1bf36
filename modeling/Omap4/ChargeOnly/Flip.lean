import Omap4.Machine
import Omap4.ChargeOnly.Screen

/-!
# Omap4.ChargeOnly.Flip — the page that is drawn and the page that is seen (`screen_update`)

`screen_update` goes to the other page, copies the new image there, and makes the page visible if
the display is not blanked.  The page is changed in each call; the visible page only where
`FBIOPUT_VSCREENINFO` is called and works.  After an odd number of calls that did not get that far
the two are the same page, and the next image is copied over the one that is seen.

`History` counts these calls, from the calls alone.  `noTearing_iff` is a simulation between the
display and the history.
-/

namespace Omap4.ChargeOnly

open Memory

/-! ## The code -/

/-- A colour of 5 bits, and one of 6, as 8 bits. -/
def from5 (c : UInt32) : UInt32 := (c <<< 3) ||| (c >>> 2)

def from6 (c : UInt32) : UInt32 := (c <<< 2) ||| (c >>> 4)

/-- The pixel of `flip_32`, from 16 bits to 32. -/
def rgb32 (p : UInt16) : UInt32 :=
  ((0xFF : UInt32) <<< 24) ||| (from5 ((p.toUInt32 >>> 11) &&& 0x1F) <<< 16) |||
    (from6 ((p.toUInt32 >>> 5) &&& 0x3F) <<< 8) ||| from5 (p.toUInt32 &&& 0x1F)

/-- The two halves of the pixel, as they are in memory. -/
def rgbHalves (p : UInt16) : List UInt16 := [(rgb32 p).toUInt16, (rgb32 p >>> 16).toUInt16]

/-- `flip_32`: `count` pixels of `ptr`, from its pixel `i` on. -/
def flip32 (size : ℕ) (ptr : ℕ → UInt16) : ℕ → ℕ → ℕ → (ℕ → UInt16) → Option (ℕ → UInt16)
  | 0, _, _, m => some m
  | count + 1, i, pos, m =>
    if pos + 2 ≤ size then flip32 size ptr count (i + 1) (pos + 2)
      (copyTo m pos (rgbHalves (ptr i))) else none

/-- The frame buffer after `yres_virtual` and `yoffset` are set. -/
def FB.otherPage (fb : FB) : FB :=
  { fb with
    yresVirtual := u32 (fb.yres * 2)
    yoffset := if fb.yoffset ≠ 0 then 0 else fb.yres }

/-- The copy of `mem_surface` to the page at `yoffset`. -/
def FB.copySurface (fb : FB) (memSurface : ℕ → UInt16) : Option FB :=
  if fb.bitsPerPixel = 16 then
    if u32 (fb.yoffset * fb.fbWidth) + u32 (fb.lineLength * fb.yres) / 2 ≤ fb.size then
      some { fb with
        bits := copyTo fb.bits (u32 (fb.yoffset * fb.fbWidth))
          (load memSurface 0 (u32 (fb.lineLength * fb.yres) / 2)) }
    else none
  else
    (flip32 fb.size memSurface (u32 (fb.lineLength / (fb.bitsPerPixel / 8) * fb.yres)) 0
      (2 * u32 (fb.yoffset * fb.fbWidth)) fb.bits).map fun m => { fb with bits := m }

/-- The frame buffer, the variable `blank`, and the `yoffset` of the last `FBIOPUT_VSCREENINFO` that
worked. -/
structure Display where
  fb : FB
  blank : Bool
  visible : Option ℕ

/-- A call, with what `draw` leaves in `mem_surface`, and whether `FBIOPUT_VSCREENINFO` works.
Whether `FBIOBLANK` does makes no difference. -/
inductive Call
  | screenUpdate (memSurface : ℕ → UInt16) (putOk : Bool)
  | displayBlank
  | displayUnblank

def Display.screenUpdate (s : Display) (memSurface : ℕ → UInt16) (putOk : Bool) : Option Display :=
  (s.fb.otherPage.copySurface memSurface).map fun fb =>
    if s.blank = false ∧ putOk = true then { s with fb := fb, visible := some fb.yoffset }
      else { s with fb := fb }

def Display.step (s : Display) : Call → Option Display
  | .screenUpdate memSurface putOk => s.screenUpdate memSurface putOk
  | .displayBlank => some { s with blank := true }
  | .displayUnblank => some { s with blank := false }

/-- After `screen_init`. -/
def Display.init (fb : FB) : Display := ⟨fb, false, none⟩

/-! ## Pages -/

/-- A screen with pixels of 16 or 32 bits, and a whole number of them in a line. -/
structure FB.Regular (fb : FB) : Prop where
  depth : fb.bitsPerPixel = 16 ∨ fb.bitsPerPixel = 32
  whole : fb.bitsPerPixel / 8 ∣ fb.lineLength
  nonempty : 0 < fb.lineLength * fb.yres

/-- The two kinds of screens, with the number of pixels in a line. -/
theorem FB.Regular.line_cases {fb : FB} (h : fb.Regular) :
    fb.bitsPerPixel = 16 ∧ (∃ k, fb.lineLength = 2 * k) ∨ fb.bitsPerPixel = 32 ∧
    ∃ k, fb.lineLength = 4 * k := by
  have hwhole := h.whole
  rcases h.depth with h16 | h32
  · rw [h16] at hwhole
    exact .inl ⟨h16, hwhole⟩
  · rw [h32] at hwhole
    exact .inr ⟨h32, hwhole⟩

/-- The cells of the page at `off`. -/
def FB.InPage (fb : FB) (off x : ℕ) : Prop :=
  off * (fb.lineLength / 2) ≤ x ∧ x < (off + fb.yres) * (fb.lineLength / 2)

instance (fb : FB) (off x : ℕ) : Decidable (fb.InPage off x) :=
  inferInstanceAs (Decidable (_ ∧ _))

theorem flip32_eq {size : ℕ} {ptr : ℕ → UInt16} : ∀ {count i pos : ℕ} {m : ℕ → UInt16},
    pos + 2 * count ≤ size →
      flip32 size ptr count i pos m = some (copyTo m pos ((load ptr i count).flatMap rgbHalves))
  | 0, i, pos, m, _ => by rw [flip32, load_zero, List.flatMap_nil, copyTo_nil]
  | count + 1, i, pos, m, h => by
    have happend : copyTo (copyTo m pos (rgbHalves (ptr i))) (pos + 2)
        ((load ptr (i + 1) count).flatMap rgbHalves) =
          copyTo m pos (rgbHalves (ptr i) ++ (load ptr (i + 1) count).flatMap rgbHalves) :=
          copyTo_append m _
    rw [flip32, if_pos (by omega), flip32_eq (by omega), happend, load_succ, List.flatMap_cons]

/-- What is copied of `mem_surface`, as 16-bit cells. -/
def FB.cells (fb : FB) (memSurface : ℕ → UInt16) : List UInt16 :=
  if fb.bitsPerPixel = 16 then load memSurface 0 (fb.yres * (fb.lineLength / 2))
  else (load memSurface 0 (fb.yres * (fb.lineLength / 4))).flatMap rgbHalves

theorem length_flatMap_rgbHalves (l : List UInt16) :
    (l.flatMap rgbHalves).length = 2 * l.length := by
  induction l with
  | nil => rfl
  | cons p l ih =>
    rw [List.flatMap_cons, List.length_append, ih, List.length_cons, rgbHalves, List.length_cons,
      List.length_singleton]
    omega

theorem FB.length_cells {fb : FB} (h : fb.Regular) (memSurface : ℕ → UInt16) :
    (fb.cells memSurface).length = fb.yres * (fb.lineLength / 2) := by
  rcases h.line_cases with ⟨h16, -⟩ | ⟨h32, k, hk⟩
  · rw [FB.cells, if_pos h16, length_load]
  · have hquarter : fb.lineLength / 4 = k := by omega
    have hhalf : fb.lineLength / 2 = 2 * k := by omega
    rw [FB.cells, if_neg (by omega), length_flatMap_rgbHalves, length_load, hquarter, hhalf,
      Nat.mul_left_comm]

/-- **The copy goes to the page at `yoffset`**, all of it and nothing else. -/
theorem FB.copySurface_eq {fb : FB} (h : fb.Regular) (hoff : fb.yoffset = 0 ∨ fb.yoffset = fb.yres)
    (memSurface : ℕ → UInt16) : fb.copySurface memSurface = some { fb with
      bits := copyTo fb.bits (fb.yoffset * (fb.lineLength / 2)) (fb.cells memSurface) } := by
  have hpages := fb.twoPages
  have hword := fb.word
  have hstart : ∀ k, fb.yoffset * k ≤ fb.yres * k := by
    intro k
    refine Nat.mul_le_mul_right k ?_
    omega
  rcases h.line_cases with ⟨h16, k, hk⟩ | ⟨h32, k, hk⟩
  · have hwidth : fb.fbWidth = k := by
      rw [FB.fbWidth, h16]
      omega
    have hhalf : fb.lineLength / 2 = k := by omega
    have hpage : fb.lineLength * fb.yres = 2 * (fb.yres * k) := by
      rw [hk, Nat.mul_assoc, Nat.mul_comm k]
    have hle := hstart k
    have hbytes : u32 (2 * (fb.yres * k)) / 2 = fb.yres * k := by
      rw [u32, Nat.mod_eq_of_lt (by omega)]
      omega
    have hdst : u32 (fb.yoffset * k) = fb.yoffset * k := Nat.mod_eq_of_lt (by omega)
    rw [FB.copySurface, if_pos h16, hwidth, hpage, hbytes, hdst, if_pos (by omega), FB.cells,
      if_pos h16, hhalf]
  · have hwidth : fb.lineLength / (fb.bitsPerPixel / 8) = k := by
      rw [h32]
      omega
    have hquarter : fb.lineLength / 4 = k := by omega
    have hhalf : fb.lineLength / 2 = 2 * k := by omega
    have hpage : fb.lineLength * fb.yres = 4 * (fb.yres * k) := by
      rw [hk, Nat.mul_assoc, Nat.mul_comm k]
    have hle := hstart k
    have hcount : u32 (k * fb.yres) = fb.yres * k := by
      rw [Nat.mul_comm]
      exact Nat.mod_eq_of_lt (by omega)
    have hdst : u32 (fb.yoffset * k) = fb.yoffset * k := Nat.mod_eq_of_lt (by omega)
    rw [FB.copySurface, if_neg (by omega), FB.fbWidth, hwidth, hcount, hdst, flip32_eq (by omega),
      Option.map_some, FB.cells, if_neg (by omega), hquarter, hhalf, Nat.mul_left_comm]

/-- The offset of the page that is not at `off`. -/
def FB.other (fb : FB) (off : ℕ) : ℕ := if off ≠ 0 then 0 else fb.yres

theorem FB.other_cases (fb : FB) (off : ℕ) : fb.other off = 0 ∨ fb.other off = fb.yres := by
  unfold FB.other
  split_ifs
  · exact .inl rfl
  · exact .inr rfl

theorem FB.Regular.yres_pos {fb : FB} (h : fb.Regular) : 0 < fb.yres :=
  Nat.pos_of_mul_pos_left h.nonempty

theorem FB.Regular.half_pos {fb : FB} (h : fb.Regular) : 0 < fb.lineLength / 2 := by
  have hpos : 0 < fb.lineLength := Nat.pos_of_mul_pos_right h.nonempty
  rcases h.line_cases with ⟨-, k, hk⟩ | ⟨-, k, hk⟩
  · omega
  · omega

theorem FB.other_other {fb : FB} (h : fb.Regular) {off : ℕ} (hoff : off = 0 ∨ off = fb.yres) :
    fb.other (fb.other off) = off := by
  have hpos := h.yres_pos
  rcases hoff with rfl | rfl
  · simp [FB.other]
  · simp [FB.other, Nat.ne_of_gt hpos]

/-- The frame buffer after a copy to the other page. -/
def FB.updated (fb : FB) (memSurface : ℕ → UInt16) : FB :=
  { fb.otherPage with
    bits := copyTo fb.bits (fb.other fb.yoffset * (fb.lineLength / 2)) (fb.cells memSurface) }

/-- **`screen_update`** has no fault. -/
theorem Display.screenUpdate_eq {s : Display} (h : s.fb.Regular) (memSurface : ℕ → UInt16)
    (putOk : Bool) :
    s.screenUpdate memSurface putOk = some
      (if s.blank = false ∧ putOk = true then
        ⟨s.fb.updated memSurface, s.blank, some (s.fb.other s.fb.yoffset)⟩
      else ⟨s.fb.updated memSurface, s.blank, s.visible⟩) := by
  have hregular : s.fb.otherPage.Regular := ⟨h.depth, h.whole, h.nonempty⟩
  have hcopy := FB.copySurface_eq hregular (s.fb.other_cases s.fb.yoffset) memSurface
  rw [Display.screenUpdate, hcopy]
  rfl

/-- The copy changes nothing outside the page. -/
theorem FB.updated_bits_of_not_inPage {fb : FB} (h : fb.Regular) (memSurface : ℕ → UInt16) {x : ℕ}
    (hx : ¬ fb.InPage (fb.other fb.yoffset) x) : (fb.updated memSurface).bits x = fb.bits x := by
  have hlen := fb.length_cells h memSurface
  unfold FB.InPage at hx
  rw [Nat.add_mul] at hx
  show copyTo fb.bits _ _ x = fb.bits x
  unfold copyTo
  split_ifs with hge
  · rw [List.getElem?_eq_none (by omega), Option.getD_none]
  · rfl

/-- Some image has another first cell than `c`. -/
theorem FB.exists_cells_ne {fb : FB} (h : fb.Regular) (c : UInt16) :
    ∃ memSurface p rest, fb.cells memSurface = p :: rest ∧ p ≠ c := by
  have hyres := h.yres_pos
  rcases h.line_cases with ⟨h16, -⟩ | ⟨h32, k, hk⟩
  · obtain ⟨n, hn⟩ := Nat.exists_eq_add_one.mpr (Nat.mul_pos hyres h.half_pos)
    refine ⟨fun _ => c + 1, c + 1, load (fun _ => c + 1) 1 n, ?_, by simp⟩
    rw [FB.cells, if_pos h16, hn, load_succ]
  · have hquarter : 0 < fb.lineLength / 4 := by
      have hpos : 0 < fb.lineLength := Nat.pos_of_mul_pos_right h.nonempty
      omega
    obtain ⟨n, hn⟩ := Nat.exists_eq_add_one.mpr (Nat.mul_pos hyres hquarter)
    have hcells : ∀ p, fb.cells (fun _ => p) = (rgb32 p).toUInt16 :: ((rgb32 p >>> 16).toUInt16 ::
        (load (fun _ => p) 1 n).flatMap rgbHalves) := by
      intro p
      rw [FB.cells, if_neg (by omega), hn, load_succ, List.flatMap_cons]
      rfl
    by_cases hc : (rgb32 0).toUInt16 = c
    · refine ⟨fun _ => 0xFFFF, _, _, hcells 0xFFFF, ?_⟩
      rw [← hc]
      decide
    · exact ⟨fun _ => 0, _, _, hcells 0, hc⟩

/-- Some image changes the first cell of the page. -/
theorem FB.exists_updated_ne {fb : FB} (h : fb.Regular) :
    ∃ memSurface, (fb.updated memSurface).bits (fb.other fb.yoffset * (fb.lineLength / 2)) ≠
      fb.bits (fb.other fb.yoffset * (fb.lineLength / 2)) := by
  obtain ⟨memSurface, p, rest, hcells, hne⟩ :=
    fb.exists_cells_ne h (fb.bits (fb.other fb.yoffset * (fb.lineLength / 2)))
  have hfirst : (fb.updated memSurface).bits (fb.other fb.yoffset * (fb.lineLength / 2)) = p := by
    show copyTo fb.bits _ _ _ = p
    rw [hcells, copyTo, if_pos (Nat.le_refl _), Nat.sub_self]
    rfl
  exact ⟨memSurface, hfirst ▸ hne⟩

/-- The first cell of a page is not in the other page. -/
theorem FB.not_inPage_other {fb : FB} (h : fb.Regular) {off : ℕ} (hoff : off = 0 ∨ off = fb.yres) :
    ¬ fb.InPage (fb.other off) (off * (fb.lineLength / 2)) := by
  have hpage : 0 < fb.yres * (fb.lineLength / 2) := Nat.mul_pos h.yres_pos h.half_pos
  have hpos := h.yres_pos
  unfold FB.InPage FB.other
  rcases hoff with rfl | rfl
  · rw [if_neg (by omega)]
    omega
  · rw [if_pos (by omega), Nat.zero_add]
    omega

/-! ## Tearing -/

/-- Whatever is drawn, the call of `screen_update` changes only the page that is not the visible
one. -/
def Display.CopiesHidden (s : Display) : Prop :=
  ∀ memSurface putOk s', s.screenUpdate memSurface putOk = some s' → ∀ off, s.visible = some off →
    ∀ x, ¬ s.fb.InPage (s.fb.other off) x → s'.fb.bits x = s.fb.bits x

/-- An image that is drawn while the display is not blanked is drawn where it is not seen. -/
def Display.NoTearing (s : Display) : Call → Prop
  | .screenUpdate _ _ => s.blank = false → s.CopiesHidden
  | _ => True

/-- What the calls say: whether the display is blanked, and the number of calls of `screen_update`
since the last one that made its page visible. -/
structure History where
  blank : Bool
  hidden : Option ℕ
  deriving DecidableEq, Repr

def History.next (h : History) : Call → History
  | .screenUpdate _ putOk =>
    if h.blank = false ∧ putOk = true then { h with hidden := some 0 }
    else { h with hidden := h.hidden.map (· + 1) }
  | .displayBlank => { h with blank := true }
  | .displayUnblank => { h with blank := false }

/-- Before a call of `screen_update` while the display is not blanked, an even number of them was
not seen. -/
def History.EvenHidden (h : History) : Call → Prop
  | .screenUpdate _ _ => h.blank = false → ∀ n, h.hidden = some n → n % 2 = 0
  | _ => True

/-- The page follows the parity. -/
structure Tracks (s : Display) (h : History) : Prop where
  regular : s.fb.Regular
  blank : s.blank = h.blank
  unseen : h.hidden = none → s.visible = none
  seen : ∀ n, h.hidden = some n → ∃ off, s.visible = some off ∧ (off = 0 ∨ off = s.fb.yres) ∧
    s.fb.yoffset = if n % 2 = 0 then off else s.fb.other off

theorem Tracks.copiesHidden_iff {s : Display} {h : History} (ht : Tracks s h) :
    s.CopiesHidden ↔ ∀ n, h.hidden = some n → n % 2 = 0 := by
  constructor
  · intro hcopies n hn
    obtain ⟨off, hvisible, hoff, hyoffset⟩ := ht.seen n hn
    by_contra hodd
    -- the other page of the other page is the visible one
    rw [if_neg hodd] at hyoffset
    have hpage : s.fb.other s.fb.yoffset = off := by rw [hyoffset, FB.other_other ht.regular hoff]
    obtain ⟨memSurface, hne⟩ := s.fb.exists_updated_ne ht.regular
    rw [hpage] at hne
    have hsame := hcopies memSurface false _ (Display.screenUpdate_eq ht.regular memSurface false)
      off hvisible _ (FB.not_inPage_other ht.regular hoff)
    rw [if_neg (by simp)] at hsame
    exact hne hsame
  · intro heven memSurface putOk s' hs' off hoff x hx
    cases hhidden : h.hidden with
    | none =>
      rw [ht.unseen hhidden] at hoff
      cases hoff
    | some n =>
      obtain ⟨off', hvisible, -, hyoffset⟩ := ht.seen n hhidden
      obtain rfl : off' = off := Option.some.inj (hvisible.symm.trans hoff)
      rw [if_pos (heven n hhidden)] at hyoffset
      rw [← hyoffset] at hx
      have hbits := FB.updated_bits_of_not_inPage ht.regular memSurface hx
      rw [Display.screenUpdate_eq ht.regular, Option.some.injEq] at hs'
      subst hs'
      split_ifs <;> exact hbits

/-- One more call that is not seen goes on to the other page. -/
theorem Tracks.screenUpdate {s : Display} {h : History} (ht : Tracks s h) (memSurface : ℕ → UInt16)
    (putOk : Bool) : ∃ s', s.screenUpdate memSurface putOk = some s' ∧
      Tracks s' (h.next (.screenUpdate memSurface putOk)) := by
  have hregular : (s.fb.updated memSurface).Regular :=
    ⟨ht.regular.depth, ht.regular.whole, ht.regular.nonempty⟩
  refine ⟨_, Display.screenUpdate_eq ht.regular memSurface putOk, ?_⟩
  rw [ht.blank, History.next]
  split_ifs with hput
  · refine ⟨hregular, rfl, fun hnone => ?_, fun n hn => ?_⟩
    · cases hnone
    · obtain rfl : 0 = n := Option.some.inj hn
      exact ⟨s.fb.other s.fb.yoffset, rfl, s.fb.other_cases _, rfl⟩
  · refine ⟨hregular, rfl, fun hnone => ht.unseen (by simpa using hnone), fun n hn => ?_⟩
    obtain ⟨k, hk, rfl⟩ : ∃ k, h.hidden = some k ∧ k + 1 = n := by simpa using hn
    obtain ⟨off, hvisible, hoff, hyoffset⟩ := ht.seen k hk
    refine ⟨off, hvisible, hoff, ?_⟩
    show s.fb.other s.fb.yoffset = if (k + 1) % 2 = 0 then off else s.fb.other off
    rw [hyoffset]
    by_cases heven : k % 2 = 0
    · rw [if_pos heven, if_neg (by omega)]
    · rw [if_neg heven, if_pos (by omega), FB.other_other ht.regular hoff]

theorem Tracks.step {s : Display} {h : History} (ht : Tracks s h) (c : Call) :
    ∃ s', s.step c = some s' ∧ Tracks s' (h.next c) := by
  cases c with
  | screenUpdate memSurface putOk => exact ht.screenUpdate memSurface putOk
  | displayBlank => exact ⟨_, rfl, ht.regular, rfl, ht.unseen, ht.seen⟩
  | displayUnblank => exact ⟨_, rfl, ht.regular, rfl, ht.unseen, ht.seen⟩

theorem Tracks.noTearing_iff_evenHidden {s : Display} {h : History} (ht : Tracks s h) (c : Call) :
    s.NoTearing c ↔ h.EvenHidden c := by
  cases c with
  | screenUpdate memSurface putOk =>
    rw [Display.NoTearing, History.EvenHidden, ht.blank, ht.copiesHidden_iff]
  | displayBlank => exact Iff.rfl
  | displayUnblank => exact Iff.rfl

/-- **No image is drawn where it is seen, in a run from the start, just if each call of
`screen_update` while the display is not blanked comes after an even number of calls that were not
seen** since the last one that was. -/
theorem noTearing_iff {fb : FB} (h : fb.Regular) (calls : List Call) :
    Machine.Along Display.step Display.NoTearing (Display.init fb) calls ↔
      Machine.Along (fun h c => some (History.next h c)) History.EvenHidden
      ⟨false, none⟩ calls := by
  have hinit : Tracks (Display.init fb) ⟨false, none⟩ := by
    refine ⟨h, rfl, fun _ => rfl, fun n hn => ?_⟩
    cases hn
  refine Machine.along_iff_of_rel (fun s t c ht => ht.noTearing_iff_evenHidden c)
    (fun s t c ht => ?_) calls hinit
  obtain ⟨s', hs', ht'⟩ := ht.step c
  exact ⟨s', t.next c, hs', rfl, ht'⟩

theorem twoPixels_regular : twoPixels.Regular := ⟨.inl rfl, by decide, by decide⟩

/-- Two images one after the other. -/
theorem noTearing_iff_twoPixels :
    Machine.Along Display.step Display.NoTearing (Display.init twoPixels)
    [.screenUpdate (fun _ => 1) true, .screenUpdate (fun _ => 2) true] := by
  refine (noTearing_iff twoPixels_regular _).mpr ⟨fun _ n hn => ?_, ?_⟩
  · cases hn
  · rintro s' hs'
    obtain rfl := Option.some.inj hs'
    refine ⟨fun _ n hn => ?_, fun _ _ => trivial⟩
    obtain rfl : 0 = n := Option.some.inj hn
    rfl

/-- An image, one while the display is blanked, and a third. -/
def blankedOnce : List Call :=
  [.screenUpdate (fun _ => 1) true, .displayBlank, .screenUpdate (fun _ => 2) true, .displayUnblank]

/-- The page at 1 is visible, and the third image is copied to it. -/
theorem blankedOnce_tears :
    ((Machine.exec Display.step (Display.init twoPixels) blankedOnce).map fun s =>
      (s.blank, s.visible, load s.fb.bits 0 4)) = some (false, some 1, [2, 2, 1, 1]) ∧
    ((Machine.exec Display.step (Display.init twoPixels) (blankedOnce ++ [.screenUpdate (fun _ => 3) true])).map
      fun s => load s.fb.bits 0 4) = some [2, 2, 3, 3] ∧
    ¬ Machine.Along Display.step Display.NoTearing (Display.init twoPixels)
      (blankedOnce ++ [.screenUpdate (fun _ => 3) true]) := by
  refine ⟨by decide, by decide, ?_⟩
  rintro ⟨-, h⟩
  obtain ⟨-, h⟩ := h _ rfl
  obtain ⟨-, h⟩ := h _ rfl
  obtain ⟨-, h⟩ := h _ rfl
  obtain ⟨htear, -⟩ := h _ rfl
  have hsame := htear rfl (fun _ => 3) true _ rfl 1 rfl 2 (by decide)
  revert hsame
  decide

end Omap4.ChargeOnly
