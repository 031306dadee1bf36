import Omap4.CString

/-!
# Omap4.Lines — the lines of a text file

`lines` are the non-empty lines.  Text that is appended behind a newline adds its own lines
(`lines_append`); behind an unfinished line its first line is joined to that one, and the file has a
line less than the two texts together (`length_lines_append`).
-/

namespace Omap4

def lines (s : List Char) : List CStr := (s.splitOnP (· = '\n')).filter (· ≠ [])

/-- There is no unfinished line at the end. -/
def endsLine (s : List Char) : Bool := s.getLast?.all (· = '\n')

/-- There is no line that goes on at the start. -/
def startsLine (s : List Char) : Bool := s.head?.all (· = '\n')

theorem lines_append_newline (c t : List Char) : lines (c ++ '\n' :: t) = lines c ++ lines t := by
  rw [lines, List.splitOnP_append_cons c t (by simp), List.filter_append]
  rfl

/-- **Text behind a finished line.** -/
theorem lines_append {c : List Char} (h : endsLine c = true) (t : List Char) :
    lines (c ++ t) = lines c ++ lines t := by
  obtain rfl | ⟨c, x, rfl⟩ := List.eq_nil_or_concat' c
  · rfl
  · obtain rfl : x = '\n' := by simpa [endsLine] using h
    rw [List.append_assoc, List.singleton_append, lines_append_newline, lines_append_newline]
    simp [lines]

theorem lines_newline (s : List Char) : lines ('\n' :: s) = lines s :=
  lines_append_newline [] s

/-- A character in front starts a line of its own, or goes to the first line. -/
theorem length_lines_cons {x : Char} (hx : x ≠ '\n') (s : List Char) :
    (lines (x :: s)).length = (lines s).length + if startsLine s then 1 else 0 := by
  obtain ⟨w, ws, hsplit⟩ := List.exists_cons_of_ne_nil (List.splitOnP_ne_nil (· = '\n') s)
  have hcons : (x :: s).splitOnP (· = '\n') = (x :: w) :: ws := by
    rw [List.splitOnP_cons_eq_if_modifyHead, if_neg (by simpa using hx), hsplit]
    rfl
  have hw : w = [] ↔ startsLine s = true := by
    cases s with
    | nil =>
      obtain ⟨rfl, -⟩ : [] = w ∧ [] = ws := by simpa using hsplit
      simp [startsLine]
    | cons y s =>
      rw [List.splitOnP_cons_eq_if_modifyHead] at hsplit
      split_ifs at hsplit with hy
      · obtain ⟨rfl, -⟩ := List.cons.inj hsplit
        simpa [startsLine] using hy
      · obtain ⟨v, vs, hv⟩ := List.exists_cons_of_ne_nil (List.splitOnP_ne_nil (· = '\n') s)
        rw [hv] at hsplit
        obtain ⟨rfl, -⟩ := List.cons.inj hsplit
        simpa [startsLine] using hy
  rw [lines, hcons, lines, hsplit]
  by_cases hnil : w = []
  · rw [if_pos (hw.mp hnil)]
    simp [hnil]
  · rw [if_neg fun h => hnil (hw.mpr h)]
    simp [hnil]

/-- **Text behind an unfinished line.** -/
theorem length_lines_append {c t : List Char} (hc : endsLine c = false)
    (ht : startsLine t = false) :
    (lines (c ++ t)).length + 1 = (lines c).length + (lines t).length := by
  induction c with
  | nil => cases hc
  | cons x c ih =>
    cases c with
    | nil =>
      have hx : x ≠ '\n' := by simpa [endsLine] using hc
      rw [List.singleton_append, length_lines_cons hx, length_lines_cons hx, if_neg (by simp [ht])]
      simp [lines, startsLine]
      omega
    | cons y c =>
      have hrest := ih (by simpa [endsLine] using hc)
      by_cases hx : x = '\n'
      · subst hx
        rw [List.cons_append, lines_newline, lines_newline]
        exact hrest
      · rw [List.cons_append, length_lines_cons hx, length_lines_cons hx]
        have hsame : startsLine (y :: c ++ t) = startsLine (y :: c) := rfl
        rw [hsame]
        omega

end Omap4
