import Mathlib.Data.List.Basic
import Mathlib.Data.List.TakeWhile

/-!
# Omap4.Tokens — `strtok` and the tokens of a text

The tokens of a text are its pieces between delimiters, without the empty ones.  `strtok` takes the
first of them off (`tokens_of_strtok`).  A text that is cut has the tokens of the whole, but the
last may be a beginning only (`tokens_cut`).
-/

namespace Omap4.Tokens

variable {α : Type}

/-- `strtok`: the first token, and the text behind the delimiter that ends it. -/
def strtok (delim : α → Bool) (s : List α) : Option (List α × List α) :=
  match s.dropWhile delim with
  | [] => none
  | c :: t => some ((c :: t).takeWhile (!delim ·), ((c :: t).dropWhile (!delim ·)).tail)

def tokens (delim : α → Bool) (s : List α) : List (List α) := (s.splitOnP delim).filter (!·.isEmpty)

section

variable {delim : α → Bool} {s w : List α}

@[simp] theorem tokens_nil : tokens delim [] = [] := rfl

/-- A delimiter separates. -/
theorem tokens_append_cons (w : List α) {d : α} (hd : delim d = true) (s : List α) :
    tokens delim (w ++ d :: s) = tokens delim w ++ tokens delim s := by
  rw [tokens, List.splitOnP_append_cons w s hd, List.filter_append]
  rfl

theorem tokens_cons {d : α} (hd : delim d = true) (s : List α) :
    tokens delim (d :: s) = tokens delim s :=
  tokens_append_cons [] hd s

theorem tokens_word (hne : w ≠ []) (hw : ∀ c ∈ w, delim c = false) : tokens delim w = [w] := by
  rw [tokens, List.splitOnP_eq_singleton hw]
  exact List.filter_cons_of_pos (by simpa using hne)

/-- Delimiters at the front are passed over. -/
theorem tokens_delims_append {ds : List α} (hds : ∀ c ∈ ds, delim c = true) (s : List α) :
    tokens delim (ds ++ s) = tokens delim s := by
  induction ds with
  | nil => rfl
  | cons d ds ih =>
    rw [List.cons_append, tokens_cons (hds d List.mem_cons_self)]
    apply ih
    intro c hc
    exact hds c (List.mem_cons_of_mem d hc)

theorem tokens_dropWhile (s : List α) : tokens delim (s.dropWhile delim) = tokens delim s := by
  have hfront : ∀ c ∈ s.takeWhile delim, delim c = true := by
    intro c hc
    exact List.mem_takeWhile_imp hc
  rw [← tokens_delims_append hfront, List.takeWhile_append_dropWhile]

/-- A token with delimiters behind it. -/
theorem tokens_word_append (hne : w ≠ []) (hw : ∀ c ∈ w, delim c = false) {ds : List α}
    (hds : ∀ c ∈ ds, delim c = true) : tokens delim (w ++ ds) = [w] := by
  cases ds with
  | nil => rw [List.append_nil, tokens_word hne hw]
  | cons d ds =>
    have hrest : tokens delim ds = [] := by
      rw [← List.append_nil ds, tokens_delims_append, tokens_nil]
      intro c hc
      exact hds c (List.mem_cons_of_mem d hc)
    rw [tokens_append_cons w (hds d List.mem_cons_self), tokens_word hne hw, hrest]
    rfl

theorem tokens_of_strtok_none (h : strtok delim s = none) : tokens delim s = [] := by
  unfold strtok at h
  split at h
  · next hnil => rw [← tokens_dropWhile, hnil, tokens_nil]
  · cases h

/-- A text that begins with a token: up to the delimiter behind it, and from there on. -/
theorem tokens_span {c : α} (hc : delim c = false) (t : List α) :
    tokens delim (c :: t) =
      (c :: t).takeWhile (!delim ·) :: tokens delim ((c :: t).dropWhile (!delim ·)).tail := by
  have hsplit : (c :: t).takeWhile (!delim ·) ++ (c :: t).dropWhile (!delim ·) = c :: t :=
    List.takeWhile_append_dropWhile
  have hword : ∀ x ∈ (c :: t).takeWhile (!delim ·), delim x = false := by
    intro x hx
    simpa using List.mem_takeWhile_imp hx
  have hne : (c :: t).takeWhile (!delim ·) ≠ [] := by
    rw [List.takeWhile_cons_of_pos (by simp [hc])]
    exact List.cons_ne_nil _ _
  cases hback : (c :: t).dropWhile (!delim ·) with
  | nil =>
    rw [hback, List.append_nil] at hsplit
    rw [List.tail_nil, tokens_nil, ← tokens_word hne hword, hsplit]
  | cons d u =>
    have hd : delim d = true := by
      have hhead := List.head_dropWhile_not (!delim ·) (l := c :: t)
        (by rw [hback]; exact List.cons_ne_nil d u)
      simpa [hback] using hhead
    rw [hback] at hsplit
    nth_rewrite 1 [← hsplit]
    rw [tokens_append_cons _ hd, tokens_word hne hword]
    rfl

/-- `strtok` returns the first token and goes on behind it. -/
theorem tokens_of_strtok {rest : List α} (h : strtok delim s = some (w, rest)) :
    tokens delim s = w :: tokens delim rest ∧ rest.length < s.length := by
  unfold strtok at h
  split at h
  · cases h
  next c t hdrop =>
    obtain ⟨rfl, rfl⟩ := Prod.mk.inj (Option.some.inj h)
    have hc : delim c = false := by
      have hhead := List.head_dropWhile_not delim (l := s)
        (by rw [hdrop]; exact List.cons_ne_nil c t)
      simpa [hdrop] using hhead
    have hdropped : (c :: t).length ≤ s.length := hdrop ▸ (List.dropWhile_suffix delim).length_le
    have hback : ((c :: t).dropWhile (!delim ·)).length ≤ (c :: t).length :=
      (List.dropWhile_suffix _).length_le
    refine ⟨?_, ?_⟩
    · rw [← tokens_dropWhile, hdrop, tokens_span hc]
    · rw [List.length_tail]
      rw [List.length_cons] at hdropped hback
      omega

/-! ## A text that is cut -/

/-- The pieces of a beginning of a text: all but the last are those of the text. -/
theorem splitOnP_of_append (delim : α → Bool) (a b : List α) :
    ∃ ps v u rest, a.splitOnP delim = ps ++ [v] ∧ (a ++ b).splitOnP delim = ps ++ u :: rest ∧
    v <+: u := by
  induction a with
  | nil =>
    obtain ⟨u, rest, hb⟩ := List.exists_cons_of_ne_nil (List.splitOnP_ne_nil delim b)
    exact ⟨[], [], u, rest, rfl, hb, List.nil_prefix⟩
  | cons c a ih =>
    obtain ⟨ps, v, u, rest, ha, hab, hv⟩ := ih
    rw [List.cons_append, List.splitOnP_cons_eq_if_modifyHead, List.splitOnP_cons_eq_if_modifyHead,
      ha, hab]
    split_ifs
    · exact ⟨[] :: ps, v, u, rest, rfl, rfl, hv⟩
    · cases ps with
      | nil => exact ⟨[], c :: v, c :: u, rest, rfl, rfl, List.cons_prefix_cons.mpr ⟨rfl, hv⟩⟩
      | cons q ps => exact ⟨(c :: q) :: ps, v, u, rest, rfl, rfl, hv⟩

/-- **A text that is cut**: each of its tokens is a beginning of the token of the whole at its
place. -/
theorem tokens_cut {a : List α} (h : a <+: s) {i : ℕ} {v : List α}
    (hv : (tokens delim a)[i]? = some v) :
    ∃ u, (tokens delim s)[i]? = some u ∧ v <+: u := by
  obtain ⟨b, rfl⟩ := h
  obtain ⟨ps, x, u, rest, ha, hab, hx⟩ := splitOnP_of_append delim a b
  rw [tokens, ha, List.filter_append, List.getElem?_append] at hv
  rw [tokens, hab, List.filter_append, List.getElem?_append]
  split_ifs at hv ⊢
  · exact ⟨v, hv, List.prefix_rfl⟩
  · cases x with
    | nil => cases hv
    | cons c x =>
      obtain ⟨y, rfl⟩ := hx
      rw [List.filter_cons_of_pos rfl, List.filter_nil] at hv
      rw [List.cons_append, List.filter_cons_of_pos rfl]
      cases hi : i - (ps.filter (!·.isEmpty)).length with
      | zero =>
        rw [hi] at hv
        obtain rfl : c :: x = v := Option.some.inj hv
        exact ⟨_, rfl, List.prefix_append (c :: x) y⟩
      | succ n =>
        rw [hi] at hv
        cases hv

end

end Omap4.Tokens
