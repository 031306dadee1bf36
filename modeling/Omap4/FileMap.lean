import Mathlib.Logic.Function.Basic
import Mathlib.Tactic.SplitIfs

/-!
# Omap4.FileMap — a directory as a map from names to contents

`rename` moves an existing file, replacing the target; it fails on a missing source.  Each call also
has an outcome `ok`: with `ok = false` it fails and changes nothing.
-/

namespace Omap4

/-- The files of a directory, by name. -/
abbrev FileMap (π β : Type) := π → Option β

namespace FileMap

variable {π β : Type} [DecidableEq π]

def unlink (ok : Bool) (p : π) (fs : FileMap π β) : FileMap π β :=
  if ok then Function.update fs p none else fs

/-- `rename(p, q)`: whether it succeeds, and the directory afterwards. -/
def rename (ok : Bool) (p q : π) (fs : FileMap π β) : Bool × FileMap π β :=
  match ok, fs p with
  | true, some b => (true, Function.update (Function.update fs p none) q (some b))
  | _, _ => (false, fs)

/-- `rename` and, if it fails, `unlink` of the source. -/
def renameOrUnlink (okRename okUnlink : Bool) (p q : π) (fs : FileMap π β) : FileMap π β :=
  match rename okRename p q fs with
  | (true, fs) => fs
  | (false, fs) => unlink okUnlink p fs

variable {fs : FileMap π β} {p q x : π}

@[simp] theorem unlink_self : unlink true p fs p = none := by
  simp [unlink]

theorem unlink_of_ne (ok : Bool) (h : x ≠ p) : unlink ok p fs x = fs x := by
  unfold unlink
  split_ifs
  · exact Function.update_of_ne h _ _
  · rfl

/-- A source that exists is gone after a working rename. -/
theorem rename_source (h : p ≠ q) : (rename true p q fs).2 p = none := by
  unfold rename
  cases hp : fs p with
  | none => exact hp
  | some b => simp [Function.update_of_ne h]

/-- An absent target receives the source. -/
theorem rename_target (hq : fs q = none) : (rename true p q fs).2 q = fs p := by
  unfold rename
  cases hp : fs p with
  | none => exact hq
  | some b => simp

theorem rename_of_ne (ok : Bool) (hp : x ≠ p) (hq : x ≠ q) : (rename ok p q fs).2 x = fs x := by
  unfold rename
  cases ok <;> cases h : fs p <;> simp [Function.update_of_ne hp, Function.update_of_ne hq]

/-- With working calls the source is gone, whether it existed or not. -/
theorem renameOrUnlink_source (h : p ≠ q) : renameOrUnlink true true p q fs p = none := by
  unfold renameOrUnlink rename
  cases hp : fs p with
  | none => simp
  | some b => simp [Function.update_of_ne h]

theorem renameOrUnlink_source_cases {okRename okUnlink : Bool} (h : p ≠ q) :
    renameOrUnlink okRename okUnlink p q fs p = none ∨
      renameOrUnlink okRename okUnlink p q fs p = fs p := by
  unfold renameOrUnlink rename unlink
  cases hp : fs p with
  | none => cases okRename <;> cases okUnlink <;> simp [hp]
  | some b => cases okRename <;> cases okUnlink <;> simp [hp, Function.update_of_ne h]

/-- With working calls an absent target receives the source. -/
theorem renameOrUnlink_target (h : p ≠ q) (hq : fs q = none) :
    renameOrUnlink true true p q fs q = fs p := by
  unfold renameOrUnlink rename
  cases hp : fs p with
  | none => simp [unlink_of_ne true h.symm, hq]
  | some b => simp

/-- Every other file stays. -/
theorem renameOrUnlink_of_ne (okRename okUnlink : Bool) (hp : x ≠ p) (hq : x ≠ q) :
    renameOrUnlink okRename okUnlink p q fs x = fs x := by
  unfold renameOrUnlink rename
  cases okRename <;> cases h : fs p <;>
    simp [unlink_of_ne okUnlink hp, Function.update_of_ne hp, Function.update_of_ne hq]

end FileMap

end Omap4
