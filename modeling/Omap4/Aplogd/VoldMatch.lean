import Omap4.Aplogd.LogIo

/-!
# Omap4.Aplogd.VoldMatch — which volume a message is about (`is_vold_msg_for`)

A message of vold names the volume by its label and its mount point.  `is_vold_msg_for` searches the
message for the path of a storage and asks for a space behind the first occurrence.  A path that is
not at the beginning of the mount point passes that test as well (`isVoldMsgFor_iff_mountpoint`).
-/

namespace Omap4.Aplogd

variable {cfg : Config} {st : Storage} {path label mountpoint : CStr}

/-- The messages of vold about a change of state; `rest` is what follows `state changed`. -/
def stateChanged (label mountpoint rest : CStr) : CStr :=
  "605 Volume ".toList ++ label ++ ' ' :: (mountpoint ++ ' ' :: ("state changed".toList ++ rest))

/-- The path is a proper end of the mount point, and occurs nowhere before that end. -/
def EndsMountpoint (path mountpoint : CStr) : Prop :=
  mountpoint ≠ path ∧ CStr.strstr path mountpoint = some path

/-- The path is not in the mount point but behind it, and a space follows its first occurrence
there. -/
def InRest (path mountpoint rest : CStr) : Prop :=
  CStr.strstr path mountpoint = none ∧ ∃ b, CStr.strstr path rest = some (path ++ ' ' :: b)

/-- What the search and the comparison of the lengths decide. -/
theorem isVoldMsgFor_iff_strstr (hpath : cfg.storagePath st = some path) (hspace : ' ' ∉ path)
    (msg : CStr) :
    isVoldMsgFor cfg st msg = true ↔ ∃ b, CStr.strstr path msg = some (path ++ ' ' :: b) := by
  simp only [isVoldMsgFor, hpath]
  cases hfound : CStr.strstr path msg with
  | none => simp
  | some msgPath =>
    obtain ⟨t, rfl⟩ := CStr.prefix_of_strstr hfound
    simp only [CStr.strchr_append_of_notMem hspace, Option.some.injEq, List.append_cancel_left_eq]
    cases hchr : CStr.strchr ' ' t with
    | none =>
      refine iff_of_false (by simp) ?_
      rintro ⟨b, rfl⟩
      simp [CStr.strchr] at hchr
    | some spaceLoc =>
      obtain ⟨hle, hfirst⟩ := CStr.length_strchr hchr
      simp only [beq_iff_eq, List.length_append]
      constructor
      · intro hlen
        exact hfirst (by omega)
      · rintro ⟨b, rfl⟩
        rw [CStr.strchr, if_pos rfl] at hchr
        rw [← Option.some.inj hchr]
        omega

/-- Where the search finds a path in a message. -/
theorem strstr_stateChanged (habs : path.head? = some '/') (hspace : ' ' ∉ path)
    (hlabel : '/' ∉ label) (rest : CStr) :
    CStr.strstr path (stateChanged label mountpoint rest) =
      ((CStr.strstr path mountpoint).map (· ++ ' ' :: ("state changed".toList ++ rest))).or
        (CStr.strstr path rest) := by
  obtain ⟨p, rfl⟩ : ∃ p, path = '/' :: p := by
    cases path with
    | nil => cases habs
    | cons c p => exact ⟨p, by rw [Option.some.inj habs]⟩
  have hvolume : '/' ∉ "605 Volume ".toList := by decide +kernel
  have hstate : '/' ∉ "state changed".toList := by decide +kernel
  have hhead : '/' ∉ "605 Volume ".toList ++ label ++ [' '] := by
    rw [List.mem_append, List.mem_append, not_or, not_or]
    exact ⟨⟨hvolume, hlabel⟩, by decide⟩
  have hsplit : stateChanged label mountpoint rest = "605 Volume ".toList ++ label ++ [' '] ++
      (mountpoint ++ ' ' :: ("state changed".toList ++ rest)) := List.append_cons _ _ _
  rw [hsplit, CStr.strstr_append_of_notMem p hhead,
    CStr.strstr_append_cons (List.cons_ne_nil _ _) hspace, CStr.strstr_append_of_notMem p hstate]

/-- What passes the test: the first occurrence of the path ends the mount point or is behind it. -/
theorem isVoldMsgFor_stateChanged (hpath : cfg.storagePath st = some path)
    (habs : path.head? = some '/') (hspace : ' ' ∉ path) (hlabel : '/' ∉ label)
    (hmount : ' ' ∉ mountpoint) (rest : CStr) :
    isVoldMsgFor cfg st (stateChanged label mountpoint rest) = true ↔
      CStr.strstr path mountpoint = some path ∨ InRest path mountpoint rest := by
  rw [isVoldMsgFor_iff_strstr hpath hspace, strstr_stateChanged habs hspace hlabel, InRest]
  cases hfound : CStr.strstr path mountpoint with
  | none => simp
  | some r =>
    simp only [Option.map_some, Option.some_or, Option.some.injEq, reduceCtorEq,
      false_and, or_false]
    constructor
    · rintro ⟨b, hb⟩
      obtain ⟨t, rfl⟩ := CStr.prefix_of_strstr hfound
      rw [List.append_assoc, List.append_cancel_left_eq] at hb
      cases t with
      | nil => exact List.append_nil path
      | cons c t =>
        -- the mount point has no space that could follow the path
        rw [List.cons_append, List.cons.injEq] at hb
        refine absurd ((CStr.suffix_of_strstr hfound).subset ?_) hmount
        rw [hb.1]
        simp
    · rintro rfl
      exact ⟨_, rfl⟩

/-- **When a match is a match of the mount point**: unless the path is a proper end of the mount
point without an earlier occurrence, or is missing in it and found behind it with a space after
it. -/
theorem isVoldMsgFor_iff_mountpoint (hpath : cfg.storagePath st = some path)
    (habs : path.head? = some '/') (hspace : ' ' ∉ path) (hlabel : '/' ∉ label)
    (hmount : ' ' ∉ mountpoint) (rest : CStr) :
    (isVoldMsgFor cfg st (stateChanged label mountpoint rest) = true ↔ mountpoint = path) ↔
      ¬ (EndsMountpoint path mountpoint ∨ InRest path mountpoint rest) := by
  rw [isVoldMsgFor_stateChanged hpath habs hspace hlabel hmount rest]
  constructor
  · rintro hiff (⟨hne, hends⟩ | hrest)
    · exact hne (hiff.mp (.inl hends))
    · have heq := hiff.mp (.inr hrest)
      have hself := CStr.strstr_self path
      rw [heq] at hrest
      rw [hrest.1] at hself
      cases hself
  · intro hgood
    rw [not_or] at hgood
    constructor
    · rintro (hends | hrest)
      · by_contra hne
        exact hgood.1 ⟨hne, hends⟩
      · exact absurd hrest hgood.2
    · rintro rfl
      exact .inl (CStr.strstr_self mountpoint)

/-- The external storage at `/sdcard`. -/
def sdcardConfig : Config where
  storagePath
    | .userdata => some "/data".toList
    | .external => some "/sdcard".toList
    | .secondary => none
  usrCfgCollect := []
  usrCfgSize := 0
  usrCfgSeq := false
  usrCfgExt := true

theorem sdcard_matched :
    isVoldMsgFor sdcardConfig .external
      (stateChanged "sdcard".toList "/sdcard".toList " from 3 (Checking) to 4 (Mounted)".toList) =
        true := by
  refine ((isVoldMsgFor_iff_mountpoint rfl ?_ ?_ ?_ ?_ _).mpr ?_).mpr rfl
  · decide +kernel
  · decide +kernel
  · decide +kernel
  · decide +kernel
  · rintro (⟨hne, -⟩ | ⟨hnone, -⟩)
    · exact hne rfl
    · rw [CStr.strstr_self] at hnone
      cases hnone

/-- A message about `/mnt/sdcard` counts as one about the storage at `/sdcard`. -/
theorem mnt_sdcard_matched :
    stateChanged "sdcard".toList "/mnt/sdcard".toList " from 4 (Mounted) to 5 (Unmounting)".toList =
        "605 Volume sdcard /mnt/sdcard state changed from 4 (Mounted) to 5 (Unmounting)".toList ∧
      sdcardConfig.storagePath .external = some "/sdcard".toList ∧
      ¬ (isVoldMsgFor sdcardConfig .external
          (stateChanged "sdcard".toList "/mnt/sdcard".toList " from 4 (Mounted) to 5 (Unmounting)".toList) = true ↔
        "/mnt/sdcard".toList = "/sdcard".toList) := by
  decide +kernel

end Omap4.Aplogd
