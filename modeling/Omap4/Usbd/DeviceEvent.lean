import Omap4.CBuffer
import Omap4.Usbd.Daemon

/-!
# Omap4.Usbd.DeviceEvent — the parser of device events (`main` of `usb_app.c`)

A message of the device file has four fields, as in
`acm_eth_mtp_adb:adb_enable:tethering_enable:enumerated`. `main` reads it into `devbuf` and scans
the fields into four arrays that it never clears, apart from `enubuf`: the start of each field is
computed from the lengths of the strings that the arrays hold after the scans before it.

A message with fields that are not empty and fit decodes to them (`message_decodes`).  For the
others the arrays keep what earlier messages left there, or a scan runs over the end of an array:
the parser depends on nothing but the message, and stays inside its arrays, just for the messages
that are `WellFormed` (`parser_self_contained_iff`).
-/

namespace Omap4.Usbd

/-! ## The code -/

/-- `pcSwitchbuf`, `adbEnablebuf`, `tetheringEnablebuf` and `enubuf`, which `main` declares without
a value. -/
structure ParseBufs where
  pcSwitchbuf : Buf 50
  adbEnablebuf : Buf 20
  tetheringEnablebuf : Buf 20
  enubuf : Buf 90
  deriving DecidableEq

/-- What a `read` of at most `sizeof(devbuf)-1` bytes returns, if it returns any. -/
abbrev DeviceMsg := { l : List Char // 0 < l.length ∧ l.length < 90 }

/-- `devbuf` after the `memset` and the `read`. -/
def devbuf (m : DeviceMsg) : Buf 90 :=
  ⟨m.1 ++ List.replicate (90 - m.1.length) CStr.nul, by
    have hlen := m.2.2
    rw [List.length_append, List.length_replicate]
    omega⟩

/-- The first two scans; with the arrays, the lengths of the strings in them. -/
def parseStatus (dev : Buf 90) (b : ParseBufs) : Option (ℕ × ℕ × ParseBufs) := do
  let pc ← Buf.scanUntil ':' dev 0 b.pcSwitchbuf
  let n₁ ← pc.strlen
  let adb ← Buf.scanUntil ':' dev (n₁ + 1) b.adbEnablebuf
  let n₂ ← adb.strlen
  pure (n₁, n₂, { b with pcSwitchbuf := pc, adbEnablebuf := adb })

/-- `length`, which is an `int`. -/
def enuLength (len n₁ n₂ n₃ : ℕ) : ℤ := (len : ℤ) - n₁ - n₂ - n₃ - 2

def copyEnu (dev : Buf 90) (p : ℕ) (length : ℤ) : Option (Buf 90) :=
  if 0 < length then Buf.copyFrom dev p length.toNat (Buf.zero 90) else some (Buf.zero 90)

/-- The third scan and the copy of the fourth field. -/
def parseRest (dev : Buf 90) (n₁ n₂ : ℕ) (b : ParseBufs) : Option ParseBufs := do
  let teth ← Buf.scanUntil ':' dev (n₁ + n₂ + 2) b.tetheringEnablebuf
  let n₃ ← teth.strlen
  let len ← dev.strlen
  let enu ← copyEnu dev (n₁ + n₂ + n₃ + 3) (enuLength len n₁ n₂ n₃)
  pure { b with tetheringEnablebuf := teth, enubuf := enu }

/-- The parsing of a message; `none` if it leaves an array.  With a factory cable the last two
fields are not looked at. -/
def parseMsg (factory : Bool) (m : DeviceMsg) (b : ParseBufs) : Option ParseBufs :=
  (parseStatus (devbuf m) b).bind fun r =>
    if factory then some r.2.2 else parseRest (devbuf m) r.1 r.2.1 r.2.2

/-- The fields that are used for the message. -/
def ParseBufs.used (factory : Bool) (b : ParseBufs) : List CStr :=
  if factory then [b.adbEnablebuf.cstr]
  else [b.pcSwitchbuf.cstr, b.adbEnablebuf.cstr, b.tetheringEnablebuf.cstr, b.enubuf.cstr]

/-- The fields used for each of the messages, which come with the cable they are read under. -/
def parseAll : List (Bool × DeviceMsg) → ParseBufs → Option (List (List CStr))
  | [], _ => some []
  | (factory, m) :: ms, b =>
    (parseMsg factory m b).bind fun b' => (parseAll ms b').map (b'.used factory :: ·)

/-- A device event with the fields that the parser left in the arrays. -/
def ParseBufs.input (b : ParseBufs) (d : DeviceInput) : DeviceInput :=
  { d with
    pcSwitch := b.pcSwitchbuf.cstr, adbEnable := b.adbEnablebuf.cstr
    tetheringEnable := b.tetheringEnablebuf.cstr, enu := b.enubuf.cstr }

/-- The handler looks at the used fields and at no other. -/
theorem handleDevice_used (e : Env) (d : DeviceInput) {s : State} {factory : Bool}
    (hcable : factory = true ↔ s.currCableStatus = .factory) {b b' : ParseBufs}
    (h : b.used factory = b'.used factory) :
    handleDevice e (b.input d) s = handleDevice e (b'.input d) s := by
  cases factory with
  | true =>
    have hadb : (b.input d).adbEnable = (b'.input d).adbEnable := by
      simp only [ParseBufs.used, if_true, List.cons.injEq, and_true] at h
      exact h
    have hfac := hcable.mp rfl
    rw [handleDevice, handleDevice, if_pos hfac, if_pos hfac, handleFactoryEvent,
      handleFactoryEvent, hadb]
    rfl
  | false =>
    have hinput : b.input d = b'.input d := by
      simp only [ParseBufs.used, Bool.false_eq_true, if_false, List.cons.injEq, and_true] at h
      obtain ⟨h₁, h₂, h₃, h₄⟩ := h
      unfold ParseBufs.input
      rw [h₁, h₂, h₃, h₄]
    rw [hinput]

/-! ## Well-formed messages -/

/-- The field at the position `p` of the message. -/
def fieldAt (m : DeviceMsg) (p : ℕ) : CStr := Buf.field ':' ((devbuf m).1.drop p)

def pcSwitchField (m : DeviceMsg) : CStr := fieldAt m 0

def adbEnableField (m : DeviceMsg) : CStr := fieldAt m ((pcSwitchField m).length + 1)

def tetheringEnableField (m : DeviceMsg) : CStr :=
  fieldAt m ((pcSwitchField m).length + (adbEnableField m).length + 2)

/-- The fields that are scanned are there and fit into their arrays. -/
structure WellFormed (factory : Bool) (m : DeviceMsg) : Prop where
  pcSwitch : pcSwitchField m ≠ [] ∧ (pcSwitchField m).length < 50
  adbEnable : adbEnableField m ≠ [] ∧ (adbEnableField m).length < 20
  tetheringEnable : factory = false → tetheringEnableField m ≠ [] ∧
    (tetheringEnableField m).length < 20

/-- The message ends with a NUL at the latest at the end of `devbuf`. -/
theorem nul_mem_devbuf (m : DeviceMsg) {p : ℕ} (hp : p < 90) : CStr.nul ∈ (devbuf m).1.drop p := by
  have hlen := m.2.2
  have hsplit : (devbuf m).1 = (m.1 ++ List.replicate (89 - m.1.length) CStr.nul) ++
      [CStr.nul] := by
    rw [List.append_assoc, ← List.replicate_succ']
    show m.1 ++ List.replicate (90 - m.1.length) CStr.nul = _
    congr 2
    omega
  have hle : p ≤ (m.1 ++ List.replicate (89 - m.1.length) CStr.nul).length := by
    rw [List.length_append, List.length_replicate]
    omega
  rw [hsplit, List.drop_append_of_le_length hle]
  exact List.mem_append_right _ (List.mem_singleton_self _)

theorem devbuf_strlen (m : DeviceMsg) : ∃ len, (devbuf m).strlen = some len ∧ len < 90 := by
  have hnul : CStr.nul ∈ (devbuf m).1 := nul_mem_devbuf m (p := 0) (by omega)
  have hlen : (devbuf m).strlen = some (devbuf m).cstr.length := if_pos hnul
  exact ⟨_, hlen, Buf.strlen_lt hlen⟩

/-- The fourth field lies inside `devbuf` and fits into `enubuf`, whatever the lengths of the others
are. -/
theorem copyEnu_isSome (m : DeviceMsg) {len : ℕ} (hlen : len < 90) (n₁ n₂ n₃ : ℕ) :
    ∃ enu, copyEnu (devbuf m) (n₁ + n₂ + n₃ + 3) (enuLength len n₁ n₂ n₃) = some enu := by
  unfold copyEnu enuLength
  split_ifs with hpos
  · have hfit : n₁ + n₂ + n₃ + 3 + ((len : ℤ) - n₁ - n₂ - n₃ - 2).toNat ≤ 90 := by omega
    rw [Buf.copyFrom, if_pos hfit, Buf.write, dif_pos]
    · exact ⟨_, rfl⟩
    · rw [List.length_take]
      omega
  · exact ⟨_, rfl⟩

theorem parseStatus_eq {m : DeviceMsg} (h₁ : pcSwitchField m ≠ [] ∧ (pcSwitchField m).length < 50)
    (h₂ : adbEnableField m ≠ [] ∧ (adbEnableField m).length < 20) (b : ParseBufs) :
    ∃ b', parseStatus (devbuf m) b = some
    ((pcSwitchField m).length, (adbEnableField m).length, b') ∧
      b'.pcSwitchbuf.cstr = pcSwitchField m ∧ b'.adbEnablebuf.cstr = adbEnableField m := by
  obtain ⟨pc, hpc, hpcs, hn₁⟩ :=
    Buf.scanUntil_eq_some (nul_mem_devbuf m (by omega)) h₁.1 h₁.2 b.pcSwitchbuf
  obtain ⟨adb, hadb, hadbs, hn₂⟩ := Buf.scanUntil_eq_some (nul_mem_devbuf m (by omega)) h₂.1 h₂.2
    b.adbEnablebuf
  refine ⟨{ b with pcSwitchbuf := pc, adbEnablebuf := adb }, ?_, hpcs, hadbs⟩
  unfold parseStatus
  rw [hpc, Option.bind_eq_bind, Option.bind_some, hn₁]
  show (Buf.scanUntil ':' (devbuf m) ((pcSwitchField m).length + 1) b.adbEnablebuf).bind _ = _
  rw [hadb, Option.bind_some, hn₂]
  rfl

/-- The fourth field is what is copied behind the other three. -/
theorem parseRest_eq {m : DeviceMsg}
    (h₂ : (pcSwitchField m).length < 50 ∧ (adbEnableField m).length < 20)
    (h₃ : tetheringEnableField m ≠ [] ∧ (tetheringEnableField m).length < 20) {len : ℕ}
    (hlen : (devbuf m).strlen = some len) {enu : Buf 90}
    (henu : copyEnu (devbuf m)
      ((pcSwitchField m).length + (adbEnableField m).length + (tetheringEnableField m).length + 3)
      (enuLength len (pcSwitchField m).length (adbEnableField m).length
        (tetheringEnableField m).length) = some enu) (b : ParseBufs) :
    ∃ b', parseRest (devbuf m) (pcSwitchField m).length (adbEnableField m).length b = some b' ∧
      b'.pcSwitchbuf = b.pcSwitchbuf ∧ b'.adbEnablebuf = b.adbEnablebuf ∧
      b'.tetheringEnablebuf.cstr = tetheringEnableField m ∧ b'.enubuf = enu := by
  obtain ⟨teth, hteth, hteths, hn₃⟩ := Buf.scanUntil_eq_some (nul_mem_devbuf m (by omega)) h₃.1 h₃.2
    b.tetheringEnablebuf
  refine ⟨{ b with tetheringEnablebuf := teth, enubuf := enu }, ?_, rfl, rfl, hteths, rfl⟩
  unfold parseRest
  rw [hteth, Option.bind_eq_bind, Option.bind_some, hn₃]
  show (Option.bind (some (tetheringEnableField m).length) fun n₃ => _) = _
  rw [Option.bind_some, hlen]
  show (copyEnu (devbuf m)
      ((pcSwitchField m).length + (adbEnableField m).length + (tetheringEnableField m).length + 3)
      (enuLength len (pcSwitchField m).length (adbEnableField m).length
        (tetheringEnableField m).length)).bind _ = _
  rw [henu]
  rfl

/-- **Step lemma**: a well-formed message is parsed inside the arrays, and the fields used for it do
not depend on what they held. -/
theorem parseMsg_used {factory : Bool} {m : DeviceMsg} (h : WellFormed factory m) :
    ∃ u, ∀ b, ∃ b', parseMsg factory m b = some b' ∧ b'.used factory = u := by
  cases factory with
  | true =>
    refine ⟨[adbEnableField m], fun b => ?_⟩
    obtain ⟨b₁, hb₁, -, hadb⟩ := parseStatus_eq h.pcSwitch h.adbEnable b
    refine ⟨b₁, ?_, by rw [ParseBufs.used, if_pos rfl, hadb]⟩
    rw [parseMsg, hb₁, Option.bind_some, if_pos rfl]
  | false =>
    obtain ⟨len, hlen, hlt⟩ := devbuf_strlen m
    obtain ⟨enu, henu⟩ := copyEnu_isSome m hlt (pcSwitchField m).length (adbEnableField m).length
      (tetheringEnableField m).length
    refine ⟨[pcSwitchField m, adbEnableField m, tetheringEnableField m, enu.cstr], fun b => ?_⟩
    obtain ⟨b₁, hb₁, hpc, hadb⟩ := parseStatus_eq h.pcSwitch h.adbEnable b
    obtain ⟨b₂, hb₂, hpc₂, hadb₂, hteth, henu₂⟩ := parseRest_eq ⟨h.pcSwitch.2, h.adbEnable.2⟩
      (h.tetheringEnable rfl) hlen henu b₁
    refine ⟨b₂, ?_, ?_⟩
    · rw [parseMsg, hb₁, Option.bind_some, if_neg Bool.false_ne_true]
      exact hb₂
    · rw [ParseBufs.used, if_neg Bool.false_ne_true, hpc₂, hadb₂, hpc, hadb, hteth, henu₂]

/-- What the stack may hold where the arrays lie: no NUL at all. -/
def garbageBufs : ParseBufs := ⟨Buf.fill 'x' 50, Buf.fill 'x' 20, Buf.fill 'x' 20, Buf.fill 'x' 90⟩

/-- A message that is parsed inside the arrays even then is well-formed. -/
theorem wellFormed_of_parseMsg {factory : Bool} {m : DeviceMsg} {b : ParseBufs}
    (h : parseMsg factory m garbageBufs = some b) : WellFormed factory m := by
  have hx : 'x' ≠ CStr.nul := by decide
  obtain ⟨⟨n₁, n₂, b₁⟩, hstatus, hrest⟩ := Option.bind_eq_some_iff.mp h
  obtain ⟨pc, hpc, k₁, hk₁, adb, hadb, k₂, hk₂, rfl, rfl, rfl⟩ :
      ∃ pc, Buf.scanUntil ':' (devbuf m) 0 (Buf.fill 'x' 50) = some pc ∧ ∃ k₁, pc.strlen = some k₁ ∧
        ∃ adb, Buf.scanUntil ':' (devbuf m) (k₁ + 1) (Buf.fill 'x' 20) = some adb ∧
        ∃ k₂, adb.strlen = some k₂ ∧ k₁ = n₁ ∧ k₂ = n₂ ∧
        { garbageBufs with pcSwitchbuf := pc, adbEnablebuf := adb } = b₁ := by
    simpa [parseStatus, Option.bind_eq_some_iff, garbageBufs] using hstatus
  obtain ⟨hne₁, hlt₁, rfl⟩ := Buf.field_of_scanUntil hx hpc hk₁
  obtain ⟨hne₂, hlt₂, rfl⟩ := Buf.field_of_scanUntil hx hadb hk₂
  refine ⟨⟨hne₁, hlt₁⟩, ⟨hne₂, hlt₂⟩, fun hfac => ?_⟩
  rw [hfac, if_neg Bool.false_ne_true] at hrest
  obtain ⟨teth, hteth, hrest⟩ := Option.bind_eq_some_iff.mp hrest
  obtain ⟨k₃, hk₃, -⟩ := Option.bind_eq_some_iff.mp hrest
  obtain ⟨hne₃, hlt₃, -⟩ := Buf.field_of_scanUntil hx hteth hk₃
  exact ⟨hne₃, hlt₃⟩

/-- A well-formed message has one effect on the daemon, whatever the arrays held before it. -/
theorem handleDevice_of_wellFormed (e : Env) (d : DeviceInput) {s : State} {factory : Bool}
    {m : DeviceMsg} (hcable : factory = true ↔ s.currCableStatus = .factory)
    (hm : WellFormed factory m) {b b' c c' : ParseBufs} (hc : parseMsg factory m b = some c)
    (hc' : parseMsg factory m b' = some c') :
    handleDevice e (c.input d) s = handleDevice e (c'.input d) s := by
  obtain ⟨u, hu⟩ := parseMsg_used hm
  obtain ⟨c₁, hc₁, hused₁⟩ := hu b
  obtain ⟨c₂, hc₂, hused₂⟩ := hu b'
  obtain rfl := Option.some.inj (hc.symm.trans hc₁)
  obtain rfl := Option.some.inj (hc'.symm.trans hc₂)
  exact handleDevice_used e d hcable (hused₁.trans hused₂.symm)

/-! ## Sequences of messages -/

/-- **When the parser is self-contained.**  For the sequences of messages of a kind, the parser
stays inside its arrays and what is used for a message is a function of this message alone, whatever
the arrays held before the first one, if and only if all messages of the kind are well-formed. -/
theorem parser_self_contained_iff (kind : Bool × DeviceMsg → Prop) :
    (∃ decode : Bool × DeviceMsg → List CStr, ∀ ms, (∀ x ∈ ms, kind x) → ∀ b,
        parseAll ms b = some (ms.map decode)) ↔
      ∀ x, kind x → WellFormed x.1 x.2 := by
  constructor
  · rintro ⟨decode, hall⟩ ⟨factory, m⟩ hx
    have hone := hall [(factory, m)] (by simpa using hx) garbageBufs
    obtain ⟨b, hb, -⟩ := Option.bind_eq_some_iff.mp hone
    exact wellFormed_of_parseMsg hb
  · intro hkind
    have hstep : ∀ x, ∃ u, kind x → ∀ b, ∃ b', parseMsg x.1 x.2 b = some b' ∧ b'.used x.1 = u := by
      intro x
      by_cases hx : kind x
      · obtain ⟨u, hu⟩ := parseMsg_used (hkind x hx)
        exact ⟨u, fun _ => hu⟩
      · exact ⟨[], fun h => absurd h hx⟩
    choose decode hdecode using hstep
    refine ⟨decode, fun ms hms b => ?_⟩
    induction ms generalizing b with
    | nil => rfl
    | cons x ms ih =>
      obtain ⟨b', hb', hused⟩ := hdecode x (hms x (by simp)) b
      have hrest := ih (fun y hy => hms y (List.mem_cons_of_mem _ hy)) b'
      rw [parseAll, hb', Option.bind_some, hrest, Option.map_some, hused, List.map_cons]

def zeroBufs : ParseBufs := ⟨Buf.zero 50, Buf.zero 20, Buf.zero 20, Buf.zero 90⟩

def adbMsg : DeviceMsg := ⟨"none:adb_enable:none:none".toList, by decide⟩

/-- A message whose first field is empty. -/
def emptyFieldMsg : DeviceMsg := ⟨":none:none:none".toList, by decide⟩

/-- After a message that enables ADB, the one with an empty first field enables it again; alone it
does not. -/
theorem empty_field_stale :
    ¬ ∃ decode : Bool × DeviceMsg → List CStr, ∀ ms b, parseAll ms b = some (ms.map decode) := by
  rintro ⟨decode, h⟩
  have halone : parseAll [(false, emptyFieldMsg)] zeroBufs =
      some [["".toList, "none".toList, "none".toList, "none".toList]] := by decide +kernel
  have hafter : parseAll [(false, adbMsg), (false, emptyFieldMsg)] zeroBufs =
      some [["none".toList, "adb_enable".toList, "none".toList, "none".toList],
        ["none".toList, "adb_enable".toList, "none".toList, "".toList]] := by decide +kernel
  have hone := (h _ _).symm.trans halone
  have htwo := (h _ _).symm.trans hafter
  simp only [List.map_cons, List.map_nil, Option.some.injEq, List.cons.injEq, and_true] at hone htwo
  rw [hone] at htwo
  exact absurd htwo.2 (by decide)

/-! ## Messages of four fields -/

/-- A message of four fields, as the driver writes it. -/
def joinFields (f₁ f₂ f₃ f₄ : CStr) : List Char := f₁ ++ ':' :: (f₂ ++ ':' :: (f₃ ++ ':' :: f₄))

/-- The message `m` has these fields: the first three are not empty, have no colon and fit. -/
structure HasFields (m : DeviceMsg) (f₁ f₂ f₃ f₄ : CStr) : Prop where
  text : m.1 = joinFields f₁ f₂ f₃ f₄
  pcSwitch : f₁ ≠ [] ∧ f₁.length < 50 ∧ ':' ∉ f₁ ∧ CStr.nul ∉ f₁
  adbEnable : f₂ ≠ [] ∧ f₂.length < 20 ∧ ':' ∉ f₂ ∧ CStr.nul ∉ f₂
  tetheringEnable : f₃ ≠ [] ∧ f₃.length < 20 ∧ ':' ∉ f₃ ∧ CStr.nul ∉ f₃
  enu : CStr.nul ∉ f₄

section Decode

variable {m : DeviceMsg} {f₁ f₂ f₃ f₄ : CStr}

theorem drop_field (f rest : List Char) : (f ++ ':' :: rest).drop (f.length + 1) = rest := by
  rw [← List.drop_drop, List.drop_left, List.drop_one, List.tail_cons]

theorem HasFields.length (h : HasFields m f₁ f₂ f₃ f₄) :
    m.1.length = f₁.length + f₂.length + f₃.length + f₄.length + 3 := by
  rw [h.text]
  simp only [joinFields, List.length_append, List.length_cons]
  omega

/-- `devbuf` from each of the positions at which a field starts. -/
theorem HasFields.drops (h : HasFields m f₁ f₂ f₃ f₄) :
    ∃ z, (devbuf m).1 = f₁ ++ ':' :: (f₂ ++ ':' :: (f₃ ++ ':' :: (f₄ ++ CStr.nul :: z))) ∧
      (devbuf m).1.drop (f₁.length + 1) = f₂ ++ ':' :: (f₃ ++ ':' :: (f₄ ++ CStr.nul :: z)) ∧
      (devbuf m).1.drop (f₁.length + f₂.length + 2) = f₃ ++ ':' :: (f₄ ++ CStr.nul :: z) ∧
      (devbuf m).1.drop (f₁.length + f₂.length + f₃.length + 3) = f₄ ++ CStr.nul :: z := by
  have hlt := m.2.2
  have hpad : List.replicate (90 - m.1.length) CStr.nul =
      CStr.nul :: List.replicate (89 - m.1.length) CStr.nul := by
    rw [← List.replicate_succ]
    congr 1
    omega
  have hall : (devbuf m).1 = f₁ ++ ':' :: (f₂ ++ ':' :: (f₃ ++ ':' ::
      (f₄ ++ CStr.nul :: List.replicate (89 - m.1.length) CStr.nul))) := by
    show m.1 ++ List.replicate (90 - m.1.length) CStr.nul = _
    rw [hpad]
    nth_rewrite 1 [h.text]
    simp [joinFields]
  have hpos₂ : f₁.length + f₂.length + 2 = f₁.length + 1 + (f₂.length + 1) := by omega
  have hpos₃ : f₁.length + f₂.length + f₃.length + 3 =
      f₁.length + f₂.length + 2 + (f₃.length + 1) := by omega
  have hdrop₁ := drop_field f₁
    (f₂ ++ ':' :: (f₃ ++ ':' :: (f₄ ++ CStr.nul :: List.replicate (89 - m.1.length) CStr.nul)))
  rw [← hall] at hdrop₁
  have hdrop₂ : (devbuf m).1.drop (f₁.length + f₂.length + 2) =
      f₃ ++ ':' :: (f₄ ++ CStr.nul :: List.replicate (89 - m.1.length) CStr.nul) := by
    rw [hpos₂, ← List.drop_drop, hdrop₁, drop_field]
  refine ⟨_, hall, hdrop₁, hdrop₂, ?_⟩
  rw [hpos₃, ← List.drop_drop, hdrop₂, drop_field]

theorem HasFields.scanned (h : HasFields m f₁ f₂ f₃ f₄) :
    pcSwitchField m = f₁ ∧ adbEnableField m = f₂ ∧ tetheringEnableField m = f₃ := by
  obtain ⟨z, hz₀, hz₁, hz₂, -⟩ := h.drops
  have hpc : pcSwitchField m = f₁ := by
    rw [pcSwitchField, fieldAt, List.drop_zero, hz₀,
      Buf.field_append h.pcSwitch.2.2.1 h.pcSwitch.2.2.2]
  have hadb : adbEnableField m = f₂ := by
    rw [adbEnableField, fieldAt, hpc, hz₁, Buf.field_append h.adbEnable.2.2.1 h.adbEnable.2.2.2]
  refine ⟨hpc, hadb, ?_⟩
  rw [tetheringEnableField, fieldAt, hpc, hadb, hz₂,
    Buf.field_append h.tetheringEnable.2.2.1 h.tetheringEnable.2.2.2]

theorem HasFields.wellFormed (h : HasFields m f₁ f₂ f₃ f₄) : WellFormed false m := by
  obtain ⟨hpc, hadb, hteth⟩ := h.scanned
  constructor
  · rw [hpc]
    exact ⟨h.pcSwitch.1, h.pcSwitch.2.1⟩
  · rw [hadb]
    exact ⟨h.adbEnable.1, h.adbEnable.2.1⟩
  · intro _
    rw [hteth]
    exact ⟨h.tetheringEnable.1, h.tetheringEnable.2.1⟩

theorem HasFields.strlen (h : HasFields m f₁ f₂ f₃ f₄) : (devbuf m).strlen = some m.1.length := by
  obtain ⟨z, hz, -⟩ := h.drops
  have hsplit : (devbuf m).1 = m.1 ++ CStr.nul :: z := by
    rw [hz, h.text]
    simp [joinFields]
  have hcolon : CStr.nul ≠ ':' := by decide
  have hnul : CStr.nul ∉ m.1 := by
    rw [h.text]
    simp [joinFields, h.pcSwitch.2.2.2, h.adbEnable.2.2.2, h.tetheringEnable.2.2.2, h.enu, hcolon]
  rw [Buf.strlen, if_pos (by rw [hsplit]; simp), Buf.cstr, hsplit, CStr.ofBuffer_terminated hnul]

/-- The fourth field is copied with the NUL behind it. -/
theorem HasFields.copyEnu_eq (h : HasFields m f₁ f₂ f₃ f₄) :
    ∃ enu, copyEnu (devbuf m) (f₁.length + f₂.length + f₃.length + 3)
      (enuLength m.1.length f₁.length f₂.length f₃.length) = some enu ∧ enu.cstr = f₄ := by
  obtain ⟨z, -, -, -, hz⟩ := h.drops
  have hlt := m.2.2
  have hlen := h.length
  have hlength : enuLength m.1.length f₁.length f₂.length f₃.length = (f₄.length + 1 : ℕ) := by
    unfold enuLength
    omega
  have htake : (f₄ ++ CStr.nul :: z).take (f₄.length + 1) = f₄ ++ [CStr.nul] := by
    rw [List.take_append, List.take_of_length_le (by omega), Nat.add_sub_cancel_left]
    rfl
  obtain ⟨enu, hwrite, hcstr, -⟩ := Buf.write_string h.enu (by omega : f₄.length < 90) (Buf.zero 90)
  refine ⟨enu, ?_, hcstr⟩
  rw [copyEnu, hlength, if_pos (by omega), Int.toNat_natCast, Buf.copyFrom,
    if_pos (by omega), hz, htake]
  exact hwrite

end Decode

/-- **Messages decode to their fields.**  Three fields that are not empty, have no colon and fit
into their arrays, and a fourth one, are what the arrays hold after the message was read under any
cable but the factory cable, whatever they held before. -/
theorem message_decodes {m : DeviceMsg} {f₁ f₂ f₃ f₄ : CStr} (h : HasFields m f₁ f₂ f₃ f₄)
    (b : ParseBufs) :
    ∃ b', parseMsg false m b = some b' ∧ b'.pcSwitchbuf.cstr = f₁ ∧ b'.adbEnablebuf.cstr = f₂ ∧
      b'.tetheringEnablebuf.cstr = f₃ ∧ b'.enubuf.cstr = f₄ := by
  obtain ⟨hpc, hadb, hteth⟩ := h.scanned
  obtain ⟨enu, hcopy, henu⟩ := h.copyEnu_eq
  obtain ⟨b₁, hb₁, hpc₁, hadb₁⟩ := parseStatus_eq h.wellFormed.pcSwitch h.wellFormed.adbEnable b
  obtain ⟨b₂, hb₂, hpc₂, hadb₂, hteth₂, henu₂⟩ := parseRest_eq
    ⟨h.wellFormed.pcSwitch.2, h.wellFormed.adbEnable.2⟩ (h.wellFormed.tetheringEnable rfl) h.strlen
    (by rw [hpc, hadb, hteth]; exact hcopy) b₁
  refine ⟨b₂, ?_, ?_, ?_, ?_, ?_⟩
  · rw [parseMsg, hb₁, Option.bind_some, if_neg Bool.false_ne_true]
    exact hb₂
  · rw [hpc₂, hpc₁, hpc]
  · rw [hadb₂, hadb₁, hadb]
  · rw [hteth₂, hteth]
  · rw [henu₂, henu]

/-- A fourth field with colons in it, after a longer message. -/
theorem message_decodes_colons :
    ∃ b b', parseMsg false adbMsg garbageBufs = some b ∧
      parseMsg false ⟨"a:b:c:d:e".toList, by decide⟩ b = some b' ∧
      b'.pcSwitchbuf.cstr = "a".toList ∧
      b'.adbEnablebuf.cstr = "b".toList ∧ b'.tetheringEnablebuf.cstr = "c".toList ∧
      b'.enubuf.cstr = "d:e".toList := by
  have hadb : HasFields adbMsg "none".toList "adb_enable".toList "none".toList "none".toList := by
    constructor <;> decide
  have hfields : HasFields ⟨"a:b:c:d:e".toList, by decide⟩ "a".toList "b".toList "c".toList
      "d:e".toList := by
    constructor <;> decide
  obtain ⟨b, hb, -⟩ := message_decodes hadb garbageBufs
  obtain ⟨b', hb', h₁, h₂, h₃, h₄⟩ := message_decodes hfields b
  exact ⟨b, b', hb, hb', h₁, h₂, h₃, h₄⟩

end Omap4.Usbd
