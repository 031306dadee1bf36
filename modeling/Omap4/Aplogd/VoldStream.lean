import Omap4.Aplogd.Agreement
import Omap4.Framing
import Omap4.Transfer

/-!
# Omap4.Aplogd.VoldStream — messages from vold in the reads of a stream

vold writes NUL-terminated messages to a stream socket.  `aplogd_io_read_data` makes one `read` into
a buffer on the stack, of which it sets the last byte only, and searches the string at the start of
the buffer.  What a read returns after its first NUL is never looked at, and if there is no NUL in
it the string goes on with what the buffer held before.

The four branches of the function are four transitions of a card (`Transition`).  What the daemon
does is decided by the transitions that the strings name, in their order: `follow_eq_iff` says that
two sequences of strings lead to the same actions, on whatever storage and whatever the calls
return, just if they name the same transitions.  `vold_followed_iff` is this for the strings of the
reads and the messages.
-/

namespace Omap4.Aplogd.Vold

/-! ## The actions -/

/-- What the vold branch does about storages; a switch comes with the storage that is current
afterwards. -/
inductive Action
  | save (st : Storage)
  | move (old new : Storage)
  | switch (old new result : Storage)
  deriving DecidableEq, Repr

/-- The outcomes of the next save, move and switch, which may depend on all that was done before. -/
structure World where
  save : List Action → SaveRes
  move : List Action → Stream → MoveOpens
  switch : List Action → SwitchRes

/-- The daemon with a record of what it did. -/
structure Traced where
  state : State
  actions : List Action

variable (cfg : Config) (w : World)

def Traced.save (st : Storage) (t : Traced) : Traced where
  state := aplogdLogSave cfg (w.save t.actions) st t.state
  actions := t.actions ++ [.save st]

def Traced.move (new : Storage) (t : Traced) : Traced where
  state := aplogdMoveLogs cfg (w.move t.actions) t.state.currentStorage new t.state
  actions := t.actions ++ [.move t.state.currentStorage new]

def Traced.switch (new : Storage) (t : Traced) : Traced where
  state := switchStorage cfg (w.switch t.actions) t.state.currentStorage new t.state
  actions := t.actions ++ [.switch t.state.currentStorage new
    (switchStorage cfg (w.switch t.actions) t.state.currentStorage new t.state).currentStorage]

/-- The move, for sequential logs, and the switch. -/
def Traced.moveAndSwitch (new : Storage) (t : Traced) : Traced :=
  if cfg.usrCfgSeq then (t.move cfg w new).switch cfg w new else t.switch cfg w new

/-- What a message can say: a card was mounted, or it is gone (it is being unmounted, or was
removed). -/
inductive Transition
  | secMounted
  | secGone
  | extMounted
  | extGone
  deriving DecidableEq, Repr

/-- What is done for a transition. -/
def act (t : Traced) : Transition → Traced
  | .secMounted =>
    if aplogdCalcStoragePref cfg = .secondary then
      (t.save cfg w .secondary).moveAndSwitch cfg w .secondary
    else t.save cfg w .secondary
  | .secGone =>
    if t.state.currentStorage = .secondary then
      if (t.switch cfg w .external).state.currentStorage = .secondary then
        (t.switch cfg w .external).switch cfg w .userdata
      else t.switch cfg w .external
    else t
  | .extMounted =>
    if aplogdCalcStoragePref cfg ≠ .userdata ∧
      (t.save cfg w .external).state.currentStorage = .userdata then
      (t.save cfg w .external).moveAndSwitch cfg w .external
    else t.save cfg w .external
  | .extGone => if t.state.currentStorage = .external then t.switch cfg w .userdata else t

/-- The transitions that a string names, in the order of the branches. -/
def transitions (buf : CStr) : List Transition :=
  (if isTransToMounted cfg .secondary buf then [.secMounted] else []) ++
  (if isTransToUnmounted cfg .secondary buf || isBadRemoval cfg .secondary buf then
    [.secGone] else []) ++
  (if isTransToMounted cfg .external buf then [.extMounted] else []) ++
  (if isTransToUnmounted cfg .external buf || isBadRemoval cfg .external buf then
    [.extGone] else [])

/-- The vold branch of `aplogd_io_read_data` after the `read`, for the string at the start of the
buffer. -/
def handle (t : Traced) (buf : CStr) : Traced := (transitions cfg buf).foldl (act cfg w) t

/-- The strings `bufs`, one after the other. -/
def follow (bufs : List CStr) (t : Traced) : Traced := bufs.foldl (handle cfg w) t

/-! ## The reads -/

/-- `sizeof(buf)`. -/
def bufSize : ℕ := 4096

/-- A `read` that returns `chunk`, into a buffer that holds `stale`. -/
structure Read where
  chunk : List Char
  stale : List Char
  chunk_ne : chunk ≠ []
  chunk_le : chunk.length ≤ bufSize
  stale_length : stale.length = bufSize

/-- The string at the start of the buffer after `buf[4095]='\0'`. -/
def Read.text (r : Read) : CStr :=
  CStr.ofBuffer ((Transfer.store r.stale 0 r.chunk).set (bufSize - 1) CStr.nul)

/-- The messages that vold sends, and the reads that they arrive in. -/
structure Delivery where
  messages : List CStr
  reads : List Read
  message : ∀ m ∈ messages, CStr.nul ∉ m ∧ m.length < bufSize
  stream : (reads.map Read.chunk).flatten = Framing.encode CStr.nul messages

def Delivery.texts (d : Delivery) : List CStr := d.reads.map Read.text

/-- A read that starts with a whole message and its NUL finds that message. -/
theorem Read.text_of_message {r : Read} {m : CStr} (hm : CStr.nul ∉ m)
    (hr : m ++ [CStr.nul] <+: r.chunk) : r.text = m := by
  obtain ⟨rest, hrest⟩ := hr
  have hlen := congrArg List.length hrest
  have hle := r.chunk_le
  simp only [List.length_append, List.length_singleton] at hlen
  have hstore : Transfer.store r.stale 0 r.chunk =
      m ++ CStr.nul :: (rest ++ r.stale.drop r.chunk.length) := by
    simp [Transfer.store, ← hrest]
  unfold Read.text
  rw [hstore]
  rcases Nat.lt_or_ge m.length (bufSize - 1) with hlt | hge
  · rw [List.set_append_right _ _ (by omega), ← Nat.succ_pred_eq_of_pos (Nat.sub_pos_of_lt hlt),
      List.set_cons_succ]
    exact CStr.ofBuffer_terminated hm _
  · have hat : bufSize - 1 - m.length = 0 := by omega
    rw [List.set_append_right _ _ (by omega), hat, List.set_cons_zero]
    exact CStr.ofBuffer_terminated hm _

/-! ## The model of the main loop

`readVold` gets the outcomes of its calls with the string; here they come from the history. -/

section ReadVold

variable (t : Traced) (buf : CStr)

theorem aplogdMoveLogs_currentStorage (o : Stream → MoveOpens) (old new : Storage) (s : State) :
    (aplogdMoveLogs cfg o old new s).currentStorage = s.currentStorage := by
  obtain ⟨kern, files, hmove⟩ : ∃ kern files, aplogdMoveLogs cfg o old new s = _ :=
    aplogdMoveLogs_frame o old new s
  rw [hmove]

theorem moveAndSwitch_state (save : SaveRes) (new : Storage) :
    ∃ m : MountRes, m.save = save ∧
      (t.moveAndSwitch cfg w new).state = Aplogd.moveAndSwitch cfg m new t.state := by
  unfold Traced.moveAndSwitch Aplogd.moveAndSwitch
  by_cases hseq : cfg.usrCfgSeq = true
  · refine ⟨⟨save, w.move t.actions, w.switch (t.move cfg w new).actions⟩, rfl, ?_⟩
    rw [if_pos hseq, if_pos hseq]
    show switchStorage cfg _ (aplogdMoveLogs cfg _ _ _ _).currentStorage _ _ = _
    rw [aplogdMoveLogs_currentStorage]
    rfl
  · exact ⟨⟨save, w.move t.actions, w.switch t.actions⟩, rfl, by rw [if_neg hseq, if_neg hseq]; rfl⟩

/-- The save of a mounted card, with a switch if `switches` holds after it. -/
theorem storageMounted_state (st : Storage) (switches : Bool) :
    ∃ m : MountRes, (if switches then (t.save cfg w st).moveAndSwitch cfg w st
      else t.save cfg w st).state = storageMounted cfg m st switches t.state := by
  obtain ⟨m, hsave, hm⟩ := moveAndSwitch_state cfg w (t.save cfg w st) (w.save t.actions) st
  refine ⟨m, ?_⟩
  unfold storageMounted
  rw [hsave]
  split_ifs
  · exact hm
  · rfl

theorem secondaryMounted_state : ∃ m, ∀ r : VoldRes, r.msg = buf → r.secMounted = m →
    (if isTransToMounted cfg .secondary buf then act cfg w t .secMounted else t).state =
      secondaryMounted cfg r t.state := by
  obtain ⟨m, hm⟩ := storageMounted_state cfg w t .secondary
    (aplogdCalcStoragePref cfg = .secondary)
  refine ⟨m, fun r hmsg hr => ?_⟩
  unfold secondaryMounted
  rw [hmsg, hr, ← hm]
  simp only [act, decide_eq_true_eq]
  split_ifs <;> rfl

theorem secondaryUnmounted_state : ∃ m m', ∀ r : VoldRes, r.msg = buf → r.secUnmounted = m →
    r.secFallback = m' →
    (if isTransToUnmounted cfg .secondary buf || isBadRemoval cfg .secondary buf then
      act cfg w t .secGone else t).state = secondaryUnmounted cfg r t.state := by
  refine ⟨w.switch t.actions, w.switch (t.switch cfg w .external).actions, fun r hmsg hr hr' => ?_⟩
  unfold secondaryUnmounted leaveSecondary
  rw [hmsg, hr, hr']
  by_cases hgone : (isTransToUnmounted cfg .secondary buf || isBadRemoval cfg .secondary buf) = true
  · rw [if_pos hgone, act]
    by_cases hcur : t.state.currentStorage = .secondary
    · have hboth := And.intro hgone hcur
      rw [if_pos hcur, if_pos hboth]
      simp only [Traced.switch, hcur]
      split_ifs with hstill
      · rw [hstill]
      · rfl
    · rw [if_neg hcur, if_neg fun h => hcur h.2]
  · rw [if_neg hgone, if_neg fun h => hgone h.1]

theorem externalMounted_state : ∃ m, ∀ r : VoldRes, r.msg = buf → r.extMounted = m →
    (if isTransToMounted cfg .external buf then act cfg w t .extMounted else t).state =
      externalMounted cfg r t.state := by
  obtain ⟨m, hm⟩ := storageMounted_state cfg w t .external
    (aplogdCalcStoragePref cfg ≠ .userdata ∧ t.state.currentStorage = .userdata)
  refine ⟨m, fun r hmsg hr => ?_⟩
  have hcur : (t.save cfg w .external).state.currentStorage = t.state.currentStorage :=
    aplogdLogSave_currentStorage ..
  unfold externalMounted
  rw [hmsg, hr, ← hm]
  simp only [act, hcur, decide_eq_true_eq]
  split_ifs <;> rfl

theorem externalUnmounted_state : ∃ m, ∀ r : VoldRes, r.msg = buf → r.extUnmounted = m →
    (if isTransToUnmounted cfg .external buf || isBadRemoval cfg .external buf then
      act cfg w t .extGone else t).state = externalUnmounted cfg r t.state := by
  refine ⟨w.switch t.actions, fun r hmsg hr => ?_⟩
  unfold externalUnmounted
  rw [hmsg, hr]
  by_cases hgone : (isTransToUnmounted cfg .external buf || isBadRemoval cfg .external buf) = true
  · rw [if_pos hgone, act]
    by_cases hcur : t.state.currentStorage = .external
    · have hboth := And.intro hgone hcur
      rw [if_pos hcur, if_pos hboth, Traced.switch, hcur]
    · rw [if_neg hcur, if_neg fun h => hcur h.2]
  · rw [if_neg hgone, if_neg fun h => hgone h.1]

theorem foldl_ite_singleton {α β : Type} (f : β → α → β) (b : β) (a : α) (p : Bool) :
    (if p then [a] else []).foldl f b = if p then f b a else b := by
  split_ifs <;> rfl

/-- **`handle` is the vold branch of the main loop**, with the outcomes that the history gives. -/
theorem handle_state :
    ∃ r : VoldRes, r.msg = buf ∧ (handle cfg w t buf).state = readVold cfg r t.state := by
  unfold handle transitions
  simp only [List.foldl_append, foldl_ite_singleton]
  generalize ha : (if isTransToMounted cfg .secondary buf then act cfg w t .secMounted else t) = a
  generalize hb : (if isTransToUnmounted cfg .secondary buf || isBadRemoval cfg .secondary buf then
    act cfg w a .secGone else a) = b
  generalize hc : (if isTransToMounted cfg .external buf then act cfg w b .extMounted else b) = c
  obtain ⟨m₁, h₁⟩ := secondaryMounted_state cfg w t buf
  obtain ⟨m₂, m₃, h₂⟩ := secondaryUnmounted_state cfg w a buf
  obtain ⟨m₄, h₄⟩ := externalMounted_state cfg w b buf
  obtain ⟨m₅, h₅⟩ := externalUnmounted_state cfg w c buf
  refine ⟨⟨buf, m₁, m₂, m₃, m₄, m₅⟩, rfl, ?_⟩
  unfold readVold
  rw [← h₁ _ rfl rfl, ha, ← h₂ _ rfl rfl rfl, hb, ← h₄ _ rfl rfl, hc, ← h₅ _ rfl rfl]

end ReadVold

/-! ## What the actions tell about the transitions -/

/-- A world in which a switch works when `ok` says so. -/
def answers (ok : List Action → Bool) : World where
  save _ := ⟨true, fun _ => true, fun _ => true⟩
  move _ _ := .ok
  switch h := ⟨⟨ok h, fun _ => ok h⟩, ⟨true, fun _ => true⟩⟩

/-- What is done for a transition on the storage `st` while no switch works. -/
def emit (st : Storage) : Transition → List Action
  | .secMounted => .save .secondary ::
    if aplogdCalcStoragePref cfg = .secondary then
      (if cfg.usrCfgSeq then [.move st .secondary] else []) ++ [.switch st .secondary st]
    else []
  | .secGone =>
    if st = .secondary then
      [.switch .secondary .external .secondary, .switch .secondary .userdata .secondary]
    else []
  | .extMounted => [.save .external]
  | .extGone => if st = .external then [.switch .external .userdata .external] else []

section Emit

variable {ok : List Action → Bool} {st : Storage} {t : Traced}

theorem answers_succeeds (ok : List Action → Bool) (h : List Action) :
    ((answers ok).switch h).new.succeeds = ok h := by
  show (ok h && Stream.all.all fun _ => ok h) = ok h
  cases ok h <;> rfl

theorem switch_answers (ok : List Action → Bool) (t : Traced) (new : Storage) :
    (t.switch cfg (answers ok) new).state.currentStorage =
        (if ok t.actions then new else t.state.currentStorage) ∧
      (t.switch cfg (answers ok) new).actions = t.actions ++ [.switch t.state.currentStorage new
        (if ok t.actions then new else t.state.currentStorage)] := by
  have hcur : (t.switch cfg (answers ok) new).state.currentStorage =
      if ok t.actions then new else t.state.currentStorage := by
    unfold Traced.switch
    rw [switchStorage_currentStorage, answers_succeeds]
  exact ⟨hcur, by rw [← hcur]; rfl⟩

theorem switch_fails (hok : ok t.actions = false) (new : Storage) :
    (t.switch cfg (answers ok) new).state.currentStorage = t.state.currentStorage ∧
      (t.switch cfg (answers ok) new).actions =
        t.actions ++ [.switch t.state.currentStorage new t.state.currentStorage] := by
  have h := switch_answers cfg ok t new
  rwa [if_neg (by simp [hok])] at h

theorem save_currentStorage (st : Storage) (t : Traced) :
    (t.save cfg w st).state.currentStorage = t.state.currentStorage :=
  aplogdLogSave_currentStorage ..

theorem move_currentStorage (new : Storage) (t : Traced) :
    (t.move cfg w new).state.currentStorage = t.state.currentStorage :=
  aplogdMoveLogs_currentStorage ..

/-- A move and a switch that fails. -/
theorem moveAndSwitch_fails (new : Storage)
    (hok : ∀ h : List Action, t.actions.length ≤ h.length →
      h.length ≤ t.actions.length + (if cfg.usrCfgSeq then 1 else 0) → ok h = false) :
    (t.moveAndSwitch cfg (answers ok) new).state.currentStorage = t.state.currentStorage ∧
      (t.moveAndSwitch cfg (answers ok) new).actions =
        t.actions ++ ((if cfg.usrCfgSeq then [.move t.state.currentStorage new] else []) ++
          [.switch t.state.currentStorage new t.state.currentStorage]) := by
  unfold Traced.moveAndSwitch
  by_cases hseq : cfg.usrCfgSeq = true
  · rw [if_pos hseq] at hok
    rw [if_pos hseq, if_pos hseq]
    have hlen : (t.move cfg (answers ok) new).actions.length = t.actions.length + 1 :=
      List.length_append
    have h := switch_fails cfg (hok (t.move cfg (answers ok) new).actions (by omega) (by omega)) new
    rw [move_currentStorage] at h
    exact ⟨h.1, h.2.trans (List.append_assoc ..)⟩
  · rw [if_neg hseq] at hok
    rw [if_neg hseq, if_neg hseq]
    exact switch_fails cfg (hok _ le_rfl le_rfl) new

/-- The mount of the secondary card, while no switch works: the logs are saved, and perhaps
moved. -/
theorem secMounted_fails (hcur : t.state.currentStorage = st)
    (hok : ∀ h : List Action, t.actions.length ≤ h.length →
      h.length < t.actions.length + (emit cfg st .secMounted).length → ok h = false) :
    (act cfg (answers ok) t .secMounted).state.currentStorage = st ∧
      (act cfg (answers ok) t .secMounted).actions = t.actions ++ emit cfg st .secMounted := by
  simp only [act, emit] at hok ⊢
  by_cases hpref : aplogdCalcStoragePref cfg = .secondary
  · rw [if_pos hpref] at hok
    rw [if_pos hpref, if_pos hpref]
    have hlen : (t.save cfg (answers ok) .secondary).actions.length = t.actions.length + 1 :=
      List.length_append
    have hfail : ∀ h : List Action, (t.save cfg (answers ok) .secondary).actions.length ≤ h.length →
        h.length ≤ (t.save cfg (answers ok) .secondary).actions.length +
          (if cfg.usrCfgSeq then 1 else 0) → ok h = false := by
      intro h hge hle
      apply hok h (by omega)
      simp only [List.length_cons, List.length_append, List.length_nil]
      split_ifs at hle ⊢ <;> simp <;> omega
    have h := moveAndSwitch_fails cfg .secondary hfail
    rw [save_currentStorage, hcur] at h
    exact ⟨h.1, h.2.trans (List.append_assoc ..)⟩
  · rw [if_neg hpref, if_neg hpref]
    exact ⟨(save_currentStorage ..).trans hcur, rfl⟩

/-- The loss of the secondary card: a switch to the external one and a switch to the phone. -/
theorem secGone_fails (hcur : t.state.currentStorage = st)
    (hok : ∀ h : List Action, t.actions.length ≤ h.length →
      h.length < t.actions.length + (emit cfg st .secGone).length → ok h = false) :
    (act cfg (answers ok) t .secGone).state.currentStorage = st ∧
      (act cfg (answers ok) t .secGone).actions = t.actions ++ emit cfg st .secGone := by
  simp only [act, emit] at hok ⊢
  by_cases hsec : st = .secondary
  · subst hsec
    rw [if_pos rfl] at hok
    have h₁ := switch_fails cfg (hok t.actions le_rfl (by simp)) .external
    have hlen : (t.switch cfg (answers ok) .external).actions.length = t.actions.length + 1 :=
      List.length_append
    have h₂ := switch_fails cfg (hok (t.switch cfg (answers ok) .external).actions (by omega)
      (by rw [hlen]; simp)) .userdata
    rw [if_pos hcur, if_pos (h₁.1.trans hcur), if_pos rfl]
    rw [h₁.1, h₁.2, hcur] at h₂
    exact ⟨h₂.1, h₂.2.trans (List.append_assoc ..)⟩
  · rw [if_neg (by rw [hcur]; exact hsec), if_neg hsec]
    exact ⟨hcur, (List.append_nil _).symm⟩

/-- While no switch works, the storage stays and what is done can be told from the transition. -/
theorem act_fails (hcur : t.state.currentStorage = st) (hst : st ≠ .userdata) (tr : Transition)
    (hok : ∀ h : List Action, t.actions.length ≤ h.length →
      h.length < t.actions.length + (emit cfg st tr).length → ok h = false) :
    (act cfg (answers ok) t tr).state.currentStorage = st ∧
      (act cfg (answers ok) t tr).actions = t.actions ++ emit cfg st tr := by
  cases tr with
  | secMounted => exact secMounted_fails cfg hcur hok
  | secGone => exact secGone_fails cfg hcur hok
  | extMounted =>
    have hno : ¬ (aplogdCalcStoragePref cfg ≠ .userdata ∧
        (t.save cfg (answers ok) .external).state.currentStorage = .userdata) := by
      rw [save_currentStorage, hcur]
      exact fun h => hst h.2
    simp only [act, emit]
    rw [if_neg hno]
    exact ⟨(save_currentStorage ..).trans hcur, rfl⟩
  | extGone =>
    simp only [act, emit] at hok ⊢
    by_cases hext : st = .external
    · subst hext
      rw [if_pos rfl] at hok
      rw [if_pos hcur, if_pos rfl]
      have h := switch_fails cfg (hok t.actions le_rfl (by simp)) .userdata
      rwa [hcur] at h
    · rw [if_neg (by rw [hcur]; exact hext), if_neg hext]
      exact ⟨hcur, (List.append_nil _).symm⟩

/-- **Run lemma**: the same for a sequence of transitions. -/
theorem run_fails (trs : List Transition) (hcur : t.state.currentStorage = st)
    (hst : st ≠ .userdata) (hok : ∀ h : List Action, t.actions.length ≤ h.length →
      h.length < t.actions.length + (trs.flatMap (emit cfg st)).length → ok h = false) :
    (trs.foldl (act cfg (answers ok)) t).state.currentStorage = st ∧
      (trs.foldl (act cfg (answers ok)) t).actions = t.actions ++ trs.flatMap (emit cfg st) := by
  induction trs generalizing t with
  | nil => exact ⟨hcur, (List.append_nil _).symm⟩
  | cons tr trs ih =>
    simp only [List.flatMap_cons, List.length_append] at hok
    obtain ⟨hcur', hact⟩ := act_fails cfg hcur hst tr fun h hge hlt => hok h hge (by omega)
    have hlen := congrArg List.length hact
    rw [List.length_append] at hlen
    obtain ⟨hend, hacts⟩ := ih hcur' fun h hge hlt => hok h (by omega) (by omega)
    rw [List.foldl_cons, List.flatMap_cons]
    exact ⟨hend, by rw [hacts, hact, List.append_assoc]⟩

theorem moveAndSwitch_extends (t : Traced) (new : Storage) :
    t.actions <+: (t.moveAndSwitch cfg w new).actions := by
  unfold Traced.moveAndSwitch
  split_ifs
  · exact (List.prefix_append ..).trans (List.prefix_append (t.move cfg w new).actions _)
  · exact List.prefix_append ..

/-- A card that was mounted is saved before anything else. -/
theorem act_mounted_extends (t : Traced) :
    t.actions ++ [.save .secondary] <+: (act cfg w t .secMounted).actions ∧
      t.actions ++ [.save .external] <+: (act cfg w t .extMounted).actions := by
  constructor
  · rw [act]
    split_ifs
    · exact moveAndSwitch_extends cfg w (t.save cfg w .secondary) .secondary
    · exact List.prefix_rfl
  · rw [act]
    split_ifs
    · exact moveAndSwitch_extends cfg w (t.save cfg w .external) .external
    · exact List.prefix_rfl

/-- What was done stays on the record. -/
theorem act_extends (t : Traced) (tr : Transition) : t.actions <+: (act cfg w t tr).actions := by
  have hswitch : ∀ (t : Traced) new, t.actions <+: (t.switch cfg w new).actions :=
    fun t new => List.prefix_append ..
  cases tr with
  | secMounted => exact (List.prefix_append ..).trans (act_mounted_extends cfg w t).1
  | extMounted => exact (List.prefix_append ..).trans (act_mounted_extends cfg w t).2
  | secGone =>
    rw [act]
    split_ifs
    · exact (hswitch ..).trans (hswitch ..)
    · exact hswitch ..
    · exact List.prefix_rfl
  | extGone =>
    rw [act]
    split_ifs
    · exact hswitch ..
    · exact List.prefix_rfl

theorem run_extends (t : Traced) (trs : List Transition) :
    t.actions <+: (trs.foldl (act cfg w) t).actions :=
  List.foldlRecOn trs (act cfg w) (motive := fun t' : Traced => t.actions <+: t'.actions)
    List.prefix_rfl fun t' ht tr _ => ht.trans (act_extends cfg w t' tr)

/-- At the history `h`, the daemon leaves the secondary card; no other switch works. -/
theorem run_leave {h : List Action} (trs : List Transition)
    (hcur : t.state.currentStorage = .secondary) (hact : t.actions = h) :
    ((Transition.secGone :: trs).foldl (act cfg (answers fun k => k = h)) t).actions =
      h ++ .switch .secondary .external .external :: trs.flatMap (emit cfg .external) := by
  have hsw := switch_answers cfg (fun k => decide (k = h)) t .external
  rw [if_pos (decide_eq_true hact), hcur, hact] at hsw
  have hleave : act cfg (answers fun k => k = h) t .secGone =
      t.switch cfg (answers fun k => k = h) .external := by
    rw [act, if_pos hcur, if_neg (by rw [hsw.1]; nofun)]
  have hlen := congrArg List.length hsw.2
  rw [List.length_append, List.length_singleton] at hlen
  rw [List.foldl_cons, hleave, (run_fails cfg trs hsw.1 nofun ?_).2, hsw.2, List.append_assoc]
  · rfl
  · intro k hge _
    exact decide_eq_false fun hk => by rw [hk] at hge; omega

theorem act_extGone_secondary (hcur : t.state.currentStorage = .secondary) :
    act cfg w t .extGone = t :=
  if_neg (by rw [hcur]; nofun)

/-- The unmounting of the external card does not show before the secondary one was left. -/
theorem run_once {h rest : List Action} (trs : List Transition)
    (hcur : t.state.currentStorage = .secondary) (hact : t.actions = h)
    (hrun : (trs.foldl (act cfg (answers fun k => k = h)) t).actions =
      h ++ .switch .secondary .external .external :: rest) :
    rest.length ≤ (trs.flatMap (emit cfg .external)).length := by
  induction trs with
  | nil =>
    rw [List.foldl_nil, hact] at hrun
    have hlen := congrArg List.length hrun
    rw [List.length_append, List.length_cons] at hlen
    omega
  | cons tr trs ih =>
    have hpre := run_extends cfg (answers fun k => k = h)
      (act cfg (answers fun k => k = h) t tr) trs
    rw [← List.foldl_cons, hrun] at hpre
    cases tr with
    | secMounted =>
      have hsave := (act_mounted_extends cfg _ t).1.trans hpre
      rw [hact, List.prefix_append_right_inj] at hsave
      simp at hsave
    | extMounted =>
      have hsave := (act_mounted_extends cfg _ t).2.trans hpre
      rw [hact, List.prefix_append_right_inj] at hsave
      simp at hsave
    | secGone =>
      rw [run_leave cfg trs hcur hact] at hrun
      have hrest := List.cons.inj (List.append_cancel_left hrun)
      rw [← hrest.2]
      exact le_rfl
    | extGone =>
      rw [List.foldl_cons, act_extGone_secondary cfg _ hcur] at hrun
      have hle := ih hrun
      rw [List.flatMap_cons, List.length_append]
      omega

end Emit

/-- The daemon on the storage `st`, at the start of its record. -/
def onStorage (st : Storage) : Traced := ⟨setStorage st (State.start ⟨[]⟩ fun _ _ => none), []⟩

/-- The actions on every storage and in every world are the same. -/
def SameActions (a b : List Transition) : Prop :=
  ∀ w s, (a.foldl (act cfg w) ⟨s, []⟩).actions = (b.foldl (act cfg w) ⟨s, []⟩).actions

section Tell

variable {cfg} {p u v : List Transition}

/-- What shows on the storage `st` when no switch works. -/
theorem SameActions.emit_eq {a b : List Transition} (h : SameActions cfg (p ++ a) (p ++ b))
    (st : Storage) (hst : st ≠ .userdata) : a.flatMap (emit cfg st) = b.flatMap (emit cfg st) := by
  have hrun : ∀ l : List Transition,
      (l.foldl (act cfg (answers fun _ => false)) (onStorage st)).actions =
        l.flatMap (emit cfg st) :=
    fun l => (run_fails cfg l rfl hst fun _ _ _ => rfl).2
  have heq := h (answers fun _ => false) (onStorage st).state
  have heq' := (hrun (p ++ a)).symm.trans (heq.trans (hrun (p ++ b)))
  rw [List.flatMap_append, List.flatMap_append] at heq'
  exact List.append_cancel_left heq'

/-- Which card goes first shows if the switch from the secondary one works. -/
theorem SameActions.order (h : SameActions cfg (p ++ .secGone :: u) (p ++ .extGone :: v)) :
    False := by
  have hlen := congrArg List.length (h.emit_eq .external (by decide))
  -- the history after `p`, where the switch is to work
  obtain ⟨k, hk⟩ : ∃ k, p.flatMap (emit cfg .secondary) = k := ⟨_, rfl⟩
  obtain ⟨w, hw⟩ : ∃ w, answers (fun h => h = k) = w := ⟨_, rfl⟩
  obtain ⟨t, ht⟩ : ∃ t, p.foldl (act cfg w) (onStorage .secondary) = t := ⟨_, rfl⟩
  have hbefore : ∀ h : List Action, (onStorage .secondary).actions.length ≤ h.length →
      h.length < (onStorage .secondary).actions.length + (p.flatMap (emit cfg .secondary)).length →
        decide (h = k) = false := by
    intro h _ hlt
    refine decide_eq_false fun hh => ?_
    rw [hk, hh] at hlt
    simp [onStorage] at hlt
  have hp : t.state.currentStorage = .secondary ∧ t.actions = k := by
    rw [← hk, ← ht, ← hw]
    exact run_fails cfg p rfl (by decide) hbefore
  have heq : ((p ++ .secGone :: u).foldl (act cfg w) (onStorage .secondary)).actions =
      ((p ++ .extGone :: v).foldl (act cfg w) (onStorage .secondary)).actions := h w _
  rw [List.foldl_append, List.foldl_append, ht, ← hw, run_leave cfg u hp.1 hp.2, List.foldl_cons,
    act_extGone_secondary cfg _ hp.1] at heq
  have hle := run_once cfg v hp.1 hp.2 heq.symm
  simp only [List.flatMap_cons, emit, if_neg (show Storage.external ≠ .secondary by decide),
    if_true, List.nil_append, List.length_append, List.length_singleton] at hlen
  omega

variable (cfg) in
/-- Every transition shows on one of the two cards. -/
theorem emit_ne_nil (y : Transition) : emit cfg .secondary y ≠ [] ∨ emit cfg .external y ≠ [] := by
  cases y with
  | secMounted | secGone | extMounted => exact .inl nofun
  | extGone => exact .inr nofun

theorem SameActions.symm {a b : List Transition} (h : SameActions cfg a b) : SameActions cfg b a :=
  fun w s => (h w s).symm

theorem SameActions.not_nil {y : Transition}
    (h : SameActions cfg (p ++ []) (p ++ y :: v)) : False := by
  have hsec := h.emit_eq .secondary (by decide)
  have hext := h.emit_eq .external (by decide)
  rw [List.flatMap_cons, List.flatMap_nil, eq_comm, List.append_eq_nil_iff] at hsec hext
  rcases emit_ne_nil cfg y with hne | hne
  · exact hne hsec.1
  · exact hne hext.1

theorem SameActions.head_eq {x y : Transition} (h : SameActions cfg (p ++ x :: u) (p ++ y :: v)) :
    x = y := by
  have hsec := h.emit_eq .secondary (by decide)
  have hext := h.emit_eq .external (by decide)
  rw [List.flatMap_cons, List.flatMap_cons] at hsec hext
  cases x with
  | secMounted =>
    cases y with
    | secMounted => rfl
    | secGone | extMounted => simp [emit] at hsec
    | extGone => simp [emit] at hext
  | secGone =>
    cases y with
    | secGone => rfl
    | secMounted | extMounted => simp [emit] at hsec
    | extGone => exact h.order.elim
  | extMounted =>
    cases y with
    | extMounted => rfl
    | secMounted | secGone => simp [emit] at hsec
    | extGone => simp [emit] at hext
  | extGone =>
    cases y with
    | extGone => rfl
    | secMounted | extMounted => simp [emit] at hext
    | secGone => exact h.symm.order.elim

/-- **What is done tells the transitions.** -/
theorem SameActions.eq {a b : List Transition} (h : SameActions cfg (p ++ a) (p ++ b)) : a = b := by
  induction a generalizing p b with
  | nil =>
    cases b with
    | nil => rfl
    | cons y b => exact h.not_nil.elim
  | cons x a ih =>
    cases b with
    | nil => exact h.symm.not_nil.elim
    | cons y b =>
      obtain rfl := h.head_eq
      have hcons : SameActions cfg ((p ++ [x]) ++ a) ((p ++ [x]) ++ b) := by simpa using h
      rw [ih hcons]

end Tell

/-! ## The stream -/

theorem follow_eq (bufs : List CStr) (t : Traced) :
    follow cfg w bufs t = (bufs.flatMap (transitions cfg)).foldl (act cfg w) t := by
  rw [List.foldl_flatMap]
  rfl

/-- Strings that name the same transitions are followed in the same way, and no others are. -/
theorem follow_eq_iff (as bs : List CStr) :
    (∀ w s, (follow cfg w as ⟨s, []⟩).actions = (follow cfg w bs ⟨s, []⟩).actions ∧
      (follow cfg w as ⟨s, []⟩).state.currentStorage =
        (follow cfg w bs ⟨s, []⟩).state.currentStorage) ↔
      as.flatMap (transitions cfg) = bs.flatMap (transitions cfg) := by
  constructor
  · intro h
    have hsame : SameActions cfg (as.flatMap (transitions cfg)) (bs.flatMap (transitions cfg)) := by
      intro w s
      rw [← follow_eq, ← follow_eq]
      exact (h w s).1
    exact hsame.eq (p := [])
  · intro h w s
    rw [follow_eq, follow_eq, h]
    exact ⟨rfl, rfl⟩

/-- **When the daemon follows vold**: on whatever storage it is and whatever its calls return, it
does what it would do for each message alone just if the strings that the reads leave in the buffer
name the transitions that the messages name, in the same order. -/
theorem vold_followed_iff (d : Delivery) :
    (∀ w s, (follow cfg w d.texts ⟨s, []⟩).actions = (follow cfg w d.messages ⟨s, []⟩).actions ∧
      (follow cfg w d.texts ⟨s, []⟩).state.currentStorage =
        (follow cfg w d.messages ⟨s, []⟩).state.currentStorage) ↔
      d.texts.flatMap (transitions cfg) = d.messages.flatMap (transitions cfg) :=
  follow_eq_iff cfg d.texts d.messages

/-- If every read returns one whole message, the strings are the messages. -/
theorem Delivery.texts_of_separate (d : Delivery)
    (h : d.reads.map Read.chunk = d.messages.map (· ++ [CStr.nul])) : d.texts = d.messages := by
  have key : ∀ (reads : List Read) (messages : List CStr), (∀ m ∈ messages, CStr.nul ∉ m) →
      reads.map Read.chunk = messages.map (· ++ [CStr.nul]) → reads.map Read.text = messages := by
    intro reads
    induction reads with
    | nil =>
      intro messages _ heq
      exact (List.map_eq_nil_iff.mp heq.symm).symm
    | cons r reads ih =>
      intro messages hmsg heq
      cases messages with
      | nil => cases heq
      | cons m messages =>
        rw [List.map_cons, List.map_cons] at heq
        obtain ⟨hchunk, hrest⟩ := List.cons.inj heq
        have htext : r.text = m := r.text_of_message (hmsg m (by simp)) (hchunk ▸ List.prefix_rfl)
        rw [List.map_cons, htext, ih messages (fun m hm => hmsg m (by simp [hm])) hrest]
  exact key d.reads d.messages (fun m hm => (d.message m hm).1) h

/-- The secondary card is unmounted and mounted again. -/
def remount : List CStr :=
  ["605 Volume sdcard1 /storage/sdcard1 state changed from 4 (Mounted) to 5 (Unmounting)".toList,
    "605 Volume sdcard1 /storage/sdcard1 state changed from 3 (Checking) to 4 (Mounted)".toList]

theorem remount_text : ∀ m ∈ remount, CStr.nul ∉ m ∧ m.length < 100 := by
  decide +kernel

theorem length_encode_remount : (Framing.encode CStr.nul remount).length ≤ bufSize := by
  have h₁ := (remount_text _ (List.mem_cons_self ..)).2
  have h₂ := (remount_text _ (List.mem_cons_of_mem _ (List.mem_cons_self ..))).2
  rw [remount, Framing.encode_cons, Framing.encode_cons, Framing.encode_nil, bufSize,
    List.length_append, List.length_cons, List.length_append, List.length_singleton]
  omega

/-- Both messages arrive in one read. -/
def burst : Delivery where
  messages := remount
  reads := [⟨Framing.encode CStr.nul remount, List.replicate bufSize CStr.nul,
    fun h => (nomatch Framing.encode_eq_nil h), length_encode_remount, List.length_replicate⟩]
  message m hm := ⟨(remount_text m hm).1, (remount_text m hm).2.trans (by decide)⟩
  stream := List.flatten_singleton

/-- The second message of the burst is lost: the daemon leaves the card and does not come back to
it. -/
theorem burst_lost :
    (follow cardConfig (answers fun _ => true) burst.texts (onStorage .secondary)).actions =
        [.switch .secondary .external .external] ∧
      (follow cardConfig (answers fun _ => true) burst.messages (onStorage .secondary)).actions =
        [.switch .secondary .external .external, .save .secondary, .move .external .secondary,
          .switch .external .secondary .secondary] ∧
      (follow cardConfig (answers fun _ => true) burst.texts (onStorage .secondary)).actions ≠
        (follow cardConfig (answers fun _ => true) burst.messages (onStorage .secondary)).actions := by
  decide +kernel

end Omap4.Aplogd.Vold
