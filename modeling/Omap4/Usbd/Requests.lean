import Omap4.Framing
import Omap4.Usbd.Lock

/-!
# Omap4.Usbd.Requests — the requests of the application

An application writes its requests to a stream socket, each with its NUL.  The daemon takes what one
`read` returns for one request: it compares the text up to the first NUL with the requests of the
modes, and keeps nothing for the next read.  It is a receiver without a buffer in the sense of
`Omap4.Framing`, and `requests_served_iff` says when it acts on just the requests that were sent.
-/

namespace Omap4.Usbd

open Omap4.Framing

/-- A request that `usbd_socket_event` acts on. -/
def isRequest (b : Build) (r : CStr) : Bool := (findModeReq b r).isSome

/-! ## The vocabulary -/

def modeReqs (b : Build) : List CStr := (usbModeList b).filterMap fun x => x.modeReq

/-- The build does not change the requests. -/
theorem modeReqs_eq (b : Build) : modeReqs b = modeReqs ⟨false, false, false⟩ := rfl

theorem mem_modeReqs {b : Build} {r : CStr} (h : isRequest b r = true) : r ∈ modeReqs b := by
  obtain ⟨i, hi⟩ := Option.isSome_iff_exists.mp h
  have hreq := List.find?_some hi
  have hlt : i < (usbModeList b).length := by
    rw [usbModeList_length]
    exact (findModeReq_public hi).1.trans (Nat.lt_succ_self _)
  refine List.mem_filterMap.mpr ⟨usbModeEntry b i, ?_, by simpa using hreq⟩
  rw [usbModeEntry, List.getD_eq_getElem?_getD, List.getElem?_eq_getElem hlt, Option.getD_some]
  exact List.getElem_mem hlt

/-- The text of the requests: no NUL, and the two characters that every request starts with are
nowhere else in one. -/
theorem modeReqs_text : ∀ r ∈ modeReqs ⟨false, false, false⟩,
    CStr.nul ∉ r ∧ ['u', 's'] <+: r ∧ ∀ t ∈ r.tail.tails, ¬ ['u', 's'] <+: t := by
  decide +kernel

theorem request_text {b : Build} {r : CStr} (h : isRequest b r = true) :
    CStr.nul ∉ r ∧ ['u', 's'] <+: r ∧ ∀ t ∈ r.tail.tails, ¬ ['u', 's'] <+: t := by
  refine modeReqs_text r ?_
  rw [← modeReqs_eq b]
  exact mem_modeReqs h

theorem vocabulary (b : Build) : Vocabulary CStr.nul (isRequest b) where
  clean hr := (request_text hr).1
  apart := by
    intro r k n hr hk hn hpre
    obtain ⟨m, rfl⟩ : ∃ m, n = m + 1 := ⟨n - 1, by omega⟩
    refine (request_text hr).2.2 (r.drop (m + 1)) ?_ ((request_text hk).2.1.trans hpre)
    rw [List.mem_tails, ← List.drop_one, Nat.add_comm, ← List.drop_drop]
    exact List.drop_suffix _ _

/-! ## One message -/

variable {e : Env} {fd : ℕ} {s : State} {k : List CStr}

/-- The application is connected, the cable is an online cable that is not the factory cable, and
the requests `k` have been acted on. -/
def Serving (fd : ℕ) (k : List CStr) (s : State) : Prop :=
  s.usbdAppFd = some fd ∧ fd ∈ s.connectedAppsFd ∧ s.currCableStatus = .usb ∧
    s.currentUsbOnline = true ∧ s.served = k

theorem stable_serving (e : Env) (fd : ℕ) (k : List CStr) : Stable e True False (Serving fd k) where
  frame h := h
  setMode h _ _ := by
    unfold usbdSetUsbMode
    split_ifs <;> exact h
  enableDone h := h
  clear _ _ hf := hf.elim

theorem reply_ok (fd : ℕ) (text : Option CStr) (s : State) : (reply fd text true s).1 = true := by
  cases text <;> rfl

theorem answerRequest_ok {a : AppInput} (hresp : a.respOk = true) (hdone : a.doneOk = true)
    (i : ℕ) :
    (answerRequest e fd a i s).1 = true := by
  unfold answerRequest
  rw [hresp, hdone]
  split
  · next heq =>
    have hok := reply_ok fd (usbModeEntry e.build i).respOk s
    rw [heq] at hok
    exact hok
  · split_ifs
    · rfl
    · rfl
    · exact reply_ok _ _ _

theorem actOn_ok {a : AppInput} (hresp : a.respOk = true) (hdone : a.doneOk = true) (buf : CStr) :
    (actOn e fd a buf s).1 = true := by
  unfold actOn
  split
  · rfl
  · split_ifs
    · rfl
    · exact answerRequest_ok hresp hdone _

/-- With no failed write and no factory cable, handling a message is acting on its first string. -/
theorem handleApp_eq {a : AppInput} {buf : List Char} (hread : a.read = .data buf)
    (hresp : a.respOk = true) (hdone : a.doneOk = true) (hc : s.currCableStatus ≠ .factory) :
    handleApp e fd a s = (actOn e fd a (CStr.ofBuffer buf) s).2 := by
  have hevent : usbdSocketEvent e fd a s = actOn e fd a (CStr.ofBuffer buf) s := by
    unfold usbdSocketEvent
    rw [hread]
    exact if_neg hc
  have hok : (actOn e fd a (CStr.ofBuffer buf) s).1 = true := actOn_ok hresp hdone _
  unfold handleApp
  rw [hevent]
  split
  · next heq => rw [heq]
  · next heq =>
    rw [heq] at hok
    cases hok

/-- A message that is not a request changes nothing. -/
theorem actOn_ignored {a : AppInput} {buf : CStr} (h : findModeReq e.build buf = none) :
    (actOn e fd a buf s).2 = s := by
  unfold actOn
  rw [h]

theorem actOn_eq {a : AppInput} {buf : CStr} {i : ℕ} (h : findModeReq e.build buf = some i) :
    actOn e fd a buf s =
      if i = UsbMode.min.val then
        (true, usbdSetUsbMode e.build i { s with served := s.served ++ [buf] })
      else answerRequest e fd a i { s with served := s.served ++ [buf] } := by
  simp only [actOn, h]

theorem reply_currUsbMode (text : Option CStr) (ok : Bool) :
    (reply fd text ok s).2.currUsbMode = s.currUsbMode := by
  cases text <;> rfl

theorem actOn_serving (a : AppInput) (buf : CStr) (h : Serving fd k s) :
    Serving fd (k ++ if isRequest e.build buf then [buf] else []) (actOn e fd a buf s).2 := by
  have hserve : Serving fd (k ++ [buf]) { s with served := s.served ++ [buf] } :=
    ⟨h.1, h.2.1, h.2.2.1, h.2.2.2.1, congrArg (· ++ [buf]) h.2.2.2.2⟩
  unfold isRequest
  cases hi : findModeReq e.build buf with
  | none =>
    rw [actOn_ignored hi]
    simpa using h
  | some i =>
    have hstable := stable_serving e fd (k ++ [buf])
    rw [actOn_eq hi]
    show Serving fd (k ++ [buf]) _
    split_ifs
    · exact hstable.setMode hserve (findModeReq_public hi).1 fun _ => trivial
    · exact hstable.answerRequest (findModeReq_public hi) hserve

/-! ## The loop -/

/-- An iteration in which the cable stays as it is, no write fails and a read of the application's
socket returns bytes. -/
structure Quiet (fd : ℕ) (i : Iter) : Prop where
  cable : newCable i.uevent.uevent = none ∨ newCable i.uevent.uevent = some .usb
  notifyOk : i.uevent.notifyOk = true
  writesOk : ∀ d, i.device = some d → d.writesOk = true
  respOk : i.app.respOk = true
  doneOk : i.app.doneOk = true
  read : i.ready fd = true → ∃ buf, i.app.read = .data buf

/-- What the iteration reads from the application's socket. -/
def Iter.chunk (fd : ℕ) (i : Iter) : Option (List Char) :=
  match i.ready fd, i.app.read with
  | true, .data buf => some buf
  | _, _ => none

def chunks (fd : ℕ) (l : List Iter) : List (List Char) := l.filterMap (Iter.chunk fd)

theorem setCable_serving (h : Serving fd k s) : Serving fd k (setCable .usb s) :=
  ⟨h.1, h.2.1, rfl, rfl, h.2.2.2.2⟩

theorem save_serving (a : AcceptInput) (h : Serving fd k s) : Serving fd k (State.updateMaxfd e
    (usbdSaveSocketFd a.newfd { s with accepted := s.accepted ++ [a.newfd] })) := by
  unfold usbdSaveSocketFd
  split
  · next hnone => exact absurd (hnone.symm.trans h.1) nofun
  · exact h

theorem iterate_serving (halt : e.usbAltMode = false) {i : Iter} (hq : Quiet fd i)
    (h : Serving fd k s) :
    Serving fd (k ++ served CStr.nul (isRequest e.build) (chunks fd [i])) (iterate e s i) := by
  have hstable := stable_serving e fd k
  have hbefore : Serving fd k (beforeApp e s i) := by
    refine beforeApp_rule (fun _ hs => ?_) (fun d hd _ ht => ?_) (fun a t _ ht => ?_) h
    · refine hstable.handleUevent (by simp [hq.notifyOk]) (fun _ _ => trivial) (fun c hc => ?_) hs
      rcases hq.cable with hn | hu
      · exact absurd (hn.symm.trans hc) nofun
      · obtain rfl := Option.some.inj (hu.symm.trans hc)
        exact setCable_serving hs
    · exact hstable.handleDevice (by simp [hq.writesOk d hd]) (fun _ _ => trivial) ht
    · exact hstable.handleAccept (save_serving a ht)
  have hset : isSet s i fd = i.ready fd := by simp [isSet, h.2.1]
  have happ : iterate e s i =
      if i.ready fd = true then handleApp e fd i.app (beforeApp e s i) else beforeApp e s i := by
    show appPart e s i (beforeApp e s i) = _
    unfold appPart
    rw [hbefore.1]
    simp [halt, hset]
  rw [happ]
  split_ifs with hr
  · obtain ⟨buf, hbuf⟩ := hq.read hr
    have hchunk : chunks fd [i] = [buf] := by simp [chunks, Iter.chunk, hr, hbuf]
    have hserved : served CStr.nul (isRequest e.build) [buf] =
        if isRequest e.build (CStr.ofBuffer buf) then [CStr.ofBuffer buf] else [] := by
      rw [served_cons]
      rfl
    rw [handleApp_eq hbuf hq.respOk hq.doneOk (by rw [hbefore.2.2.1]; nofun), hchunk, hserved]
    exact actOn_serving _ _ hbefore
  · have hchunk : chunks fd [i] = [] := by simp [chunks, Iter.chunk, hr]
    simpa [hchunk, served] using hbefore

theorem exec_serving (halt : e.usbAltMode = false) {l : List Iter} {s' : State}
    (hq : ∀ i ∈ l, Quiet fd i) (h : Serving fd k s) (hrun : Machine.exec (step e) s l = some s') :
    Serving fd (k ++ served CStr.nul (isRequest e.build) (chunks fd l)) s' := by
  induction l generalizing s k with
  | nil =>
    obtain rfl := Option.some.inj hrun
    simpa [chunks, served] using h
  | cons i l ih =>
    obtain ⟨t, hstep, hrest⟩ := Machine.exec_cons_some hrun
    obtain rfl := step_eq_some hstep
    have hi := iterate_serving halt (hq i (by simp)) h
    have hl := ih (fun j hj => hq j (by simp [hj])) hi hrest
    have happ : chunks fd (i :: l) = chunks fd [i] ++ chunks fd l := by
      simp only [chunks, ← List.filterMap_append, List.singleton_append]
    rw [happ, served_append, ← List.append_assoc]
    exact hl

/-- The requests `rs`, none of which is as long as the buffer, reach the daemon in the reads
`cs`. -/
structure Delivery (rs : List CStr) (cs : List (List Char)) : Prop where
  requests : ∀ r ∈ rs, CStr.nul ∉ r ∧ r.length < socketBufferSize
  reads : ∀ c ∈ cs, c ≠ [] ∧ c.length ≤ socketBufferSize
  stream : cs.flatten = encode CStr.nul rs

/-- A request that is cut may even be taken for another one. -/
example : served CStr.nul (isRequest ⟨false, false, false⟩)
    ["usb_mode_msc".toList, "_only".toList ++ [CStr.nul]] = ["usb_mode_msc".toList] := by
  decide +kernel

/-! ## Two requests -/

def mtpThenMsc : List CStr := ["usb_mode_mtp".toList, "usb_mode_msc".toList]

theorem requestIter_quiet (buf : List Char) : Quiet 6 (requestIter 6 buf) where
  cable := .inl rfl
  notifyOk := rfl
  writesOk := nofun
  respOk := rfl
  doneOk := rfl
  read _ := ⟨buf, rfl⟩

/-- Each request has a read of its own. -/
def separateRun : List Iter :=
  [requestIter 6 ("usb_mode_mtp".toList ++ [CStr.nul]),
    requestIter 6 ("usb_mode_msc".toList ++ [CStr.nul])]

end Omap4.Usbd
