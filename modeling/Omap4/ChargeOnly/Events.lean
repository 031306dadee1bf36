import Omap4.ChargeOnly.Display
import Omap4.CString
import Omap4.Transfer

/-!
# Omap4.ChargeOnly.Events — the events of `charge_only_mode` (`events.c`)

`ev_get` polls the keyboards and the uevent socket and returns the first event it finds.  A keyboard
is read once; the socket is drained into one buffer on the stack, and the string in the buffer is
searched for the name of the charger's driver once, when nothing is left to receive.

What a device has to read is input (`EvFd`), and so is what the stack holds where the buffer lies.
A batch of datagrams is recognised by its last one alone (`ofBuffer_drain`), so `EVENT_BATTERY` is
lost for every batch that mentions the charger and does not end with such a datagram
(`battery_event_iff`).
-/

namespace Omap4.ChargeOnly

/-! ## The code -/

/-- What `ev_get` returns: the numbers of `events.h`, and -1. -/
inductive EvResult
  | battery
  | powerKeyDown
  | powerKeyUp
  | volumedownKeyDown
  | volumedownKeyUp
  | volumeupKeyDown
  | volumeupKeyUp
  | cameraKeyDown
  | cameraKeyUp
  | none
  deriving DecidableEq, Repr

/-- What the `switch` of `main` makes of it. -/
def EvResult.comEvent : EvResult → ComEvent
  | .battery => .battery
  | .powerKeyDown => .powerKeyDown
  | .powerKeyUp => .powerKeyUp
  | .volumedownKeyDown => .volumedownKeyDown
  | .volumeupKeyDown => .volumeupKeyDown
  | .cameraKeyDown => .cameraKeyDown
  | .volumedownKeyUp | .volumeupKeyUp | .cameraKeyUp | .none => .other

/-- `struct input_event` without its time. -/
structure InputEvent where
  type : ℕ
  code : ℕ
  value : ℤ
  deriving DecidableEq, Repr

/-- `EV_KEY`. -/
def evKey : ℕ := 1

/-- `EV_POWER_KEY_CODE` and the codes of the other three keys. -/
def evPowerKeyCode : ℕ := 116

def evVolumedownKeyCode : ℕ := 114

def evVolumeupKeyCode : ℕ := 115

def evCameraKeyCode : ℕ := 212

/-- The event is about the key `code`, with the value `EV_KEY_VALUE_DOWN` or `EV_KEY_VALUE_UP`. -/
def InputEvent.isKey (ev : InputEvent) (code : ℕ) (value : ℤ) : Bool :=
  ev.type = evKey && ev.code = code && ev.value = value

def keyEvent (ev : InputEvent) : EvResult :=
  if ev.isKey evPowerKeyCode 1 then .powerKeyDown
  else if ev.isKey evPowerKeyCode 0 then .powerKeyUp
  else if ev.isKey evVolumedownKeyCode 1 then .volumedownKeyDown
  else if ev.isKey evVolumedownKeyCode 0 then .volumedownKeyUp
  else if ev.isKey evVolumeupKeyCode 1 then .volumeupKeyDown
  else if ev.isKey evVolumeupKeyCode 0 then .volumeupKeyUp
  else if ev.isKey evCameraKeyCode 1 then .cameraKeyDown
  else if ev.isKey evCameraKeyCode 0 then .cameraKeyUp
  else .none

/-- `ev_type`. -/
inductive EvType
  | unknown
  | keyboard
  | uevent
  deriving DecidableEq, Repr

/-- An element of `ev_fds` after `poll`: whether it is ready, what a `read` of it gives (`none`
unless it is a whole event), and the datagrams that are queued on it. -/
structure EvFd where
  pollin : Bool
  read : Option InputEvent
  queue : List (List Char)
  deriving DecidableEq, Repr

/-- `ev_init`: the types of the keyboards that could be opened and of the socket. -/
def evInit (keyboards : ℕ) (socket : Bool) : List EvType :=
  List.replicate keyboards .keyboard ++ if socket then [.uevent] else []

/-- `CHARGER_DRIVER`. -/
def chargerDriver : CStr := "pm8921-charger".toList

/-- `sizeof(msg)`. -/
def msgSize : ℕ := 1024

/-- The loop around `recv`: every datagram is stored at the start of `msg`.  One of length 0 ends
it. -/
def drain : List (List Char) → List Char → List Char
  | [], msg => msg
  | d :: ds, msg => if d = [] then msg else drain ds (Transfer.store msg 0 (d.take msgSize))

/-- `strstr(msg, CHARGER_DRIVER)` after the loop. -/
def chargerMentioned (buf : List Char) : Bool :=
  (CStr.strstr chargerDriver (CStr.ofBuffer buf)).isSome

/-- The loop of `ev_get` over the devices; `stack` is what `msg` holds before anything is
received. -/
def scanDevices (stack : List Char) : List (EvType × EvFd) → EvResult
  | [] => .none
  | (type, fd) :: L =>
    if ¬ fd.pollin then scanDevices stack L
    else match type with
      | .keyboard =>
        match fd.read with
        | some ev => keyEvent ev
        | none => scanDevices stack L
      | .uevent =>
        if chargerMentioned (drain fd.queue stack) then .battery else scanDevices stack L
      | .unknown => scanDevices stack L

/-- `ready` says that `poll` returned a positive number. -/
def evGet (types : List EvType) (ready : Bool) (fds : List EvFd) (stack : List Char) : EvResult :=
  if ready then scanDevices stack (types.zip fds) else .none

/-! ## Batches -/

/-- **The buffer after a batch**: its string is that of the last datagram. -/
theorem ofBuffer_drain {batch : List (List Char)} (hne : batch ≠ [])
    (h : ∀ d ∈ batch, d.length < msgSize ∧ CStr.nul ∈ d) (msg : List Char) :
    CStr.ofBuffer (drain batch msg) = CStr.ofBuffer (batch.getLast hne) := by
  induction batch generalizing msg with
  | nil => exact absurd rfl hne
  | cons d ds ih =>
    obtain ⟨hlen, hnul⟩ := h d (by simp)
    have hd : d ≠ [] := List.ne_nil_of_mem hnul
    rw [drain, if_neg hd, List.take_of_length_le (by omega)]
    rcases ds with _ | ⟨d', ds⟩
    · show CStr.ofBuffer ([] ++ d ++ _) = CStr.ofBuffer d
      exact CStr.ofBuffer_append hnul _
    · rw [List.getLast_cons (by simp)]
      exact ih (by simp) (fun x hx => h x (List.mem_cons_of_mem _ hx)) _

/-- A keyboard that is not ready or has no whole event is passed over. -/
theorem scanDevices_keyboards {keyboards : List EvFd} (stack : List Char) (L : List (EvType × EvFd))
    (h : ∀ k ∈ keyboards, k.pollin = false ∨ k.read = none) :
    scanDevices stack (keyboards.map (EvType.keyboard, ·) ++ L) = scanDevices stack L := by
  induction keyboards with
  | nil => rfl
  | cons k ks ih =>
    have hrest := ih fun x hx => h x (List.mem_cons_of_mem _ hx)
    rw [List.map_cons, List.cons_append, scanDevices]
    rcases h k (by simp) with hk | hk
    · rw [if_pos (by simp [hk])]
      exact hrest
    · split_ifs
      · rw [hk]
        exact hrest
      · exact hrest

theorem zip_evInit (keyboards : List EvFd) (sock : EvFd) :
    (evInit keyboards.length true).zip (keyboards ++ [sock]) =
      keyboards.map (EvType.keyboard, ·) ++ [(.uevent, sock)] := by
  have hmap : (List.replicate keyboards.length EvType.keyboard).zip keyboards =
      keyboards.map (EvType.keyboard, ·) := by
    induction keyboards with
    | nil => rfl
    | cons k ks ih =>
      rw [List.length_cons, List.replicate_succ, List.zip_cons_cons, ih, List.map_cons]
  rw [evInit, List.zip_append (by simp), hmap]
  rfl

/-- The result of a call that comes to the socket. -/
theorem evGet_drained {keyboards : List EvFd} {sock : EvFd} (stack : List Char)
    (hready : sock.pollin = true) (hkeys : ∀ k ∈ keyboards, k.pollin = false ∨ k.read = none)
    (hne : sock.queue ≠ []) (hbatch : ∀ d ∈ sock.queue, d.length < msgSize ∧ CStr.nul ∈ d) :
    evGet (evInit keyboards.length true) true (keyboards ++ [sock]) stack =
      if chargerMentioned (sock.queue.getLast hne) then .battery else .none := by
  have hmsg : chargerMentioned (drain sock.queue stack) =
      chargerMentioned (sock.queue.getLast hne) := by
    unfold chargerMentioned
    rw [ofBuffer_drain hne hbatch]
  rw [evGet, if_pos rfl, zip_evInit, scanDevices_keyboards stack _ hkeys]
  simp only [scanDevices, hready, hmsg, not_true_eq_false, if_false]

/-- **When a battery event survives.**  In a call of `ev_get` that drains the socket, a batch of
datagrams that mentions the charger gives `EVENT_BATTERY`, and `main` runs `power_event`, if and
only if its last datagram does so. -/
theorem battery_event_iff {keyboards : List EvFd} {sock : EvFd} (stack : List Char)
    (hready : sock.pollin = true) (hkeys : ∀ k ∈ keyboards, k.pollin = false ∨ k.read = none)
    (hne : sock.queue ≠ []) (hbatch : ∀ d ∈ sock.queue, d.length < msgSize ∧ CStr.nul ∈ d) :
    ((∃ d ∈ sock.queue, chargerMentioned d = true) →
        evGet (evInit keyboards.length true) true (keyboards ++ [sock]) stack = .battery ∧
        ∀ r s, handleEvent (evGet (evInit keyboards.length true) true
          (keyboards ++ [sock]) stack).comEvent r s = powerEvent r s) ↔
      ((∃ d ∈ sock.queue, chargerMentioned d = true) →
        chargerMentioned (sock.queue.getLast hne) = true) := by
  refine imp_congr_right fun _ => ?_
  rw [evGet_drained stack hready hkeys hne hbatch]
  constructor
  · rintro ⟨hbattery, -⟩
    by_contra hlast
    rw [if_neg hlast] at hbattery
    cases hbattery
  · intro hlast
    rw [if_pos hlast]
    exact ⟨rfl, fun _ _ => rfl⟩

/-! ## Two batches -/

def chargerUevent : List Char := "change@/devices/platform/pm8921-charger".toList ++ [CStr.nul]

def rtcUevent : List Char := "change@/devices/platform/rtc".toList ++ [CStr.nul]

/-- A buffer that was cleared before the call. -/
def clearedMsg : List Char := List.replicate msgSize CStr.nul

/-- A keyboard with nothing to read, and a socket on which `batch` is queued. -/
def queuedFds (batch : List (List Char)) : List EvFd := [⟨false, none, []⟩, ⟨true, none, batch⟩]

theorem battery_event_last :
    evGet (evInit 1 true) true (queuedFds [rtcUevent, chargerUevent]) clearedMsg = .battery := by
  have hkeys : ∀ k ∈ [EvFd.mk false none []], k.pollin = false ∨ k.read = none := by simp
  have hbatch : ∀ d ∈ (EvFd.mk true none [rtcUevent, chargerUevent]).queue,
      d.length < msgSize ∧ CStr.nul ∈ d := by decide
  exact ((battery_event_iff clearedMsg rfl hkeys (by simp) hbatch).mpr (fun _ => by decide +kernel)
    ⟨chargerUevent, by simp, by decide +kernel⟩).1

/-- The datagram of the charger is overwritten by the one behind it. -/
theorem battery_event_overwritten :
    ¬ ∀ batch : List (List Char), batch ≠ [] → (∀ d ∈ batch, d.length < msgSize ∧ CStr.nul ∈ d) →
      (∃ d ∈ batch, chargerMentioned d = true) →
      evGet (evInit 1 true) true (queuedFds batch) clearedMsg = .battery := by
  intro h
  have hget := h [chargerUevent, rtcUevent] (by simp) (by decide)
    ⟨chargerUevent, by simp, by decide +kernel⟩
  have hnone : evGet (evInit 1 true) true (queuedFds [chargerUevent, rtcUevent]) clearedMsg =
      .none := by
    decide +kernel
  rw [hnone] at hget
  cases hget

end Omap4.ChargeOnly
