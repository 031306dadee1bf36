import Mathlib.Data.Finset.Basic
import Omap4.Machine
import Omap4.Usbd.Modes

/-!
# Omap4.Usbd.Daemon — the main loop of usbd (`usb_app.c`)

One iteration of the loop of `main` is one step (`step`): the uevent, the event of the device file,
the connection and the message of the application, in this order and each only if its descriptor is
ready. `boot` gives the state in which the loop starts.

What the system answers is input, in a record for each handler: the values of the properties, what a
read returns, and whether those writes succeed whose result the code looks at.  The fields of a
device event are input as well, as the parser leaves them in its buffers.  Of a `scsi_device` uevent
only the message matters that it makes the daemon send.  What `cdrom_read_version_key` writes to the
driver before the loop is left out.

Four fields of the state are not in the code: `calls` records the mode and the sysfs files after
each call of `usbd_set_usb_mode` and `usbd_enum_process`, `served` the requests that were acted on,
`accepted` and `closed` what `accept` returned and `close` was called with.
-/

namespace Omap4.Usbd

/-! ## Variables -/

/-- `MOTO_ACCY_TYPE_T`. -/
inductive Cable
  | usb
  | factory
  | unknown
  deriving DecidableEq, Repr

/-- `MOTO_MODE_TYPE_T`. -/
inductive ModeType
  | normal
  | debug
  | bptools
  | tablet
  | unknown
  deriving DecidableEq, Repr

/-- `USBD_STATE_T`. -/
inductive UsbdState
  | cableDefault
  | cableDetached
  | cableAttached
  | enumInProgress
  | enumerated
  deriving DecidableEq, Repr

/-- What does not change once the loop has started: the build, the properties read at start-up and
the descriptors opened there. -/
structure Env where
  build : Build
  /-- `ro.usb_mode` -/
  usbMode : CStr
  /-- `persist.usb.android_config` -/
  androidConfig : CStr
  /-- `ro.bootmode` -/
  bootmode : CStr
  ueventSock : ℕ
  usbDeviceFd : ℕ
  /-- what `socket_local_server` returns -/
  serverSock : ℕ
  deriving DecidableEq, Repr

def usbdGetStartupMode (e : Env) : ModeType :=
  if e.usbMode = "debug".toList then .debug
  else if e.androidConfig = "1".toList then .debug
  else if e.bootmode = "bp-tools".toList then .bptools
  else if e.build.tabletMode then .tablet
  else .normal

/-- `usbd_mode`. -/
def Env.usbdMode (e : Env) : ModeType := usbdGetStartupMode e

/-- `usb_alt_mode`. -/
def Env.usbAltMode (e : Env) : Bool := e.usbdMode ≠ .normal

/-- `usbd_server_fd`, -1 in the alternate modes. -/
def Env.usbdServerFd (e : Env) : Option ℕ := if e.usbAltMode then none else some e.serverSock

/-- The variables of the daemon, with the files and descriptors they are about. -/
structure State where
  currUsbMode : ℕ
  currentState : UsbdState
  currCableStatus : Cable
  currentUsbOnline : Bool
  usbGetDesCount : ℕ
  tetheringEnabled : Bool
  /-- `usbd_app_fd`; -1 is `none` -/
  usbdAppFd : Option ℕ
  connectedAppsFd : Finset ℕ
  maxFd : ℕ
  sysfs : Sysfs
  /-- the writes to `usb_device_fd` -/
  driver : List CStr
  /-- the writes to applications -/
  sent : List (ℕ × CStr)
  calls : List (ℕ × Sysfs)
  served : List CStr
  accepted : List ℕ
  closed : List ℕ
  deriving DecidableEq

/-- `write(fd, text, strlen(text) + 1)` to an application. -/
def State.write (fd : ℕ) (text : CStr) (s : State) : State :=
  { s with sent := s.sent ++ [(fd, text)] }

def State.record (s : State) : State := { s with calls := s.calls ++ [(s.currUsbMode, s.sysfs)] }

/-! ## Modes -/

/-- The `pre_disable` and `disable_done` hooks of the current mode. -/
def State.leaveMode (b : Build) (s : State) : State :=
  { s with
    sysfs := (usbModeEntry b s.currUsbMode).disableDone
      ((usbModeEntry b s.currUsbMode).preDisable s.sysfs) }

/-- The `pre_enable` hook of the current mode, and its name for the driver. -/
def State.enterMode (b : Build) (s : State) : State :=
  { s with
    sysfs := (usbModeEntry b s.currUsbMode).preEnable s.sysfs
    driver := s.driver ++ [(usbModeEntry b s.currUsbMode).name] }

def usbdSetUsbMode (b : Build) (newMode : ℕ) (s : State) : State :=
  if newMode = UsbMode.min.val then State.record { s.leaveMode b with currUsbMode := newMode }
  else (State.enterMode b { s.leaveMode b with currUsbMode := newMode }).record

/-- The value of `persist.service.adb.enable` as `property_get` leaves it; its length is what
`property_get` returns. -/
def usbdGetAdbProperty (buf : CStr) : Option Bool :=
  if buf = [] then none else some (buf = "1".toList)

/-- The argument is the value of `persist.factory.allow_adb`. -/
def usbdFactorycableAdbEnabled (buf : CStr) : Bool := buf = "1".toList

/-- `usb_alt_mode_tlb`, which has rows for two of the modes. -/
def usbAltModeTlb : ModeType → Bool → Bool → UsbMode
  | .tablet, false, _ => .cdrom
  | .tablet, true, false => .tabletNetworkMtpAdb
  | .tablet, true, true => .rndisAdb
  | _, false, false => .bptoolsEth
  | _, false, true => .rndisBptoolsEth
  | _, true, false => .bptoolsEthAdb
  | _, true, true => .rndisBptoolsEthAdb

/-- `adb_en` and `tether_en`: the value of a field that says neither is -1. -/
def enableField (enable disable buf : CStr) : Option Bool :=
  if buf = enable then some true else if buf = disable then some false else none

def adbField : CStr → Option Bool := enableField "adb_enable".toList "adb_disable".toList

def tetheringField : CStr → Option Bool :=
  enableField "tethering_enable".toList "tethering_disable".toList

/-- `alt_new_mode`; `none` is a return before it is set. -/
def altNewMode (mode : ModeType) (adbEn tetherEn : Option Bool) (tethering : Bool) (adb : CStr) :
    Option UsbMode :=
  match mode with
  | .debug => some (if adbEn = some true ∨ tetherEn = some true then .mscAdb else .msc)
  | .bptools | .tablet =>
    (adbEn.or (usbdGetAdbProperty adb)).map fun en => usbAltModeTlb mode en tethering
  | .normal | .unknown => none

def setAltMode (e : Env) (adbEn tetherEn : Option Bool) (adb : CStr) (s : State) : State :=
  match altNewMode e.usbdMode adbEn tetherEn s.tetheringEnabled adb with
  | none => s
  | some m => if m.val < UsbMode.max.val then usbdSetUsbMode e.build m.val s else s

/-- `adb` is the value of the property, if it is read. -/
def usbdAltModeSet (e : Env) (adbBuf tetherBuf adb : CStr) (s : State) : State :=
  if adbField adbBuf = none ∧ tetheringField tetherBuf = none then s
  else setAltMode e (adbField adbBuf) (tetheringField tetherBuf) adb
    { s with tetheringEnabled := (tetheringField tetherBuf).getD s.tetheringEnabled }

/-- The modes of `usbd_enumerate_default_mode`.  The property that could not be read is -1, which
the code takes for true. -/
def defaultMode (mode : ModeType) (adb : CStr) : Option UsbMode :=
  match mode with
  | .debug => some (if usbdGetAdbProperty adb = some false then .msc else .mscAdb)
  | .bptools => some (if usbdGetAdbProperty adb = some false then .bptoolsEth else .bptoolsEthAdb)
  | .tablet => some (if usbdGetAdbProperty adb = some false then .cdrom else .tabletNetworkMtpAdb)
  | .normal | .unknown => none

def usbdEnumerateDefaultMode (e : Env) (adb : CStr) (s : State) : State :=
  match defaultMode e.usbdMode adb with
  | none => s
  | some m => usbdSetUsbMode e.build m.val s

/-- The mode set when a factory cable is connected. -/
def factoryMode (allowAdb : CStr) : UsbMode :=
  if usbdFactorycableAdbEnabled allowAdb then .networkAdb else .network

/-! ## The application -/

def usbdGetMaxfd (e : Env) (s : State) : ℕ :=
  max (max (max e.ueventSock e.usbDeviceFd) (e.usbdServerFd.getD 0)) (s.usbdAppFd.getD 0)

def State.updateMaxfd (e : Env) (s : State) : State := { s with maxFd := usbdGetMaxfd e s }

/-- What the code does wherever a read or a write of the application's socket failed. -/
def clearApp (e : Env) (fd : ℕ) (s : State) : State :=
  State.updateMaxfd e { s with connectedAppsFd := s.connectedAppsFd.erase fd, usbdAppFd := none }

def usbdSaveSocketFd (newfd : ℕ) (s : State) : State :=
  match s.usbdAppFd with
  | none => { s with connectedAppsFd := insert newfd s.connectedAppsFd, usbdAppFd := some newfd }
  | some _ => s

def usbdSendAdbStatus (fd : ℕ) (on : Bool) (s : State) : State :=
  s.write fd (if on then "usbd_adb_status_on".toList else "usbd_adb_status_off".toList)

def usbdSendTetheringStatus (fd : ℕ) (on : Bool) (s : State) : State :=
  s.write fd (if on then "usbd_tethering_status_on".toList else "usbd_tethering_status_off".toList)

/-- `notification_message`. -/
def notificationMessage : UsbdState → Option CStr
  | .cableAttached => some "cable_connected".toList
  | .cableDetached => some "cable_disconnected".toList
  | .enumInProgress => some "get_descriptor".toList
  | .enumerated => some "usb_enumerated".toList
  | .cableDefault => none

def usbdNotifyCurrentStatus (fd : ℕ) (s : State) : State :=
  match notificationMessage s.currentState with
  | none => s
  | some m => s.write fd m

/-! ## Uevents -/

/-- What `process_usb_uevent_message` finds: a message it ignores (it did not come from the kernel,
was too long, or is about something else), a change of the switch with the first character of the
state file (`none`: it could not be read), or a `scsi_device` event with the message for the
application. -/
inductive Uevent
  | ignored
  | switch (state : Option Char)
  | scsi (event : Option CStr)
  deriving DecidableEq, Repr

def readUsbSwitchState : Option Char → Option Cable
  | none => none
  | some c => some (if c = '1' then .usb else if c = '2' then .factory else .unknown)

/-- The change of the cable; the driver is told of a detached one. -/
def setCable (c : Cable) (s : State) : State :=
  if c ≠ .unknown then
    { s with currCableStatus := c, currentUsbOnline := true, currentState := .cableAttached }
  else
    { s with
      currCableStatus := c, currentUsbOnline := false, currentState := .cableDetached
      usbGetDesCount := 0, driver := s.driver ++ ["usb_cable_detach".toList] }

/-- `none` when the result is 0, with no change of the cable. -/
def newCable : Uevent → Option Cable
  | .switch state => readUsbSwitchState state
  | .ignored | .scsi _ => none

/-- The message of a `scsi_device` event; a `write` to -1 does nothing. -/
def sendDiskEvent (u : Uevent) (s : State) : State :=
  match u, s.usbdAppFd with
  | .scsi (some text), some fd => s.write fd text
  | _, _ => s

structure UeventInput where
  uevent : Uevent
  allowAdb : CStr
  adb : CStr
  notifyOk : Bool
  deriving DecidableEq, Repr

/-- Nothing is written when there is nothing to notify. -/
def notifyApp (e : Env) (ok : Bool) (s : State) : State :=
  match s.usbdAppFd with
  | none => s
  | some fd =>
    if ok ∨ notificationMessage s.currentState = none then usbdNotifyCurrentStatus fd s
    else clearApp e fd (usbdNotifyCurrentStatus fd s)

def usbdHandleCableStatusChange (e : Env) (u : UeventInput) (s : State) : State :=
  if s.currCableStatus = .factory then usbdSetUsbMode e.build (factoryMode u.allowAdb).val s
  else if ¬ e.usbAltMode then notifyApp e u.notifyOk s
  else if s.currCableStatus = .usb then
    usbdEnumerateDefaultMode e u.adb { s with tetheringEnabled := false }
  else s

/-- `process_usb_uevent_message` and, when it reports a change,
`usbd_handle_cable_status_change`. -/
def handleUevent (e : Env) (u : UeventInput) (s : State) : State :=
  match newCable u.uevent with
  | some c => usbdHandleCableStatusChange e u (setCable c s)
  | none => sendDiskEvent u.uevent s

/-! ## Device events -/

/-- A message of the device file: its fields, the properties read for it
(`persist.service.adb.enable` is read by two functions) and the outcomes of the writes. -/
structure DeviceInput where
  pcSwitch : CStr
  adbEnable : CStr
  tetheringEnable : CStr
  enu : CStr
  allowAdb : CStr
  altAdb : CStr
  switchAdb : CStr
  switchOk : Bool
  descOk : Bool
  enumOk : Bool
  deriving DecidableEq, Repr

def DeviceInput.writesOk (d : DeviceInput) : Bool := d.switchOk && d.descOk && d.enumOk

/-- The `enable_done` hook of the current mode. -/
def State.enableDone (b : Build) (s : State) : State :=
  State.record { s with sysfs := (usbModeEntry b s.currUsbMode).enableDone s.sysfs }

/-- `usbd_enum_process(usbd_app_fd)`, and what follows when it fails. -/
def usbdEnumProcess (e : Env) (ok : Bool) (s : State) : State :=
  match s.usbdAppFd, (usbModeEntry e.build s.currUsbMode).modeDone with
  | some fd, some m =>
    if ok then (s.enableDone e.build).write fd m
      else clearApp e fd ((s.enableDone e.build).write fd m)
  | _, _ => s.enableDone e.build

/-- The loop of `usb_req_mode_switch`: the `switch_req` of the first mode of this name that has
one. -/
def findSwitchReq (b : Build) (tag : CStr) : Option CStr :=
  (List.range UsbMode.max.val).findSome? fun i =>
    if (usbModeEntry b i).name = tag then (usbModeEntry b i).switchReq else none

/-- What the CD-ROM modes change to. -/
def cdromSwitchMode (mode : ModeType) (adbEn tethering : Bool) : UsbMode :=
  if mode = .tablet then
    match adbEn, tethering with
    | false, true => .rndis
    | false, false => .tabletNetworkMtp
    | true, true => .rndisAdb
    | true, false => .tabletNetworkMtpAdb
  else if adbEn then .ngpAdb else .ngp

/-- The write of a switch request or of a descriptor notification to the application, if there is
one. -/
def writeApp (e : Env) (text : CStr) (ok : Bool) (s : State) : State :=
  match s.usbdAppFd with
  | none => s
  | some fd => if ok then s.write fd text else clearApp e fd (s.write fd text)

def usbReqModeSwitch (e : Env) (d : DeviceInput) (s : State) : State :=
  match usbdGetAdbProperty d.switchAdb, findSwitchReq e.build d.pcSwitch with
  | none, _ => s
  | some _, none =>
    if d.pcSwitch = "cdrom2".toList then usbdSetUsbMode e.build UsbMode.cdrom2.val s else s
  | some en, some req =>
    if s.currUsbMode = UsbMode.cdrom.val ∨ s.currUsbMode = UsbMode.cdrom2.val then
      usbdSetUsbMode e.build (cdromSwitchMode e.usbdMode en s.tetheringEnabled).val s
    else writeApp e req d.switchOk s

def sendField (send : ℕ → Bool → State → State) (fd : ℕ) : Option Bool → State → State
  | none => id
  | some on => send fd on

/-- The status messages, or the mode of an alternate start-up. -/
def handleStatusFields (e : Env) (d : DeviceInput) (s : State) : State :=
  if e.usbAltMode ∧ s.currentUsbOnline then
    usbdAltModeSet e d.adbEnable d.tetheringEnable d.altAdb s
  else match s.usbdAppFd with
    | none => s
    | some fd => sendField usbdSendTetheringStatus fd (tetheringField d.tetheringEnable)
        (sendField usbdSendAdbStatus fd (adbField d.adbEnable) s)

/-- Only the first `get_desc` after a detached cable is reported. -/
def handleGetDesc (e : Env) (d : DeviceInput) (s : State) : State :=
  if s.usbGetDesCount + 1 = 1 then
    writeApp e "get_descriptor".toList d.descOk
      { s with usbGetDesCount := s.usbGetDesCount + 1, currentState := .enumInProgress }
  else { s with usbGetDesCount := s.usbGetDesCount + 1 }

def handleEnumField (e : Env) (d : DeviceInput) (s : State) : State :=
  if "get_desc".toList.isPrefixOf d.enu then handleGetDesc e d s
  else if "enumerated".toList.isPrefixOf d.enu then
    usbdEnumProcess e d.enumOk { s with currentState := .enumerated }
  else s

/-- The fields of an event that are handled with a factory cable. -/
def handleFactoryEvent (e : Env) (d : DeviceInput) (s : State) : State :=
  if usbdFactorycableAdbEnabled d.allowAdb ∧ d.adbEnable = "adb_enable".toList then
    usbdSetUsbMode e.build UsbMode.networkAdb.val s
  else if d.adbEnable = "adb_disable".toList then usbdSetUsbMode e.build UsbMode.network.val s
  else s

def handleSwitchField (e : Env) (d : DeviceInput) (s : State) : State :=
  if d.pcSwitch ≠ "none".toList then usbReqModeSwitch e d s else s

/-- The fields of an event with any other cable. -/
def handleUsbEvent (e : Env) (d : DeviceInput) (s : State) : State :=
  if (handleStatusFields e d s).currCableStatus = .usb ∧
    (handleStatusFields e d s).currentUsbOnline then
    handleEnumField e d (handleSwitchField e d (handleStatusFields e d s))
  else handleStatusFields e d s

def handleDevice (e : Env) (d : DeviceInput) (s : State) : State :=
  if s.currCableStatus = .factory then handleFactoryEvent e d s else handleUsbEvent e d s

/-! ## Connections and requests -/

structure AcceptInput where
  newfd : ℕ
  adb : CStr
  deriving DecidableEq, Repr

/-- The flag of the status is -1 for a property that could not be read, which is sent as off. -/
def greetApp (a : AcceptInput) (s : State) : State :=
  if s.currCableStatus ≠ .factory then
    usbdNotifyCurrentStatus a.newfd
      (usbdSendAdbStatus a.newfd (usbdGetAdbProperty a.adb = some true) s)
  else usbdSendAdbStatus a.newfd (usbdGetAdbProperty a.adb = some true) s

def handleAccept (e : Env) (a : AcceptInput) (s : State) : State :=
  greetApp a (State.updateMaxfd e
    (usbdSaveSocketFd a.newfd { s with accepted := s.accepted ++ [a.newfd] }))

/-- `SOCKET_BUFFER_SIZE`. -/
def socketBufferSize : ℕ := 1024

/-- What `read` returns: an error, the end of the stream, or bytes. -/
inductive AppRead
  | error
  | eof
  | data (buf : List Char)
  deriving DecidableEq, Repr

structure AppInput where
  read : AppRead
  respOk : Bool
  doneOk : Bool
  deriving DecidableEq, Repr

/-- The loop of `usbd_socket_event`: the first mode with this `mode_req`. -/
def findModeReq (b : Build) (buf : CStr) : Option ℕ :=
  (List.range UsbMode.max.val).find? fun i => (usbModeEntry b i).modeReq = some buf

/-- A reply, if the entry has one; nothing can fail when there is none. -/
def reply (fd : ℕ) (text : Option CStr) (ok : Bool) (s : State) : Bool × State :=
  match text with
  | none => (true, s)
  | some t => (ok, s.write fd t)

/-- The branch for the modes other than `USB_MODE_MIN`. -/
def answerRequest (e : Env) (fd : ℕ) (a : AppInput) (i : ℕ) (s : State) : Bool × State :=
  match reply fd (usbModeEntry e.build i).respOk a.respOk s with
  | (false, s) => (false, s)
  | (true, s) =>
    if s.currUsbMode ≠ i then
      (true, if s.currentUsbOnline then usbdSetUsbMode e.build i s else s)
    else reply fd (usbModeEntry e.build s.currUsbMode).modeDone a.doneOk s

/-- What a request does; the result is `false` for a failed write. -/
def actOn (e : Env) (fd : ℕ) (a : AppInput) (buf : CStr) (s : State) : Bool × State :=
  match findModeReq e.build buf with
  | none => (true, s)
  | some i =>
    if i = UsbMode.min.val then
      (true, usbdSetUsbMode e.build i { s with served := s.served ++ [buf] })
    else answerRequest e fd a i { s with served := s.served ++ [buf] }

/-- The result is `false` where the code returns a negative number. -/
def usbdSocketEvent (e : Env) (fd : ℕ) (a : AppInput) (s : State) : Bool × State :=
  match a.read with
  | .error => (false, s)
  | .eof => (false, { s with closed := s.closed ++ [fd] })
  | .data buf =>
    if s.currCableStatus = .factory then (true, s) else actOn e fd a (CStr.ofBuffer buf) s

def handleApp (e : Env) (fd : ℕ) (a : AppInput) (s : State) : State :=
  match usbdSocketEvent e fd a s with
  | (true, s) => s
  | (false, s) => clearApp e fd s

/-! ## The loop -/

/-- What one iteration meets: the descriptors that `select` reports (all of them after a failed
`select`), and what each handler reads.  A device file without a message (`rc <= 0`) and a failed
`accept` are `none`. -/
structure Iter where
  ready : ℕ → Bool
  uevent : UeventInput
  device : Option DeviceInput
  accept : Option AcceptInput
  app : AppInput

/-- `FD_ISSET(fd, &rset)` in an iteration that starts in `s₀`. -/
def isSet (s₀ : State) (i : Iter) (fd : ℕ) : Bool := fd ∈ s₀.connectedAppsFd && i.ready fd

def ueventPart (e : Env) (s₀ : State) (i : Iter) (s : State) : State :=
  if isSet s₀ i e.ueventSock then handleUevent e i.uevent s else s

def devicePart (e : Env) (s₀ : State) (i : Iter) (s : State) : State :=
  match i.device with
  | some d => if isSet s₀ i e.usbDeviceFd then handleDevice e d s else s
  | none => s

def acceptPart (e : Env) (s₀ : State) (i : Iter) (s : State) : State :=
  match e.usbdServerFd, i.accept with
  | some fd, some a => if isSet s₀ i fd then handleAccept e a s else s
  | _, _ => s

def appPart (e : Env) (s₀ : State) (i : Iter) (s : State) : State :=
  match s.usbdAppFd with
  | some fd => if ¬ e.usbAltMode ∧ isSet s₀ i fd then handleApp e fd i.app s else s
  | none => s

def iterate (e : Env) (s : State) (i : Iter) : State :=
  appPart e s i (acceptPart e s i (devicePart e s i (ueventPart e s i s)))

/-- The state in which an iteration comes to the application's message. -/
def beforeApp (e : Env) (s : State) (i : Iter) : State :=
  acceptPart e s i (devicePart e s i (ueventPart e s i s))

/-- **Loop rule**, up to the application's message: a property has to be kept by the handlers, with
what the iteration gives them. -/
theorem beforeApp_rule {e : Env} {P : State → Prop} {s : State} {i : Iter}
    (huevent : isSet s i e.ueventSock = true → P s → P (handleUevent e i.uevent s))
    (hdevice : ∀ d, i.device = some d → isSet s i e.usbDeviceFd = true → P (ueventPart e s i s) →
      P (handleDevice e d (ueventPart e s i s)))
    (haccept : ∀ a t, i.accept = some a → P t → P (handleAccept e a t)) (h : P s) :
    P (beforeApp e s i) := by
  have h1 : P (ueventPart e s i s) := by
    unfold ueventPart
    split_ifs with hset
    · exact huevent hset h
    · exact h
  have h2 : P (devicePart e s i (ueventPart e s i s)) := by
    unfold devicePart
    split
    · next d hd =>
      split_ifs with hset
      · exact hdevice d hd hset h1
      · exact h1
    · exact h1
  unfold beforeApp acceptPart
  split
  · next a _ ha =>
    split_ifs
    · exact haccept _ _ ha h2
    · exact h2
  · exact h2

/-- **Loop rule** for a whole iteration. -/
theorem iterate_rule {e : Env} {P : State → Prop} {s : State} {i : Iter}
    (happ : ∀ fd t, t.usbdAppFd = some fd → P t → P (handleApp e fd i.app t))
    (h : P (beforeApp e s i)) : P (iterate e s i) := by
  unfold beforeApp at h
  unfold iterate appPart
  split
  · next hfd =>
    split_ifs
    · exact happ _ _ hfd h
    · exact h
  · exact h

/-- A descriptor that `accept` returned and that has not been closed since. -/
def State.isOpen (s : State) (fd : ℕ) : Bool := s.closed.count fd < s.accepted.count fd

/-- The kernel never returns a descriptor that is open. -/
def freshFd (e : Env) (s : State) (fd : ℕ) : Bool :=
  fd ≠ e.ueventSock && fd ≠ e.usbDeviceFd && some fd ≠ e.usbdServerFd && !s.isOpen fd

def step (e : Env) (s : State) (i : Iter) : Option State :=
  if i.accept.all fun a => freshFd e s a.newfd then some (iterate e s i) else none

/-- What is read before the loop. -/
structure BootInput where
  switch : Option Char
  allowAdb : CStr
  adb : CStr
  deriving DecidableEq, Repr

/-- The variables after `usbd_get_initial_cable_status` and `FD_SET`. -/
def initState (e : Env) (c : Cable) (sysfs : Sysfs) : State where
  currUsbMode := UsbMode.min.val
  currentState := if c ≠ .unknown then .cableAttached else .cableDefault
  currCableStatus := c
  currentUsbOnline := c ≠ .unknown
  usbGetDesCount := 0
  tetheringEnabled := false
  usbdAppFd := none
  connectedAppsFd := {e.ueventSock, e.usbDeviceFd} ∪ if e.usbAltMode then ∅ else {e.serverSock}
  maxFd := max (max e.ueventSock e.usbDeviceFd) (e.usbdServerFd.getD 0)
  sysfs := sysfs
  driver := []
  sent := []
  calls := []
  served := []
  accepted := []
  closed := []

/-- The handling of a cable that is connected before the daemon starts. -/
def bootMode (e : Env) (i : BootInput) (s : State) : State :=
  if ¬ s.currentUsbOnline then s
  else if s.currCableStatus = .factory then usbdSetUsbMode e.build (factoryMode i.allowAdb).val s
  else if e.usbAltMode ∧ s.currCableStatus = .usb then usbdEnumerateDefaultMode e i.adb s
  else s

/-- `main` up to the loop; it returns when the state of the cable cannot be read. -/
def boot (e : Env) (sysfs : Sysfs) (i : BootInput) : Option State :=
  (readUsbSwitchState i.switch).map fun c => bootMode e i (initState e c sysfs)

/-- The state at the top of the loop after the iterations `l`. -/
def run (e : Env) (sysfs : Sysfs) (i : BootInput) (l : List Iter) : Option State :=
  (boot e sysfs i).bind fun s => Machine.exec (step e) s l

end Omap4.Usbd
