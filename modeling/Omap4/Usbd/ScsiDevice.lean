import Mathlib.Data.List.Induction
import Omap4.Framing
import Omap4.Usbd.Daemon

/-!
# Omap4.Usbd.ScsiDevice — the mount name of a USB disk (`process_usb_uevent_message`)

A uevent is a header `action@path` and properties, each with a NUL behind it.  For a disk that was
plugged in or out the daemon tells the application the name of its mount, which ends with the port
of the disk: the code scans the path from its end over six slashes and then to a dash, and prints
the port over the path.

The scan is right for every path of the form that the comment gives (`scanBack_path`).  The message
is sent if the header, which is all that `strcasestr` sees of the uevent, has `scsi_device` in it,
and the printed port does not reach the text it is printed from (`diskMessage_iff`).  What the
standard leaves undefined is `none` here.
-/

namespace Omap4.Usbd

open Framing

/-! ## The code -/

/-- What `recvmsg` and the file system give. -/
structure UeventRecv where
  /-- the message has a root sender in the kernel -/
  kernel : Bool
  /-- the bytes that were received -/
  buffer : List Char
  /-- what a `read` of a file gives (`none`: it cannot be opened or read) -/
  files : CStr → Option (List Char)
  /-- the first character of the state file of the switch -/
  switchState : Option Char

/-- `USBD_UEVENT_MSG_LEN`. -/
def ueventMsgLen : ℕ := 65536

/-- `copy_string_from_file`: the last byte that was read becomes the NUL. -/
def copyStringFromFile (files : CStr → Option (List Char)) (filename : CStr)
    (size : ℕ) : Option CStr :=
  (files filename).map fun content => CStr.ofBuffer (content.take size).dropLast

/-- `sprintf` into a buffer of 255 bytes. -/
def sprintf255 (text : CStr) : Option CStr := if text.length < 255 then some text else none

/-- The strings that the `while` loop comes to. -/
def ueventStrings : List Char → List CStr
  | [] => []
  | c :: rest =>
    if c = CStr.nul then [] :: ueventStrings rest
    else
      match ueventStrings rest with
      | [] => [[c]]
      | s :: ss => (c :: s) :: ss

/-- What stands behind `key` in the last string that begins with it. -/
def property (key : CStr) (strings : List CStr) : Option CStr :=
  strings.foldl (fun v s => if key.isPrefixOf s then some (s.drop key.length) else v) none

/-- The string behind the first `@` of the buffer. -/
def devPath (buffer : List Char) : Option CStr :=
  (CStr.strchr '@' buffer).map fun r => CStr.ofBuffer r.tail

/-- The loop over the path from its end: `*p` is the first character of the list and `p` the number
of those behind it.  The result is `p` at the dash, and `tmp`. -/
def scanBack : List Char → ℕ → ℕ → Option (ℕ × ℕ)
  | [], _, _ => none
  | c :: rest, parenCount, tmp =>
    if rest = [] then none
    else if parenCount ≠ 0 ∧ c = '/' then scanBack rest (parenCount - 1) rest.length
    else if parenCount = 0 ∧ c = '-' then some (rest.length, tmp)
    else scanBack rest parenCount tmp

/-- The path after the scan.  The port is printed to where the path begins; the text it is taken
from is not to overlap what is written.  Without a dash the pointer is `NULL`. -/
def printPort (path : CStr) : Option CStr :=
  match scanBack path.reverse 6 0 with
  | none => some "(null)".toList
  | some (p, tmp) =>
    if p + 1 < tmp - p then none else some (CStr.snprintf (tmp - p) (path.drop (p + 1)))

/-- `USBD_DISK_ATTACH` and `USBD_DISK_DETACH`. -/
def diskEvent (action : CStr) : CStr :=
  if action = "add".toList then "usb_disk_plugin".toList else "usb_disk_plugout".toList

/-- The message for a disk, once its type is known. -/
def diskMessage (files : CStr → Option (List Char)) (action path : CStr) : Option CStr :=
  (sprintf255 ("/sys".toList ++ path ++ "/device/model".toList)).bind fun filename =>
    (printPort path).map fun port =>
      CStr.snprintf 255 (diskEvent action ++ ":".toList ++
        (copyStringFromFile files filename 128).getD "NONAME".toList ++
        ":/mnt/usbdisk_".toList ++ port)

/-- A disk that comes or goes. -/
def diskChange (files : CStr → Option (List Char)) (action path : CStr) : Option Uevent :=
  (sprintf255 ("/sys".toList ++ path ++ "/device/type".toList)).bind fun filename =>
    if copyStringFromFile files filename 128 = some "0".toList then
      (diskMessage files action path).map fun text => .scsi (some text)
    else some (.scsi none)

/-- The branch for `scsi_device`. -/
def scsiDevice (r : UeventRecv) : Option Uevent :=
  (devPath r.buffer).bind fun path =>
    match property "SUBSYSTEM=".toList (ueventStrings r.buffer),
      property "ACTION=".toList (ueventStrings r.buffer) with
    | some subsystem, some action =>
      if subsystem = "scsi_device".toList ∧ (action = "add".toList ∨ action = "remove".toList) then
        diskChange r.files action path
      else some (.scsi none)
    | _, _ => some (.scsi none)

/-- `process_usb_uevent_message`: what it finds. -/
def processUsbUeventMessage (r : UeventRecv) : Option Uevent :=
  if r.buffer = [] ∨ ¬ r.kernel ∨ ueventMsgLen - 1 ≤ r.buffer.length then some .ignored
  else if CStr.strcasestr "usb_connected".toList (CStr.ofBuffer r.buffer) &&
      CStr.strcasestr "switch".toList (CStr.ofBuffer r.buffer) then some (.switch r.switchState)
  else if CStr.strcasestr "scsi_device".toList (CStr.ofBuffer r.buffer) then scsiDevice r
  else some .ignored

/-! ## The scan -/

/-- Characters that the scan is not looking for are passed over. -/
theorem scanBack_skip {seg rest : List Char} {parenCount : ℕ} (tmp : ℕ) (hrest : rest ≠ [])
    (hslash : parenCount ≠ 0 → '/' ∉ seg) (hdash : parenCount = 0 → '-' ∉ seg) :
    scanBack (seg.reverse ++ rest) parenCount tmp = scanBack rest parenCount tmp := by
  induction seg using List.reverseRecOn with
  | nil => rfl
  | append_singleton seg c ih =>
    have hc : ¬ (parenCount ≠ 0 ∧ c = '/') ∧ ¬ (parenCount = 0 ∧ c = '-') := by
      constructor
      · rintro ⟨hcount, rfl⟩
        exact hslash hcount (by simp)
      · rintro ⟨hcount, rfl⟩
        exact hdash hcount (by simp)
    rw [List.reverse_append, List.reverse_singleton, List.singleton_append,
      List.cons_append, scanBack, if_neg (by simp [hrest]), if_neg hc.1, if_neg hc.2]
    exact ih (fun h hmem => hslash h (List.mem_append_left _ hmem))
      fun h hmem => hdash h (List.mem_append_left _ hmem)

/-- The scan over as many components as it counts slashes stops before the first of them. -/
theorem scanBack_components {comps : List CStr} (hcomps : ∀ c ∈ comps, '/' ∉ c) {rest : List Char}
    (hrest : rest ≠ []) (tmp : ℕ) :
    scanBack ((comps.flatMap ('/' :: ·)).reverse ++ rest) comps.length tmp =
      scanBack rest 0 (if comps = [] then tmp else rest.length) := by
  induction comps using List.reverseRecOn generalizing tmp with
  | nil => rfl
  | append_singleton comps c ih =>
    have hbehind : (comps.flatMap ('/' :: ·)).reverse ++ rest ≠ [] := by simp [hrest]
    have hsplit : ((comps ++ [c]).flatMap ('/' :: ·)).reverse ++ rest =
        c.reverse ++ '/' :: ((comps.flatMap ('/' :: ·)).reverse ++ rest) := by
      simp
    have hlen : (comps ++ [c]).length ≠ 0 := by simp
    rw [hsplit, scanBack_skip tmp (List.cons_ne_nil _ _) (fun _ => hcomps c (by simp)) fun h =>
      absurd h hlen, scanBack, if_neg hbehind, if_pos ⟨hlen, rfl⟩, List.length_append,
        List.length_singleton, Nat.add_sub_cancel,
      ih (fun d hd => hcomps d (List.mem_append_left _ hd)), if_neg (by simp : comps ++ [c] ≠ [])]
    split_ifs with hnil
    · rw [hnil]
      rfl
    · rfl

/-- The port of a path, with six components behind the device. -/
theorem scanBack_path {front port : CStr} {comps : List CStr} (hfront : front ≠ [])
    (hport : '-' ∉ port) (hcomps : ∀ c ∈ comps, '/' ∉ c) (hsix : comps.length = 6) (tmp : ℕ) :
    scanBack (front ++ '-' :: (port ++ comps.flatMap ('/' :: ·))).reverse 6 tmp =
      some (front.length, front.length + port.length + 1) := by
  have hsplit : (front ++ '-' :: (port ++ comps.flatMap ('/' :: ·))).reverse =
      (comps.flatMap ('/' :: ·)).reverse ++ (port.reverse ++ '-' :: front.reverse) := by
    simp
  have hne : comps ≠ [] := by
    rintro rfl
    cases hsix
  have hlen : (port.reverse ++ '-' :: front.reverse).length = front.length + port.length + 1 := by
    simp
    omega
  rw [hsplit, ← hsix, scanBack_components hcomps (by simp), if_neg hne, hlen,
    scanBack_skip _ (List.cons_ne_nil _ _) (fun h => absurd rfl h) (fun _ => hport), scanBack,
    if_neg (by simpa using hfront), if_neg (by simp), if_pos ⟨rfl, rfl⟩, List.length_reverse]

/-- The port is printed unless it is longer than what stands before it. -/
theorem printPort_path {front port : CStr} {comps : List CStr} (hfront : front ≠ [])
    (hport : '-' ∉ port) (hcomps : ∀ c ∈ comps, '/' ∉ c) (hsix : comps.length = 6) :
    printPort (front ++ '-' :: (port ++ comps.flatMap ('/' :: ·))) =
      if port.length ≤ front.length then some port else none := by
  have hsize : front.length + port.length + 1 - front.length = port.length + 1 := by omega
  have hdrop : (front ++ '-' :: (port ++ comps.flatMap ('/' :: ·))).drop (front.length + 1) =
      port ++ comps.flatMap ('/' :: ·) := by
    rw [← List.singleton_append, ← List.append_assoc, List.drop_left' (by simp)]
  rw [printPort, scanBack_path hfront hport hcomps hsix]
  simp only [hsize, hdrop]
  by_cases hle : port.length ≤ front.length
  · rw [if_neg (by omega), if_pos hle, CStr.snprintf, Nat.add_sub_cancel, List.take_left']
    rfl
  · rw [if_pos (by omega), if_neg hle]

/-! ## The uevents of a disk -/

/-- The parts of a device path that the comment in the code names; the device is `bus-port`. -/
structure DiskPath where
  controller : CStr
  busno : CStr
  portNumber : CStr
  bus : CStr
  port : CStr
  interface : CStr
  host : CStr
  target : CStr
  device : CStr
  clean : ∀ c ∈ [controller, busno, portNumber, bus, port, interface, host, target, device],
    '/' ∉ c ∧ CStr.nul ∉ c
  port_ne : port ≠ []
  port_dash : '-' ∉ port

/-- The components of a path. -/
def slashed (comps : List CStr) : CStr := comps.flatMap ('/' :: ·)

theorem nul_notMem_slashed {comps : List CStr} (h : ∀ c ∈ comps, CStr.nul ∉ c) :
    CStr.nul ∉ slashed comps := by
  rw [slashed, List.mem_flatMap]
  rintro ⟨c, hc, hmem⟩
  rcases List.mem_cons.mp hmem with heq | hmem
  · exact absurd heq (by decide)
  · exact h c hc hmem

namespace DiskPath

/--
`/devices/platform/<controller-name>/<busno>/<port-number>/<device>/<interface>/<scsi-host-name>/
<scsi-target-name>/<scsi-device-name>/scsi_disk/<scsi-device-name>` -/
def text (p : DiskPath) : CStr :=
  slashed ["devices".toList, "platform".toList, p.controller, p.busno, p.portNumber, p.bus ++
    '-' :: p.port, p.interface, p.host, p.target, p.device, "scsi_disk".toList, p.device]

/-- What stands before the dash of the device. -/
def front (p : DiskPath) : CStr :=
  slashed ["devices".toList, "platform".toList, p.controller, p.busno, p.portNumber, p.bus]

/-- The components behind the device. -/
def behind (p : DiskPath) : List CStr :=
  [p.interface, p.host, p.target, p.device, "scsi_disk".toList, p.device]

theorem text_eq (p : DiskPath) :
    p.text = p.front ++ '-' :: (p.port ++ p.behind.flatMap ('/' :: ·)) := by
  simp only [text, front, behind, slashed, List.flatMap_cons, List.flatMap_nil, List.append_nil,
    List.append_assoc, List.cons_append]

theorem behind_clean (p : DiskPath) : ∀ c ∈ p.behind, '/' ∉ c := by
  have hdisk : '/' ∉ "scsi_disk".toList := by decide +kernel
  intro c hc
  simp only [behind, List.mem_cons, List.not_mem_nil, or_false] at hc
  rcases hc with rfl | rfl | rfl | rfl | rfl | rfl
  · exact (p.clean _ (by simp)).1
  · exact (p.clean _ (by simp)).1
  · exact (p.clean _ (by simp)).1
  · exact (p.clean _ (by simp)).1
  · exact hdisk
  · exact (p.clean _ (by simp)).1

theorem front_ne (p : DiskPath) : p.front ≠ [] := List.cons_ne_nil _ _

theorem nul_notMem_text (p : DiskPath) : CStr.nul ∉ p.text := by
  have hclean : ∀ c ∈ [p.controller, p.busno, p.portNumber, p.bus, p.port, p.interface, p.host, p.target,
      p.device], CStr.nul ∉ c := fun c hc => (p.clean c hc).2
  simp only [List.forall_mem_cons] at hclean
  obtain ⟨hcontroller, hbusno, hnumber, hbus, hport, hinterface, hhost, htarget, hdevice, -⟩ :=
    hclean
  have hdash : CStr.nul ∉ p.bus ++ '-' :: p.port := by
    rw [List.mem_append, List.mem_cons, not_or, not_or]
    exact ⟨hbus, by decide, hport⟩
  refine nul_notMem_slashed ?_
  simp only [List.forall_mem_cons]
  exact ⟨by decide +kernel, by decide +kernel, hcontroller, hbusno, hnumber, hdash, hinterface,
    hhost, htarget, hdevice, by decide +kernel, hdevice, by simp⟩

end DiskPath

/-- A `scsi_device` uevent for a disk that comes or goes. -/
structure DiskEvent where
  action : CStr
  path : DiskPath
  props : List CStr
  action_eq : action = "add".toList ∨ action = "remove".toList
  props_clean : ∀ s ∈ props, CStr.nul ∉ s
  action_prop : property "ACTION=".toList props = some action
  subsystem_prop : property "SUBSYSTEM=".toList props = some "scsi_device".toList
  /-- the buffer is not full -/
  short : (encode CStr.nul ((action ++ '@' :: path.text) :: props)).length < ueventMsgLen - 1

def DiskEvent.header (e : DiskEvent) : CStr := e.action ++ '@' :: e.path.text

def DiskEvent.buffer (e : DiskEvent) : List Char := encode CStr.nul (e.header :: e.props)

/-- The name of the mount of a disk at a port. -/
def mountName (port : CStr) : CStr := "/mnt/usbdisk_".toList ++ port

/-! ## The message -/

theorem ueventStrings_append {s : CStr} (hs : CStr.nul ∉ s) (rest : List Char) :
    ueventStrings (s ++ CStr.nul :: rest) = s :: ueventStrings rest := by
  induction s with
  | nil => rw [List.nil_append, ueventStrings, if_pos rfl]
  | cons c s ih =>
    have hc : c ≠ CStr.nul := fun h => hs (h ▸ List.mem_cons_self)
    rw [List.cons_append, ueventStrings, if_neg hc, ih fun h => hs (List.mem_cons_of_mem c h)]

/-- The loop comes to the header and the properties. -/
theorem ueventStrings_encode {ss : List CStr} (hss : ∀ s ∈ ss, CStr.nul ∉ s) :
    ueventStrings (encode CStr.nul ss) = ss := by
  induction ss with
  | nil => rfl
  | cons s ss ih =>
    rw [encode_cons, ueventStrings_append (hss s (by simp)),
      ih fun t ht => hss t (List.mem_cons_of_mem s ht)]

theorem property_cons_of_not {key s : CStr} (h : ¬ key.isPrefixOf s = true) (ss : List CStr) :
    property key (s :: ss) = property key ss := by
  rw [property, List.foldl_cons, if_neg h]
  rfl

namespace DiskEvent

theorem action_clean (e : DiskEvent) : CStr.nul ∉ e.action ∧ '@' ∉ e.action := by
  rcases e.action_eq with h | h
  · rw [h]
    decide +kernel
  · rw [h]
    decide +kernel

theorem nul_notMem_header (e : DiskEvent) : CStr.nul ∉ e.header := by
  rw [header, List.mem_append, List.mem_cons, not_or, not_or]
  exact ⟨e.action_clean.1, by decide, e.path.nul_notMem_text⟩

theorem ofBuffer_buffer (e : DiskEvent) : CStr.ofBuffer e.buffer = e.header := by
  rw [buffer, encode_cons]
  exact CStr.ofBuffer_terminated e.nul_notMem_header _

theorem devPath_buffer (e : DiskEvent) : devPath e.buffer = some e.path.text := by
  have hbuffer : e.buffer = e.action ++
      '@' :: (e.path.text ++ CStr.nul :: encode CStr.nul e.props) := by
    rw [buffer, encode_cons, header, List.append_assoc, List.cons_append]
  rw [devPath, hbuffer, CStr.strchr_append_of_notMem e.action_clean.2, CStr.strchr, if_pos rfl,
    Option.map_some, List.tail_cons, CStr.ofBuffer_terminated e.path.nul_notMem_text]

/-- The header is not taken for a property. -/
theorem property_buffer (e : DiskEvent) {key : CStr} {c : Char} (hkey : key.head? = some c)
    (hadd : c ≠ 'a') (hremove : c ≠ 'r') :
    property key (ueventStrings e.buffer) = property key e.props := by
  have hstrings : ueventStrings e.buffer = e.header :: e.props := by
    refine ueventStrings_encode fun s hs => ?_
    rcases List.mem_cons.mp hs with rfl | hs
    · exact e.nul_notMem_header
    · exact e.props_clean s hs
  rw [hstrings]
  refine property_cons_of_not (fun hpre => ?_) e.props
  obtain ⟨t, ht⟩ := List.isPrefixOf_iff_prefix.mp hpre
  have hhead : e.header.head? = some c := by rw [← ht, List.head?_append, hkey]; rfl
  rcases e.action_eq with h | h
  · rw [header, h] at hhead
    exact hadd (Option.some.inj hhead).symm
  · rw [header, h] at hhead
    exact hremove (Option.some.inj hhead).symm

/-- The name of the product in the message. -/
def prodname (e : DiskEvent) (files : CStr → Option (List Char)) : CStr :=
  (copyStringFromFile files ("/sys".toList ++ e.path.text ++ "/device/model".toList) 128).getD
    "NONAME".toList

/-- The message that a disk is to send. -/
def message (e : DiskEvent) (files : CStr → Option (List Char)) : CStr :=
  diskEvent e.action ++ ":".toList ++ e.prodname files ++ ":/mnt/usbdisk_".toList ++ e.path.port

theorem mountName_suffix (e : DiskEvent) (files : CStr → Option (List Char)) :
    ":".toList ++ mountName e.path.port <:+ e.message files := by
  have hassoc : ∀ front colon mount port : CStr,
      front ++ (colon ++ (mount ++ port)) = front ++ (colon ++ mount) ++ port := by
    intro front colon mount port
    simp only [List.append_assoc]
  have hname : ":/mnt/usbdisk_".toList = ":".toList ++ "/mnt/usbdisk_".toList := by decide +kernel
  refine ⟨diskEvent e.action ++ ":".toList ++ e.prodname files, ?_⟩
  rw [message, hname]
  exact hassoc _ _ _ _

/-- What is left undefined is only the print of a port that is too long. -/
theorem scsiDevice_eq (e : DiskEvent) {r : UeventRecv} (hbuffer : r.buffer = e.buffer)
    (htype : copyStringFromFile r.files ("/sys".toList ++ e.path.text ++ "/device/type".toList) 128 =
      some "0".toList)
    (hpath : ("/sys".toList ++ e.path.text ++ "/device/model".toList).length < 255)
    (hmessage : (e.message r.files).length < 255) :
    scsiDevice r = if e.path.port.length ≤ e.path.front.length then
      some (.scsi (some (e.message r.files))) else none := by
  have htypeLen : ("/sys".toList ++ e.path.text ++ "/device/type".toList).length < 255 := by
    have hlen : "/device/type".toList.length ≤ "/device/model".toList.length := by decide
    rw [List.length_append] at hpath ⊢
    omega
  have haction : property "ACTION=".toList (ueventStrings e.buffer) = some e.action := by
    rw [e.property_buffer (c := 'A') rfl (by decide) (by decide), e.action_prop]
  have hsubsystem : property "SUBSYSTEM=".toList (ueventStrings e.buffer) =
      some "scsi_device".toList := by
    rw [e.property_buffer (c := 'S') rfl (by decide) (by decide), e.subsystem_prop]
  have hport := printPort_path e.path.front_ne e.path.port_dash e.path.behind_clean rfl
  rw [← e.path.text_eq] at hport
  have hchange : scsiDevice r = diskChange r.files e.action e.path.text := by
    rw [scsiDevice, hbuffer, e.devPath_buffer, Option.bind_some, haction, hsubsystem]
    exact if_pos ⟨rfl, e.action_eq⟩
  rw [hchange, diskChange, sprintf255, if_pos htypeLen, Option.bind_some, if_pos htype,
    diskMessage, sprintf255, if_pos hpath, Option.bind_some, hport]
  split_ifs
  · rw [Option.map_some, Option.map_some]
    exact congrArg (fun t => some (Uevent.scsi (some t))) (CStr.snprintf_of_lt hmessage)
  · rfl

end DiskEvent

theorem mountName_injective : Function.Injective mountName := fun _ _ h => List.append_cancel_left h

/-- **The message for a disk.**  For a `scsi_device` uevent whose path has the form of the comment
and whose type reads 0, the message that ends with the mount name of its port is sent if and only if
the header has `scsi_device` in it and is not taken for the switch, and the port is not longer than
what stands before it.  The name depends on the port alone, and different ports have different
names. -/
theorem diskMessage_iff (e : DiskEvent) (r : UeventRecv) (hkernel : r.kernel = true)
    (hbuffer : r.buffer = e.buffer)
    (htype : copyStringFromFile r.files ("/sys".toList ++ e.path.text ++ "/device/type".toList) 128 =
      some "0".toList)
    (hpath : ("/sys".toList ++ e.path.text ++ "/device/model".toList).length < 255)
    (hmessage : (e.message r.files).length < 255) :
    ((∃ text, processUsbUeventMessage r = some (.scsi (some text)) ∧
        ":".toList ++ mountName e.path.port <:+ text) ↔
      CStr.strcasestr "scsi_device".toList e.header = true ∧
        ¬ (CStr.strcasestr "usb_connected".toList e.header = true ∧
          CStr.strcasestr "switch".toList e.header = true) ∧
        e.path.port.length ≤ e.path.front.length) ∧
    Function.Injective mountName := by
  refine ⟨?_, mountName_injective⟩
  have hreceived : ¬ (r.buffer = [] ∨ ¬ r.kernel = true ∨ ueventMsgLen - 1 ≤ r.buffer.length) := by
    have hshort : r.buffer.length < ueventMsgLen - 1 := by rw [hbuffer]; exact e.short
    rw [not_or, not_or, not_not]
    refine ⟨?_, hkernel, by omega⟩
    rw [hbuffer]
    exact fun h => List.cons_ne_nil _ _ (encode_eq_nil h)
  have hends : ":".toList ++ mountName e.path.port <:+ e.message r.files :=
    e.mountName_suffix r.files
  rw [processUsbUeventMessage, if_neg hreceived, hbuffer, e.ofBuffer_buffer,
    e.scsiDevice_eq hbuffer htype hpath hmessage]
  by_cases hswitch : CStr.strcasestr "usb_connected".toList e.header = true ∧
      CStr.strcasestr "switch".toList e.header = true
  · rw [if_pos (Bool.and_eq_true_iff.mpr hswitch)]
    exact iff_of_false (by simp) fun h => h.2.1 hswitch
  · rw [if_neg fun h => hswitch (Bool.and_eq_true_iff.mp h)]
    by_cases hscsi : CStr.strcasestr "scsi_device".toList e.header = true
    · rw [if_pos hscsi]
      by_cases hlen : e.path.port.length ≤ e.path.front.length
      · rw [if_pos hlen]
        exact iff_of_true ⟨_, rfl, hends⟩ ⟨hscsi, hswitch, hlen⟩
      · rw [if_neg hlen]
        exact iff_of_false (by simp) fun h => hlen h.2.2
    · rw [if_neg hscsi]
      exact iff_of_false (by simp) fun h => hscsi h.1

/-- A stick at port 1.3 of the hub, under a host of this name. -/
def stickPath (host : CStr) (h : '/' ∉ host ∧ CStr.nul ∉ host) : DiskPath where
  controller := "musb".toList
  busno := "usb2".toList
  portNumber := "2-1".toList
  bus := "2".toList
  port := "1.3".toList
  interface := "2-1.3:1.0".toList
  host := host
  target := "target0:0:0".toList
  device := "0:0:0:0".toList
  clean := by
    simp only [List.forall_mem_cons]
    exact ⟨by decide +kernel, by decide +kernel, by decide +kernel, by decide +kernel,
      by decide +kernel, by decide +kernel, h, by decide +kernel, by decide +kernel, by simp⟩
  port_ne := by decide +kernel
  port_dash := by decide +kernel

/-- The uevent of a stick that was plugged in. -/
def stickAdd (host : CStr) (h : '/' ∉ host ∧ CStr.nul ∉ host)
    (hshort : (encode CStr.nul [ "add".toList ++ '@' :: (stickPath host h).text, "ACTION=add".toList,
      "SUBSYSTEM=scsi_device".toList]).length < ueventMsgLen - 1) : DiskEvent where
  action := "add".toList
  path := stickPath host h
  props := ["ACTION=add".toList, "SUBSYSTEM=scsi_device".toList]
  action_eq := Or.inl rfl
  props_clean := by decide +kernel
  action_prop := by decide +kernel
  subsystem_prop := by decide +kernel
  short := hshort

/-- The stick with the path of the comment. -/
def hostStick : DiskEvent := stickAdd "host0".toList (by decide +kernel) (by decide +kernel)

/-- A stick whose host brings the needle into the header. -/
def deviceStick : DiskEvent :=
  stickAdd "scsi_device0".toList (by decide +kernel) (by decide +kernel)

/-- Every file of the device reads 0. -/
def stickRecv (e : DiskEvent) : UeventRecv where
  kernel := true
  buffer := e.buffer
  files := fun _ => some "0\n".toList
  switchState := none

theorem deviceStick_named :
    ∃ text, processUsbUeventMessage (stickRecv deviceStick) = some (.scsi (some text)) ∧
      ":".toList ++ mountName "1.3".toList <:+ text :=
  (diskMessage_iff deviceStick (stickRecv deviceStick) rfl rfl (by decide +kernel)
    (by decide +kernel) (by decide +kernel)).1.mpr
    ⟨by decide +kernel, by decide +kernel, by decide +kernel⟩

/-- The path of the comment has no `scsi_device` in it, and its uevent is ignored. -/
theorem hostStick_ignored :
    ¬ ∀ (e : DiskEvent) (r : UeventRecv), r.kernel = true → r.buffer = e.buffer →
      copyStringFromFile r.files ("/sys".toList ++ e.path.text ++ "/device/type".toList) 128 =
        some "0".toList →
      ("/sys".toList ++ e.path.text ++ "/device/model".toList).length < 255 →
      (e.message r.files).length < 255 →
      ∃ text, processUsbUeventMessage r = some (.scsi (some text)) ∧
        ":".toList ++ mountName e.path.port <:+ text := by
  intro hall
  have hignored : processUsbUeventMessage (stickRecv hostStick) = some .ignored := by decide +kernel
  obtain ⟨text, htext, -⟩ :=
    hall hostStick (stickRecv hostStick) rfl rfl (by decide +kernel) (by decide +kernel)
    (by decide +kernel)
  rw [hignored] at htext
  cases htext

end Omap4.Usbd
