import Omap4.CString

/-!
# Omap4.Usbd.Modes — the USB modes of usbd (`usb_defines.h`, `usb_mode_list`)

The table of the modes, entry by entry as the source lists it: the code indexes it with the mode, so
the place of an entry matters and not its `mode` field (`usbModeList_mode` says that the two agree).
The hooks of a mode are functions on the two sysfs files that they write; what the CD-ROM hooks do
to the partition (`cdrom_partition_mount`) is left out.
-/

namespace Omap4.Usbd

/-- The macros the table and the hooks depend on: `AT_RELAY`, `USBD_TABLET_MODE`,
`MSD_CDROM_ENABLED`. -/
structure Build where
  atRelay : Bool
  tabletMode : Bool
  msdCdrom : Bool
  deriving DecidableEq, Repr

/-- `USB_MODE_T`. -/
inductive UsbMode
  | min
  | ngp
  | cdrom
  | mtp
  | msc
  | mscOnly
  | hid
  | ngpAdb
  | mtpAdb
  | mscAdb
  | adb
  | network
  | modem
  | modemAdb
  | networkAdb
  | chargeOnly
  | chargeAdb
  | rndis
  | rndisAdb
  | cdrom2
  | bptoolsEth
  | bptoolsEthAdb
  | rndisBptoolsEth
  | rndisBptoolsEthAdb
  | tabletNetworkMtp
  | tabletNetworkMtpAdb
  | max
  deriving DecidableEq, Repr

/-- The value of the enumeration constant. -/
def UsbMode.val (m : UsbMode) : ℕ := m.ctorIdx

/-! ## Hooks -/

/-- The sysfs files: the `cdrom` and `allow_eject` parameters of `g_mot_android`, and the `enable`
file of `usb_mass_storage`. -/
structure Sysfs where
  cdrom : Bool
  allowEject : Bool
  massStorage : Bool
  deriving DecidableEq, Repr

abbrev Hook := Sysfs → Sysfs

/-- The hooks whose body is empty: those of the ADB, NGP, MTP, modem and network modes. -/
def emptyHook : Hook := id

def cdromPreEnable : Hook := fun s => { s with cdrom := true }

def cdromDisableDone : Hook := fun s => { s with cdrom := false }

/-- `cdrom_partition_mount(1)`. -/
def cdromEnableDone : Hook := id

/-- `cdrom_partition_mount(0)`. -/
def cdromPreDisable : Hook := id

def mscPreEnable (b : Build) : Hook := fun s =>
  if b.msdCdrom then { s with cdrom := true, allowEject := false } else s

def mscEnableDone : Hook := fun s => { s with massStorage := true }

def mscPreDisable : Hook := fun s => { s with massStorage := false }

def mscDisableDone (b : Build) : Hook := fun s =>
  if b.msdCdrom then { s with cdrom := false, allowEject := true } else s

def mscOnlyEnableDone : Hook := mscEnableDone

def mscOnlyPreDisable : Hook := mscPreDisable

def mscAdbEnableDone : Hook := mscEnableDone

def mscAdbPreDisable : Hook := mscPreDisable

/-! ## The table -/

/-- `struct usb_mode_data`; `resp_fail` is read nowhere. -/
structure UsbModeData where
  mode : UsbMode
  name : CStr
  preEnable : Hook := id
  enableDone : Hook := id
  preDisable : Hook := id
  disableDone : Hook := id
  modeReq : Option CStr := none
  modeDone : Option CStr := none
  switchReq : Option CStr := none
  respOk : Option CStr := none

def usbdStartNgp : CStr := "usbd_start_ngp".toList
def usbdStartMtp : CStr := "usbd_start_mtp".toList
def usbdStartMscMount : CStr := "usbd_start_msc_mount".toList
def usbdReqSwitchNgp : CStr := "usbd_req_switch_ngp".toList
def usbdReqSwitchMtp : CStr := "usbd_req_switch_mtp".toList
def usbdReqSwitchMsc : CStr := "usbd_req_switch_msc".toList
def usbdReqSwitchHid : CStr := "usbd_req_switch_hid".toList
def usbdReqSwitchModem : CStr := "usbd_req_switch_modem".toList
def usbdReqSwitchChargeOnly : CStr := "usbd_req_switch_none".toList
def usbdReqSwitchRndis : CStr := "usbd_req_switch_rndis".toList
def usbdReqSwitchBptools : CStr := "usbd_req_switch_bptools".toList

/-- `usb_mode_list`; an entry without a hook has none. -/
def usbModeList (b : Build) : List UsbModeData := [
  { mode := .min, name := "unuse".toList, modeReq := "usb_unload_driver".toList },
  { mode := .ngp, name := "acm_eth_mtp".toList, preEnable := emptyHook, enableDone := emptyHook,
    preDisable := emptyHook, modeDone := usbdStartNgp, switchReq := usbdReqSwitchNgp },
  { mode := .cdrom, name := "cdrom".toList, preEnable := cdromPreEnable, enableDone := cdromEnableDone,
    preDisable := cdromPreDisable, disableDone := cdromDisableDone, modeReq :=
  "usb_mode_ngp".toList,
    respOk := "usb_mode_ngp:ok".toList },
  { mode := .mtp, name := "mtp".toList, enableDone := emptyHook, modeReq := "usb_mode_mtp".toList,
    modeDone := usbdStartMtp, switchReq := usbdReqSwitchMtp, respOk := "usb_mode_mtp:ok".toList },
  { mode := .msc, name := "msc".toList, preEnable := mscPreEnable b, enableDone := mscEnableDone,
    preDisable := mscPreDisable, disableDone := mscDisableDone b, modeReq := "usb_mode_msc".toList,
    modeDone := usbdStartMscMount, switchReq := usbdReqSwitchMsc, respOk :=
  "usb_mode_msc:ok".toList },
  { mode := .mscOnly, name := "msc_only".toList, enableDone := mscOnlyEnableDone,
    preDisable := mscOnlyPreDisable, modeReq := "usb_mode_msc_only".toList,
    modeDone := usbdStartMscMount, respOk := "usb_mode_msc:ok".toList },
  { mode := .hid, name := "hid".toList, modeReq := "usb_mode_hid".toList,
    switchReq := usbdReqSwitchHid, respOk := "usb_mode_hid:ok".toList },
  { mode := .ngpAdb, name := if b.atRelay then "acm_acm1_eth_mtp_adb".toList else "acm_eth_mtp_adb".toList,
    preEnable := emptyHook, enableDone := emptyHook, preDisable := emptyHook,
    modeReq := "usb_mode_ngp_adb".toList, modeDone := usbdStartNgp, switchReq := usbdReqSwitchNgp,
    respOk := "usb_mode_ngp:ok".toList },
  { mode := .mtpAdb, name := "mtp_adb".toList, preEnable := emptyHook, preDisable := emptyHook,
    enableDone := emptyHook, modeReq := "usb_mode_mtp_adb".toList, modeDone := usbdStartMtp,
    switchReq := usbdReqSwitchMtp, respOk := "usb_mode_mtp:ok".toList },
  { mode := .mscAdb, name := "msc_adb".toList, enableDone := mscAdbEnableDone,
    preDisable := mscAdbPreDisable, modeReq := "usb_mode_msc_adb".toList,
    modeDone := usbdStartMscMount, switchReq := usbdReqSwitchMsc, respOk :=
  "usb_mode_msc:ok".toList },
  { mode := .adb, name := "android_adb_only".toList, preEnable := emptyHook, preDisable := emptyHook,
    modeReq := "usb_mode_adb".toList, switchReq := usbdReqSwitchHid, respOk :=
  "usb_mode_hid:ok".toList },
  { mode := .network, name := "eth".toList, enableDone := emptyHook, preDisable := emptyHook },
  { mode := .modem, name := "acm".toList, preDisable := emptyHook, enableDone := emptyHook,
    modeReq := "usb_mode_modem".toList, switchReq := usbdReqSwitchModem,
    respOk := "usb_mode_modem:ok".toList },
  { mode := .modemAdb, name := "modem_adb".toList, preEnable := emptyHook, enableDone := emptyHook,
    preDisable := emptyHook, modeReq := "usb_mode_modem_adb".toList, switchReq :=
  usbdReqSwitchModem,
    respOk := "usb_mode_modem:ok".toList },
  { mode := .networkAdb, name := if b.atRelay then "acm1_eth_adb".toList else "eth_adb".toList,
    enableDone := emptyHook, preDisable := emptyHook },
  { mode := .chargeOnly, name := "charge_only".toList, modeReq := "usb_mode_charge_only".toList,
    switchReq := usbdReqSwitchChargeOnly, respOk := "usb_mode_msc:ok".toList },
  { mode := .chargeAdb, name := "charge_adb".toList, modeReq := "usb_mode_charge_adb".toList,
    switchReq := usbdReqSwitchChargeOnly, respOk := "usb_mode_msc:ok".toList },
  { mode := .rndis, name := "rndis".toList, modeReq := "usb_mode_rndis".toList,
    switchReq := usbdReqSwitchRndis, respOk := "usb_mode_rndis:ok".toList },
  { mode := .rndisAdb, name := "rndis_adb".toList, modeReq := "usb_mode_rndis_adb".toList,
    switchReq := usbdReqSwitchRndis, respOk := "usb_mode_rndis:ok".toList },
  { mode := .cdrom2, name := "cdrom2".toList, preEnable := cdromPreEnable, enableDone := cdromEnableDone,
    preDisable := cdromPreDisable, disableDone := cdromDisableDone },
  { mode := .bptoolsEth, name := "acm_acm1_acm2_acm3_eth".toList,
    modeReq := "usb_mode_acm_acm1_acm2_acm3_eth".toList, switchReq := usbdReqSwitchBptools,
    respOk := "usb_mode_bptools:ok".toList },
  { mode := .bptoolsEthAdb, name := "acm_acm1_acm2_acm3_eth_adb".toList,
    modeReq := "usb_mode_acm_acm1_acm2_acm3_eth_adb".toList, switchReq := usbdReqSwitchBptools,
    respOk := "usb_mode_bptools:ok".toList },
  { mode := .rndisBptoolsEth, name := "rndis_acm_acm1_acm2_acm3_eth".toList,
    modeReq := "usb_mode_rndis_acm_acm1_acm2_acm3_eth".toList, switchReq := usbdReqSwitchBptools,
    respOk := "usb_mode_bptools:ok".toList },
  { mode := .rndisBptoolsEthAdb, name := "rndis_acm_acm1_acm2_acm3_eth_adb".toList,
    modeReq := "usb_mode_rndis_acm_acm1_acm2_acm3_eth_adb".toList, switchReq :=
  usbdReqSwitchBptools,
    respOk := "usb_mode_bptools:ok".toList },
  { mode := .tabletNetworkMtp, name := "eth_mtp".toList },
  { mode := .tabletNetworkMtpAdb, name := "eth_mtp_adb".toList },
  { mode := .max, name := "unuse".toList }]

/-- `usb_mode_list[i]`; an index past the end is never used (`modes_balanced`). -/
def usbModeEntry (b : Build) (i : ℕ) : UsbModeData :=
  (usbModeList b).getD i { mode := .max, name := [] }

theorem usbModeList_length (b : Build) : (usbModeList b).length = UsbMode.max.val + 1 := rfl

/-- The place of an entry is its mode. -/
theorem usbModeList_mode (b : Build) : (usbModeList b).map (fun e => e.mode.val) = List.range 27 :=
  rfl

theorem usbModeEntry_mode (b : Build) {i : ℕ} (h : i ≤ UsbMode.max.val) :
    (usbModeEntry b i).mode.val = i := by
  have hi : i < (usbModeList b).length := by
    rw [usbModeList_length]
    exact Nat.lt_succ_of_le h
  have hmap : ((usbModeList b).map fun e => e.mode.val)[i]? = some i := by
    rw [usbModeList_mode, List.getElem?_range (by exact hi)]
  rw [List.getElem?_map, List.getElem?_eq_getElem hi, Option.map_some, Option.some.injEq] at hmap
  rw [usbModeEntry, List.getD_eq_getElem?_getD, List.getElem?_eq_getElem hi, Option.getD_some, hmap]

end Omap4.Usbd
