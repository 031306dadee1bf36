import Mathlib.Data.List.Basic
import Mathlib.Logic.Function.Basic
import Omap4.CString
import Omap4.Throw

/-!
# Omap4.Ril.Basic — the solicited responses of the RIL

`processSolicited` of `motoOmap4RIL.java`: a response parcel is matched with its request in
`mRequestList`; three kinds of responses are changed and sent here, all others go to the superclass.
Java code that may throw runs in `RilM`: a `Throwable` leaves the branch, and what was assigned
before it stays assigned.

The telephony framework (`Framework`) is not part of the repository: parcels, the readers of their
payload, the system properties and the superclass are its fields.
-/

namespace Omap4.Ril

open Throw

/-! ## Java -/

inductive Throwable
  | nullPointerException
  | numberFormatException (text : String)
  | negativeArraySizeException (size : ℤ)
  | runtimeException (message : String)
deriving DecidableEq, Repr

/-- The zeros of the runs of ten decimal digits, as `Character.digit` knows them. -/
def decimalZeros : List ℕ :=
  [0x30, 0x660, 0x6F0, 0x7C0, 0x966, 0x9E6, 0xA66, 0xAE6, 0xB66, 0xBE6, 0xC66, 0xCE6, 0xD66, 0xDE6,
    0xE50, 0xED0, 0xF20, 0x1040, 0x1090, 0x17E0, 0x1810, 0x1946, 0x19D0, 0x1A80, 0x1A90,
    0x1B50, 0x1BB0,
    0x1C40, 0x1C50, 0xA620, 0xA8D0, 0xA900, 0xA9D0, 0xA9F0, 0xAA50, 0xABF0, 0xFF10]

/-- `Character.digit(c, 10)`. -/
def digit (c : Char) : Option ℕ :=
  (decimalZeros.find? fun z => z ≤ c.toNat && c.toNat < z + 10).map (c.toNat - ·)

/-- The number that a list of digits stands for. -/
def decimal (ds : List ℕ) : ℕ := ds.foldl (fun n d => 10 * n + d) 0

/-- `Integer.parseInt`. -/
def parseInt (text : String) : Except Throwable ℤ :=
  match CStr.signed text.toList with
  | (_, []) => throw (.numberFormatException text)
  | (negative, digits) =>
    match digits.mapM digit with
    | none => throw (.numberFormatException text)
    | some ds =>
      if (if negative then 2147483648 else 2147483647) < decimal ds then
        throw (.numberFormatException text)
      else pure (if negative then -(decimal ds : ℤ) else decimal ds)

/-- A `String[]`, whose elements may be null. -/
abbrev Strings := List (Option String)

/-! ## The state of the RIL -/

inductive Request
  | operator
  | voiceRegistrationState
  | dataRegistrationState
  | voiceRadioTech
  | other (request : ℤ)
deriving DecidableEq, Repr

/-- A `Message`, by its identity. -/
abbrev Message := ℕ

structure RILRequest where
  mSerial : ℤ
  mRequest : Request
  mResult : Option Message
deriving DecidableEq, Repr

inductive Response
  | strings (a : Strings)
  | other (a : List ℤ)
deriving DecidableEq, Repr

structure AsyncResult where
  result : Option Response
  exception : Option Throwable
deriving DecidableEq, Repr

/-- The values of the system properties. -/
abbrev Properties := String → Option String

/-- The fields that the solicited responses use; `sent` lists the messages sent to their targets. -/
structure State where
  mRequestList : ℤ → Option RILRequest := fun _ => none
  sent : List (Message × AsyncResult) := []
  dataAllowed : Bool := false
  forceGsm : Bool := false
  voiceRegState : String := "0"
  voiceDataTech : String := "0"
  systemProperties : Properties := fun _ => none

/-- Java code of the RIL. -/
abbrev RilM := EStateM Throwable State

/-- A parcel: reading it moves the position only. -/
structure Parcel (D : Type) where
  data : D
  dataPosition : ℕ := 0

structure Framework (D : Type) where
  readInt : D → ℕ → ℤ × ℕ
  dataAvail : D → ℕ → ℤ
  responseStrings : D → ℕ → Except Throwable (Option Strings)
  responseInts : D → ℕ → Except Throwable (Option (List ℤ))
  getLteOnCdmaMode : Properties → ℤ
  isGsm : ℤ → Bool
  systemPropertiesSet : String → String → Properties → Except Throwable Properties
  superProcessSolicited : Parcel D → ℤ → RilM (Option RILRequest)

section Model

variable {D : Type} (fw : Framework D)

namespace Parcel

variable (p : Parcel D)

/-- `readInt`: the value, and the parcel with its new position. -/
def readInt : ℤ × Parcel D :=
  ((fw.readInt p.data p.dataPosition).1, { p with dataPosition := (fw.readInt p.data p.dataPosition).2 })

def setDataPosition (position : ℕ) : Parcel D := { p with dataPosition := position }

def responseStrings : Except Throwable (Option Strings) := fw.responseStrings p.data p.dataPosition

def responseInts : Except Throwable (Option (List ℤ)) := fw.responseInts p.data p.dataPosition

def dataAvail : ℤ := fw.dataAvail p.data p.dataPosition

/-- The first number of a response. -/
def serial : ℤ := (p.readInt fw).1

/-- The second number of a response. -/
def error : ℤ := ((p.readInt fw).2.readInt fw).1

/-- The parcel behind its two numbers. -/
def payload : Parcel D := ((p.readInt fw).2.readInt fw).2

end Parcel

/-! ## The branches -/

/-- A use of a reference that may be null. -/
def nonNull {α : Type} : Option α → RilM α
  | none => throw .nullPointerException
  | some a => pure a

/-- An object that the framework returns; its first use fails if it is null. -/
def deref {α : Type} (e : Except Throwable (Option α)) : RilM α := do
  nonNull (← orThrow e)

/-- `AsyncResult.forMessage` and `sendToTarget`, if the request has a result message. -/
def sendResult (rr : RILRequest) (r : AsyncResult) : RilM Unit :=
  modify fun s => match rr.mResult with
    | none => s
    | some m => { s with sent := s.sent ++ [(m, r)] }

/-- `mRequestList.remove`. -/
def removeRequest (serial : ℤ) : RilM Unit :=
  modify fun s => { s with mRequestList := Function.update s.mRequestList serial none }

/-- The end of the three branches that answer the request themselves. -/
def answer (serial : ℤ) (rr : RILRequest) (response : Strings) : RilM (Option RILRequest) := do
  sendResult rr ⟨some (.strings response), none⟩
  removeRequest serial
  return some rr

/-- The loop that moves the operator names of LTE to the front. -/
def shiftOperators (operators : Strings) : Strings :=
  (List.range' 3 (operators.length - 3)).foldl
    (fun a i => (a.set (i - 3) a[i]?.join).set i none) operators

/-- LTE information, where there is any, takes the place of the operator. -/
def fixOperators (operators : Strings) : Strings :=
  match operators[5]?.join with
  | none => operators
  | some lte => if lte ≠ "00000" ∧ lte ≠ "6553565535" then shiftOperators operators else operators

def operatorResponse (p : Parcel D) (rr : RILRequest) : RilM (Option RILRequest) := do
  let operators ← deref ((p.payload fw).responseStrings fw)
  answer (p.serial fw) rr (fixOperators operators)

/-- The voice registration that later data registrations are changed by. -/
def noteVoiceReg (voiceRegStates : Strings) (s : State) : State :=
  { s with
    voiceRegState := voiceRegStates[0]?.join.getD s.voiceRegState
    voiceDataTech := voiceRegStates[3]?.join.getD s.voiceDataTech }

def voiceRegistrationResponse (p : Parcel D) (rr : RILRequest) : RilM (Option RILRequest) := do
  let voiceRegStates ← deref ((p.payload fw).responseStrings fw)
  modify (noteVoiceReg voiceRegStates)
  answer (p.serial fw) rr voiceRegStates

/-- `PhoneConstants.LTE_ON_CDMA_TRUE`. -/
def lteOnCdmaTrue : ℤ := 1

/-- CDMA needs to use the voice registration for data: state and technology. -/
def fromVoice (s : State) (dataRegStates : Strings) : Strings :=
  (dataRegStates.set 0 (some s.voiceRegState)).set 3 (some s.voiceDataTech)

/-- The changes to the states of a data registration. -/
def fixDataRegStates (s : State) (dataRegStates : Strings) : Except Throwable Strings :=
  match dataRegStates[0]?.join with
  | none => pure dataRegStates
  | some state =>
    if !s.dataAllowed then do
      if 0 < (← parseInt state) then pure (dataRegStates.set 0 (some "0")) else pure dataRegStates
    else if fw.getLteOnCdmaMode s.systemProperties = lteOnCdmaTrue then do
      let data ← parseInt state
      if data ≠ 1 ∧ data ≠ 5 then do
        let voice ← parseInt s.voiceRegState
        if voice = 1 ∨ voice = 5 then pure (fromVoice s dataRegStates) else pure dataRegStates
      else pure dataRegStates
    else pure dataRegStates

/-- The data registration behind the reading of its payload. -/
def dataAnswer (serial : ℤ) (rr : RILRequest) (dataRegStates : Strings) : RilM
    (Option RILRequest) := do
  let dataRegStates ← orThrow (fixDataRegStates fw (← get) dataRegStates)
  answer serial rr dataRegStates

def dataRegistrationResponse (p : Parcel D) (rr : RILRequest) : RilM (Option RILRequest) := do
  let dataRegStates ← deref ((p.payload fw).responseStrings fw)
  dataAnswer fw (p.serial fw) rr dataRegStates

/-- `ServiceState.RIL_RADIO_TECHNOLOGY_UNKNOWN`. -/
def technologyUnknown : ℤ := 0

/-- `ServiceState.RIL_RADIO_TECHNOLOGY_LTE`. -/
def technologyLte : ℤ := 14

/-- `ServiceState.RIL_RADIO_TECHNOLOGY_LTE_CA`. -/
def technologyLteCa : ℤ := 19

def lteOnCdmaProperty : String := "telephony.lteOnCdmaDevice"

def lteOnCdma (s : State) (tech : ℤ) : ℤ :=
  if s.forceGsm || (fw.isGsm tech && tech ≠ technologyLte && tech ≠ technologyLteCa) then 0 else 1

/-- Whether `switchCdmaGsm` sets the property. -/
def switches (s : State) (tech : ℤ) : Bool :=
  !(!s.forceGsm && tech = technologyUnknown) &&
    fw.getLteOnCdmaMode s.systemProperties ≠ lteOnCdma fw s tech

/-- `SystemProperties.set` of the property. -/
def setLteOnCdma (s : State) (tech : ℤ) : Except Throwable Properties :=
  fw.systemPropertiesSet lteOnCdmaProperty (toString (lteOnCdma fw s tech)) s.systemProperties

def switchCdmaGsm (tech : ℤ) : RilM Unit := do
  let s ← get
  if switches fw s tech then
    let properties ← orThrow (setLteOnCdma fw s tech)
    set { s with systemProperties := properties }

/-- The technology of a response is its first number, if it has one. -/
def switchToFirst (voiceTech : List ℤ) : RilM Unit :=
  match voiceTech[0]? with
  | none => pure ()
  | some tech => switchCdmaGsm fw tech

def voiceRadioTechResponse (p : Parcel D) (type : ℤ) : RilM (Option RILRequest) := do
  let voiceTech ← deref ((p.payload fw).responseInts fw)
  switchToFirst fw voiceTech
  fw.superProcessSolicited ((p.payload fw).setDataPosition p.dataPosition) type

/-- The `switch` inside of the `try`. -/
def dispatch (p : Parcel D) (type : ℤ) (rr : RILRequest) : RilM (Option RILRequest) :=
  match rr.mRequest with
  | .operator => operatorResponse fw p rr
  | .voiceRegistrationState => voiceRegistrationResponse fw p rr
  | .dataRegistrationState => dataRegistrationResponse fw p rr
  | .voiceRadioTech => voiceRadioTechResponse fw p type
  | .other _ => fw.superProcessSolicited ((p.payload fw).setDataPosition p.dataPosition) type

def processSolicited (p : Parcel D) (type : ℤ) : RilM (Option RILRequest) := do
  match (← get).mRequestList (p.serial fw) with
  | none => fw.superProcessSolicited ((p.payload fw).setDataPosition p.dataPosition) type
  | some rr =>
    if p.error fw ≠ 0 ∨ (p.payload fw).dataAvail fw ≤ 0 then
      fw.superProcessSolicited ((p.payload fw).setDataPosition p.dataPosition) type
    else
      try dispatch fw p type rr
      catch tr =>
        -- Exceptions here usually mean invalid RIL responses
        sendResult rr ⟨none, some tr⟩
        pure (some rr)

end Model

end Omap4.Ril
