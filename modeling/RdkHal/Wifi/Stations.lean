import RdkHal.Wifi.Hal
import RdkHal.Lib.Inet
import RdkHal.Lib.Tokens

/-! The table of the stations of an access point: they are counted by one command, and parsed
from the output of a second one. -/

set_option autoImplicit false

namespace RdkHal.Wifi
open Text Inet

variable {ω : Type}

/-- The fields of an entry that are set. The first 6 bytes of `cliAddresses` are
`cli_MACAddress`, the 64 bytes behind them `cli_IPAddress`. -/
structure AssociatedDev where
  cliAddresses : Vector UInt8 70
  cliAuthenticationState : Int
  cliLastDataDownlinkRate : UInt32
  cliLastDataUplinkRate : UInt32
  cliSignalStrength : Int32
  cliRetransmissions : UInt32
  cliActive : Int
  cliOperatingStandard : Str
  cliOperatingChannelBandwidth : Str
  cliSNR : Int32
  cliInterferenceSources : Str
  cliDataFramesSentAck : UInt64
  cliDataFramesSentNoAck : UInt64
  cliBytesSent : UInt64
  cliBytesReceived : UInt64
  cliRSSI : Int32
  deriving DecidableEq

def AssociatedDev.zero : AssociatedDev :=
  ⟨Vector.replicate 70 0,0,0,0,0,0,0,[],[],0,[],0,0,0,0,0⟩

def storeUnsigned (bytes : Vector UInt8 70) (k : Fin 6) (n : UInt32) : Vector UInt8 70 :=
  (((bytes.set k.val n.toUInt8 (by omega)).set (k.val+1) (n >>> 8).toUInt8 (by omega)).set
    (k.val+2) (n >>> 16).toUInt8 (by omega)).set (k.val+3) (n >>> 24).toUInt8 (by omega)

def scanMac : List (Fin 6) → Str → Vector UInt8 70 → Vector UInt8 70
  | [], _, bytes => bytes
  | k :: ks, s, bytes =>
    match scanUnsigned 16 s with
    | none => bytes
    | some (n,rest) =>
      match rest with
      | ':' :: rest => scanMac ks rest (storeUnsigned bytes k n.toUInt32)
      | _ => storeUnsigned bytes k n.toUInt32

def clearIPAddress (bytes : Vector UInt8 70) : Vector UInt8 70 :=
  Vector.ofFn fun i => if i.val < 6 then bytes[i] else 0

/-- The rate before the letter `M`, and 0 without a column; `none` is a NULL pointer in `atoi`. -/
def rateOf (column : Option Str) : Option UInt32 :=
  match column with
  | none => some 0
  | some column => (strtok ['M'] column).map fun rate => (atoi rate).toUInt32

def parseStation (P : Platform ω) (line : Str) (dev : AssociatedDev) : Option AssociatedDev :=
  let columns := tokens [' '] line
  let mac := columns[0]?
  let txrate := columns[3]?
  let rxrate := columns[4]?
  let rssi := columns[5]?
  match rateOf txrate, rateOf rxrate with
  | some downlink, some uplink =>
    let addresses := match mac with
      | none => dev.cliAddresses
      | some mac => scanMac (List.finRange 6) mac dev.cliAddresses
    some
      { cliAddresses := clearIPAddress addresses
        cliAuthenticationState := P.boolOf (match rssi with
          | none => 0
          | some rssi => atoi rssi-100)
        cliLastDataDownlinkRate := downlink
        cliLastDataUplinkRate := uplink
        cliSignalStrength := -100
        cliRetransmissions := 0
        cliActive := 1
        cliOperatingStandard := (P.lib.strcpyS 64 []).2
        cliOperatingChannelBandwidth := (P.lib.strcpyS 64 "20MHz".toList).2
        cliSNR := 20
        cliInterferenceSources := (P.lib.strcpyS 64 []).2
        cliDataFramesSentAck := 0
        cliDataFramesSentNoAck := 0
        cliBytesSent := 0
        cliBytesReceived := 0
        cliRSSI := 30 }
  | _, _ => none

/-- The loop over what `fgets` reads, at entry `assocCnt` of an array of `size` entries; `none` is
the access to an array or a column that is not there. -/
def stationLoop (P : Platform ω) (size : Nat) :
    List Str → Nat → Option (List AssociatedDev) → Option (Option (List AssociatedDev))
  | [], _, devs => some devs
  | chunk :: chunks, assocCnt, devs =>
    if cstr chunk = [] ∨ size ≤ assocCnt then some devs
    else
      match devs with
      | none => none
      | some devs =>
        match devs[assocCnt]? with
        | none => none
        | some dev =>
          match parseStation P (cstr chunk) dev with
          | none => none
          | some dev => stationLoop P size chunks (assocCnt+1) (some (devs.set assocCnt dev))

structure Diagnostic where
  ret : Ret
  associatedDevArray : Option (List AssociatedDev)
  outputArraySize : UInt32
  deriving DecidableEq

def countCommand (P : Platform ω) (apIndex : Int32) : Str :=
  P.command 256 "wlanconfig %s%d list sta  2>/dev/null | grep -v HTCAP >/tmp/ap_%d_cli.txt; cat /tmp/ap_%d_cli.txt | wc -l"
    [.s apPrefix,.d apIndex,.d apIndex,.d apIndex]

def fillStations (P : Platform ω) (apIndex : Int32) (size : UInt32) (os : Os ω) :
    Option (Diagnostic × Os ω) :=
  let (allocated,world) := P.calloc size.toNat os.world
  let dev := if allocated then some (List.replicate size.toNat AssociatedDev.zero) else none
  match P.shell (P.command 256 "cat /tmp/ap_%d_cli.txt" [.d apIndex]) { os with world := world } with
  | (none,os) => some (⟨.err,dev,size⟩,os)
  | (some file,os) =>
    (stationLoop P size.toNat (fgetsAll 200 file) 0 dev).map fun dev => (⟨.ok,dev,size⟩,os)

/-- `buf` is what the local holds at first. -/
def wifiGetApAssociatedDeviceDiagnosticResult (P : Platform ω) (apIndex : Int32) (buf : Str)
    (os : Os ω) : Option (Diagnostic × Os ω) :=
  if apIndex < 0 then some (⟨.err,none,0⟩,os)
  else
    let (_,buf,os) := syscmd P (countCommand P apIndex) buf 2048 os
    let size := (atoi buf).toUInt32
    if size ≤ 0 then some (⟨.ok,none,0⟩,os)
    else fillStations P apIndex size os

theorem fillStations_size {P : Platform ω} {apIndex : Int32} {size : UInt32} {os os' : Os ω}
    {result : Diagnostic} (h : fillStations P apIndex size os = some (result,os')) :
    result.outputArraySize = size := by
  simp only [fillStations] at h
  split at h
  · cases h
    rfl
  · obtain ⟨dev,_,hresult⟩ := Option.map_eq_some_iff.mp h
    cases hresult
    rfl

end RdkHal.Wifi
