import RdkHal.Wifi.Hal
import RdkHal.Lib.Inet

/-! The getters that read figures from the output of a command: the maximum bit rate of a radio
and the traffic counters of an access point. -/

set_option autoImplicit false

namespace RdkHal.Wifi
open Text Inet

variable {ω : Type}

def rateCommand (P : Platform ω) (radioIndex : Int32) : Str :=
  let apIndex : Int32 := if radioIndex = 0 then 0 else 1
  P.command 64 "iwconfig %s%d | grep \"Bit Rate\" | cut -d':' -f2 | cut -d' ' -f1,2"
    [.s apPrefix,.d apIndex]

/-- `buf` is what the local holds at first; `none` is a NULL pointer. -/
def wifiGetRadioMaxBitRate (P : Platform ω) (radioIndex : Int32) (outputString : Option Str)
    (buf : Str) (os : Os ω) : Ret × Option Str × Os ω :=
  match outputString with
  | none => (.err,none,os)
  | some _ =>
    let (_,buf,os) := syscmd P (rateCommand P radioIndex) buf 1024 os
    (.ok,some (P.lib.strcpyS 64 buf).2,os)

structure BasicTrafficStats where
  wifiBytesSent : UInt64
  wifiBytesReceived : UInt64
  wifiPacketsSent : UInt64
  wifiPacketsReceived : UInt64
  wifiAssociations : UInt64
  deriving DecidableEq

def BasicTrafficStats.zero : BasicTrafficStats := ⟨0,0,0,0,0⟩

/-- `pos` is at the marker; the `int` that is read is widened with its sign. -/
def counterAt (marker : String) (pos : Str) : UInt64 :=
  (atoi (pos.drop marker.toList.length)).toInt64.toUInt64

/-- Each marker is looked for from the one before it on, and its counter is stored at once. -/
def readCounters (stats : BasicTrafficStats) (pos : Str) : Ret × BasicTrafficStats :=
  match strstr "RX packets:".toList pos with
  | none => (.err,stats)
  | some pos =>
    let stats := { stats with wifiPacketsReceived := counterAt "RX packets:" pos }
    match strstr "TX packets:".toList pos with
    | none => (.err,stats)
    | some pos =>
      let stats := { stats with wifiPacketsSent := counterAt "TX packets:" pos }
      match strstr "RX bytes:".toList pos with
      | none => (.err,stats)
      | some pos =>
        let stats := { stats with wifiBytesReceived := counterAt "RX bytes:" pos }
        match strstr "TX bytes:".toList pos with
        | none => (.err,stats)
        | some pos => (.ok,{ stats with wifiBytesSent := counterAt "TX bytes:" pos })

def ifconfigCommand (P : Platform ω) (apIndex : Int32) : Str :=
  P.command 128 "ifconfig %s%d" [.s apPrefix,.d apIndex]

def wifiGetBasicTrafficStats (P : Platform ω) (apIndex : Int32)
    (outputStruct : Option BasicTrafficStats) (buf : Str) (os : Os ω) :
    Ret × Option BasicTrafficStats × Os ω :=
  match outputStruct with
  | none => (.err,none,os)
  | some _ =>
    let (_,buf,os) := syscmd P (ifconfigCommand P apIndex) buf 1280 os
    match readCounters BasicTrafficStats.zero buf with
    | (.err,stats) => (.err,some stats,os)
    | (.ok,stats) =>
      let cmd := P.command 128 "wlanconfig %s%d list sta | grep -v HTCAP | wc -l"
        [.s apPrefix,.d apIndex]
      let (_,buf,os) := syscmd P cmd buf 1280 os
      match scanUnsigned 10 buf with
      | none => (.ok,some stats,os)
      | some (n,_) => (.ok,some { stats with wifiAssociations := n },os)

end RdkHal.Wifi
