import RdkHal.Wifi.Commands

/-! The functions of wifi_hal.c that set something with a command of the wireless tools, the
two that read something back, and their commands. -/

set_option autoImplicit false

namespace RdkHal.Wifi
open Text Posix

variable {ω : Type}

def wifiRemoveApSecVaribles (_apIndex : Int32) : Ret := .err

/-- The locals `buf` that are not initialised are arguments. -/
def wifiDeleteAp (P : Platform ω) (apIndex : Int32) (buf : Str) (os : Os ω) : Ret × Os ω :=
  let cmd := P.command 128 "wlanconfig %s%d destroy" [.s apPrefix,.d apIndex]
  let (_,_,os) := syscmd P cmd buf 1024 os
  let _ := wifiRemoveApSecVaribles apIndex
  (.ok,os)

def wifiSetApRtsThreshold (P : Platform ω) (apIndex : Int32) (threshold : UInt32) (buf : Str)
    (os : Os ω) : Ret × Os ω :=
  let cmd := if 0 < threshold then
      P.command 128 "iwconfig %s%d rts %d" [.s apPrefix,.d apIndex,.d threshold.toInt32]
    else P.command 128 "iwconfig %s%d rts off" [.s apPrefix,.d apIndex]
  let (_,_,os) := syscmd P cmd buf 512 os
  (.ok,os)

/-- A radio is known by one access point, all but the first radio by the second one. -/
def radioAp (radioIndex : Int32) : Int32 := if radioIndex = 0 then 0 else 1

theorem radioAp_cases (radioIndex : Int32) : radioAp radioIndex = 0 ∨ radioAp radioIndex = 1 := by
  rw [radioAp]
  split
  · exact Or.inl rfl
  · exact Or.inr rfl

def wifiPushChannel (P : Platform ω) (radioIndex : Int32) (channel : UInt32) (buf : Str)
    (os : Os ω) : Ret × Os ω :=
  let cmd := P.command 128 "iwconfig %s%d freq %d"
    [.s apPrefix,.d (radioAp radioIndex),.d channel.toInt32]
  let (_,_,os) := syscmd P cmd buf 1024 os
  (.ok,os)

/-- What `%lu` prints of `TransmitPower` is given as a text. -/
def wifiSetRadioTransmitPower (P : Platform ω) (radioIndex : Int32) (transmitPower : UInt64)
    (os : Os ω) : Ret × Os ω :=
  let cmd := P.command 128 "iwconfig %s%d txpower %s"
    [.s apPrefix,.d (radioAp radioIndex),.s (Nat.toDigits 10 transmitPower.toNat)]
  let (_,_,os) := syscmd P cmd [] 256 os
  (.ok,os)

def atol (s : Str) : Int64 := Int64.ofInt (strtol s)

def powerCommand (P : Platform ω) (radioIndex : Int32) : Str :=
  P.command 128 "iwlist %s%d txpower | grep Tx-Power | cut -d'=' -f2"
    [.s apPrefix,.d (radioAp radioIndex)]

def wifiGetRadioTransmitPower (P : Platform ω) (radioIndex : Int32) (outputUlong : Option UInt64)
    (os : Os ω) : Ret × Option UInt64 × Os ω :=
  match outputUlong with
  | none => (.err,none,os)
  | some _ =>
    let (_,buf,os) := syscmd P (powerCommand P radioIndex) [] 256 os
    (.ok,some (atol buf).toUInt64,os)

def wifiGetSSIDStatus (P : Platform ω) (ssidIndex : Int32) (outputString : Option Str)
    (os : Os ω) : Ret × Option Str × Os ω :=
  match outputString with
  | none => (.err,none,os)
  | some _ =>
    let cmd := P.command 128 "ifconfig %s%d | grep %s%d"
      [.s apPrefix,.d ssidIndex,.s apPrefix,.d ssidIndex]
    let (_,buf,os) := syscmd P cmd [] 128 os
    let status := if 5 < buf.length then "Enabled".toList else "Disabled".toList
    (.ok,some (P.lib.strcpyS 64 status).2,os)

def thresholdText (threshold : UInt32) : Str :=
  if 0 < threshold then formatD threshold.toInt32 else "off".toList

def pairWords (apIndex : Int32) (key value : Str) : List Str :=
  ["iwconfig".toList,apName apIndex,key,value]

def powerLine (apIndex : Int32) : Str :=
  "iwlist ".toList ++ (apName apIndex ++ " txpower | grep Tx-Power | cut -d'=' -f2".toList)

def ssidLine (apIndex : Int32) : Str :=
  "ifconfig ".toList ++ (apName apIndex ++ (" | grep ".toList ++ apName apIndex))

theorem fragLine_spaced (apIndex : Int32) (threshold : UInt32) :
    fragLine apIndex threshold =
      spaced (pairWords apIndex "frag".toList (thresholdText threshold)) := by
  unfold fragLine thresholdText
  simp [spaced,pairWords]

theorem rtsCommand_spaced (P : Platform ω) (apIndex : Int32) (threshold : UInt32) :
    (if 0 < threshold then
      P.command 128 "iwconfig %s%d rts %d" [.s apPrefix,.d apIndex,.d threshold.toInt32]
    else P.command 128 "iwconfig %s%d rts off" [.s apPrefix,.d apIndex]) =
      spaced (pairWords apIndex "rts".toList (thresholdText threshold)) := by
  have hap := formatD_length apIndex
  have hthreshold := formatD_length threshold.toInt32
  unfold thresholdText
  split
  · rw [P.command_fits (by simp [Arg.text,apPrefix]; omega)]
    simp [sprintf,spaced,pairWords,apName,apPrefix,Arg.conversion,Arg.text]
  · rw [P.command_fits (by simp [Arg.text,apPrefix]; omega)]
    simp [sprintf,spaced,pairWords,apName,apPrefix,Arg.conversion,Arg.text]

theorem channelCommand_spaced (P : Platform ω) (apIndex : Int32) (channel : UInt32) :
    P.command 128 "iwconfig %s%d freq %d" [.s apPrefix,.d apIndex,.d channel.toInt32] =
      spaced (pairWords apIndex "freq".toList (formatD channel.toInt32)) := by
  have hap := formatD_length apIndex
  have hchannel := formatD_length channel.toInt32
  rw [P.command_fits (by simp [Arg.text,apPrefix]; omega)]
  simp [sprintf,spaced,pairWords,apName,apPrefix,Arg.conversion,Arg.text]

theorem powerSetting_spaced (P : Platform ω) (apIndex : Int32) (transmitPower : UInt64) :
    P.command 128 "iwconfig %s%d txpower %s"
      [.s apPrefix,.d apIndex,.s (Nat.toDigits 10 transmitPower.toNat)] =
      spaced (pairWords apIndex "txpower".toList (Nat.toDigits 10 transmitPower.toNat)) := by
  have hap := formatD_length apIndex
  have hlt := transmitPower.toNat_lt
  have hpower : (Nat.toDigits 10 transmitPower.toNat).length ≤ 20 :=
    (Nat.length_toDigits_le_iff (by decide) (by decide)).mpr (by omega)
  rw [P.command_fits (by simp [Arg.text,apPrefix]; omega)]
  simp [sprintf,spaced,pairWords,apName,apPrefix,Arg.conversion,Arg.text]

theorem destroyCommand_spaced (P : Platform ω) (apIndex : Int32) :
    P.command 128 "wlanconfig %s%d destroy" [.s apPrefix,.d apIndex] =
      spaced ["wlanconfig".toList,apName apIndex,"destroy".toList] := by
  rw [P.command_ap (by decide) apIndex]
  simp [sprintf,spaced,apName,apPrefix,Arg.conversion,Arg.text]

theorem ssidCommand_eq (P : Platform ω) (apIndex : Int32) :
    P.command 128 "ifconfig %s%d | grep %s%d"
      [.s apPrefix,.d apIndex,.s apPrefix,.d apIndex] = ssidLine apIndex := by
  have hap := formatD_length apIndex
  rw [P.command_fits (by simp [Arg.text,apPrefix]; omega)]
  unfold ssidLine
  simp [sprintf,apName,apPrefix,Arg.conversion,Arg.text]

theorem powerCommand_eq (P : Platform ω) (radioIndex : Int32) :
    powerCommand P radioIndex = powerLine (radioAp radioIndex) := by
  rw [powerCommand,P.command_ap (by decide +kernel)]
  unfold powerLine
  simp [sprintf,apName,apPrefix,Arg.conversion,Arg.text]

end RdkHal.Wifi
