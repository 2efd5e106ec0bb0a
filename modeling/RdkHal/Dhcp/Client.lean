import RdkHal.Platform
import RdkHal.Lib.Numeral

/-! The remaining times of the DHCPv4 client, from dhcpv4c_api.c: sysevent queries that look
up the WAN interface each time, the uptime file, and arithmetic on 32-bit unsigned numbers. -/

set_option autoImplicit false

namespace RdkHal.Dhcp
open Text

/-- What the client asks the system for. Each access may move the state on: others write too.
`get` is given the text in the destination, and its size; `uptimeFile` is `none` when the
file cannot be opened. -/
structure Platform (ω : Type) where
  lib : Safec
  connect : ω → Int × ω
  get : Str → Str → Nat → ω → (Int × Str) × ω
  uptimeFile : ω → Option Str × ω

variable {ω : Type}

def expandS (format arg : Str) : Str :=
  match format with
  | [] => []
  | '%' :: 's' :: rest => arg ++ rest
  | c :: rest => c :: expandS rest arg

def currentWanIfname : Str := "current_wan_ifname".toList

def leaseTimeFormat : Str := "ipv4_%s_lease_time".toList

def startTimeFormat : Str := "ipv4_%s_start_time".toList

def dhcpv4cSyseventGetValue (P : Platform ω) (queryName queryValue : Option Str)
    (queryValueSize : Nat) (w : ω) : Ret × Option Str × ω :=
  match queryName, queryValue with
  | some queryName, some queryValue =>
    if queryValueSize = 0 then (.err,some queryValue,w)
    else
      let (seFd,w) := P.connect w
      if seFd < 0 then (.err,some queryValue,w)
      else
        let ((ret,ertIfname),w) := P.get currentWanIfname [] 32 w
        if ret ≠ 0 ∨ ertIfname = [] then (.err,some queryValue,w)
        else
          let name := (P.lib.sprintfS 64 (expandS queryName ertIfname)).2
          let ((ret,queryValue),w) := P.get name queryValue queryValueSize w
          if ret ≠ 0 ∨ queryValue = [] then (.err,some queryValue,w)
          else (.ok,some queryValue,w)
  | _, queryValue => (.err,queryValue,w)

/-- A status, `*up_time` afterwards, and the state. No result: the file has a line without a
token, and `atoi` is given NULL. -/
def dhcpv4cGetUpTime (P : Platform ω) (upTime : UInt32) (w : ω) : Option (Ret × UInt32 × ω) :=
  match P.uptimeFile w with
  | (none,w) => some (.err,upTime,w)
  | (some text,w) =>
    if text = [] then some (.err,upTime,w)
    else
      match strtok " .".toList (takeLine 63 text).1 with
      | none => none
      | some token => some (.ok,0+(atoi token).toUInt32,w)

/-- The common body of the three getters, which differ in the threshold they compute of the
lease time. `pValue` is `none` when NULL, else what it points to. -/
def remainTime (P : Platform ω) (threshold : UInt32 → UInt32) (pValue : Option UInt32) (w : ω) :
    Option (Ret × Option UInt32 × ω) :=
  match pValue with
  | none => some (.err,none,w)
  | some old =>
    match dhcpv4cSyseventGetValue P (some leaseTimeFormat) (some []) 64 w with
    | (.ok,some (c :: lease),w) =>
      let leaseTime := (atoi (c :: lease)).toUInt32
      let thresholdTime := threshold leaseTime
      match dhcpv4cSyseventGetValue P (some startTimeFormat) (some (c :: lease)) 64 w with
      | (.ok,some (d :: start),w) =>
        let startTime := (atoi (d :: start)).toUInt32
        match dhcpv4cGetUpTime P 0 w with
        | none => none
        | some (_,upTime,w) => some (.ok,some (thresholdTime-(upTime-startTime)),w)
      | (_,_,w) => some (.err,some old,w)
    | (_,_,w) => some (.err,some old,w)

def dhcpv4cGetErtRemainLeaseTimeUdhcp (P : Platform ω) (pValue : Option UInt32) (w : ω) :
    Option (Ret × Option UInt32 × ω) :=
  remainTime P (fun leaseTime => leaseTime) pValue w

def dhcpv4cGetErtRemainRenewTimeUdhcp (P : Platform ω) (pValue : Option UInt32) (w : ω) :
    Option (Ret × Option UInt32 × ω) :=
  remainTime P (fun leaseTime => leaseTime/2) pValue w

def dhcpv4cGetErtRemainRebindTimeUdhcp (P : Platform ω) (pValue : Option UInt32) (w : ω) :
    Option (Ret × Option UInt32 × ω) :=
  remainTime P (fun leaseTime => leaseTime*7/8) pValue w

inductive Timer where
  | lease
  | renew
  | rebind
  deriving DecidableEq, Repr

namespace Timer

def threshold (timer : Timer) (leaseTime : UInt32) : UInt32 :=
  match timer with
  | lease => leaseTime
  | renew => leaseTime/2
  | rebind => leaseTime*7/8

def getter (timer : Timer) (P : Platform ω) (pValue : Option UInt32) (w : ω) :
    Option (Ret × Option UInt32 × ω) :=
  match timer with
  | lease => dhcpv4cGetErtRemainLeaseTimeUdhcp P pValue w
  | renew => dhcpv4cGetErtRemainRenewTimeUdhcp P pValue w
  | rebind => dhcpv4cGetErtRemainRebindTimeUdhcp P pValue w

theorem getter_eq (timer : Timer) (P : Platform ω) (pValue : Option UInt32) (w : ω) :
    timer.getter P pValue w = remainTime P timer.threshold pValue w := by
  cases timer <;> rfl

def remain (timer : Timer) (lease start : Str) (upTime : UInt32) : UInt32 :=
  timer.threshold (atoi lease).toUInt32-(upTime-(atoi start).toUInt32)

end Timer

end RdkHal.Dhcp
