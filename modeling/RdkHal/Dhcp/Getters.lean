import RdkHal.Dhcp.Client
import RdkHal.Lib.Inet

/-! The getters of the DHCPv4 client that read an address or a state, from dhcpv4c_api.c. What
C leaves uninitialised, the local `addr`, is an argument. -/

set_option autoImplicit false

namespace RdkHal.Dhcp
open Text Inet

variable {ω : Type}

/-- One query of a getter, with its test for an empty text: a status, the text in `query_value`
afterwards, and the state. -/
def query (P : Platform ω) (format queryValue : Str) (w : ω) : Ret × Str × ω :=
  match dhcpv4cSyseventGetValue P (some format) (some queryValue) 64 w with
  | (.ok,some (c :: text),w) => (.ok,c :: text,w)
  | (_,text,w) => (.err,text.getD [],w)

def EachRead (P : Platform ω) (format queryValue : Str) (p : Str → ω → Prop) (w : ω) : Prop :=
  ∀ text w', query P format queryValue w = (.ok,text,w') → p text w'

theorem EachRead.read {P : Platform ω} {format queryValue : Str} {p : Str → ω → Prop} {w : ω}
    (h : EachRead P format queryValue p w) (hok : (query P format queryValue w).1 = .ok) :
    p (query P format queryValue w).2.1 (query P format queryValue w).2.2 :=
  h _ _ (by rw [← hok])

theorem eachRead_ok {P : Platform ω} {format queryValue text : Str} {p : Str → ω → Prop} {w w' : ω}
    (hread : query P format queryValue w = (.ok,text,w')) :
    EachRead P format queryValue p w ↔ p text w' := by
  constructor
  · intro h
    exact h text w' hread
  · intro h text' w'' hread'
    rw [hread] at hread'
    cases hread'
    exact h

theorem eachRead_failed {P : Platform ω} {format queryValue text : Str} {w w' : ω}
    (hread : query P format queryValue w = (.err,text,w')) (p : Str → ω → Prop) :
    EachRead P format queryValue p w := by
  intro text' w'' hread'
  rw [hread] at hread'
  cases hread'

def dhcpStateFormat : Str := "ipv4_%s_dhcp_state".toList

def ipaddrFormat : Str := "ipv4_%s_ipaddr".toList

def dhcpServerFormat : Str := "ipv4_%s_dhcp_server".toList

def subnetFormat : Str := "ipv4_%s_subnet".toList

def gwNumberFormat : Str := "ipv4_%s_gw_number".toList

def gwFormat : Str := "ipv4_%s_gw_0".toList

def dnsNumberFormat : Str := "ipv4_%s_dns_number".toList

def dhcpState : List Str :=
  ["init".toList,"selecting".toList,"requesting".toList,"rebinding".toList,"bound".toList,
    "renewing".toList]

def statusBound : Int32 := 5

def dhcpv4cGetErtFsmStateUdhcp (P : Platform ω) (_addr : UInt32) (pValue : Option Int32) (w : ω) :
    Ret × Option Int32 × ω :=
  match pValue with
  | none => (.err,none,w)
  | some old =>
    match query P dhcpStateFormat [] w with
    | (.err,_,w) => (.err,some old,w)
    | (.ok,text,w) =>
      let i := dhcpState.idxOf text
      if i < dhcpState.length then (.ok,some (Int32.ofNat (i+1)),w)
      else if text = "renew".toList then (.ok,some statusBound,w)
      else (.ok,some old,w)

/-- The common body of the getters of an address: the result of `inet_aton` is not looked at. -/
def addrQuery (P : Platform ω) (format : Str) (addr : UInt32) (queryValue : Str) (old : UInt32)
    (w : ω) : Ret × Option UInt32 × ω :=
  match query P format queryValue w with
  | (.err,_,w) => (.err,some old,w)
  | (.ok,text,w) => (.ok,some (inetAton text addr).2,w)

def dhcpv4cGetErtIpAddrUdhcp (P : Platform ω) (addr : UInt32) (pValue : Option UInt32) (w : ω) :
    Ret × Option UInt32 × ω :=
  match pValue with
  | none => (.err,none,w)
  | some old => addrQuery P ipaddrFormat addr [] old w

/-- No result: the shift is undefined. -/
def dhcpv4cGetErtMaskUdhcp (P : Platform ω) (pValue : Option UInt32) (w : ω) :
    Option (Ret × Option UInt32 × ω) :=
  match pValue with
  | none => some (.err,none,w)
  | some old =>
    match query P subnetFormat [] w with
    | (.err,_,w) => some (.err,some old,w)
    | (.ok,text,w) =>
      let mask := (atoi text).toUInt32
      match shiftLeft 0xFFFFFFFF (32-mask) with
      | none => none
      | some mask => some (.ok,some (htonl (mask &&& 0xFFFFFFFF)),w)

def dhcpv4cGetErtGwUdhcp (P : Platform ω) (addr : UInt32) (pValue : Option UInt32) (w : ω) :
    Ret × Option UInt32 × ω :=
  match pValue with
  | none => (.err,none,w)
  | some old =>
    match query P gwNumberFormat [] w with
    | (.err,_,w) => (.err,some old,w)
    | (.ok,number,w) =>
      let gwNum := (atoi number).toUInt32
      if 1 ≤ gwNum then addrQuery P gwFormat addr number old w
      else (.ok,some 0,w)

structure IpList where
  number : UInt32
  addrs : Nat → UInt32

/-- The format of the server `i`; it is itself printed, with `%%` for the `%` of the query. -/
def dnsFormat (lib : Safec) (i : Nat) : Str :=
  (lib.sprintfS 32 ("ipv4_%s_dns_".toList ++ Nat.toDigits 10 i)).2

/-- The remaining rounds of the loop from the index `i` on; `addr` and `query_value` are those
of the round before. -/
def dnsLoop (P : Platform ω) : Nat → Nat → Str → UInt32 → (Nat → UInt32) → ω → (Nat → UInt32) × ω
  | 0, _, _, _, addrs, w => (addrs,w)
  | rounds+1, i, queryValue, addr, addrs, w =>
    match query P (dnsFormat P.lib i) queryValue w with
    | (.err,text,w) => dnsLoop P rounds (i+1) text addr addrs w
    | (.ok,text,w) =>
      let addr := (inetAton text addr).2
      dnsLoop P rounds (i+1) text addr (fun j => if j = i then addr else addrs j) w

def dhcpv4cGetErtDnsSvrsUdhcp (P : Platform ω) (addr : UInt32) (pList : Option IpList) (w : ω) :
    Ret × Option IpList × ω :=
  match pList with
  | none => (.err,none,w)
  | some old =>
    match query P dnsNumberFormat [] w with
    | (.err,_,w) => (.err,some old,w)
    | (.ok,number,w) =>
      let dnsNum := (atoi number).toUInt32
      if 1 ≤ dnsNum then
        let dnsNum := if 4 < dnsNum then 4 else dnsNum
        let (addrs,w) := dnsLoop P dnsNum.toNat 0 number addr old.addrs w
        (.ok,some ⟨dnsNum,addrs⟩,w)
      else (.ok,some ⟨0,old.addrs⟩,w)

def dhcpv4cGetErtDhcpSvrUdhcp (P : Platform ω) (addr : UInt32) (pValue : Option UInt32) (w : ω) :
    Ret × Option UInt32 × ω :=
  match pValue with
  | none => (.err,none,w)
  | some old => addrQuery P dhcpServerFormat addr [] old w

end RdkHal.Dhcp
