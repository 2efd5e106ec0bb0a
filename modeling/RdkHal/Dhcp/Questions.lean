import RdkHal.Lib.Machines
import RdkHal.Dhcp.Getters

/-! The whole interface of the DHCPv4 client, from dhcpv4c_api.c: the public functions, which ask
the setting first and then one of two clients, and all of them as the questions of one type. -/

set_option autoImplicit false

namespace RdkHal.Dhcp
open Text Inet

variable {ω : Type}

def dhcpv4cGetErtLeaseTimeUdhcp (P : Platform ω) (pValue : Option UInt32) (w : ω) :
    Ret × Option UInt32 × ω :=
  match pValue with
  | none => (.err,none,w)
  | some old =>
    match query P leaseTimeFormat [] w with
    | (.err,_,w) => (.err,some old,w)
    | (.ok,text,w) => (.ok,some (atoi text).toUInt32,w)

def dhcpv4cGetErtConfigAttemptsUdhcp (pValue : Option Int32) (w : ω) : Ret × Option Int32 × ω :=
  match pValue with
  | none => (.err,none,w)
  | some _ => (.ok,some 100,w)

def defaultErtIfname : Str := "erouter0".toList

/-- It succeeds without an interface name, with the default. -/
def dhcpv4cGetErtIfnameUdhcp (P : Platform ω) (pName : Option Str) (w : ω) : Ret × Option Str × ω :=
  match pName with
  | none => (.err,none,w)
  | some old =>
    let (seFd,w) := P.connect w
    if seFd < 0 then (.err,some old,w)
    else
      let ((ret,ertIfname),w) := P.get currentWanIfname [] 32 w
      if ret ≠ 0 ∨ ertIfname = [] then (.ok,some (P.lib.strcpyS 100 defaultErtIfname).2,w)
      else (.ok,some (P.lib.strcpyS 100 ertIfname).2,w)

inductive Question where
  | leaseTime
  | remain (timer : Timer)
  | configAttempts
  | ifname
  | fsmState
  | ipAddr
  | mask
  | gw
  | dnsSvrs
  | dhcpSvr
  deriving DecidableEq,Repr

namespace Question

def Content : Question → Type
  | configAttempts | fsmState => Int32
  | ifname => Str
  | dnsSvrs => IpList
  | _ => UInt32

/-- `addr` is what the local of that name holds, in the functions that have one. -/
def udhcp (q : Question) (P : Platform ω) (addr : UInt32) (p : Option q.Content) (w : ω) :
    Option (Ret × Option q.Content × ω) :=
  match q, p with
  | leaseTime, p => some (dhcpv4cGetErtLeaseTimeUdhcp P p w)
  | remain timer, p => timer.getter P p w
  | configAttempts, p => some (dhcpv4cGetErtConfigAttemptsUdhcp p w)
  | ifname, p => some (dhcpv4cGetErtIfnameUdhcp P p w)
  | fsmState, p => some (dhcpv4cGetErtFsmStateUdhcp P addr p w)
  | ipAddr, p => some (dhcpv4cGetErtIpAddrUdhcp P addr p w)
  | mask, p => dhcpv4cGetErtMaskUdhcp P p w
  | gw, p => some (dhcpv4cGetErtGwUdhcp P addr p w)
  | dnsSvrs, p => some (dhcpv4cGetErtDnsSvrsUdhcp P addr p w)
  | dhcpSvr, p => some (dhcpv4cGetErtDhcpSvrUdhcp P addr p w)

end Question

/-! The public functions -/

/-- What the public functions use: the setting, with the size of the buffer, the udhcp client and
the client of another library. -/
structure Clients (ω : Type) where
  syscfgGet : Str → Nat → ω → Str × ω
  udhcp : Platform ω
  dhcp4c : (q : Question) → Option q.Content → ω → Option (Ret × Option q.Content × ω)

def udhcpEnable : Str := "UDHCPEnable_v2".toList

/-- The common body: the setting is read before the pointer is looked at. -/
def dhcpv4cGetErt (C : Clients ω) (q : Question) (addr : UInt32) (p : Option q.Content) (w : ω) :
    Option (Ret × Option q.Content × ω) :=
  let (udhcpflag,w) := C.syscfgGet udhcpEnable 10 w
  match p with
  | none => some (.err,none,w)
  | some old =>
    if udhcpflag = "false".toList then C.dhcp4c q (some old) w
    else q.udhcp C.udhcp addr (some old) w

def dhcpv4cGetErtLeaseTime (C : Clients ω) (addr : UInt32) (pValue : Option UInt32) (w : ω) :
    Option (Ret × Option UInt32 × ω) :=
  dhcpv4cGetErt C .leaseTime addr pValue w

def dhcpv4cGetErtRemainLeaseTime (C : Clients ω) (addr : UInt32) (pValue : Option UInt32) (w : ω) :
    Option (Ret × Option UInt32 × ω) :=
  dhcpv4cGetErt C (.remain .lease) addr pValue w

def dhcpv4cGetErtRemainRenewTime (C : Clients ω) (addr : UInt32) (pValue : Option UInt32) (w : ω) :
    Option (Ret × Option UInt32 × ω) :=
  dhcpv4cGetErt C (.remain .renew) addr pValue w

def dhcpv4cGetErtRemainRebindTime (C : Clients ω) (addr : UInt32) (pValue : Option UInt32) (w : ω) :
    Option (Ret × Option UInt32 × ω) :=
  dhcpv4cGetErt C (.remain .rebind) addr pValue w

def dhcpv4cGetErtConfigAttempts (C : Clients ω) (addr : UInt32) (pValue : Option Int32) (w : ω) :
    Option (Ret × Option Int32 × ω) :=
  dhcpv4cGetErt C .configAttempts addr pValue w

def dhcpv4cGetErtIfname (C : Clients ω) (addr : UInt32) (pName : Option Str) (w : ω) :
    Option (Ret × Option Str × ω) :=
  dhcpv4cGetErt C .ifname addr pName w

def dhcpv4cGetErtFsmState (C : Clients ω) (addr : UInt32) (pValue : Option Int32) (w : ω) :
    Option (Ret × Option Int32 × ω) :=
  dhcpv4cGetErt C .fsmState addr pValue w

def dhcpv4cGetErtIpAddr (C : Clients ω) (addr : UInt32) (pValue : Option UInt32) (w : ω) :
    Option (Ret × Option UInt32 × ω) :=
  dhcpv4cGetErt C .ipAddr addr pValue w

def dhcpv4cGetErtMask (C : Clients ω) (addr : UInt32) (pValue : Option UInt32) (w : ω) :
    Option (Ret × Option UInt32 × ω) :=
  dhcpv4cGetErt C .mask addr pValue w

def dhcpv4cGetErtGw (C : Clients ω) (addr : UInt32) (pValue : Option UInt32) (w : ω) :
    Option (Ret × Option UInt32 × ω) :=
  dhcpv4cGetErt C .gw addr pValue w

def dhcpv4cGetErtDnsSvrs (C : Clients ω) (addr : UInt32) (pList : Option IpList) (w : ω) :
    Option (Ret × Option IpList × ω) :=
  dhcpv4cGetErt C .dnsSvrs addr pList w

def dhcpv4cGetErtDhcpSvr (C : Clients ω) (addr : UInt32) (pValue : Option UInt32) (w : ω) :
    Option (Ret × Option UInt32 × ω) :=
  dhcpv4cGetErt C .dhcpSvr addr pValue w

structure Call where
  question : Question
  pointer : Option question.Content
  addr : UInt32

structure Reply where
  question : Question
  status : Ret
  content : Option question.Content

def Question.get (q : Question) (C : Clients ω) :
    UInt32 → Option q.Content → ω → Option (Ret × Option q.Content × ω) :=
  match q with
  | leaseTime => dhcpv4cGetErtLeaseTime C
  | remain .lease => dhcpv4cGetErtRemainLeaseTime C
  | remain .renew => dhcpv4cGetErtRemainRenewTime C
  | remain .rebind => dhcpv4cGetErtRemainRebindTime C
  | configAttempts => dhcpv4cGetErtConfigAttempts C
  | ifname => dhcpv4cGetErtIfname C
  | fsmState => dhcpv4cGetErtFsmState C
  | ipAddr => dhcpv4cGetErtIpAddr C
  | mask => dhcpv4cGetErtMask C
  | gw => dhcpv4cGetErtGw C
  | dnsSvrs => dhcpv4cGetErtDnsSvrs C
  | dhcpSvr => dhcpv4cGetErtDhcpSvr C

theorem Question.get_eq (q : Question) (C : Clients ω) : q.get C = dhcpv4cGetErt C q := by
  rcases q with _ | ⟨_ | _ | _⟩ | _ | _ | _ | _ | _ | _ | _ | _ <;> rfl

def Call.perform (C : Clients ω) (c : Call) (w : ω) : Option (Reply × ω) :=
  (c.question.get C c.addr c.pointer w).map fun r => (⟨c.question,r.1,r.2.1⟩,r.2.2)

/-- A program that asks; an undefined result ends it. -/
def exec (C : Clients ω) (w : Option ω) (c : Call) : Option Reply × Option ω :=
  match w.bind (c.perform C) with
  | some (reply,w) => (some reply,some w)
  | none => (none,none)

theorem exec_some {C : Clients ω} {w w' : ω} {c : Call} {reply : Reply}
    (h : c.perform C w = some (reply,w')) : exec C (some w) c = (some reply,some w') := by
  simp only [exec,Option.bind_some,h]

end RdkHal.Dhcp
