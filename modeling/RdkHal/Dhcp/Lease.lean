import RdkHal.Lib.Dotted
import RdkHal.Dhcp.Questions

/-! What the client is asked about: the lease of the WAN interface, how its parts stand in the
sysevent store, and the answer to each question. -/

set_option autoImplicit false

namespace RdkHal.Dhcp
open Text Inet

/-- The words of the key `dhcp_state` that have a code. -/
inductive Phase where
  | init
  | selecting
  | requesting
  | rebinding
  | bound
  | renewing
  | renew
  deriving DecidableEq,Repr

namespace Phase

def text : Phase → Str
  | init => "init".toList
  | selecting => "selecting".toList
  | requesting => "requesting".toList
  | rebinding => "rebinding".toList
  | bound => "bound".toList
  | renewing => "renewing".toList
  | renew => "renew".toList

/-- A renewed lease is a bound one. -/
def code : Phase → Int32
  | init => 1
  | selecting => 2
  | requesting => 3
  | rebinding => 4
  | bound | renew => 5
  | renewing => 6

theorem text_fits (phase : Phase) : phase.text ≠ [] ∧ phase.text.length < 64 := by
  cases phase <;> decide

end Phase

def netmask (n : Nat) : Quad :=
  let byte k := UInt8.ofNat (256-2^(8-min 8 (n-8*k)))
  ⟨byte 0,byte 1,byte 2,byte 3⟩

example : (netmask 20).dotted = "255.255.240.0".toList := by decide

structure Lease where
  ifname : Str
  phase : Phase
  address : Quad
  maskBits : Nat
  gateways : List Quad
  dnsServers : List Quad
  server : Quad
  leaseTime : Nat
  startTime : Nat
  ifname_ne : ifname ≠ []
  ifname_fits : ifname.length < 32
  maskBits_pos : 1 ≤ maskBits
  maskBits_le : maskBits ≤ 32
  gateways_lt : gateways.length < 2^31
  dnsServers_lt : dnsServers.length < 2^31
  leaseTime_lt : 7*leaseTime < 2^32
  startTime_lt : startTime < 2^31

namespace Lease

def key (l : Lease) (format : Str) : Str := expandS format l.ifname

def serverFormat (i : Nat) : Str := "ipv4_%s_dns_".toList ++ Nat.toDigits 10 i

/-- The store holds the lease: the numbers to base ten and the addresses with dots. -/
structure Published (l : Lease) (sysevent : Str → Str) : Prop where
  ifname : sysevent currentWanIfname = l.ifname
  phase : sysevent (l.key dhcpStateFormat) = l.phase.text
  address : sysevent (l.key ipaddrFormat) = l.address.dotted
  maskBits : sysevent (l.key subnetFormat) = Nat.toDigits 10 l.maskBits
  gwNumber : sysevent (l.key gwNumberFormat) = Nat.toDigits 10 l.gateways.length
  gateway : ∀ gw ∈ l.gateways.head?, sysevent (l.key gwFormat) = gw.dotted
  dnsNumber : sysevent (l.key dnsNumberFormat) = Nat.toDigits 10 l.dnsServers.length
  dnsServer : ∀ i < 4, ∀ q ∈ l.dnsServers[i]?, sysevent (l.key (serverFormat i)) = q.dotted
  server : sysevent (l.key dhcpServerFormat) = l.server.dotted
  leaseTime : sysevent (l.key leaseTimeFormat) = Nat.toDigits 10 l.leaseTime
  startTime : sysevent (l.key startTimeFormat) = Nat.toDigits 10 l.startTime

def texts (l : Lease) : List (Str × Str) :=
  [("_dhcp_state".toList,l.phase.text),("_ipaddr".toList,l.address.dotted),
    ("_subnet".toList,Nat.toDigits 10 l.maskBits),
    ("_gw_number".toList,Nat.toDigits 10 l.gateways.length),
    ("_gw_0".toList,(l.gateways.head?.map Quad.dotted).getD []),
    ("_dns_number".toList,Nat.toDigits 10 l.dnsServers.length),
    ("_dns_0".toList,(l.dnsServers[0]?.map Quad.dotted).getD []),
    ("_dns_1".toList,(l.dnsServers[1]?.map Quad.dotted).getD []),
    ("_dns_2".toList,(l.dnsServers[2]?.map Quad.dotted).getD []),
    ("_dns_3".toList,(l.dnsServers[3]?.map Quad.dotted).getD []),
    ("_dhcp_server".toList,l.server.dotted),("_lease_time".toList,Nat.toDigits 10 l.leaseTime),
    ("_start_time".toList,Nat.toDigits 10 l.startTime)]

def store (l : Lease) (key : Str) : Str :=
  if key = currentWanIfname then l.ifname
  else (l.texts.lookup (key.drop (l.ifname.length+5))).getD []

theorem store_key (l : Lease) {format : Str} (rest : Str)
    (hformat : expandS format l.ifname = "ipv4_".toList ++ (l.ifname ++ rest)) :
    l.store (l.key format) = (l.texts.lookup rest).getD [] := by
  have hother : "ipv4_".toList ++ (l.ifname ++ rest) ≠ currentWanIfname := by
    intro h
    exact absurd (List.cons.inj h).1 (by decide)
  have hrest : ("ipv4_".toList ++ (l.ifname ++ rest)).drop (l.ifname.length+5) = rest := by
    rw [← List.append_assoc]
    exact List.drop_left' (by rw [List.length_append,Nat.add_comm]; rfl)
  rw [store,key,hformat,if_neg hother,hrest]

theorem published_store (l : Lease) : l.Published l.store where
  ifname := if_pos rfl
  phase := l.store_key "_dhcp_state".toList rfl
  address := l.store_key "_ipaddr".toList rfl
  maskBits := l.store_key "_subnet".toList rfl
  gwNumber := l.store_key "_gw_number".toList rfl
  gateway gw hgw := by
    have htext : l.store (l.key gwFormat) = (l.gateways.head?.map Quad.dotted).getD [] :=
      l.store_key "_gw_0".toList rfl
    rw [htext,hgw]
    rfl
  dnsNumber := l.store_key "_dns_number".toList rfl
  dnsServer i hi q hq := by
    have htext : l.store (l.key (serverFormat i)) = (l.dnsServers[i]?.map Quad.dotted).getD [] := by
      rw [l.store_key ("_dns_".toList ++ Nat.toDigits 10 i) rfl]
      match i, hi with
      | 0, _ | 1, _ | 2, _ | 3, _ => rfl
    rw [htext,hq]
    rfl
  server := l.store_key "_dhcp_server".toList rfl
  leaseTime := l.store_key "_lease_time".toList rfl
  startTime := l.store_key "_start_time".toList rfl

def due (l : Lease) : Timer → Nat
  | .lease => l.startTime+l.leaseTime
  | .renew => l.startTime+l.leaseTime/2
  | .rebind => l.startTime+7*l.leaseTime/8

/-- What the pointer points to after the question; the list keeps what is behind its end. -/
def answer (l : Lease) (upTime : Nat) : (q : Question) → q.Content → q.Content
  | .leaseTime, _ => UInt32.ofNat l.leaseTime
  | .remain timer, _ => UInt32.ofNat (l.due timer-upTime)
  | .configAttempts, _ => (100 : Int32)
  | .ifname, _ => l.ifname
  | .fsmState, _ => l.phase.code
  | .ipAddr, _ => l.address.address
  | .mask, _ => (netmask l.maskBits).address
  | .gw, _ => (l.gateways.head?.map Quad.address).getD 0
  | .dnsSvrs, old => (⟨UInt32.ofNat (min l.dnsServers.length 4),
      fun j => ((l.dnsServers.take 4)[j]?.map Quad.address).getD (old.addrs j)⟩ : IpList)
  | .dhcpSvr, _ => l.server.address

def accesses (l : Lease) : Question → Nat
  | .configAttempts => 0
  | .ifname => 2
  | .remain _ => 7
  | .gw => if l.gateways = [] then 3 else 6
  | .dnsSvrs => 3*(min l.dnsServers.length 4+1)
  | _ => 3

end Lease

def unleased : (q : Question) → q.Content → Ret × q.Content
  | .configAttempts, _ => (.ok,(100 : Int32))
  | .ifname, _ => (.ok,defaultErtIfname)
  | _, old => (.err,old)

namespace Call

def reply (c : Call) (lease : Option Lease) (upTime : Nat) : Reply :=
  match c.pointer, lease with
  | none, _ => ⟨c.question,.err,none⟩
  | some old, none => ⟨c.question,(unleased c.question old).1,some (unleased c.question old).2⟩
  | some old, some l => ⟨c.question,.ok,some (l.answer upTime c.question old)⟩

def accesses (c : Call) (lease : Option Lease) : Nat :=
  match c.pointer, lease with
  | none, _ => 1
  | some _, none => if c.question = .configAttempts then 1 else 3
  | some _, some l => l.accesses c.question+1

theorem accesses_pos (c : Call) (lease : Option Lease) : 0 < c.accesses lease := by
  obtain ⟨q,p,addr⟩ := c
  rcases p with _ | old <;> rcases lease with _ | l
  · exact Nat.one_pos
  · exact Nat.one_pos
  · simp only [accesses]
    split <;> decide
  · exact Nat.succ_pos _

end Call

end RdkHal.Dhcp
