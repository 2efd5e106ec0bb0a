import RdkHal.Dhcp.Interleaving
import RdkHal.Dhcp.Sources
import RdkHal.Dhcp.Mask
import RdkHal.Dhcp.Lease

/-! The questions among the writes of others, whole runs of them: each is answered from the lease
in force during the call, whatever happens to the rest of the store. -/

set_option autoImplicit false

namespace RdkHal.Dhcp
open Text Inet Runs

variable {ω : Type}

theorem expandS_length (format arg : Str) :
    (expandS format arg).length ≤ format.length+arg.length := by
  fun_induction expandS format arg with
  | case1 => simp
  | case2 rest => simp [Nat.add_comm,Nat.add_left_comm]
  | case3 c rest _ ih => simp; omega

structure System extends Timeline where
  syscfg : Nat → Str → Str
  clock : Nat → Str

namespace System

def udhcp (lib : Safec) (S : System) : Platform Nat := { S.toTimeline.platform lib with
  uptimeFile := fun t => (some (S.clock t),S.next t) }

def clients (lib : Safec) (dhcp4c : (q : Question) → Option q.Content → Nat →
    Option (Ret × Option q.Content × Nat)) (S : System) : Clients Nat where
  syscfgGet name size t := ((S.syscfg t name).take (size-1),S.next t)
  udhcp := S.udhcp lib
  dhcp4c := dhcp4c

theorem moment_succ (S : System) (t k : Nat) : S.next (S.moment t k) = S.moment t (k+1) :=
  (Function.iterate_succ_apply' S.next k t).symm

theorem moment_moment (S : System) (t j k : Nat) :
    S.moment (S.moment t j) k = S.moment t (j+k) := by
  rw [Timeline.moment,Timeline.moment,Timeline.moment,Nat.add_comm,Function.iterate_add_apply]

theorem query_value (lib : Safec) {S : System} {t : Nat} {ifname format text : Str}
    (hformat : format.length ≤ 32) (hname : ifname.length < 32) (hne : ifname ≠ [])
    (hwan : S.sysevent (S.moment t 1) currentWanIfname = ifname)
    (hvalue : S.sysevent (S.moment t 2) (expandS format ifname) = text) (htext : text ≠ [])
    (hfits : text.length < 64) (old : Str) :
    query (S.udhcp lib) format old t = (.ok,text,S.moment t 3) := by
  have hlen := expandS_length format ifname
  have hkey : (lib.sprintfS 64 (expandS format ifname)).2 = expandS format ifname := by
    rw [lib.sprintfS_fits _ _ (by omega)]
  have hwan' : ifname.take 31 = ifname := List.take_of_length_le (by omega)
  have htake : text.take 63 = text := List.take_of_length_le (by omega)
  rw [query_delivers]
  refine ⟨0,S.moment t 1,ifname,S.moment t 2,rfl,Int.le_refl 0,?_,hne,?_,htext⟩
  · change ((0,(S.sysevent (S.moment t 1) currentWanIfname).take 31),S.next (S.moment t 1)) = _
    rw [hwan,hwan',S.moment_succ]
  · change ((0,(S.sysevent (S.moment t 2) (lib.sprintfS 64 (expandS format ifname)).2).take 63),
      S.next (S.moment t 2)) = _
    rw [hkey,hvalue,htake,S.moment_succ]

theorem query_unset (lib : Safec) {S : System} {t : Nat}
    (hwan : S.sysevent (S.moment t 1) currentWanIfname = []) (format old : Str) :
    query (S.udhcp lib) format old t = (.err,old,S.moment t 2) := by
  have hget : (S.udhcp lib).get currentWanIfname [] 32 (S.moment t 1) =
      ((0,[]),S.next (S.moment t 1)) := by
    change ((0,(S.sysevent (S.moment t 1) currentWanIfname).take 31),_) = _
    rw [hwan]
    rfl
  have hconnect : (S.udhcp lib).connect t = (0,S.moment t 1) := rfl
  rw [S.moment_succ] at hget
  simp [query,dhcpv4cSyseventGetValue,hconnect,hget]

theorem clock_value (lib : Safec) {S : System} {t upTime : Nat} {digits rest : Str}
    (hdigits : Numeral digits upTime) (hlen : digits.length < 63)
    (hclock : S.clock t = digits ++ '.' :: rest) :
    dhcpv4cGetUpTime (S.udhcp lib) 0 t = some (.ok,(atoi digits).toUInt32,S.next t) := by
  have hnl : '\n' ∉ digits := hdigits.not_mem (by decide)
  obtain ⟨rest',hline⟩ := takeLine_start hnl hlen (d := '.') (by decide) rest
  have htoken := hdigits.strtok " .".toList (by decide) (d := '.') (by decide) rest'
  rw [upTime_delivers]
  refine ⟨digits ++ '.' :: rest,digits,?_,by simp,?_,rfl⟩
  · rw [← hclock]
    rfl
  · rw [hline,htoken]

end System

theorem dnsLoop_reads {P : Platform ω} {servers : Nat → Quad} {w : Nat → ω} {rounds i : Nat}
    (h : ∀ k < rounds, ∀ old,
      query P (dnsFormat P.lib (i+k)) old (w k) = (.ok,(servers (i+k)).dotted,w (k+1)))
    (queryValue : Str) (addr : UInt32) (addrs : Nat → UInt32) :
    dnsLoop P rounds i queryValue addr addrs (w 0) =
      (fun j => if i ≤ j ∧ j < i+rounds then (servers j).address else addrs j,w rounds) := by
  induction rounds generalizing i w queryValue addr addrs with
  | zero =>
    have hnone : ∀ j, ¬(i ≤ j ∧ j < i+0) := fun j => by omega
    simp only [dnsLoop,hnone,if_false]
  | succ rounds ih =>
    have hfirst := h 0 (Nat.succ_pos _) queryValue
    rw [Nat.add_zero] at hfirst
    have haton : inetAton (servers i).dotted addr = (1,(servers i).address) := by
      simp only [inetAton,(servers i).inetAddr_dotted]
    have hrest := ih (i := i+1) (w := fun k => w (k+1)) (fun k hk old => by
      have hround := h (k+1) (by omega) old
      rwa [show i+(k+1) = i+1+k by omega] at hround) (servers i).dotted (servers i).address
      (fun j => if j = i then (servers i).address else addrs j)
    rw [Nat.zero_add] at hrest
    simp only [dnsLoop,hfirst,haton,hrest]
    refine congrArg (·,w (rounds+1)) (funext fun j => ?_)
    by_cases hj : j = i
    · subst hj
      have hin : j ≤ j ∧ j < j+(rounds+1) := by omega
      have hout : ¬(j+1 ≤ j ∧ j < j+1+rounds) := by omega
      simp only [hin,hout,if_true,if_false,and_self]
    · have hiff : (i+1 ≤ j ∧ j < i+1+rounds) ↔ (i ≤ j ∧ j < i+(rounds+1)) := by omega
      simp only [hiff,hj,if_false]

namespace System

/-- At the moment `m` the udhcp client is in use, the store holds this lease or no WAN interface,
and the uptime file this uptime. -/
structure Shows (S : System) (lease : Option Lease) (upTime m : Nat) : Prop where
  enabled : S.syscfg m udhcpEnable ≠ "false".toList
  unset : lease = none → S.sysevent m currentWanIfname = []
  published : ∀ l ∈ lease, l.Published (S.sysevent m)
  started : ∀ l ∈ lease, l.startTime ≤ upTime
  clock : ∃ digits rest, Numeral digits upTime ∧ digits.length < 63 ∧
    S.clock m = digits ++ '.' :: rest

def Held (S : System) (lease : Option Lease) (upTime : Nat → Nat) (t k : Nat) : Prop :=
  ∀ j < k, S.Shows lease (upTime (S.moment t j)) (S.moment t j)

theorem Held.start {S : System} {lease : Option Lease} {upTime : Nat → Nat} {t k : Nat}
    (h : S.Held lease upTime t k) {j : Nat} (hj : j ≤ k) : S.Held lease upTime t j :=
  fun i hi => h i (Nat.lt_of_lt_of_le hi hj)

theorem Held.behind {S : System} {lease : Option Lease} {upTime : Nat → Nat} {t k : Nat}
    (h : S.Held lease upTime t k) {j i : Nat} (hj : j+i ≤ k) :
    S.Held lease upTime (S.moment t j) i := by
  intro n hn
  rw [S.moment_moment]
  exact h (j+n) (by omega)

theorem Held.query {S : System} {l : Lease} {upTime : Nat → Nat} {t : Nat}
    (h : S.Held (some l) upTime t 3) (lib : Safec) {text : Str}
    (format : Str) (hformat : format.length ≤ 32)
    (hvalue : ∀ sysevent, l.Published sysevent → sysevent (l.key format) = text)
    (htext : text ≠ [] ∧ text.length < 64) (old : Str) :
    query (S.udhcp lib) format old t = (.ok,text,S.moment t 3) :=
  query_value lib hformat l.ifname_fits l.ifname_ne ((h 1 (by decide)).published l rfl).ifname
    (hvalue _ ((h 2 (by decide)).published l rfl)) htext.1 htext.2 old

theorem toDigits_fits {n : Nat} (hn : n < 2^32) :
    Nat.toDigits 10 n ≠ [] ∧ (Nat.toDigits 10 n).length < 64 := by
  have hlen : (Nat.toDigits 10 n).length ≤ 10 :=
    (Nat.length_toDigits_le_iff (by decide) (by decide)).mpr (by omega)
  exact ⟨Nat.toDigits_ne_nil,by omega⟩

theorem dotted_fits (q : Quad) : q.dotted ≠ [] ∧ q.dotted.length < 64 := by
  have hlen := q.dotted_length
  exact ⟨q.dotted_ne_nil,by omega⟩

theorem atoi_toDigits {n : Nat} (hn : n < 2^31) :
    (atoi (Nat.toDigits 10 n)).toUInt32 = UInt32.ofNat n := by
  apply UInt32.toNat_inj.mp
  rw [(numeral_toDigits n).atoi hn,UInt32.toNat_ofNat_of_lt' (Nat.lt_trans hn (by decide))]

theorem netmask_shifted {n : Nat} (hpos : 1 ≤ n) (hle : n ≤ 32) :
    (shiftLeft 0xFFFFFFFF (32-UInt32.ofNat n)).map (fun mask => htonl (mask &&& 0xFFFFFFFF)) =
      some (netmask n).address := by
  have hall : ∀ n < 33, 1 ≤ n →
      (shiftLeft 0xFFFFFFFF (32-UInt32.ofNat n)).map (fun mask => htonl (mask &&& 0xFFFFFFFF)) =
        some (netmask n).address := by decide +kernel
  exact hall n (by omega) hpos

theorem Held.mask {S : System} {l : Lease} {upTime : Nat → Nat} {t : Nat}
    (h : S.Held (some l) upTime t 3) (lib : Safec) (old : UInt32) :
    dhcpv4cGetErtMaskUdhcp (S.udhcp lib) (some old) t =
      some (.ok,some (netmask l.maskBits).address,S.moment t 3) := by
  have hle := l.maskBits_le
  have hread := (h.start (by decide)).query lib subnetFormat (by decide)
    (fun _ hp => hp.maskBits) (toDigits_fits (by omega)) []
  have hmask := netmask_shifted l.maskBits_pos l.maskBits_le
  cases hshift : shiftLeft 0xFFFFFFFF (32-UInt32.ofNat l.maskBits) with
  | none =>
    rw [hshift] at hmask
    cases hmask
  | some mask =>
    rw [hshift,Option.map_some] at hmask
    simp only [dhcpv4cGetErtMaskUdhcp,hread,atoi_toDigits (show l.maskBits < 2^31 by omega),hshift,
      Option.some.inj hmask]

theorem due_eq (l : Lease) (timer : Timer) :
    l.due timer = l.startTime+timer.limit l.leaseTime := by
  have hlt := l.leaseTime_lt
  cases timer with
  | lease => rfl
  | renew => rfl
  | rebind =>
    simp only [Lease.due,Timer.limit]
    omega

theorem Held.remain {S : System} {l : Lease} {upTime : Nat → Nat} {t : Nat}
    (h : S.Held (some l) upTime t 7) (lib : Safec) (timer : Timer)
    (hdue : upTime (S.moment t 6) ≤ l.due timer) (old : UInt32) :
    timer.getter (S.udhcp lib) (some old) t =
      some (.ok,some (UInt32.ofNat (l.due timer-upTime (S.moment t 6))),S.moment t 7) := by
  have hltL := l.leaseTime_lt
  have hltS := l.startTime_lt
  have hlease := (h.start (by decide)).query lib leaseTimeFormat (by decide)
    (fun _ hp => hp.leaseTime) (toDigits_fits (by omega)) []
  have hstarted := (h.behind (j := 3) (by decide)).query lib startTimeFormat (by decide)
    (fun _ hp => hp.startTime) (toDigits_fits (by omega)) (Nat.toDigits 10 l.leaseTime)
  rw [S.moment_moment] at hstarted
  obtain ⟨digits,rest,hdigits,hlen,hclock⟩ := (h 6 (by decide)).clock
  have hsince := (h 6 (by decide)).started l rfl
  have hup : dhcpv4cGetUpTime (S.udhcp lib) 0 (S.moment t 6) =
      some (.ok,(atoi digits).toUInt32,S.next (S.moment t 6)) :=
    clock_value lib hdigits hlen hclock
  rw [S.moment_succ] at hup
  rw [Timer.getter_eq,remainTime_eq]
  simp only [hlease,hstarted,hup,Option.map_some]
  refine congrArg (fun r => some (Ret.ok,some r,S.moment t 7)) ?_
  apply UInt32.toNat_inj.mp
  have hlimit := timer.limit_le l.leaseTime
  rw [due_eq] at hdue ⊢
  rw [UInt32.toNat_sub,UInt32.toNat_sub,Timer.threshold_toNat,hdigits.atoi_mod,
    atoi_toDigits (by omega),atoi_toDigits (by omega),
    UInt32.toNat_ofNat_of_lt' (by simp [UInt32.size]; omega),
    UInt32.toNat_ofNat_of_lt' (by simp [UInt32.size]; omega),
    UInt32.toNat_ofNat_of_lt' (by simp [UInt32.size]; omega)]
  omega

theorem addrQuery_value {P : Platform ω} {format queryValue : Str} {w w' : ω} {q : Quad}
    (hread : Dhcp.query P format queryValue w = (.ok,q.dotted,w')) (addr old : UInt32) :
    addrQuery P format addr queryValue old w = (.ok,some q.address,w') := by
  simp only [addrQuery,hread,inetAton,q.inetAddr_dotted]

theorem Held.gw {S : System} {l : Lease} {upTime : Nat → Nat} {t : Nat}
    (h : S.Held (some l) upTime t (l.accesses .gw)) (lib : Safec) (addr old : UInt32) :
    dhcpv4cGetErtGwUdhcp (S.udhcp lib) addr (some old) t =
      (.ok,some ((l.gateways.head?.map Quad.address).getD 0),S.moment t (l.accesses .gw)) := by
  have hlt := l.gateways_lt
  have hthree : 3 ≤ l.accesses .gw := by
    rw [Lease.accesses]
    split <;> omega
  have hnumber := (h.start (by omega)).query lib gwNumberFormat
    (by decide) (fun _ hp => hp.gwNumber) (toDigits_fits (by omega)) []
  cases hgw : l.gateways with
  | nil =>
    rw [hgw] at hnumber
    have hzero : ¬1 ≤ (atoi (Nat.toDigits 10 0)).toUInt32 := by decide
    simp only [dhcpv4cGetErtGwUdhcp,hnumber,List.length_nil,hzero,if_false,Lease.accesses,hgw,
      if_true]
    rfl
  | cons gw rest =>
    have hsix : l.accesses .gw = 6 := by
      rw [Lease.accesses,hgw]
      rfl
    rw [hsix] at h ⊢
    rw [hgw] at hnumber hlt
    have hone : 1 ≤ (atoi (Nat.toDigits 10 (gw :: rest).length)).toUInt32 := by
      rw [UInt32.le_iff_toNat_le,(numeral_toDigits _).atoi hlt,List.length_cons]
      exact Nat.succ_le_succ (Nat.zero_le _)
    have hread := (h.behind (j := 3) (by decide)).query lib gwFormat (by decide)
      (fun _ hp => hp.gateway gw (by rw [hgw]; rfl)) (dotted_fits gw)
      (Nat.toDigits 10 (gw :: rest).length)
    rw [S.moment_moment] at hread
    simp only [dhcpv4cGetErtGwUdhcp,hnumber,hone,if_true]
    exact addrQuery_value hread addr old

theorem serverFormat_fits (lib : Safec) {i : Nat} (hi : i < 4) :
    dnsFormat lib i = Lease.serverFormat i ∧ (Lease.serverFormat i).length ≤ 32 := by
  have hall : ∀ i < 4, (Lease.serverFormat i).length < 32 := by decide +kernel
  have hlt := hall i hi
  have hprinted : dnsFormat lib i = (lib.sprintfS 32 (Lease.serverFormat i)).2 := rfl
  refine ⟨hprinted.trans ?_,Nat.le_of_lt hlt⟩
  simp only [lib.sprintfS_fits _ _ hlt]

theorem serverCount_atMost {n : Nat} (hn : n < 2^31) :
    (if 4 < (atoi (Nat.toDigits 10 n)).toUInt32 then 4 else (atoi (Nat.toDigits 10 n)).toUInt32) =
      UInt32.ofNat (min n 4) := by
  have hcount : (atoi (Nat.toDigits 10 n)).toUInt32.toNat = n := (numeral_toDigits _).atoi hn
  have hfour : min n 4 < UInt32.size := lt_of_le_of_lt (Nat.min_le_right ..) (by decide)
  apply UInt32.toNat_inj.mp
  rw [UInt32.toNat_ofNat_of_lt' hfour,apply_ite UInt32.toNat,hcount]
  simp only [UInt32.lt_iff_toNat_lt,hcount]
  change (if 4 < n then 4 else n) = _
  split <;> omega

theorem Held.dnsServer {S : System} {l : Lease} {upTime : Nat → Nat} {t : Nat}
    (h : S.Held (some l) upTime t (l.accesses .dnsSvrs)) (lib : Safec) {k : Nat}
    (hk : k < min l.dnsServers.length 4) {q : Quad} (hq : l.dnsServers[k]? = some q) (old : Str) :
    Dhcp.query (S.udhcp lib) (dnsFormat lib k) old (S.moment t (3+3*k)) =
      (.ok,q.dotted,S.moment t (3+3*(k+1))) := by
  obtain ⟨hprinted,hfits⟩ := serverFormat_fits lib (show k < 4 by omega)
  have hheld := h.behind (j := 3+3*k) (i := 3) (by rw [Lease.accesses]; omega)
  have hread := hheld.query lib (Lease.serverFormat k) hfits
    (fun _ hp => hp.dnsServer k (by omega) q hq) (dotted_fits q) old
  rw [S.moment_moment] at hread
  rw [hprinted]
  exact hread

theorem Held.dnsSvrs {S : System} {l : Lease} {upTime : Nat → Nat} {t : Nat}
    (h : S.Held (some l) upTime t (l.accesses .dnsSvrs)) (lib : Safec) (addr : UInt32)
    (old : IpList) :
    dhcpv4cGetErtDnsSvrsUdhcp (S.udhcp lib) addr (some old) t =
      (.ok,some (l.answer 0 .dnsSvrs old),S.moment t (l.accesses .dnsSvrs)) := by
  have hlt := l.dnsServers_lt
  have hcount : (atoi (Nat.toDigits 10 l.dnsServers.length)).toUInt32.toNat = l.dnsServers.length :=
    (numeral_toDigits _).atoi hlt
  have hnumber := (h.start (by rw [Lease.accesses]; omega)).query lib
    dnsNumberFormat (by decide) (fun _ hp => hp.dnsNumber) (toDigits_fits (by omega)) []
  by_cases hnone : l.dnsServers = []
  · have hzero : ¬1 ≤ (atoi (Nat.toDigits 10 0)).toUInt32 := by decide
    simp only [dhcpv4cGetErtDnsSvrsUdhcp,hnumber,hnone,List.length_nil,hzero,if_false,
      Lease.accesses,Lease.answer]
    rfl
  · have hpos : 0 < l.dnsServers.length := List.length_pos_iff.mpr hnone
    have hone : 1 ≤ (atoi (Nat.toDigits 10 l.dnsServers.length)).toUInt32 := by
      rw [UInt32.le_iff_toNat_le,hcount]
      exact hpos
    have hfour : min l.dnsServers.length 4 < UInt32.size :=
      lt_of_le_of_lt (Nat.min_le_right ..) (by decide)
    have hnat : (UInt32.ofNat (min l.dnsServers.length 4)).toNat = min l.dnsServers.length 4 :=
      UInt32.toNat_ofNat_of_lt' hfour
    obtain ⟨servers,hservers⟩ : ∃ servers : Nat → Quad, ∀ i < l.dnsServers.length,
        l.dnsServers[i]? = some (servers i) :=
      ⟨fun i => l.dnsServers.getD i ⟨0,0,0,0⟩,fun i hi => by simp [hi]⟩
    have hround : ∀ k < min l.dnsServers.length 4, ∀ old, Dhcp.query (S.udhcp lib)
        (dnsFormat lib (0+k)) old (S.moment t (3+3*k)) =
          (.ok,(servers (0+k)).dotted,S.moment t (3+3*(k+1))) := by
      intro k hk old
      rw [Nat.zero_add]
      exact h.dnsServer lib hk (hservers k (by omega)) old
    have hloop : dnsLoop (S.udhcp lib) (min l.dnsServers.length 4) 0
        (Nat.toDigits 10 l.dnsServers.length) addr old.addrs (S.moment t 3) =
          (fun j => if 0 ≤ j ∧ j < 0+min l.dnsServers.length 4 then (servers j).address
            else old.addrs j,S.moment t (3+3*min l.dnsServers.length 4)) :=
      dnsLoop_reads (w := fun k => S.moment t (3+3*k)) hround _ addr old.addrs
    have hanswer : (fun j => if 0 ≤ j ∧ j < 0+min l.dnsServers.length 4 then (servers j).address
        else old.addrs j) =
          fun j => ((l.dnsServers.take 4)[j]?.map Quad.address).getD (old.addrs j) := by
      funext j
      by_cases hj : j < min l.dnsServers.length 4
      · have hin : 0 ≤ j ∧ j < 0+min l.dnsServers.length 4 := by omega
        rw [if_pos hin,List.getElem?_take_of_lt (by omega),hservers j (by omega)]
        rfl
      · have hout : ¬(0 ≤ j ∧ j < 0+min l.dnsServers.length 4) := by omega
        rw [if_neg hout,List.getElem?_eq_none (by rw [List.length_take]; omega)]
        rfl
    have hend : 3+3*min l.dnsServers.length 4 = l.accesses .dnsSvrs := by
      rw [Lease.accesses]
      omega
    rw [hanswer,hend] at hloop
    simp only [dhcpv4cGetErtDnsSvrsUdhcp,hnumber,hone,if_true,serverCount_atMost hlt,hnat,hloop]
    rfl

theorem Held.ifname {S : System} {l : Lease} {upTime : Nat → Nat} {t : Nat}
    (h : S.Held (some l) upTime t 2) (lib : Safec) (old : Str) :
    dhcpv4cGetErtIfnameUdhcp (S.udhcp lib) (some old) t = (.ok,some l.ifname,S.moment t 2) := by
  have hname := l.ifname_fits
  have hget : (S.udhcp lib).get currentWanIfname [] 32 (S.moment t 1) =
      ((0,l.ifname),S.next (S.moment t 1)) := by
    change ((0,(S.sysevent (S.moment t 1) currentWanIfname).take 31),_) = _
    rw [((h 1 (by decide)).published l rfl).ifname,List.take_of_length_le (by omega)]
  have hconnect : (S.udhcp lib).connect t = (0,S.moment t 1) := rfl
  have hcopied : ((S.udhcp lib).lib.strcpyS 100 l.ifname).2 = l.ifname := by
    rw [(S.udhcp lib).lib.strcpyS_fits 100 _ (by omega)]
  rw [S.moment_succ] at hget
  simp [dhcpv4cGetErtIfnameUdhcp,hconnect,hget,l.ifname_ne,hcopied]

theorem ifname_unset (lib : Safec) {S : System} {t : Nat}
    (hwan : S.sysevent (S.moment t 1) currentWanIfname = []) (old : Str) :
    dhcpv4cGetErtIfnameUdhcp (S.udhcp lib) (some old) t =
      (.ok,some defaultErtIfname,S.moment t 2) := by
  have hget : (S.udhcp lib).get currentWanIfname [] 32 (S.moment t 1) =
      ((0,[]),S.next (S.moment t 1)) := by
    change ((0,(S.sysevent (S.moment t 1) currentWanIfname).take 31),_) = _
    rw [hwan]
    rfl
  have hconnect : (S.udhcp lib).connect t = (0,S.moment t 1) := rfl
  have hcopied : ((S.udhcp lib).lib.strcpyS 100 defaultErtIfname).2 = defaultErtIfname := by
    rw [(S.udhcp lib).lib.strcpyS_fits 100 _ (by decide)]
  rw [S.moment_succ] at hget
  simp [dhcpv4cGetErtIfnameUdhcp,hconnect,hget,hcopied]

theorem fsmState_value {P : Platform ω} {w w' : ω} (phase : Phase)
    (hread : Dhcp.query P dhcpStateFormat [] w = (.ok,phase.text,w')) (addr : UInt32)
    (old : Int32) : dhcpv4cGetErtFsmStateUdhcp P addr (some old) w = (.ok,some phase.code,w') := by
  simp only [dhcpv4cGetErtFsmStateUdhcp,hread]
  cases phase <;> rfl

theorem Held.udhcp {S : System} {l : Lease} {upTime : Nat → Nat} {t : Nat} {q : Question}
    (h : S.Held (some l) upTime t (l.accesses q)) (lib : Safec)
    (hdue : ∀ timer, q = .remain timer → upTime (S.moment t 6) ≤ l.due timer) (addr : UInt32)
    (old : q.Content) :
    q.udhcp (S.udhcp lib) addr (some old) t = some (.ok,
      some (l.answer (upTime (S.moment t 6)) q old),S.moment t (l.accesses q)) := by
  have hlt := l.leaseTime_lt
  cases q with
  | leaseTime =>
    have hread := (h.start (Nat.le_refl 3)).query lib leaseTimeFormat (by decide)
      (fun _ hp => hp.leaseTime) (toDigits_fits (by omega)) []
    have hvalue := atoi_toDigits (n := l.leaseTime) (by omega)
    simp only [Question.udhcp,dhcpv4cGetErtLeaseTimeUdhcp,hread,hvalue]
    rfl
  | remain timer => exact h.remain lib timer (hdue timer rfl) old
  | configAttempts => rfl
  | ifname => exact congrArg some (h.ifname lib old)
  | fsmState =>
    have hread := (h.start (Nat.le_refl 3)).query lib dhcpStateFormat (by decide)
      (fun _ hp => hp.phase) l.phase.text_fits []
    exact congrArg some (fsmState_value l.phase hread addr old)
  | ipAddr =>
    have hread := (h.start (Nat.le_refl 3)).query lib ipaddrFormat (by decide)
      (fun _ hp => hp.address) (dotted_fits l.address) []
    exact congrArg some (addrQuery_value hread addr old)
  | mask => exact h.mask lib old
  | gw => exact congrArg some (h.gw lib addr old)
  | dnsSvrs => exact congrArg some (h.dnsSvrs lib addr old)
  | dhcpSvr =>
    have hread := (h.start (Nat.le_refl 3)).query lib dhcpServerFormat (by decide)
      (fun _ hp => hp.server) (dotted_fits l.server) []
    exact congrArg some (addrQuery_value hread addr old)

theorem udhcp_unset (lib : Safec) {S : System} {t : Nat} (q : Question)
    (hwan : q ≠ .configAttempts → S.sysevent (S.moment t 1) currentWanIfname = [])
    (addr : UInt32) (old : q.Content) :
    q.udhcp (S.udhcp lib) addr (some old) t = some ((unleased q old).1,some (unleased q old).2,
      S.moment t (if q = .configAttempts then 0 else 2)) := by
  by_cases hq : q = .configAttempts
  · subst hq
    rfl
  have hquery := query_unset lib (hwan hq)
  cases q with
  | leaseTime =>
    simp only [Question.udhcp,dhcpv4cGetErtLeaseTimeUdhcp,hquery]
    rfl
  | remain timer =>
    have hremain := (timer.getter_eq _ (some old) t).trans (remainTime_eq (S.udhcp lib) _ old t)
    rw [hquery] at hremain
    exact hremain
  | configAttempts => exact absurd rfl hq
  | ifname => exact congrArg some (ifname_unset lib (hwan hq) old)
  | fsmState =>
    simp only [Question.udhcp,dhcpv4cGetErtFsmStateUdhcp,hquery]
    rfl
  | ipAddr =>
    simp only [Question.udhcp,dhcpv4cGetErtIpAddrUdhcp,addrQuery,hquery]
    rfl
  | mask =>
    simp only [Question.udhcp,dhcpv4cGetErtMaskUdhcp,hquery]
    rfl
  | gw =>
    simp only [Question.udhcp,dhcpv4cGetErtGwUdhcp,hquery]
    rfl
  | dnsSvrs =>
    simp only [Question.udhcp,dhcpv4cGetErtDnsSvrsUdhcp,hquery]
    rfl
  | dhcpSvr =>
    simp only [Question.udhcp,dhcpv4cGetErtDhcpSvrUdhcp,addrQuery,hquery]
    rfl

theorem flag_kept {S : System} {t : Nat} (h : S.syscfg t udhcpEnable ≠ "false".toList) :
    (S.syscfg t udhcpEnable).take 9 ≠ "false".toList := by
  intro hcut
  have hlen := congrArg List.length hcut
  rw [List.length_take,show "false".toList.length = 5 from rfl] at hlen
  rw [List.take_of_length_le (by omega)] at hcut
  exact h hcut

/-! Whole runs -/

structure History where
  lease : Nat → Option Lease
  upTime : Nat → Nat

/-- During the call the store shows the lease that was in force at its begin, and the timer asked
for has not run out. -/
structure During (S : System) (H : History) (t : Nat) (c : Call) : Prop where
  held : S.Held (H.lease t) H.upTime t (c.accesses (H.lease t))
  due : ∀ l ∈ H.lease t, ∀ timer, c.question = .remain timer →
    H.upTime (S.moment t 7) ≤ l.due timer

def report (S : System) (H : History) (t : Nat) (c : Call) : Option Reply × Nat :=
  (some (c.reply (H.lease t) (H.upTime (S.moment t 7))),S.moment t (c.accesses (H.lease t)))

theorem During.perform {S : System} {H : History} {t : Nat} {c : Call} (h : S.During H t c)
    (lib : Safec) (dhcp4c : (q : Question) → Option q.Content → Nat →
      Option (Ret × Option q.Content × Nat)) :
    exec (S.clients lib dhcp4c) (some t) c =
      ((S.report H t c).1,some (S.report H t c).2) := by
  have hflag := flag_kept (h.held 0 (c.accesses_pos _)).enabled
  obtain ⟨q,p,addr⟩ := c
  refine exec_some ?_
  rw [Call.perform,Question.get_eq]
  cases p with
  | none => rfl
  | some old =>
    have hget : dhcpv4cGetErt (S.clients lib dhcp4c) q addr (some old) t =
        q.udhcp (S.udhcp lib) addr (some old) (S.moment t 1) := if_neg hflag
    have hheld := h.held
    cases hlease : H.lease t with
    | none =>
      rw [hlease] at hheld
      have hwan : q ≠ .configAttempts →
          S.sysevent (S.moment (S.moment t 1) 1) currentWanIfname = [] := by
        intro hq
        have hthree : (⟨q,some old,addr⟩ : Call).accesses none = 3 := if_neg hq
        rw [hthree] at hheld
        exact (hheld 2 (by decide)).unset rfl
      rw [hget,udhcp_unset lib q hwan,S.moment_moment]
      simp only [report,hlease,Call.reply,Call.accesses,Option.map_some]
      split <;> rfl
    | some l =>
      rw [hlease] at hheld
      have hasked := (hheld.behind (j := 1) (i := l.accesses q)
        (Nat.le_of_eq (Nat.add_comm 1 _))).udhcp lib (h.due l hlease) addr old
      rw [hget,hasked,S.moment_moment,Nat.add_comm 1]
      simp only [report,hlease,Call.reply,Call.accesses,Option.map_some]
      rfl

theorem run_follows (lib : Safec) (dhcp4c : (q : Question) → Option q.Content → Nat →
    Option (Ret × Option q.Content × Nat)) (S : System) (H : History) {t : Nat} {calls : List Call}
    (h : Along (next (S.report H)) (S.During H) t calls) :
    answers (exec (S.clients lib dhcp4c)) (some t) calls = answers (S.report H) t calls ∧
      run (next (exec (S.clients lib dhcp4c))) (some t) calls =
        some (run (next (S.report H)) t calls) := by
  have hstep : ∀ (m : Nat) (w : Option Nat) (c : Call), w = some m → S.During H m c →
      (S.report H m c).1 = (exec (S.clients lib dhcp4c) w c).1 ∧
        (exec (S.clients lib dhcp4c) w c).2 = some (S.report H m c).2 := by
    rintro m _ c rfl hcall
    rw [hcall.perform lib dhcp4c]
    exact ⟨rfl,rfl⟩
  obtain ⟨hanswers,hend⟩ := refines hstep rfl h
  exact ⟨hanswers.symm,hend⟩

/-- One lease until the moment `k` and another one from then on; the time goes by. -/
def failover (l l' : Lease) (k : Nat) : System where
  sysevent m := if m < k then l.store else l'.store
  next m := m+1
  le_next m := Nat.le_succ m
  uptime := []
  syscfg _ _ := "true".toList
  clock m := Nat.toDigits 10 (1000+m) ++ ".25 7.25\n".toList

def failoverHistory (l l' : Lease) (k : Nat) : History where
  lease m := some (if m < k then l else l')
  upTime m := 1000+m

theorem failover_shows {l l' : Lease} (hl : l.startTime ≤ 1000) (hl' : l'.startTime ≤ 1000)
    (k : Nat) {m : Nat} (hm : m < 2^32) :
    (failover l l' k).Shows ((failoverHistory l l' k).lease m) (1000+m) m := by
  have hdigits : (Nat.toDigits 10 (1000+m)).length ≤ 62 :=
    (Nat.length_toDigits_le_iff (by decide) (by decide)).mpr
      (Nat.lt_of_lt_of_le (Nat.add_lt_add_left hm 1000) (by decide))
  refine ⟨(by decide : "true".toList ≠ "false".toList),nofun,?_,?_,
    Nat.toDigits 10 (1000+m),"25 7.25\n".toList,numeral_toDigits _,by omega,rfl⟩
  · rintro _ ⟨⟩
    by_cases h : m < k
    · simpa only [failover,h,if_true] using l.published_store
    · simpa only [failover,h,if_false] using l'.published_store
  · rintro _ ⟨⟩
    by_cases h : m < k
    · rw [if_pos h]
      omega
    · rw [if_neg h]
      omega

theorem failover_moment (l l' : Lease) (k t j : Nat) : (failover l l' k).moment t j = t+j := by
  induction j with
  | zero => rfl
  | succ j ih =>
    rw [← moment_succ,ih]
    rfl

theorem failover_during (l l' : Lease) (hl : l.startTime ≤ 1000) (hl' : l'.startTime ≤ 1000)
    {k t : Nat} {c : Call} (hshort : t+c.accesses ((failoverHistory l l' k).lease t) < 2^32)
    (hcase : t+c.accesses ((failoverHistory l l' k).lease t) ≤ k ∨ k ≤ t)
    (hdue : ∀ timer, c.question = .remain timer →
      1000+(t+7) ≤ (if t < k then l else l').due timer) :
    (failover l l' k).During (failoverHistory l l' k) t c where
  held := by
    intro j hj
    rw [failover_moment]
    have hsame : (failoverHistory l l' k).lease t = (failoverHistory l l' k).lease (t+j) := by
      have hiff : t < k ↔ t+j < k := by omega
      simp only [failoverHistory,hiff]
    rw [hsame]
    exact failover_shows hl hl' k (by omega)
  due := by
    rintro _ ⟨⟩ timer hquestion
    rw [failover_moment]
    exact hdue timer hquestion

def cableLease : Lease where
  ifname := "erouter0".toList
  phase := .bound
  address := ⟨10,0,17,4⟩
  maskBits := 20
  gateways := [⟨10,0,16,1⟩]
  dnsServers := [⟨10,0,16,53⟩,⟨10,0,17,53⟩]
  server := ⟨10,0,16,2⟩
  leaseTime := 3600
  startTime := 900
  ifname_ne := by decide
  ifname_fits := by decide
  maskBits_pos := by decide
  maskBits_le := by decide
  gateways_lt := by decide
  dnsServers_lt := by decide
  leaseTime_lt := by decide
  startTime_lt := by decide

def mobileLease : Lease where
  ifname := "wwan0".toList
  phase := .renew
  address := ⟨100,64,3,9⟩
  maskBits := 30
  gateways := []
  dnsServers := []
  server := ⟨100,64,3,10⟩
  leaseTime := 600
  startTime := 1000
  ifname_ne := by decide
  ifname_fits := by decide
  maskBits_pos := by decide
  maskBits_le := by decide
  gateways_lt := by decide
  dnsServers_lt := by decide
  leaseTime_lt := by decide
  startTime_lt := by decide

def fiveCalls : List Call :=
  [⟨.ifname,some ([] : Str),0⟩,⟨.dnsSvrs,some (⟨0,fun _ => 0⟩ : IpList),0⟩,
    ⟨.remain .renew,some (0 : UInt32),0⟩,⟨.gw,some (7 : UInt32),0⟩,⟨.mask,none,0⟩]

theorem fiveCalls_during : Along (next ((failover cableLease mobileLease 21).report
      (failoverHistory cableLease mobileLease 21)))
    ((failover cableLease mobileLease 21).During (failoverHistory cableLease mobileLease 21)) 0
    fiveCalls := by
  have hcall {t : Nat} {c : Call} := failover_during cableLease mobileLease (by decide)
    (by decide) (k := 21) (t := t) (c := c)
  refine ⟨hcall (by decide) (by decide) nofun,hcall (by decide) (by decide) nofun,
    hcall (by decide) (by decide) ?_,hcall (by decide) (by decide) nofun,
    hcall (by decide) (by decide) nofun,trivial⟩
  rintro _ ⟨⟩
  decide

theorem reply_remain {c : Call} {lease : Option Lease} {upTime : Nat} {timer : Timer} {r : UInt32}
    (h : c.reply lease upTime = ⟨.remain timer,.ok,some r⟩) :
    ∃ l, lease = some l ∧ c.question = .remain timer ∧ c.accesses lease = 8 ∧
      r = UInt32.ofNat (l.due timer-upTime) := by
  obtain ⟨q,p,addr⟩ := c
  rcases p with _ | old <;> rcases lease with _ | l <;> simp only [Call.reply] at h
  · cases h
  · cases h
  · obtain ⟨rfl,hstatus,_⟩ := Reply.mk.inj h
    cases hstatus
  · obtain ⟨rfl,_,hvalue⟩ := Reply.mk.inj h
    exact ⟨l,rfl,rfl,rfl,(Option.some.inj (eq_of_heq hvalue)).symm⟩

theorem remain_read {lib : Safec} {dhcp4c : (q : Question) → Option q.Content → Nat →
    Option (Ret × Option q.Content × Nat)} {S : System} {H : History} {t : Nat} {calls : List Call}
    (h : Along (next (S.report H)) (S.During H) t calls) {i : Nat} {timer : Timer} {r : UInt32}
    (hi : (answers (exec (S.clients lib dhcp4c)) (some t) calls)[i]? =
      some (some ⟨.remain timer,.ok,some r⟩)) :
    ∃ l, H.lease (run (next (S.report H)) t (calls.take i)) = some l ∧
      run (next (S.report H)) t (calls.take (i+1)) =
        S.moment (run (next (S.report H)) t (calls.take i)) 8 ∧
      l.startTime ≤ H.upTime (S.moment (run (next (S.report H)) t (calls.take i)) 7) ∧
      r.toNat+H.upTime (S.moment (run (next (S.report H)) t (calls.take i)) 7) = l.due timer := by
  rw [(run_follows lib dhcp4c S H h).1,answers_getElem?] at hi
  cases hc : calls[i]? with
  | none =>
    rw [hc] at hi
    cases hi
  | some c =>
    rw [hc] at hi
    have hreply := Option.some.inj (Option.some.inj hi)
    obtain ⟨l,hlease,hquestion,height,rfl⟩ := reply_remain hreply
    have hcall := h.getElem? hc
    have hdue := hcall.due l hlease timer hquestion
    have hsmall : l.due timer < 2^32 := by
      have hlimit := timer.limit_le l.leaseTime
      have hltL := l.leaseTime_lt
      have hltS := l.startTime_lt
      rw [due_eq]
      omega
    refine ⟨l,hlease,?_,(hcall.held 7 (by rw [height]; decide)).started l hlease,?_⟩
    · rw [run_take_succ _ t hc]
      exact congrArg (S.moment _) height
    · rw [UInt32.toNat_ofNat_of_lt' (Nat.lt_of_le_of_lt (Nat.sub_le _ _) hsmall)]
      omega

def twoTimers : List Call :=
  [⟨.remain .lease,some (0 : UInt32),0⟩,⟨.remain .renew,some (0 : UInt32),0⟩]

end System

end RdkHal.Dhcp
