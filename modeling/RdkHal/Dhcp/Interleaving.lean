import Mathlib.Data.Nat.Find
import RdkHal.Dhcp.Remain

/-! The reads of one getter among the writes of others: a failover changes the WAN interface,
a renewal rewrites the lease time and the start time, in either order, at any moment. -/

set_option autoImplicit false

namespace RdkHal.Dhcp
open Text

/-- The sysevent values at each moment, and the moment of the next access; the uptime is fixed. -/
structure Timeline where
  sysevent : Nat → Str → Str
  next : Nat → Nat
  le_next : ∀ t, t ≤ next t
  uptime : Str

namespace Timeline

def platform (lib : Safec) (T : Timeline) : Platform Nat where
  lib := lib
  connect t := (0,T.next t)
  get name _ size t := ((0,(T.sysevent t name).take (size-1)),T.next t)
  uptimeFile t := (some T.uptime,T.next t)

/-- The moment of the `k`-th access of a call that starts at `t`: each query connects, reads
the interface name and reads its value. -/
def moment (T : Timeline) (t k : Nat) : Nat := T.next^[k] t

theorem moment_mono (T : Timeline) (t : Nat) {j k : Nat} (h : j ≤ k) :
    T.moment t j ≤ T.moment t k := by
  induction k with
  | zero => simp [Nat.le_zero.mp h]
  | succ k ih =>
    rcases Nat.lt_or_ge j (k+1) with hlt | hge
    · have hnext := T.le_next (T.moment t k)
      have hprev := ih (by omega)
      simp only [moment,Function.iterate_succ_apply'] at hprev hnext ⊢
      omega
    · rw [Nat.le_antisymm h hge]

def wanAt (T : Timeline) (m : Nat) : Str := (T.sysevent m currentWanIfname).take 31

def valueAt (T : Timeline) (m : Nat) (key : Str) : Str := (T.sysevent m key).take 63

/-- The two texts that a call combines: the lease time, read third, and the start time, read
sixth, each for the interface of the access before. -/
def leaseRead (T : Timeline) (t : Nat) : Str :=
  T.valueAt (T.moment t 2) (leaseTimeKey (T.wanAt (T.moment t 1)))

def startRead (T : Timeline) (t : Nat) : Str :=
  T.valueAt (T.moment t 5) (startTimeKey (T.wanAt (T.moment t 4)))

def Consistent (T : Timeline) (t : Nat) : Prop :=
  T.wanAt (T.moment t 1) = T.wanAt (T.moment t 4) ∧
  ∃ m, t ≤ m ∧ m ≤ T.moment t 7 ∧
    T.valueAt m (leaseTimeKey (T.wanAt (T.moment t 1))) = T.leaseRead t ∧
    T.valueAt m (startTimeKey (T.wanAt (T.moment t 1))) = T.startRead t

theorem sysevent_query (lib : Safec) (T : Timeline) {format : Str} {key : Str → Str}
    (hkey : ∀ ifname, expandS format ifname = key ifname)
    (hlen : ∀ ifname, (key ifname).length = ifname.length+16) {old : Str} {t w : Nat}
    {value : Option Str}
    (h : dhcpv4cSyseventGetValue (T.platform lib) (some format) (some old) 64 t = (.ok,value,w)) :
    value = some (T.valueAt (T.moment t 2) (key (T.wanAt (T.moment t 1)))) ∧ w = T.moment t 3 := by
  have hwan : (T.wanAt (T.next t)).length ≤ 31 := List.length_take_le 31 _
  have hname : (lib.sprintfS 64 (key (T.wanAt (T.next t)))).2 = key (T.wanAt (T.next t)) := by
    rw [lib.sprintfS_fits _ _ (by rw [hlen]; omega)]
  rw [wanAt] at hname
  by_cases hnil : (T.sysevent (T.next t) currentWanIfname).take 31 = []
  · simp [dhcpv4cSyseventGetValue,platform,hnil] at h
  by_cases hempty : (T.sysevent (T.next (T.next t))
      (key ((T.sysevent (T.next t) currentWanIfname).take 31))).take 63 = []
  · simp [dhcpv4cSyseventGetValue,platform,hnil,hkey,hname,hempty] at h
  · simp only [dhcpv4cSyseventGetValue,platform,hkey,hname] at h
    simp [hnil,hempty] at h
    exact ⟨h.1.symm,h.2.symm⟩

def upTime (T : Timeline) : Option UInt32 :=
  if T.uptime = [] then some 0
  else (strtok " .".toList (takeLine 63 T.uptime).1).map (fun token => 0+(atoi token).toUInt32)

theorem upTime_query (lib : Safec) (T : Timeline) {w w' : Nat} {ret : Ret} {value : UInt32}
    (h : dhcpv4cGetUpTime (T.platform lib) 0 w = some (ret,value,w')) :
    T.upTime = some value ∧ w' = T.next w := by
  by_cases hnil : T.uptime = []
  · simp [dhcpv4cGetUpTime,platform,hnil] at h
    simp [upTime,hnil,h.2.1,h.2.2]
  · cases htoken : strtok " .".toList (takeLine 63 T.uptime).1 with
    | none => simp only [dhcpv4cGetUpTime,platform,hnil,if_false,htoken] at h; cases h
    | some token =>
      simp only [dhcpv4cGetUpTime,platform,hnil,if_false,htoken,Option.some.injEq,
        Prod.mk.injEq] at h
      simp only [upTime,hnil,if_false,htoken,Option.map_some,h.2.1,h.2.2,and_self]

theorem getter_combines (lib : Safec) (T : Timeline) (timer : Timer) {old : UInt32} {t w : Nat}
    {value : Option UInt32}
    (h : timer.getter (T.platform lib) (some old) t = some (.ok,value,w)) :
    (∃ upTime, T.upTime = some upTime ∧
      value = some (timer.remain (T.leaseRead t) (T.startRead t) upTime)) ∧
      w = T.moment t 7 := by
  rw [Timer.getter_eq] at h
  unfold remainTime at h
  split at h
  · cases h
  rename_i hold
  split at h
  · rename_i c lease w₁ hlease
    obtain ⟨hl,rfl⟩ := sysevent_query lib T expandS_leaseTime leaseTimeKey_length hlease
    split at h
    · rename_i d start w₂ hstart
      obtain ⟨hs,rfl⟩ := sysevent_query lib T expandS_startTime startTimeKey_length hstart
      split at h
      · cases h
      · rename_i ret up w₃ hup
        obtain ⟨hupTime,rfl⟩ := upTime_query lib T hup
        have hl' : c :: lease = T.leaseRead t := Option.some.inj hl
        have hs' : d :: start = T.startRead t := Option.some.inj hs
        simp only [Option.some.injEq,Prod.mk.injEq,true_and] at h
        obtain ⟨rfl,rfl⟩ := h
        refine ⟨⟨up,hupTime,?_⟩,rfl⟩
        rw [← hl',← hs']
        rfl
    · cases h
  · cases h

/-- No failover falls between the two reads of the interface name, or it is undone. -/
def SameWan (T : Timeline) (t : Nat) : Prop :=
  T.wanAt (T.moment t 1) = T.wanAt (T.moment t 4)

/-- Between the two value reads no rewrite of the lease time has a rewrite of the start time with it
or behind it. -/
def StartFirst (T : Timeline) (t : Nat) (ifname : Str) : Prop :=
  ∀ j k, T.moment t 2 ≤ j → j ≤ k → k < T.moment t 5 →
    T.valueAt (j+1) (leaseTimeKey ifname) ≠ T.valueAt j (leaseTimeKey ifname) →
    T.valueAt (k+1) (startTimeKey ifname) = T.valueAt k (startTimeKey ifname)

theorem valueAt_steady (T : Timeline) (key : Str) {a b : Nat} (hab : a ≤ b)
    (h : ∀ j, a ≤ j → j < b → T.valueAt (j+1) key = T.valueAt j key) :
    T.valueAt b key = T.valueAt a key := by
  induction b, hab using Nat.le_induction with
  | base => rfl
  | succ b hab ih =>
    rw [h b hab (Nat.lt_succ_self b)]
    exact ih (fun j ha hb => h j ha (Nat.lt_succ_of_lt hb))

theorem StartFirst.inForce {T : Timeline} {t : Nat} {ifname : Str} (h : T.StartFirst t ifname) :
    ∃ m, T.moment t 2 ≤ m ∧ m ≤ T.moment t 5 ∧
      T.valueAt m (leaseTimeKey ifname) = T.valueAt (T.moment t 2) (leaseTimeKey ifname) ∧
      T.valueAt m (startTimeKey ifname) = T.valueAt (T.moment t 5) (startTimeKey ifname) := by
  have hle : T.moment t 2 ≤ T.moment t 5 := T.moment_mono t (by decide)
  by_cases hrewrite : ∃ j, T.moment t 2 ≤ j ∧ j < T.moment t 5 ∧
      T.valueAt (j+1) (leaseTimeKey ifname) ≠ T.valueAt j (leaseTimeKey ifname)
  · -- the pair is in force at the first rewrite, which all rewrites of the start time precede
    obtain ⟨hfrom,hto,hchange⟩ := Nat.find_spec hrewrite
    refine ⟨Nat.find hrewrite,hfrom,Nat.le_of_lt hto,?_,?_⟩
    · refine T.valueAt_steady _ hfrom ?_
      intro j hj hlt
      by_contra hne
      exact Nat.find_min hrewrite hlt ⟨hj,by omega,hne⟩
    · symm
      refine T.valueAt_steady _ (Nat.le_of_lt hto) ?_
      intro k hk hlt
      exact h _ k hfrom hk hlt hchange
  · refine ⟨T.moment t 5,hle,Nat.le_refl _,?_,rfl⟩
    refine T.valueAt_steady _ hle ?_
    intro j hj hlt
    by_contra hne
    exact hrewrite ⟨j,hj,hlt,hne⟩

/-- Nothing keeps the reads of a call together; they are consistent where the interface is the
same at both name reads and the lease time is not rewritten ahead of the start time between
the value reads. -/
theorem getter_consistent (lib : Safec) (T : Timeline) (timer : Timer) {old : UInt32} {t w : Nat}
    {value : Option UInt32}
    (h : timer.getter (T.platform lib) (some old) t = some (.ok,value,w))
    (hwan : T.SameWan t) (hfirst : T.StartFirst t (T.wanAt (T.moment t 1))) :
    (∃ upTime, T.upTime = some upTime ∧
      value = some (timer.remain (T.leaseRead t) (T.startRead t) upTime)) ∧
    T.Consistent t := by
  refine ⟨(getter_combines lib T timer h).1,hwan,?_⟩
  obtain ⟨m,hfrom,hto,hlease,hstart⟩ := hfirst.inForce
  have hbegin : t ≤ T.moment t 2 := T.moment_mono t (Nat.zero_le 2)
  have hend : T.moment t 5 ≤ T.moment t 7 := T.moment_mono t (by decide)
  refine ⟨m,by omega,by omega,hlease,?_⟩
  rw [hstart,hwan]
  rfl

structure Renewed (T : Timeline) (ifname : Str) (k l : Nat) : Prop where
  lease : ∃ old new, old ≠ new ∧
    ∀ m, T.valueAt m (leaseTimeKey ifname) = if m < k then old else new
  start : ∃ old new, old ≠ new ∧
    ∀ m, T.valueAt m (startTimeKey ifname) = if m < l then old else new

/-- One renewal is harmless, unless its lease time comes behind the first value read and its
start time with it or after it, but before the second. -/
theorem Renewed.consistent_iff {T : Timeline} {t k l : Nat}
    (h : T.Renewed (T.wanAt (T.moment t 1)) k l) (hwan : T.SameWan t) :
    T.Consistent t ↔ ¬(T.moment t 2 < k ∧ k ≤ l ∧ l ≤ T.moment t 5) := by
  obtain ⟨⟨lease,lease',hnel,hlease⟩,⟨start,start',hnes,hstart⟩⟩ := h
  have hread : T.leaseRead t = if T.moment t 2 < k then lease else lease' := hlease _
  have hread' : T.startRead t = if T.moment t 5 < l then start else start' := by
    rw [startRead,← hwan]
    exact hstart _
  have h02 : t ≤ T.moment t 2 := T.moment_mono t (Nat.zero_le 2)
  have h25 : T.moment t 2 ≤ T.moment t 5 := T.moment_mono t (by decide)
  have h57 : T.moment t 5 ≤ T.moment t 7 := T.moment_mono t (by decide)
  constructor
  · rintro ⟨_,m,_,_,hl,hs⟩ ⟨hk,hkl,hl5⟩
    rw [hread,if_pos hk,hlease] at hl
    rw [hread',if_neg (by omega),hstart] at hs
    have hmk : m < k := by
      by_contra hge
      rw [if_neg hge] at hl
      exact hnel hl.symm
    rw [if_pos (by omega)] at hs
    exact hnes hs
  · intro hsafe
    suffices ∃ m, t ≤ m ∧ m ≤ T.moment t 7 ∧ (m < k ↔ T.moment t 2 < k) ∧
        (m < l ↔ T.moment t 5 < l) by
      obtain ⟨m,hfrom,hto,hk,hl⟩ := this
      exact ⟨hwan,m,hfrom,hto,by simp only [hlease,hread,hk],by simp only [hstart,hread',hl]⟩
    by_cases hl : T.moment t 5 < l
    · exact ⟨T.moment t 2,h02,by omega,Iff.rfl,by omega⟩
    by_cases hk : T.moment t 2 < k
    · exact ⟨max l (T.moment t 2),by omega,by omega,by omega,by omega⟩
    · exact ⟨T.moment t 5,by omega,h57,by omega,Iff.rfl⟩

def renewal (k l : Nat) : Timeline where
  sysevent m name :=
    if name = currentWanIfname then "erouter0".toList
    else if name = leaseTimeKey "erouter0".toList then
      if m < k then "100".toList else "200".toList
    else if name = startTimeKey "erouter0".toList then
      if m < l then "10".toList else "90".toList
    else []
  next m := m+1
  le_next m := Nat.le_succ m
  uptime := "95.31 7.25\n".toList

theorem renewal_lease (k l m : Nat) :
    (renewal k l).valueAt m (leaseTimeKey "erouter0".toList) =
      if m < k then "100".toList else "200".toList := by
  have hvalue : (renewal k l).sysevent m (leaseTimeKey "erouter0".toList) =
      if m < k then "100".toList else "200".toList := rfl
  rw [valueAt,hvalue]
  split <;> rfl

theorem renewal_start (k l m : Nat) :
    (renewal k l).valueAt m (startTimeKey "erouter0".toList) =
      if m < l then "10".toList else "90".toList := by
  have hvalue : (renewal k l).sysevent m (startTimeKey "erouter0".toList) =
      if m < l then "10".toList else "90".toList := rfl
  rw [valueAt,hvalue]
  split <;> rfl

theorem renewal_renewed (k l : Nat) : (renewal k l).Renewed "erouter0".toList k l where
  lease := ⟨_,_,by decide,renewal_lease k l⟩
  start := ⟨_,_,by decide,renewal_start k l⟩

theorem renewal_startFirst {k l : Nat} (h : l < k) (t : Nat) :
    (renewal k l).StartFirst t "erouter0".toList := by
  intro i j _ hij _ hchange
  rw [renewal_lease,renewal_lease] at hchange
  have hi : i+1 = k := by
    by_contra hne
    have hiff : i+1 < k ↔ i < k := by omega
    simp only [hiff,ne_eq,not_true_eq_false] at hchange
  rw [renewal_start,renewal_start,if_neg (by omega),if_neg (by omega)]

theorem getter_consistent_renewal :
    (∃ upTime, (renewal 5 3).upTime = some upTime ∧
      some (95 : UInt32) = some (Timer.lease.remain ((renewal 5 3).leaseRead 0)
        ((renewal 5 3).startRead 0) upTime)) ∧
    (renewal 5 3).Consistent 0 :=
  have hok : Timer.lease.getter ((renewal 5 3).platform Safec.reference) (some 0) 0 =
      some (.ok,some 95,7) := by decide +kernel
  getter_consistent Safec.reference (renewal 5 3) .lease hok rfl
    (renewal_startFirst (by decide) 0)

theorem getter_inconsistent_renewal :
    (Timer.lease.getter ((renewal 3 4).platform Safec.reference) (some 0) 0).map (fun q => q.1) =
      some .ok ∧ ¬(renewal 3 4).Consistent 0 := by
  refine ⟨by decide +kernel,?_⟩
  have hrenewed : (renewal 3 4).Renewed ((renewal 3 4).wanAt ((renewal 3 4).moment 0 1)) 3 4 :=
    renewal_renewed 3 4
  rw [hrenewed.consistent_iff rfl,not_not]
  decide

end Timeline

end RdkHal.Dhcp
