import RdkHal.Dhcp.Client

/-! The remaining times as numbers: what the getters report where nothing changes during the
call, and when it stays within the lease time and does not grow. -/

set_option autoImplicit false

namespace RdkHal.Dhcp
open Text

structure Snapshot where
  sysevent : Str → Str
  uptime : Str

def Snapshot.platform (lib : Safec) : Platform Snapshot where
  lib := lib
  connect s := (0,s)
  get name _ size s := ((0,(s.sysevent name).take (size-1)),s)
  uptimeFile s := (some s.uptime,s)

def leaseTimeKey (ifname : Str) : Str := "ipv4_".toList ++ ifname ++ "_lease_time".toList

def startTimeKey (ifname : Str) : Str := "ipv4_".toList ++ ifname ++ "_start_time".toList

theorem expandS_leaseTime (ifname : Str) : expandS leaseTimeFormat ifname = leaseTimeKey ifname :=
  rfl

theorem expandS_startTime (ifname : Str) : expandS startTimeFormat ifname = startTimeKey ifname :=
  rfl

theorem key_length (s ifname t : Str) :
    (s ++ ifname ++ t).length = ifname.length+(s.length+t.length) := by
  simp only [List.length_append]
  omega

theorem leaseTimeKey_length (ifname : Str) : (leaseTimeKey ifname).length = ifname.length+16 :=
  (key_length _ ifname _).trans (congrArg (ifname.length+·) (by decide))

theorem startTimeKey_length (ifname : Str) : (startTimeKey ifname).length = ifname.length+16 :=
  (key_length _ ifname _).trans (congrArg (ifname.length+·) (by decide))

def Snapshot.wan (s : Snapshot) : Str := (s.sysevent currentWanIfname).take 31

/-- The values of the interface are numerals that fit the buffer, and so is the uptime. -/
structure Snapshot.Holds (s : Snapshot) (leaseTime startTime upTime : Nat) : Prop where
  wan : s.wan ≠ []
  lease : Numeral (s.sysevent (leaseTimeKey s.wan)) leaseTime
  lease_fits : (s.sysevent (leaseTimeKey s.wan)).length < 64
  start : Numeral (s.sysevent (startTimeKey s.wan)) startTime
  start_fits : (s.sysevent (startTimeKey s.wan)).length < 64
  uptime : ∃ digits rest, Numeral digits upTime ∧ digits.length < 63 ∧ s.uptime = digits ++ '.' :: rest

theorem sysevent_value (lib : Safec) {s : Snapshot} (hwan : s.wan ≠ []) (old : Str) {format key : Str}
    (hkey : expandS format s.wan = key) (hlen : key.length < 64) (hne : s.sysevent key ≠ [])
    (hfits : (s.sysevent key).length < 64) :
    dhcpv4cSyseventGetValue (Snapshot.platform lib) (some format) (some old) 64 s =
      (.ok,some (s.sysevent key),s) := by
  have hname : (lib.sprintfS 64 key).2 = key := by rw [lib.sprintfS_fits _ _ hlen]
  have htake : (s.sysevent key).take 63 = s.sysevent key := List.take_of_length_le (by omega)
  rw [Snapshot.wan] at hwan hkey
  simp [dhcpv4cSyseventGetValue,Snapshot.platform,hwan,hkey,hname,htake,hne]

theorem upTime_value (lib : Safec) {s : Snapshot} {digits rest : Str} {upTime : Nat}
    (hdigits : Numeral digits upTime) (hlen : digits.length < 63)
    (hfile : s.uptime = digits ++ '.' :: rest) (old : UInt32) :
    dhcpv4cGetUpTime (Snapshot.platform lib) old s = some (.ok,(atoi digits).toUInt32,s) := by
  have hnl : '\n' ∉ digits := by
    intro h
    exact absurd (hdigits.digits _ h) (by decide)
  obtain ⟨rest',hline⟩ := takeLine_start hnl hlen (d := '.') (by decide) rest
  have htoken := hdigits.strtok " .".toList (by decide) (d := '.') (by decide) rest'
  have hfile' : (Snapshot.platform lib).uptimeFile s = (some (digits ++ '.' :: rest),s) := by
    rw [← hfile]
    rfl
  have hne : digits ++ '.' :: rest ≠ [] := by simp
  simp only [dhcpv4cGetUpTime,hfile',hne,if_false,hline,htoken,UInt32.zero_add]

theorem getter_value (lib : Safec) (timer : Timer) {s : Snapshot}
    {leaseTime startTime upTime : Nat} (h : s.Holds leaseTime startTime upTime) (old : UInt32) :
    ∃ digits, Numeral digits upTime ∧
      timer.getter (Snapshot.platform lib) (some old) s = some (.ok,
        some (timer.remain (s.sysevent (leaseTimeKey s.wan)) (s.sysevent (startTimeKey s.wan))
          (atoi digits).toUInt32),s) := by
  obtain ⟨digits,rest,hdigits,hlen,hfile⟩ := h.uptime
  have hwan : s.wan.length ≤ 31 := List.length_take_le 31 _
  have hlease := sysevent_value lib h.wan [] (expandS_leaseTime s.wan)
    (by rw [leaseTimeKey_length]; omega) h.lease.ne_nil h.lease_fits
  have hstart := sysevent_value lib h.wan (s.sysevent (leaseTimeKey s.wan))
    (expandS_startTime s.wan) (by rw [startTimeKey_length]; omega) h.start.ne_nil h.start_fits
  have hup := upTime_value lib hdigits hlen hfile 0
  obtain ⟨c,lease,hc⟩ := List.exists_cons_of_ne_nil h.lease.ne_nil
  obtain ⟨d,start,hd⟩ := List.exists_cons_of_ne_nil h.start.ne_nil
  rw [hc] at hlease hstart
  rw [hd] at hstart
  refine ⟨digits,hdigits,?_⟩
  rw [Timer.getter_eq,hc,hd]
  simp only [remainTime,hlease,hstart,hup,Timer.remain]

/-- The threshold as a number; the product with 7 may have wrapped. -/
def Timer.limit (timer : Timer) (leaseTime : Nat) : Nat :=
  match timer with
  | lease => leaseTime
  | renew => leaseTime/2
  | rebind => (7*leaseTime % 2^32)/8

theorem Timer.threshold_toNat (timer : Timer) (x : UInt32) :
    (timer.threshold x).toNat = timer.limit x.toNat := by
  cases timer with
  | lease => rfl
  | renew => simp [threshold,limit]
  | rebind => simp [threshold,limit,UInt32.toNat_mul,Nat.mul_comm]

theorem Timer.limit_le (timer : Timer) (leaseTime : Nat) : timer.limit leaseTime ≤ leaseTime := by
  cases timer with
  | lease => exact Nat.le_refl _
  | renew => exact Nat.div_le_self _ _
  | rebind =>
    have hmod := Nat.mod_le (7*leaseTime) (2^32)
    simp only [limit]
    omega

theorem Timer.remain_toNat (timer : Timer) {lease start digits : Str}
    {leaseTime startTime upTime : Nat} (hlease : Numeral lease leaseTime)
    (hstart : Numeral start startTime) (hdigits : Numeral digits upTime)
    (hl : leaseTime < 2^31) (hs : startTime ≤ upTime) (hu : upTime < 2^31) :
    (timer.remain lease start (atoi digits).toUInt32).toNat =
      (2^32+timer.limit leaseTime-(upTime-startTime)) % 2^32 := by
  have hlimit := timer.limit_le leaseTime
  rw [remain,UInt32.toNat_sub,UInt32.toNat_sub,threshold_toNat,hlease.atoi hl,
    hstart.atoi (by omega),hdigits.atoi hu]
  omega

/-- Two reports are bounded by the lease time and do not grow exactly while the timer has not
run out at the later one. -/
theorem remain_bounded_iff (lib : Safec) (timer : Timer) {s s' : Snapshot}
    {leaseTime startTime upTime upTime' : Nat} (h : s.Holds leaseTime startTime upTime)
    (h' : s'.Holds leaseTime startTime upTime') (hl : leaseTime < 2^31)
    (hs : startTime ≤ upTime) (hu : upTime ≤ upTime') (hu' : upTime' < 2^31)
    (old old' : UInt32) :
    (∃ r r', timer.getter (Snapshot.platform lib) (some old) s = some (.ok,some r,s) ∧
      timer.getter (Snapshot.platform lib) (some old') s' = some (.ok,some r',s') ∧
      r.toNat ≤ leaseTime ∧ r'.toNat ≤ leaseTime ∧ r'.toNat ≤ r.toNat) ↔
    upTime'-startTime ≤ timer.limit leaseTime := by
  obtain ⟨digits,hdigits,hval⟩ := getter_value lib timer h old
  obtain ⟨digits',hdigits',hval'⟩ := getter_value lib timer h' old'
  have hr := timer.remain_toNat h.lease h.start hdigits hl hs (by omega)
  have hr' := timer.remain_toNat h'.lease h'.start hdigits' hl (by omega) hu'
  have hlimit := timer.limit_le leaseTime
  constructor
  · -- behind the threshold the later difference wraps to more than any lease time
    rintro ⟨r,r',hget,hget',_,hbound,_⟩
    rw [hval'] at hget'
    simp only [Option.some.injEq,Prod.mk.injEq,true_and,and_true] at hget'
    subst hget'
    omega
  · intro hrun
    refine ⟨_,_,hval,hval',?_,?_,?_⟩ <;> omega

def shortLease (upTime : Str) : Snapshot where
  sysevent name :=
    if name = currentWanIfname then "erouter0".toList
    else if name = leaseTimeKey "erouter0".toList then "100".toList
    else if name = startTimeKey "erouter0".toList then "10".toList
    else []
  uptime := upTime ++ ".31 7.25\n".toList

theorem shortLease_holds {digits : Str} {upTime : Nat} (h : Numeral digits upTime)
    (hlen : digits.length < 63) : (shortLease digits).Holds 100 10 upTime :=
  ⟨(by decide : (shortLease []).wan ≠ []),
    (⟨by decide,by decide,by decide⟩ : Numeral "100".toList 100),
    (by decide : "100".toList.length < 64),
    (⟨by decide,by decide,by decide⟩ : Numeral "10".toList 10),
    (by decide : "10".toList.length < 64),
    ⟨digits,"31 7.25\n".toList,h,hlen,rfl⟩⟩

theorem numeral_twenty : Numeral "20".toList 20 := ⟨by decide,by decide,by decide⟩

theorem numeral_sixty : Numeral "60".toList 60 := ⟨by decide,by decide,by decide⟩

theorem remain_bounded_iff_shortLease :
    (∃ r r', Timer.renew.getter (Snapshot.platform Safec.reference) (some 0)
        (shortLease "20".toList) = some (.ok,some r,shortLease "20".toList) ∧
      Timer.renew.getter (Snapshot.platform Safec.reference) (some 0) (shortLease "60".toList) =
        some (.ok,some r',shortLease "60".toList) ∧
      r.toNat ≤ 100 ∧ r'.toNat ≤ 100 ∧ r'.toNat ≤ r.toNat) ↔
    60-10 ≤ Timer.renew.limit 100 :=
  remain_bounded_iff Safec.reference .renew
    (shortLease_holds numeral_twenty (by decide)) (shortLease_holds numeral_sixty (by decide))
    (by decide) (by decide) (by decide) (by decide) 0 0

theorem remain_expired :
    (shortLease "50".toList).Holds 100 10 50 ∧ (shortLease "200".toList).Holds 100 10 200 ∧
    ¬∃ r r', Timer.lease.getter (Snapshot.platform Safec.reference) (some 0)
        (shortLease "50".toList) = some (.ok,some r,shortLease "50".toList) ∧
      Timer.lease.getter (Snapshot.platform Safec.reference) (some 0) (shortLease "200".toList) =
        some (.ok,some r',shortLease "200".toList) ∧
      r.toNat ≤ 100 ∧ r'.toNat ≤ 100 ∧ r'.toNat ≤ r.toNat := by
  refine ⟨shortLease_holds ⟨by decide,by decide,by decide⟩ (by decide),
    shortLease_holds ⟨by decide,by decide,by decide⟩ (by decide),?_⟩
  rintro ⟨r,r',_,hlate,_,hbound,_⟩
  have hvalue : (Timer.lease.getter (Snapshot.platform Safec.reference) (some 0)
      (shortLease "200".toList)).map (fun q => q.2.1) = some (some 4294967206) := by
    decide +kernel
  rw [hlate] at hvalue
  simp only [Option.map_some,Option.some.injEq] at hvalue
  rw [hvalue] at hbound
  exact absurd hbound (by decide)

end RdkHal.Dhcp
