import RdkHal.Dhcp.Remain

/-! The three remaining times together, before renewal is due. -/

set_option autoImplicit false

namespace RdkHal.Dhcp
open Text

def ExactTimes (lib : Safec) (s : Snapshot) (leaseTime elapsed : Nat) : Prop :=
  ∀ old, ∃ lease renew rebind : UInt32,
    Timer.lease.getter (Snapshot.platform lib) (some old) s = some (.ok,some lease,s) ∧
    Timer.renew.getter (Snapshot.platform lib) (some old) s = some (.ok,some renew,s) ∧
    Timer.rebind.getter (Snapshot.platform lib) (some old) s = some (.ok,some rebind,s) ∧
    (lease.toNat : Int) = leaseTime-elapsed ∧
    (renew.toNat : Int) = (leaseTime/2 : Nat)-elapsed ∧
    (rebind.toNat : Int) = (7*leaseTime/8 : Nat)-elapsed ∧
    renew ≤ rebind ∧ rebind ≤ lease

/-- The uptime and the start time count as far as `long` goes. -/
def elapsedRead (startTime upTime : Nat) : Nat := min upTime (2^63-1)-min startTime (2^63-1)

theorem Timer.remain_elapsed (timer : Timer) {lease start digits : Str}
    {leaseTime startTime upTime : Nat} (hlease : Numeral lease leaseTime)
    (hstart : Numeral start startTime) (hdigits : Numeral digits upTime)
    (hl : leaseTime < 2^31) (hs : startTime ≤ upTime) (he : upTime-startTime ≤ leaseTime) :
    (timer.remain lease start (atoi digits).toUInt32).toNat =
      (2^32+timer.limit leaseTime-elapsedRead startTime upTime) % 2^32 := by
  have hlimit := timer.limit_le leaseTime
  rw [remain,UInt32.toNat_sub,UInt32.toNat_sub,threshold_toNat,hlease.atoi hl,
    hstart.atoi_mod,hdigits.atoi_mod,elapsedRead]
  omega

theorem elapsedRead_iff {startTime upTime : Nat} (hs : startTime ≤ upTime) :
    elapsedRead startTime upTime = upTime-startTime ↔ upTime = startTime ∨ upTime < 2^63 := by
  rw [elapsedRead]
  omega

theorem limit_rebind_iff {leaseTime : Nat} (hl : leaseTime < 2^31) :
    Timer.rebind.limit leaseTime = 7*leaseTime/8 ↔ 7*leaseTime < 2^32 := by
  rw [Timer.limit]
  omega

theorem sub_mod {n e : Nat} (he : e ≤ n) (hn : n < 2^32) : (2^32+n-e) % 2^32 = n-e := by
  omega

theorem exactTimes_iff (lib : Safec) {s : Snapshot} {leaseTime startTime upTime : Nat}
    (h : s.Holds leaseTime startTime upTime) (hl : leaseTime < 2^31) (hs : startTime ≤ upTime)
    (he : upTime-startTime ≤ leaseTime/2) :
    ExactTimes lib s leaseTime (upTime-startTime) ↔
      7*leaseTime < 2^32 ∧ (upTime = startTime ∨ upTime < 2^63) := by
  rw [← limit_rebind_iff hl,← elapsedRead_iff hs]
  have hread : elapsedRead startTime upTime ≤ upTime-startTime := by
    rw [elapsedRead]
    omega
  have hlimit := Timer.rebind.limit_le leaseTime
  constructor
  · intro hexact
    obtain ⟨lease,_,rebind,hgetL,_,hgetB,hlease,_,hrebind,_,_⟩ := hexact 0
    obtain ⟨digits,hdigits,hvalue⟩ := getter_value lib .lease h 0
    obtain ⟨digits',hdigits',hvalue'⟩ := getter_value lib .rebind h 0
    obtain rfl : _ = lease := by simpa [hvalue] using hgetL
    obtain rfl : _ = rebind := by simpa [hvalue'] using hgetB
    rw [Timer.remain_elapsed .lease h.lease h.start hdigits hl hs (by omega)] at hlease
    rw [Timer.remain_elapsed .rebind h.lease h.start hdigits' hl hs (by omega)] at hrebind
    rw [Timer.limit] at hlease
    omega
  · rintro ⟨hproduct,helapsed⟩ old
    obtain ⟨digitsL,hdigitsL,hvalueL⟩ := getter_value lib .lease h old
    obtain ⟨digitsN,hdigitsN,hvalueN⟩ := getter_value lib .renew h old
    obtain ⟨digitsB,hdigitsB,hvalueB⟩ := getter_value lib .rebind h old
    have hlease := Timer.remain_elapsed .lease h.lease h.start hdigitsL hl hs (by omega)
    have hrenew := Timer.remain_elapsed .renew h.lease h.start hdigitsN hl hs (by omega)
    have hrebind := Timer.remain_elapsed .rebind h.lease h.start hdigitsB hl hs (by omega)
    rw [helapsed] at hlease hrenew hrebind
    rw [hproduct] at hrebind
    simp only [Timer.limit] at hlease hrenew
    rw [sub_mod (by omega) (by omega)] at hlease hrenew hrebind
    refine ⟨_,_,_,hvalueL,hvalueN,hvalueB,?_,?_,?_,?_,?_⟩
    · omega
    · omega
    · omega
    · rw [UInt32.le_iff_toNat_le]
      omega
    · rw [UInt32.le_iff_toNat_le]
      omega

theorem exactTimes_iff_shortLease :
    ExactTimes Safec.reference (shortLease "20".toList) 100 (20-10) ↔
      7*100 < 2^32 ∧ (20 = 10 ∨ 20 < 2^63) :=
  exactTimes_iff Safec.reference (shortLease_holds numeral_twenty (by decide)) (by decide)
    (by decide) (by decide)

def longLease : Snapshot where
  sysevent name :=
    if name = currentWanIfname then "erouter0".toList
    else if name = leaseTimeKey "erouter0".toList then "613566757".toList
    else if name = startTimeKey "erouter0".toList then "10".toList
    else []
  uptime := "10.31 7.25\n".toList

/-- The product with seven wraps, and rebinding is reported as due at once. -/
theorem longLease_rebind :
    longLease.Holds 613566757 10 10 ∧ ¬ExactTimes Safec.reference longLease 613566757 (10-10) := by
  refine ⟨⟨by decide,⟨by decide,by decide,by decide⟩,by decide,⟨by decide,by decide,by decide⟩,
    by decide,"10".toList,"31 7.25\n".toList,⟨by decide,by decide,by decide⟩,by decide,rfl⟩,?_⟩
  intro hexact
  obtain ⟨_,_,rebind,_,_,hget,_,_,hexactly,_,_⟩ := hexact 0
  have hvalue : (Timer.rebind.getter (Snapshot.platform Safec.reference) (some 0) longLease).map
      (fun q => q.2.1) = some (some 0) := by
    decide +kernel
  rw [hget] at hvalue
  simp only [Option.map_some,Option.some.injEq] at hvalue
  rw [hvalue] at hexactly
  exact absurd hexactly (by decide)

end RdkHal.Dhcp
