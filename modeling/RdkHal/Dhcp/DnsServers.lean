import RdkHal.Dhcp.StoreOnly

/-! The list of DNS servers against the outcomes of its reads. -/

set_option autoImplicit false

namespace RdkHal.Dhcp
open Text Inet

variable {ω : Type}

def dnsReads (P : Platform ω) : Nat → Nat → Str → ω → List (Option Str)
  | 0, _, _, _ => []
  | rounds+1, i, queryValue, w =>
    match query P (dnsFormat P.lib i) queryValue w with
    | (.err,text,w) => none :: dnsReads P rounds (i+1) text w
    | (.ok,text,w) => some text :: dnsReads P rounds (i+1) text w

def servers (reads : List (Option Str)) : List UInt32 := reads.filterMap (·.bind inetAddr)

def dnsCount (number : Str) : Nat := min (atoi number).toInt.toNat 4

/-- The list holds these addresses and no more. -/
def IpList.Holds (list : IpList) (addrs : List UInt32) : Prop :=
  list.number.toNat = addrs.length ∧ ∀ j < addrs.length, addrs[j]? = some (list.addrs j)

def DnsReported (P : Platform ω) (addr : UInt32) (old : IpList) (w : ω) : Prop :=
  (∀ list w', dhcpv4cGetErtDnsSvrsUdhcp P addr (some old) w = (.ok,list,w') →
    ∃ number w₁ new, query P dnsNumberFormat [] w = (.ok,number,w₁) ∧ list = some new ∧
      new.Holds (servers (dnsReads P (dnsCount number) 0 number w₁))) ∧
  ∀ list w', dhcpv4cGetErtDnsSvrsUdhcp P addr (some old) w = (.err,list,w') → list = some old

theorem dnsReads_length (P : Platform ω) (rounds i : Nat) (queryValue : Str) (w : ω) :
    (dnsReads P rounds i queryValue w).length = rounds := by
  induction rounds generalizing i queryValue w with
  | zero => rfl
  | succ rounds ih =>
    rcases hq : query P (dnsFormat P.lib i) queryValue w with ⟨_ | _,text,w'⟩ <;>
      simp [dnsReads,hq,ih]

def AllAccepted (reads : List (Option Str)) : Prop :=
  ∀ r ∈ reads, (r.bind inetAddr).isSome = true

instance (reads : List (Option Str)) : Decidable (AllAccepted reads) :=
  inferInstanceAs (Decidable (∀ r ∈ reads, (r.bind inetAddr).isSome = true))

theorem allAccepted_cons (r : Option Str) (reads : List (Option Str)) :
    AllAccepted (r :: reads) ↔ (r.bind inetAddr).isSome = true ∧ AllAccepted reads :=
  List.forall_mem_cons

theorem allAccepted_iff (reads : List (Option Str)) :
    AllAccepted reads ↔ (servers reads).length = reads.length :=
  List.filterMap_length_eq_length.symm

theorem dnsLoop_before (P : Platform ω) (rounds i : Nat) (queryValue : Str) (addr : UInt32)
    (addrs : Nat → UInt32) (w : ω) {j : Nat} (hj : j < i) :
    (dnsLoop P rounds i queryValue addr addrs w).1 j = addrs j := by
  induction rounds generalizing i queryValue addr addrs w with
  | zero => rfl
  | succ rounds ih =>
    rcases hq : query P (dnsFormat P.lib i) queryValue w with ⟨_ | _,text,w'⟩
    · have hne : j ≠ i := by omega
      simp [dnsLoop,hq,ih (i+1) _ _ _ _ (by omega),hne]
    · simp [dnsLoop,hq,ih (i+1) _ _ _ _ (by omega)]

theorem dnsLoop_stored (P : Platform ω) (rounds i : Nat) (queryValue : Str) (addr : UInt32)
    (addrs : Nat → UInt32) (w : ω) (h : AllAccepted (dnsReads P rounds i queryValue w)) {j : Nat}
    (hj : j < rounds) :
    (servers (dnsReads P rounds i queryValue w))[j]? =
      some ((dnsLoop P rounds i queryValue addr addrs w).1 (i+j)) := by
  induction rounds generalizing i queryValue addr addrs w j with
  | zero => omega
  | succ rounds ih =>
    rcases hq : query P (dnsFormat P.lib i) queryValue w with ⟨_ | _,text,w'⟩
    · simp only [dnsReads,hq] at h
      obtain ⟨haccepted,hrest⟩ := (allAccepted_cons _ _).mp h
      obtain ⟨a,ha⟩ := Option.isSome_iff_exists.mp haccepted
      have hservers : servers (dnsReads P (rounds+1) i queryValue w) =
          a :: servers (dnsReads P rounds (i+1) text w') := by
        simp [servers,dnsReads,hq,ha]
      have haddr : inetAddr text = some a := ha
      have haton : inetAton text addr = (1,a) := by simp only [inetAton,haddr]
      simp only [hservers,dnsLoop,hq,haton]
      cases j with
      | zero => simp [dnsLoop_before P rounds (i+1) text a _ w' (Nat.lt_succ_self i)]
      | succ j =>
        have hstored := ih (i+1) text a (fun k => if k = i then a else addrs k) w' hrest
          (j := j) (by omega)
        rw [List.getElem?_cons_succ,hstored,show i+1+j = i+(j+1) by omega]
    · simp only [dnsReads,hq] at h
      exact absurd ((allAccepted_cons _ _).mp h).1 (by simp)

theorem dnsSvrs_value {P : Platform ω} {w w₁ : ω} {number : Str}
    (hread : query P dnsNumberFormat [] w = (.ok,number,w₁)) (addr : UInt32) (old : IpList) :
    ∃ new w', dhcpv4cGetErtDnsSvrsUdhcp P addr (some old) w = (.ok,some new,w') ∧
      new.number.toNat = min (atoi number).toUInt32.toNat 4 ∧
      new.addrs = (dnsLoop P (min (atoi number).toUInt32.toNat 4) 0 number addr old.addrs w₁).1 := by
  by_cases hone : 1 ≤ (atoi number).toUInt32
  · have hcount : (if 4 < (atoi number).toUInt32 then 4 else (atoi number).toUInt32).toNat =
        min (atoi number).toUInt32.toNat 4 := by
      by_cases hfour : 4 < (atoi number).toUInt32
      · have hlt : 4 < (atoi number).toUInt32.toNat := hfour
        rw [if_pos hfour,Nat.min_eq_right (by omega)]
        rfl
      · have hle : ¬4 < (atoi number).toUInt32.toNat := hfour
        rw [if_neg hfour,Nat.min_eq_left (by omega)]
    rcases hloop : dnsLoop P (min (atoi number).toUInt32.toNat 4) 0 number addr old.addrs w₁ with
      ⟨addrs,w'⟩
    rw [← hcount] at hloop
    refine ⟨⟨if 4 < (atoi number).toUInt32 then 4 else (atoi number).toUInt32,addrs⟩,w',?_,hcount,rfl⟩
    simp only [dhcpv4cGetErtDnsSvrsUdhcp,hread,hone,if_true,hloop]
  · have hzero : (atoi number).toUInt32.toNat = 0 := by
      have hlt : ¬1 ≤ (atoi number).toUInt32.toNat := hone
      omega
    refine ⟨⟨0,old.addrs⟩,w₁,?_,?_,?_⟩
    · simp only [dhcpv4cGetErtDnsSvrsUdhcp,hread,hone,if_false]
    · rw [hzero]
      rfl
    · rw [hzero]
      rfl

theorem dnsReported_stored {P : Platform ω} {w w₁ w' : ω} {number : Str} {addr : UInt32}
    {old new : IpList} (hread : query P dnsNumberFormat [] w = (.ok,number,w₁))
    (hget : dhcpv4cGetErtDnsSvrsUdhcp P addr (some old) w = (.ok,some new,w')) :
    DnsReported P addr old w ↔ new.Holds (servers (dnsReads P (dnsCount number) 0 number w₁)) := by
  unfold DnsReported
  rw [hget]
  constructor
  · rintro ⟨hok,_⟩
    obtain ⟨number',w₁',new',hread',hnew,hholds⟩ := hok _ _ rfl
    rw [hread] at hread'
    cases hread'
    cases hnew
    exact hholds
  · intro h
    refine ⟨fun list w'' heq => ?_,fun list w'' heq => ?_⟩
    · cases heq
      exact ⟨number,w₁,new,hread,rfl,h⟩
    · cases heq

theorem dnsReported_failed {P : Platform ω} {w w' : ω} {number : Str}
    (hread : query P dnsNumberFormat [] w = (.err,number,w')) (addr : UInt32) (old : IpList) :
    DnsReported P addr old w := by
  have hget : dhcpv4cGetErtDnsSvrsUdhcp P addr (some old) w = (.err,some old,w') := by
    simp only [dhcpv4cGetErtDnsSvrsUdhcp,hread]
  unfold DnsReported
  rw [hget]
  refine ⟨fun list w'' heq => ?_,fun list w'' heq => ?_⟩
  · cases heq
  · cases heq
    rfl

theorem dnsCount_eq (number : Str) (h : 0 ≤ (atoi number).toInt) :
    min (atoi number).toUInt32.toNat 4 = dnsCount number := by
  have hcases := toInt_cases (atoi number)
  rw [dnsCount]
  omega

theorem dnsCount_negative (number : Str) (h : (atoi number).toInt < 0) :
    dnsCount number < min (atoi number).toUInt32.toNat 4 := by
  have hcases := toInt_cases (atoi number)
  rw [dnsCount]
  omega

/-- The list is right exactly where the number is not negative and no read fails or gives
a text that is not an address. -/
theorem dnsReported_iff (P : Platform ω) (addr : UInt32) (old : IpList) (w : ω) :
    DnsReported P addr old w ↔ EachRead P dnsNumberFormat [] (fun number w₁ =>
      0 ≤ (atoi number).toInt ∧ AllAccepted (dnsReads P (dnsCount number) 0 number w₁)) w := by
  rcases hq : query P dnsNumberFormat [] w with ⟨_ | _,number,w₁⟩
  · obtain ⟨new,w',hget,hnumber,haddrs⟩ := dnsSvrs_value hq addr old
    rw [eachRead_ok hq,dnsReported_stored hq hget,IpList.Holds,hnumber]
    have hmost : (servers (dnsReads P (dnsCount number) 0 number w₁)).length ≤ dnsCount number := by
      have hle := List.length_filterMap_le (·.bind inetAddr)
        (dnsReads P (dnsCount number) 0 number w₁)
      rwa [dnsReads_length] at hle
    constructor
    · rintro ⟨hlength,_⟩
      have hpos : 0 ≤ (atoi number).toInt := by
        by_contra hneg
        have hlt := dnsCount_negative number (by omega)
        omega
      rw [dnsCount_eq number hpos] at hlength
      refine ⟨hpos,(allAccepted_iff _).mpr ?_⟩
      rw [dnsReads_length]
      exact hlength.symm
    · rintro ⟨hpos,haccepted⟩
      have hlength := (allAccepted_iff _).mp haccepted
      rw [dnsReads_length] at hlength
      rw [dnsCount_eq number hpos] at haddrs ⊢
      refine ⟨hlength.symm,fun j hj => ?_⟩
      rw [hlength] at hj
      rw [dnsLoop_stored P _ 0 number addr old.addrs w₁ haccepted hj,haddrs,Nat.zero_add]
  · exact iff_of_true (dnsReported_failed hq addr old) (eachRead_failed hq _)

def dnsStore (number : Str) : Snapshot where
  sysevent name :=
    if name = currentWanIfname then "erouter0".toList
    else if name = "ipv4_erouter0_dns_number".toList then number
    else if name = "ipv4_erouter0_dns_1".toList then "8.8.8.8".toList
    else []
  uptime := []

theorem dnsStore_reports :
    let P := Snapshot.platform Safec.reference
    ¬DnsReported P 0 ⟨0,fun _ => 0⟩ (dnsStore "2".toList) ∧
    ¬DnsReported P 0 ⟨0,fun _ => 0⟩ (dnsStore "-1".toList) := by
  refine ⟨fun h => ?_,fun h => ?_⟩
  · have hread := ((dnsReported_iff _ _ _ _).mp h).read (by decide +kernel)
    exact absurd hread (by decide +kernel)
  · have hread := ((dnsReported_iff _ _ _ _).mp h).read (by decide +kernel)
    exact absurd hread.1 (by decide +kernel)

end RdkHal.Dhcp
