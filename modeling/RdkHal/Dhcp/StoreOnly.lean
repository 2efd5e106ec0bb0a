import RdkHal.Dhcp.Getters
import RdkHal.Dhcp.Remain

/-! Two runs of a getter on one sysevent store: when the reported value does not depend on the
old content of `*pValue` and of the local `addr`. -/

set_option autoImplicit false

namespace RdkHal.Dhcp
open Text Inet

variable {ω : Type}

/-- Two successful runs that start in the state `w` report the same value. -/
def StoreOnly {α : Type} (getter : UInt32 → Option α → ω → Ret × Option α × ω) (w : ω) : Prop :=
  ∀ addr addr' old old', (getter addr (some old) w).1 = .ok →
    (getter addr' (some old') w).1 = .ok →
    (getter addr (some old) w).2.1 = (getter addr' (some old') w).2.1

def KnownState (text : Str) : Prop := text ∈ dhcpState ∨ text = "renew".toList

def Accepted (text : Str) : Prop := (inetAddr text).isSome = true

theorem fsmState_known {P : Platform ω} {w w' : ω} {text : Str}
    (hread : query P dhcpStateFormat [] w = (.ok,text,w')) (hknown : KnownState text) :
    ∃ state, ∀ addr old,
      dhcpv4cGetErtFsmStateUdhcp P addr (some old) w = (.ok,some state,w') := by
  by_cases hmem : dhcpState.idxOf text < dhcpState.length
  · refine ⟨Int32.ofNat (dhcpState.idxOf text+1),fun addr old => ?_⟩
    simp only [dhcpv4cGetErtFsmStateUdhcp,hread,hmem,if_true]
  · have hrenew : text = "renew".toList :=
      hknown.resolve_left (fun h => hmem (List.idxOf_lt_length_of_mem h))
    refine ⟨statusBound,fun addr old => ?_⟩
    simp only [dhcpv4cGetErtFsmStateUdhcp,hread,hmem,if_false,if_pos hrenew]

theorem fsmState_unknown {P : Platform ω} {w w' : ω} {text : Str}
    (hread : query P dhcpStateFormat [] w = (.ok,text,w')) (hknown : ¬KnownState text)
    (addr : UInt32) (old : Int32) :
    dhcpv4cGetErtFsmStateUdhcp P addr (some old) w = (.ok,some old,w') := by
  have hmem : ¬dhcpState.idxOf text < dhcpState.length :=
    fun h => hknown (Or.inl (List.idxOf_lt_length_iff.mp h))
  have hrenew : text ≠ "renew".toList := fun h => hknown (Or.inr h)
  simp only [dhcpv4cGetErtFsmStateUdhcp,hread,hmem,hrenew,if_false]

theorem fsmState_storeOnly (P : Platform ω) (w : ω) :
    StoreOnly (dhcpv4cGetErtFsmStateUdhcp P) w ↔
      EachRead P dhcpStateFormat [] (fun text _ => KnownState text) w := by
  constructor
  · intro h text w' hread
    by_contra hknown
    have hold := fsmState_unknown hread hknown
    have hsame := h 0 0 0 1 (by rw [hold]) (by rw [hold])
    rw [hold,hold] at hsame
    exact absurd (Option.some.inj hsame) (by decide)
  · intro h addr addr' old old' hok _
    rcases hq : query P dhcpStateFormat [] w with ⟨_ | _,text,w'⟩
    · obtain ⟨state,hstate⟩ := fsmState_known hq (h text w' hq)
      rw [hstate,hstate]
    · simp [dhcpv4cGetErtFsmStateUdhcp,hq] at hok

theorem inetAton_accepted {text : Str} (h : Accepted text) :
    ∃ a, ∀ addr, inetAton text addr = (1,a) := by
  obtain ⟨a,ha⟩ := Option.isSome_iff_exists.mp h
  exact ⟨a,fun addr => by simp only [inetAton,ha]⟩

theorem inetAton_rejected {text : Str} (h : ¬Accepted text) (addr : UInt32) :
    inetAton text addr = (0,addr) := by
  have hnone : inetAddr text = none := by simpa [Accepted] using h
  simp only [inetAton,hnone]

theorem addrQuery_storeOnly (P : Platform ω) (format queryValue : Str) (w : ω) :
    (∀ addr addr' old old', (addrQuery P format addr queryValue old w).1 = .ok →
      (addrQuery P format addr' queryValue old' w).1 = .ok →
      (addrQuery P format addr queryValue old w).2.1 =
        (addrQuery P format addr' queryValue old' w).2.1) ↔
      EachRead P format queryValue (fun text _ => Accepted text) w := by
  constructor
  · intro h text w' hread
    by_contra hrejected
    have hstale := inetAton_rejected hrejected
    have hsame := h 0 1 0 0 (by simp [addrQuery,hread]) (by simp [addrQuery,hread])
    simp [addrQuery,hread,hstale] at hsame
  · intro h addr addr' old old' hok hok'
    rcases hq : query P format queryValue w with ⟨_ | _,text,w'⟩
    · obtain ⟨a,ha⟩ := inetAton_accepted (h text w' hq)
      simp only [addrQuery,hq,ha]
    · simp [addrQuery,hq] at hok

theorem one_le_toUInt32 (n : Int32) : 1 ≤ n.toUInt32 ↔ n ≠ 0 := by
  have hzero : n.toUInt32 = 0 ↔ n = 0 := by
    constructor
    · intro h
      rw [← Int32.toInt32_toUInt32 n,h]
      rfl
    · rintro rfl
      rfl
  rw [ne_eq,← hzero,← UInt32.toNat_inj]
  change 1 ≤ n.toUInt32.toNat ↔ ¬n.toUInt32.toNat = 0
  omega

theorem gw_storeOnly (P : Platform ω) (w : ω) :
    StoreOnly (dhcpv4cGetErtGwUdhcp P) w ↔
      EachRead P gwNumberFormat [] (fun number w' => atoi number = 0 ∨
        EachRead P gwFormat number (fun text _ => Accepted text) w') w := by
  rcases hq : query P gwNumberFormat [] w with ⟨_ | _,number,w'⟩
  · rw [eachRead_ok hq]
    by_cases hzero : atoi number = 0
    · have hnone : ¬1 ≤ (atoi number).toUInt32 := fun h => (one_le_toUInt32 _).mp h hzero
      refine iff_of_true ?_ (Or.inl hzero)
      intro addr addr' old old' _ _
      simp only [dhcpv4cGetErtGwUdhcp,hq,hnone,if_false]
    · have hone : 1 ≤ (atoi number).toUInt32 := (one_le_toUInt32 _).mpr hzero
      simp only [StoreOnly,dhcpv4cGetErtGwUdhcp,hq,hone,if_true,hzero,false_or]
      exact addrQuery_storeOnly P gwFormat number w'
  · refine iff_of_true ?_ (eachRead_failed hq _)
    intro addr addr' old old' hok
    simp [dhcpv4cGetErtGwUdhcp,hq] at hok

/-- Where exactly the four results depend on the store alone. -/
theorem getters_storeOnly (P : Platform ω) (w : ω) :
    (StoreOnly (dhcpv4cGetErtFsmStateUdhcp P) w ↔
      EachRead P dhcpStateFormat [] (fun text _ => KnownState text) w) ∧
    (StoreOnly (dhcpv4cGetErtIpAddrUdhcp P) w ↔
      EachRead P ipaddrFormat [] (fun text _ => Accepted text) w) ∧
    (StoreOnly (dhcpv4cGetErtGwUdhcp P) w ↔
      EachRead P gwNumberFormat [] (fun number w' => atoi number = 0 ∨
        EachRead P gwFormat number (fun text _ => Accepted text) w') w) ∧
    (StoreOnly (dhcpv4cGetErtDhcpSvrUdhcp P) w ↔
      EachRead P dhcpServerFormat [] (fun text _ => Accepted text) w) :=
  ⟨fsmState_storeOnly P w,addrQuery_storeOnly P ipaddrFormat [] w,gw_storeOnly P w,
    addrQuery_storeOnly P dhcpServerFormat [] w⟩

def strayStore : Snapshot where
  sysevent name :=
    if name = currentWanIfname then "erouter0".toList
    else if name = "ipv4_erouter0_dhcp_state".toList then "rebind".toList
    else if name = "ipv4_erouter0_gw_number".toList then "1".toList
    else "0.0.0.256".toList
  uptime := []

theorem strayStore_reports :
    let P := Snapshot.platform Safec.reference
    ¬StoreOnly (dhcpv4cGetErtFsmStateUdhcp P) strayStore ∧
    ¬StoreOnly (dhcpv4cGetErtIpAddrUdhcp P) strayStore ∧
    ¬StoreOnly (dhcpv4cGetErtGwUdhcp P) strayStore ∧
    ¬StoreOnly (dhcpv4cGetErtDhcpSvrUdhcp P) strayStore := by
  refine ⟨fun h => ?_,fun h => ?_,fun h => ?_,fun h => ?_⟩ <;>
    exact absurd (h 0 1 0 1 (by decide +kernel) (by decide +kernel)) (by decide +kernel)

end RdkHal.Dhcp
