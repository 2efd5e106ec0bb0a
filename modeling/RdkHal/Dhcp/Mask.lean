import RdkHal.Dhcp.StoreOnly

/-! The netmask from the prefix length in the sysevent key `subnet`. -/

set_option autoImplicit false

namespace RdkHal.Dhcp
open Text Inet

variable {ω : Type}

/-- A failure that changes nothing, or the mask with as many leading ones as the number parsed,
most significant byte first. -/
def MaskStored (P : Platform ω) (old : UInt32) (w : ω) : Prop :=
  (∃ w', dhcpv4cGetErtMaskUdhcp P (some old) w = some (.err,some old,w')) ∨
  ∃ text w' n mask value, query P subnetFormat [] w = (.ok,text,w') ∧ (atoi text).toInt = Int.ofNat n ∧
    n ≤ 32 ∧ LeadingOnes mask n ∧ memory value = (memory mask).reverse ∧
    dhcpv4cGetErtMaskUdhcp P (some old) w = some (.ok,some value,w')

def PrefixLength (text : Str) : Prop := ∃ n, Numeral text n ∧ n ≤ 32

def PrefixesAccepted (P : Platform ω) (old : UInt32) (w : ω) : Prop :=
  EachRead P subnetFormat [] (fun text w' => PrefixLength text →
    ∃ value, dhcpv4cGetErtMaskUdhcp P (some old) w = some (.ok,some value,w')) w

def OthersRejected (P : Platform ω) (old : UInt32) (w : ω) : Prop :=
  EachRead P subnetFormat [] (fun text w' => ¬PrefixLength text →
    ∀ value, dhcpv4cGetErtMaskUdhcp P (some old) w ≠ some (.ok,some value,w')) w

theorem mask_failed {P : Platform ω} {w w' : ω} {text : Str}
    (hread : query P subnetFormat [] w = (.err,text,w')) (old : UInt32) :
    dhcpv4cGetErtMaskUdhcp P (some old) w = some (.err,some old,w') := by
  simp only [dhcpv4cGetErtMaskUdhcp,hread]

theorem and_ones (x : UInt32) : x &&& 0xFFFFFFFF = x := by
  apply UInt32.toBitVec_inj.mp
  exact BitVec.and_allOnes

theorem mask_stored {P : Platform ω} {w w' : ω} {text : Str}
    (hread : query P subnetFormat [] w = (.ok,text,w')) (hpos : 1 ≤ (atoi text).toInt)
    (hle : (atoi text).toInt ≤ 32) (old : UInt32) :
    ∃ n mask value, (atoi text).toInt = Int.ofNat n ∧ n ≤ 32 ∧ LeadingOnes mask n ∧
      memory value = (memory mask).reverse ∧
      dhcpv4cGetErtMaskUdhcp P (some old) w = some (.ok,some value,w') := by
  have hcases := toInt_cases (atoi text)
  have hn : (atoi text).toInt = Int.ofNat (atoi text).toUInt32.toNat := by
    change (atoi text).toInt = ((atoi text).toUInt32.toNat : Int)
    omega
  have hlow : 0 < (atoi text).toUInt32 := by
    change 0 < (atoi text).toUInt32.toNat
    omega
  have hhigh : (atoi text).toUInt32 ≤ 32 := by
    change (atoi text).toUInt32.toNat ≤ 32
    omega
  obtain ⟨mask,hshift,hones⟩ := shiftLeft_leadingOnes hlow hhigh
  refine ⟨_,mask,htonl mask,hn,hhigh,hones,memory_htonl mask,?_⟩
  simp only [dhcpv4cGetErtMaskUdhcp,hread,hshift,and_ones]

theorem mask_undefined {P : Platform ω} {w w' : ω} {text : Str}
    (hread : query P subnetFormat [] w = (.ok,text,w'))
    (hout : ¬(1 ≤ (atoi text).toInt ∧ (atoi text).toInt ≤ 32)) (old : UInt32) :
    dhcpv4cGetErtMaskUdhcp P (some old) w = none := by
  have hcases := toInt_cases (atoi text)
  have hor : (atoi text).toUInt32 = 0 ∨ 32 < (atoi text).toUInt32 := by
    by_cases hzero : (atoi text).toUInt32.toNat = 0
    · exact Or.inl (UInt32.toNat_inj.mp hzero)
    · right
      change 32 < (atoi text).toUInt32.toNat
      omega
  simp only [dhcpv4cGetErtMaskUdhcp,hread,shiftLeft_undefined hor]

theorem maskStored_iff (P : Platform ω) (old : UInt32) (w : ω) :
    MaskStored P old w ↔ EachRead P subnetFormat []
      (fun text _ => 1 ≤ (atoi text).toInt ∧ (atoi text).toInt ≤ 32) w := by
  constructor
  · intro h text w' hread
    by_contra hout
    have hnone := mask_undefined hread hout old
    rcases h with ⟨w'',hget⟩ | ⟨_,_,_,_,_,_,_,_,_,_,hget⟩ <;>
    · rw [hnone] at hget
      cases hget
  · intro h
    rcases hq : query P subnetFormat [] w with ⟨_ | _,text,w'⟩
    · obtain ⟨hpos,hle⟩ := h text w' hq
      obtain ⟨n,mask,value,hstored⟩ := mask_stored hq hpos hle old
      exact Or.inr ⟨text,w',n,mask,value,hq,hstored⟩
    · exact Or.inl ⟨w',mask_failed hq old⟩

theorem prefixLength_parsed {text : Str} {n : Nat} (h : Numeral text n) (hle : n ≤ 32) :
    (atoi text).toInt = n := by
  have hcases := toInt_cases (atoi text)
  rw [h.atoi (by omega)] at hcases
  omega

/-- The getter meets its purpose exactly on the prefix lengths from 1 on. -/
theorem mask_iff (P : Platform ω) (old : UInt32) (w : ω) :
    (MaskStored P old w ∧ PrefixesAccepted P old w ∧ OthersRejected P old w ↔
      EachRead P subnetFormat [] (fun text _ => ∃ n, Numeral text n ∧ 1 ≤ n ∧ n ≤ 32) w) ∧
    (MaskStored P old w ↔ EachRead P subnetFormat []
      (fun text _ => 1 ≤ (atoi text).toInt ∧ (atoi text).toInt ≤ 32) w) := by
  refine ⟨⟨?_,?_⟩,maskStored_iff P old w⟩
  · rintro ⟨hstored,_,hothers⟩ text w' hread
    obtain ⟨hpos,hle⟩ := (maskStored_iff P old w).mp hstored text w' hread
    obtain ⟨_,_,value,_,_,_,_,hget⟩ := mask_stored hread hpos hle old
    by_contra hnone
    refine hothers text w' hread ?_ value hget
    rintro ⟨n,hn,hle'⟩
    have hparsed := prefixLength_parsed hn hle'
    exact hnone ⟨n,hn,by omega,hle'⟩
  · intro h
    refine ⟨(maskStored_iff P old w).mpr ?_,?_,?_⟩
    · intro text w' hread
      obtain ⟨n,hn,hpos,hle⟩ := h text w' hread
      have hparsed := prefixLength_parsed hn hle
      omega
    · intro text w' hread _
      obtain ⟨n,hn,hpos,hle⟩ := h text w' hread
      have hparsed := prefixLength_parsed hn hle
      obtain ⟨_,_,value,_,_,_,_,hget⟩ := mask_stored hread (by omega) (by omega) old
      exact ⟨value,hget⟩
    · intro text w' hread hother
      obtain ⟨n,hn,_,hle⟩ := h text w' hread
      exact absurd ⟨n,hn,hle⟩ hother

def subnetStore (text : Str) : Snapshot where
  sysevent name :=
    if name = currentWanIfname then "erouter0".toList
    else if name = "ipv4_erouter0_subnet".toList then text
    else []
  uptime := []

theorem subnetStore_read {text : Str} (hne : text ≠ []) (hfits : text.length < 64) :
    query (Snapshot.platform Safec.reference) subnetFormat [] (subnetStore text) =
      (.ok,text,subnetStore text) := by
  have hwan : (subnetStore text).wan ≠ [] := (by decide : (subnetStore []).wan ≠ [])
  have hexpand : expandS subnetFormat (subnetStore text).wan = "ipv4_erouter0_subnet".toList := rfl
  have hkey : (subnetStore text).sysevent "ipv4_erouter0_subnet".toList = text := rfl
  have hvalue := sysevent_value Safec.reference hwan [] hexpand (by decide) (hkey.symm ▸ hne)
    (hkey.symm ▸ hfits)
  rw [hkey] at hvalue
  obtain ⟨c,rest,rfl⟩ := List.exists_cons_of_ne_nil hne
  simp only [query,hvalue]

theorem subnetStore_reports :
    let P := Snapshot.platform Safec.reference
    ¬MaskStored P 0 (subnetStore "0".toList) ∧
    ¬PrefixesAccepted P 0 (subnetStore "0".toList) ∧
    ¬MaskStored P 0 (subnetStore "255.255.255.0".toList) ∧
    ¬OthersRejected P 0 (subnetStore "24.0".toList) := by
  have hzero := @subnetStore_read "0".toList (by decide) (by decide)
  have hdotted := @subnetStore_read "255.255.255.0".toList (by decide) (by decide)
  have hmore := @subnetStore_read "24.0".toList (by decide) (by decide)
  refine ⟨fun h => ?_,fun h => ?_,fun h => ?_,fun h => ?_⟩
  · exact absurd ((maskStored_iff _ _ _).mp h _ _ hzero) (by decide +kernel)
  · have hpre : PrefixLength "0".toList := ⟨0,⟨by decide,by decide,by decide⟩,by decide⟩
    obtain ⟨value,hget⟩ := h _ _ hzero hpre
    rw [mask_undefined hzero (by decide +kernel)] at hget
    cases hget
  · exact absurd ((maskStored_iff _ _ _).mp h _ _ hdotted) (by decide +kernel)
  · obtain ⟨_,_,value,_,_,_,_,hget⟩ :=
      mask_stored hmore (by decide +kernel) (by decide +kernel) 0
    refine h _ _ hmore ?_ value hget
    rintro ⟨n,hn,_⟩
    exact absurd (hn.digits '.' (by decide)) (by decide)

end RdkHal.Dhcp
