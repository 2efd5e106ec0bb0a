import RdkHal.Wifi.Hal
import RdkHal.Lib.Tokens

/-! The stations of an access point against its list of addresses: which of them
`wifi_kickApAclAssociatedDevices` asks to kick. -/

set_option autoImplicit false

namespace RdkHal.Wifi
open Text

variable {ω : Type}

def wifiGetApAclDevices (lib : Safec) (bufSize : UInt32) : Ret × Str :=
  (.ok,(lib.strcpyS bufSize.toNat "11:22:33:44:55:66\n11:22:33:44:55:67\n".toList).2)

def assocFormat : String := "wlanconfig %s%d list sta | grep -v HTCAP | cut -d' ' -f1"

def assocLine (apIndex : Int32) : Str := sprintf assocFormat.toList [.s apPrefix,.d apIndex]

/-- `_syscmd` is given the size as an `int`. -/
def wifiGetApDevicesAssociated (P : Platform ω) (apIndex : Int32) (macArray : Str) (bufSize : UInt32)
    (os : Os ω) : Ret × Str × Os ω :=
  let cmd := P.command 128 assocFormat [.s apPrefix,.d apIndex]
  let (_,macArray,os) := syscmd P cmd macArray bufSize.toInt32.toInt os
  (.ok,macArray,os)

def kicked (enable : Int) (aclArray assocArray : Str) : List Str :=
  if assocArray.length < 17 then []
  else if enable = 1 then
    (tokens "\r\n".toList aclArray).filter fun acl =>
      decide (17 ≤ acl.length) && (strcasestr assocArray acl).isSome
  else
    (tokens "\r\n".toList assocArray).filter fun asso =>
      decide (17 ≤ asso.length) && (strcasestr aclArray asso).isNone

def kickAcl (P : Platform ω) (acl : Str) (apIndex : Int32) (enable : Int) (os : Os ω) :
    Ret × List Str × Os ω :=
  let (_,assocArray,os) := wifiGetApDevicesAssociated P apIndex [] 512 os
  (.ok,kicked enable acl assocArray,os)

def wifiKickApAclAssociatedDevices (P : Platform ω) (apIndex : Int32) (enable : Int) (os : Os ω) :
    Ret × List Str × Os ω :=
  kickAcl P (wifiGetApAclDevices P.lib 512).2 apIndex enable os

structure Mac (s : Str) : Prop where
  length : s.length = 17
  newline : '\n' ∉ s
  cr : '\r' ∉ s
  nul : '\x00' ∉ s

theorem mac_iff (s : Str) :
    Mac s ↔ s.length = 17 ∧ '\n' ∉ s ∧ '\r' ∉ s ∧ '\x00' ∉ s :=
  ⟨fun h => ⟨h.length,h.newline,h.cr,h.nul⟩,fun h => ⟨h.1,h.2.1,h.2.2.1,h.2.2.2⟩⟩

instance (s : Str) : Decidable (Mac s) := decidable_of_iff _ (mac_iff s).symm

theorem Mac.ne_nil {s : Str} (h : Mac s) : s ≠ [] := by
  rintro rfl
  exact absurd h.length (by decide)

theorem Mac.not_delim {s : Str} (h : Mac s) : ∀ c ∈ s, c ∉ "\r\n".toList := by
  intro c hc hmem
  have hor : c = '\r' ∨ c = '\n' := by simpa using hmem
  rcases hor with rfl | rfl
  · exact h.cr hc
  · exact h.newline hc

/-- With room for `j` more lines and eight characters, `j` lines are read and six characters of
the next one. -/
theorem syscmdText_macs {stations : List Str} (hst : ∀ s ∈ stations, Mac s) {j fuel : Nat}
    (hfuel : (unlines stations).length < fuel) :
    syscmdText fuel (8+18*j) (unlines stations) =
      unlines (stations.take j) ++ ((stations.drop j).headD []).take 6 := by
  induction j generalizing stations fuel with
  | zero =>
    obtain ⟨fuel,rfl⟩ : ∃ k, fuel = k+1 := ⟨fuel-1,by omega⟩
    cases stations with
    | nil => simp [syscmdText_nil]
    | cons s stations =>
      obtain ⟨hs,_⟩ := List.forall_mem_cons.mp hst
      have hlen := hs.length
      have hcut := @syscmdText_cut fuel 6 s hs.newline hs.nul (by omega) (by decide) (by decide)
        (unlines stations)
      rw [unlines_cons]
      simpa using hcut
  | succ j ih =>
    obtain ⟨fuel,rfl⟩ : ∃ k, fuel = k+1 := ⟨fuel-1,by omega⟩
    cases stations with
    | nil => simp [syscmdText_nil]
    | cons s stations =>
      obtain ⟨hs,hst⟩ := List.forall_mem_cons.mp hst
      have hlen := hs.length
      rw [unlines_cons] at hfuel ⊢
      simp only [List.length_append,List.length_cons] at hfuel
      have hroom : (s.length : Int)+1 < bufbytes (8+18*(j+1 : Nat)) := by
        rw [bufbytes]
        split <;> omega
      have hnext : (8+18*((j+1 : Nat) : Int))-(s.length+1) = 8+18*j := by omega
      rw [syscmdText_line hs.newline hs.nul hroom,hnext,ih hst (by omega)]
      simp

structure Delivered (assocArray : Str) (kept : List Str) : Prop where
  macs : ∀ s ∈ kept, Mac s
  array : ∃ tail, assocArray = unlines kept ++ tail ∧ tail.length < 17 ∧
    ∀ c ∈ tail, c ∉ "\r\n".toList

theorem tokens_macs {ls : List Str} (hls : ∀ l ∈ ls, Mac l) (tail : Str) :
    tokens "\r\n".toList (unlines ls ++ tail) = ls ++ tokens "\r\n".toList tail :=
  tokens_unlines (by decide) (fun l hl => ⟨(hls l hl).ne_nil,(hls l hl).not_delim⟩) tail

theorem strcasestr_macs {ls : List Str} (hls : ∀ l ∈ ls, Mac l) {n tail : Str} (hn : Mac n)
    (htail : tail.length < 17) :
    (strcasestr (unlines ls ++ tail) n).isSome = true ↔ ∃ l ∈ ls, SameLetters l n :=
  strcasestr_lines hn.ne_nil hn.newline
    (fun l hl => ⟨(hls l hl).newline,(hls l hl).length.trans hn.length.symm⟩) (hn.length.symm ▸ htail)

theorem kicked_eq (enable : Int) {acl kept : List Str} {assocArray : Str} (hacl : ∀ a ∈ acl, Mac a)
    (h : Delivered assocArray kept) :
    kicked enable (unlines acl) assocArray =
      if enable = 1 then acl.filter fun a => decide (∃ s ∈ kept, SameLetters s a)
      else kept.filter fun s => decide (¬∃ a ∈ acl, SameLetters a s) := by
  obtain ⟨tail,rfl,htail,hdelims⟩ := h.array
  have hmacs := h.macs
  have hnone : kept = [] ∨ ¬(unlines kept ++ tail).length < 17 := by
    cases kept with
    | nil => exact Or.inl rfl
    | cons s kept =>
      have hlen := (hmacs s (by simp)).length
      refine Or.inr ?_
      simp only [unlines_cons,List.length_append,List.length_cons]
      omega
  rw [kicked]
  split
  · rename_i hshort
    have hkept : kept = [] := hnone.resolve_right (not_not.mpr hshort)
    simp [hkept]
  split
  · -- each line of the list is looked up in the stations
    have hall := tokens_macs hacl []
    rw [List.append_nil] at hall
    rw [hall,tokens_last (by simp),if_pos rfl,List.append_nil]
    refine List.filter_congr (fun a ha => ?_)
    have hlen := (hacl a ha).length
    rw [Bool.eq_iff_iff]
    simp [hlen,strcasestr_macs hmacs (hacl a ha) htail]
  · -- each station is looked up in the list; the beginning of one is too short to count
    have hcut : (tokens "\r\n".toList tail).filter (fun asso =>
        decide (17 ≤ asso.length) && (strcasestr (unlines acl) asso).isNone) = [] := by
      rw [tokens_last hdelims]
      split
      · rfl
      · simp [Nat.not_le.mpr htail]
    rw [tokens_macs hmacs,List.filter_append,hcut,List.append_nil]
    refine List.filter_congr (fun s hs => ?_)
    have hlen := (hmacs s hs).length
    have hfound := @strcasestr_macs acl hacl s [] (hmacs s hs) (by decide)
    rw [List.append_nil] at hfound
    rw [Bool.eq_iff_iff]
    simp [hlen,← hfound]

theorem delivered_lines {stations : List Str} (hst : ∀ s ∈ stations, Mac s) :
    Delivered (unlines stations) stations :=
  ⟨hst,[],by rw [List.append_nil],by decide,by simp⟩

/-- Over whole lists the loops ask for the listed addresses that are stations, or for the stations
that are not listed, in their order: no address is found across the end of a line. -/
theorem kicked_lines (enable : Int) {acl stations : List Str} (hacl : ∀ a ∈ acl, Mac a)
    (hst : ∀ s ∈ stations, Mac s) :
    kicked enable (unlines acl) (unlines stations) =
      if enable = 1 then acl.filter fun a => decide (∃ s ∈ stations, SameLetters s a)
      else stations.filter fun s => decide (¬∃ a ∈ acl, SameLetters a s) :=
  kicked_eq enable hacl (delivered_lines hst)

theorem kicked_lines_two :
    kicked 0 (unlines ["aa:bb:cc:dd:ee:01".toList])
      (unlines ["AA:BB:CC:DD:EE:01".toList,"aa:bb:cc:dd:ee:02".toList]) =
      if (0 : Int) = 1 then ["aa:bb:cc:dd:ee:01".toList].filter fun a => decide
        (∃ s ∈ ["AA:BB:CC:DD:EE:01".toList,"aa:bb:cc:dd:ee:02".toList], SameLetters s a)
      else ["AA:BB:CC:DD:EE:01".toList,"aa:bb:cc:dd:ee:02".toList].filter fun s => decide
        (¬∃ a ∈ ["aa:bb:cc:dd:ee:01".toList], SameLetters a s) :=
  kicked_lines 0 (by decide) (by decide)

theorem assocLine_fits (P : Platform ω) (apIndex : Int32) :
    P.command 128 assocFormat [.s apPrefix,.d apIndex] = assocLine apIndex :=
  P.command_ap (by decide) apIndex

theorem stations_delivered {P : Platform ω} {apIndex : Int32} {stations : List Str}
    (hst : ∀ s ∈ stations, Mac s) {os : Os ω}
    (hout : (P.popen (assocLine apIndex) os.world).1 = some (unlines stations)) :
    Delivered (wifiGetApDevicesAssociated P apIndex [] 512 os).2.1 (stations.take 28) := by
  have harray : (wifiGetApDevicesAssociated P apIndex [] 512 os).2.1 =
      unlines (stations.take 28) ++ ((stations.drop 28).headD []).take 6 := by
    have htext := syscmdText_macs hst (j := 28) (Nat.lt_succ_self (unlines stations).length)
    simp only [wifiGetApDevicesAssociated,assocLine_fits,syscmd_reads hout]
    exact htext
  have hnext : ∀ c ∈ (stations.drop 28).headD [], c ∉ "\r\n".toList := by
    cases hdrop : stations.drop 28 with
    | nil => simp
    | cons s rest =>
      have hmem : s ∈ stations.drop 28 := by simp [hdrop]
      exact (hst s (List.mem_of_mem_drop hmem)).not_delim
  refine ⟨fun s hs => hst s (List.mem_of_mem_take hs),_,harray,?_,?_⟩
  · have hle := List.length_take_le 6 ((stations.drop 28).headD [])
    omega
  · exact fun c hc => hnext c (List.mem_of_mem_take hc)

/-- A station is to be kicked: it is in the list when this is enabled, and is not otherwise. -/
def Wanted (enable : Int) (acl : List Str) (s : Str) : Prop :=
  if enable = 1 then ∃ a ∈ acl, SameLetters a s else ¬∃ a ∈ acl, SameLetters a s

def AsksWanted (enable : Int) (acl stations asks : List Str) : Prop :=
  ∀ m, (∃ a ∈ asks, SameLetters a m) ↔ ∃ s ∈ stations, Wanted enable acl s ∧ SameLetters s m

theorem wanted_congr {enable : Int} {acl : List Str} {s t : Str} (h : SameLetters s t) :
    Wanted enable acl s ↔ Wanted enable acl t := by
  have heq : lower s = lower t := h
  simp only [Wanted,SameLetters,heq]

theorem asksWanted_kept (enable : Int) {acl kept : List Str} {assocArray : Str}
    (hacl : ∀ a ∈ acl, Mac a) (h : Delivered assocArray kept) :
    AsksWanted enable acl kept (kicked enable (unlines acl) assocArray) := by
  intro m
  rw [kicked_eq enable hacl h]
  by_cases henable : enable = 1
  · simp only [henable,if_true,List.mem_filter,decide_eq_true_eq,Wanted]
    constructor
    · rintro ⟨a,⟨ha,s,hs,hsa⟩,ham⟩
      exact ⟨s,hs,⟨a,ha,hsa.symm⟩,hsa.trans ham⟩
    · rintro ⟨s,hs,⟨a,ha,has⟩,hsm⟩
      exact ⟨a,⟨ha,s,hs,has.symm⟩,has.trans hsm⟩
  · simp only [henable,if_false,List.mem_filter,decide_eq_true_eq,Wanted,and_assoc]

/-- The filter is complete exactly where each wanted station behind the 28th has the address of
one among them. -/
theorem kickAcl_iff (P : Platform ω) (apIndex : Int32) (enable : Int) {acl stations : List Str}
    (hacl : ∀ a ∈ acl, Mac a) (hst : ∀ s ∈ stations, Mac s) (os : Os ω)
    (hout : (P.popen (assocLine apIndex) os.world).1 = some (unlines stations)) :
    AsksWanted enable acl stations (kickAcl P (unlines acl) apIndex enable os).2.1 ↔
      ∀ s ∈ stations.drop 28, Wanted enable acl s → ∃ t ∈ stations.take 28, SameLetters t s := by
  have hkept := asksWanted_kept enable hacl (stations_delivered hst hout)
  constructor
  · intro h s hs hwanted
    obtain ⟨a,ha,has⟩ := (h s).mpr ⟨s,List.mem_of_mem_drop hs,hwanted,rfl⟩
    obtain ⟨t,ht,_,hts⟩ := (hkept s).mp ⟨a,ha,has⟩
    exact ⟨t,ht,hts⟩
  · intro h m
    refine (hkept m).trans ⟨?_,?_⟩
    · rintro ⟨s,hs,hwanted,hsm⟩
      exact ⟨s,List.mem_of_mem_take hs,hwanted,hsm⟩
    · rintro ⟨s,hs,hwanted,hsm⟩
      rw [← List.take_append_drop 28 stations,List.mem_append] at hs
      rcases hs with hs | hs
      · exact ⟨s,hs,hwanted,hsm⟩
      · obtain ⟨t,ht,hts⟩ := h s hs hwanted
        exact ⟨t,ht,(wanted_congr hts).mpr hwanted,hts.trans hsm⟩

def sampleAcl : List Str := ["11:22:33:44:55:66".toList,"11:22:33:44:55:67".toList]

theorem sampleAcl_devices (lib : Safec) : (wifiGetApAclDevices lib 512).2 = unlines sampleAcl :=
  congrArg Prod.snd (lib.strcpyS_fits 512 (unlines sampleAcl) (by decide))

def crowd : List Str :=
  (List.range 28).map (fun i => "aa:bb:cc:dd:e".toList ++ Nat.toDigits 10 (i/10) ++ [':','0'] ++
    Nat.toDigits 10 (i % 10)) ++ ["11:22:33:44:55:66".toList]

def crowdPlatform : Platform Unit := Platform.answering (some (unlines crowd))

theorem kickAcl_iff_crowd :
    AsksWanted 1 sampleAcl crowd (kickAcl crowdPlatform (unlines sampleAcl) 0 1 ⟨(),[]⟩).2.1 ↔
      ∀ s ∈ crowd.drop 28, Wanted 1 sampleAcl s → ∃ t ∈ crowd.take 28, SameLetters t s :=
  kickAcl_iff crowdPlatform 0 1 (by decide +kernel) (by decide +kernel) ⟨(),[]⟩ rfl

theorem crowd_escapes :
    ¬AsksWanted 1 sampleAcl crowd (wifiKickApAclAssociatedDevices crowdPlatform 0 1 ⟨(),[]⟩).2.1 := by
  intro h
  have hasks : (wifiKickApAclAssociatedDevices crowdPlatform 0 1 ⟨(),[]⟩).2.1 = [] := by
    rw [wifiKickApAclAssociatedDevices,sampleAcl_devices]
    decide +kernel
  have hwanted : Wanted 1 sampleAcl "11:22:33:44:55:66".toList :=
    ⟨"11:22:33:44:55:66".toList,by decide,rfl⟩
  obtain ⟨a,ha,_⟩ := (h "11:22:33:44:55:66".toList).mpr ⟨_,by decide +kernel,hwanted,rfl⟩
  rw [hasks] at ha
  cases ha

end RdkHal.Wifi
