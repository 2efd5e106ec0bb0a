import RdkHal.Vlan.LinuxHost
import RdkHal.Lib.Lines

/-! The printed ports of a bridge as names again: which of them the search in a bridge finds, and
what the deletion of all interfaces hands over. -/

set_option autoImplicit false

namespace RdkHal.Vlan
open Text BridgeTable

variable {σ : Type} {E : Env σ} {net : σ → BridgeTable}

theorem dot_not_mem_sscanfPort (buf : Str) : '.' ∉ (sscanfPort buf).1 := by
  rcases dot_cases buf with hplain | ⟨rest,rfl⟩ | ⟨i,v,hi,hdot,rfl⟩
  · by_cases hnil : buf = []
    · subst hnil
      decide
    · rwa [sscanfPort_plain hnil hplain]
  · rw [sscanfPort_head]
    exact List.not_mem_nil
  · simp only [sscanfPort,scanSet_stop hi hdot]
    split <;> exact hdot

theorem sscanfPort_inverts_iff {i v : Str} (hi : Word i) (hv : Word v) :
    sscanfPort (portName i v ++ ['\n']) = (i,v) ↔ '.' ∉ i := by
  constructor
  · intro h
    have hdot := dot_not_mem_sscanfPort (portName i v ++ ['\n'])
    rwa [h] at hdot
  · intro hdot
    have hname : Word (portName i v) := by
      refine ⟨by simp [portName],?_⟩
      rw [portName,noSpace_append,noSpace_cons]
      exact ⟨hi.2,by decide,hv.2⟩
    exact (sscanfPort_line_iff hname hi.1 hdot hv.1).mpr rfl

theorem interfaceInGiven_dotted (E : Env σ) {i : Str} (hdot : '.' ∈ i) (g v : Str) (s : σ) :
    isThisInterfaceAvailableInGivenLinuxBridge E (some i) (some g) (some v) s = false := by
  rw [isThisInterfaceAvailableInGivenLinuxBridge]
  split
  · rfl
  · rw [List.any_eq_false]
    intro buf _ hfound
    have hname := congrArg Prod.fst (of_decide_eq_true hfound)
    exact dot_not_mem_sscanfPort buf (hname ▸ hdot)

/-- The search is right about a port exactly where it is not there, or its device has no dot and
the command fits its buffer. -/
theorem interfaceInGiven_exact_iff (hshow : ShowTools E.host net) {s : σ} {g : Str}
    (hg : (net s).Has g) (hfit : ∀ p ∈ (net s).ports g, PortFits E.limits p) {i v : Str}
    (hi : Word i) (hv : Word v) :
    ((isThisInterfaceAvailableInGivenLinuxBridge E (some i) (some g) (some v) s = true ↔
        portName i v ∈ (net s).ports g) ↔
      portName i v ∉ (net s).ports g ∨ '.' ∉ i ∧ (showLine g).length < 128) ∧
    (sscanfPort (portName i v ++ ['\n']) = (i,v) ↔ '.' ∉ i) := by
  refine ⟨?_,sscanfPort_inverts_iff hi hv⟩
  by_cases hdot : '.' ∈ i
  · simp [interfaceInGiven_dotted E hdot,hdot]
  by_cases hline : (showLine g).length < 128
  · exact iff_of_true (interfaceInGiven_iff hshow hfit hg hline hi.1 hdot hv.1) (Or.inr ⟨hdot,hline⟩)
  · simp [interfaceInGiven_over hshow hline,hline]

def stackedGroups : BridgeTable where
  bridges := [⟨"brlan0".toList,"8000.3c".toList,false,true,["eth0.5.100".toList]⟩,
    ⟨"brlan1".toList,"8000.3d".toList,false,true,[]⟩]
  names_nodup := by decide
  words := by decide
  disjoint := by decide

theorem interfaceInGiven_exact_iff_stacked :
    ((isThisInterfaceAvailableInGivenLinuxBridge (linuxEnv grepShow) (some "eth0.5".toList)
          (some "brlan0".toList) (some "100".toList) stackedGroups = true ↔
        portName "eth0.5".toList "100".toList ∈ stackedGroups.ports "brlan0".toList) ↔
      portName "eth0.5".toList "100".toList ∉ stackedGroups.ports "brlan0".toList ∨
        '.' ∉ "eth0.5".toList ∧ (showLine "brlan0".toList).length < 128) ∧
    (sscanfPort (portName "eth0.5".toList "100".toList ++ ['\n']) =
      ("eth0.5".toList,"100".toList) ↔ '.' ∉ "eth0.5".toList) :=
  interfaceInGiven_exact_iff (E := linuxEnv grepShow) (linuxHost_show grepShow) (by decide)
    (by decide) (by decide) (by decide)

theorem interfaceInGiven_stacked :
    portName "eth0.5".toList "100".toList ∈ stackedGroups.ports "brlan0".toList ∧
    isThisInterfaceAvailableInGivenLinuxBridge (linuxEnv grepShow) (some "eth0.5".toList)
      (some "brlan0".toList) (some "100".toList) stackedGroups = false := by
  decide +kernel

def handed (E : Env σ) (g : Str) (os : σ) : List (Str × Str) :=
  match E.host.popen (cmdBuff E (showLine g)) os with
  | none => []
  | some text => (fgetsAll E.limits.line text).map sscanfPort

theorem vlanHalDeleteAllInterfaces_handed (E : Env σ) (g : Str) (st : Hal σ) :
    (vlanHalDeleteAllInterfaces E (some g) st).2 = (handed E g st.os).foldl
      (fun st q => (vlanHalDelInterface E (some g) (some q.1) (some q.2) st).2) st := by
  cases hopen : E.host.popen (cmdBuff E (showLine g)) st.os with
  | none => simp only [vlanHalDeleteAllInterfaces,handed,hopen,List.foldl_nil]
  | some text =>
    simp only [vlanHalDeleteAllInterfaces,handed,hopen,List.foldl_map]
    rfl

/-- The pair names the port, and both its parts fit the arrays they are read into. -/
structure Names (L : Limits) (q : Str × Str) (p : Str) : Prop where
  plain : '.' ∉ p → q.1 = p
  tagged : '.' ∈ p → portName q.1 q.2 = p
  ifName : q.1.length < L.ifName
  vlanID : q.2.length < L.vlanID

def TaggedFits (L : Limits) (p : Str) : Prop :=
  '.' ∈ p ∧ p.length+1 < L.line ∧ (p.takeWhile (· != '.')).length < L.ifName ∧
    (p.dropWhile (· != '.')).length ≤ L.vlanID

instance (L : Limits) (p : Str) : Decidable (TaggedFits L p) :=
  inferInstanceAs (Decidable (_ ∧ _))

theorem names_line_iff {L : Limits} {p : Str} (hp : Word p) (hhead : p.head? ≠ some '.')
    (hline : p.length+1 < L.line) :
    Names L (sscanfPort (p ++ ['\n'])) p ↔ TaggedFits L p := by
  rcases dot_cases p with hplain | ⟨rest,rfl⟩ | ⟨i,v,hi,hdot,rfl⟩
  · rw [sscanfPort_plain (by simp) (by simpa using hplain)]
    refine iff_of_false (fun h => ?_) (fun h => hplain h.1)
    have hlen := congrArg List.length (h.plain hplain)
    simp at hlen
  · exact absurd rfl hhead
  · have hv : NoSpace v := by
      have h := hp.2
      rw [noSpace_append,noSpace_cons] at h
      exact h.2.2
    have hmem : '.' ∈ i ++ '.' :: v := by simp
    have hall : ∀ c ∈ i, (c != '.') = true := by
      intro c hc
      have hcd : c ≠ '.' := fun h => hdot (h ▸ hc)
      simp [hcd]
    rw [List.append_assoc,List.cons_append,sscanfPort_dotted hi hdot hv,TaggedFits,
      takeWhile_until hall (by simp),dropWhile_until hall (by simp),List.length_cons]
    constructor
    · intro h
      exact ⟨hmem,hline,h.ifName,h.vlanID⟩
    · rintro ⟨_,_,hname,hid⟩
      exact ⟨fun h => absurd hmem h,fun _ => rfl,hname,hid⟩

theorem handed_bridge (hshow : ShowTools E.host net) {s : σ} {b : Bridge}
    (hb : b ∈ (net s).bridges) (hline : (showLine b.name).length < 128) :
    handed E b.name s = (fgetsAll E.limits.line (unlines b.portLines)).map sscanfPort := by
  have hw : ∀ p ∈ b.ports, Word p := ((net s).words b hb).2.2
  simp only [handed,popen_showLine hshow hb hline]
  rw [lastFields_eq (by simpa using hw),List.flatMap_singleton]

theorem names_ports_iff {L : Limits} {ports : List Str} (hw : ∀ p ∈ ports, Word p)
    (hhead : ∀ p ∈ ports, p.head? ≠ some '.') :
    List.Forall₂ (Names L) ((fgetsAll L.line (unlines ports)).map sscanfPort) ports ↔
      ∀ p ∈ ports, TaggedFits L p := by
  have hflag := L.line_flag
  have hnl : ∀ p ∈ ports, '\n' ∉ p := fun p hp => (hw p hp).2.not_mem (by decide)
  have hlines (hfit : ∀ p ∈ ports, p.length+1 < L.line) :
      List.Forall₂ (Names L) ((fgetsAll L.line (unlines ports)).map sscanfPort) ports ↔
        ∀ p ∈ ports, TaggedFits L p := by
    rw [fgetsAll_unlines (fun p hp => ⟨hnl p hp,hfit p hp⟩),List.map_map,List.forall₂_map_left_iff,
      List.forall₂_same]
    exact forall₂_congr fun p hp => names_line_iff (hw p hp) (hhead p hp) (hfit p hp)
  constructor
  · intro h
    have hlen := h.length_eq
    rw [List.length_map] at hlen
    exact (hlines ((fgetsAll_length_iff (by omega) hnl).mp hlen)).mp h
  · intro h
    exact (hlines (fun p hp => (h p hp).2.1)).mpr h

/-- Each pair handed over names its port exactly where there are ports and all are tagged and fit;
if the listing cannot be asked for, where there are none. -/
theorem handed_names_iff (hshow : ShowTools E.host net) {g : Str} {st : Hal σ}
    (hg : (net st.os).Has g) (hhead : ∀ p ∈ (net st.os).ports g, p.head? ≠ some '.') :
    (vlanHalDeleteAllInterfaces E (some g) st).2 = (handed E g st.os).foldl
      (fun st q => (vlanHalDelInterface E (some g) (some q.1) (some q.2) st).2) st ∧
    (List.Forall₂ (Names E.limits) (handed E g st.os) ((net st.os).ports g) ↔
      if (showLine g).length < 128 then
        (net st.os).ports g ≠ [] ∧ ∀ p ∈ (net st.os).ports g, TaggedFits E.limits p
      else (net st.os).ports g = []) := by
  refine ⟨vlanHalDeleteAllInterfaces_handed E g st,?_⟩
  obtain ⟨b,hb,rfl⟩ := hg
  have hports : (net st.os).ports b.name = b.ports := by simp [BridgeTable.ports,find_eq hb]
  have hw : ∀ p ∈ b.ports, Word p := ((net st.os).words b hb).2.2
  rw [hports] at hhead ⊢
  by_cases hline : (showLine b.name).length < 128
  · rw [if_pos hline,handed_bridge hshow hb hline]
    cases hp : b.ports with
    | nil =>
      -- the STP flag is read in the place of a port
      have hread := @fgetsAll_length_le E.limits.line (by have h := E.limits.line_flag; omega)
        b.portLines (fun l hl => (word_portLines hw hl).2.not_mem (by decide))
      have hflag : b.portLines.length = 1 := by simp [Bridge.portLines,hp]
      refine iff_of_false (fun h => ?_) (fun h => h.1 rfl)
      have hlen := h.length_eq
      rw [List.length_map,List.length_nil] at hlen
      omega
    | cons p ps =>
      have hsame : b.portLines = b.ports := by simp [Bridge.portLines,hp]
      rw [hsame,← hp,names_ports_iff hw hhead,and_iff_right (by simp [hp])]
  · have hnone : handed E b.name st.os = [] := by
      simp [handed,cmdBuff_eq,hline,hshow.silent,fgetsAll,fgetsFuel]
    rw [if_neg hline,hnone,List.forall₂_nil_left_iff]

theorem handed_names_iff_stacked :
    (vlanHalDeleteAllInterfaces (linuxEnv grepShow) (some "brlan0".toList)
        (linuxHal stackedGroups)).2 =
      (handed (linuxEnv grepShow) "brlan0".toList stackedGroups).foldl
        (fun st q => (vlanHalDelInterface (linuxEnv grepShow) (some "brlan0".toList) (some q.1)
          (some q.2) st).2) (linuxHal stackedGroups) ∧
    (List.Forall₂ (Names (linuxEnv grepShow).limits)
        (handed (linuxEnv grepShow) "brlan0".toList stackedGroups)
        (stackedGroups.ports "brlan0".toList) ↔
      if (showLine "brlan0".toList).length < 128 then
        stackedGroups.ports "brlan0".toList ≠ [] ∧
          ∀ p ∈ stackedGroups.ports "brlan0".toList, TaggedFits (linuxEnv grepShow).limits p
      else stackedGroups.ports "brlan0".toList = []) :=
  handed_names_iff (E := linuxEnv grepShow)
    (linuxHost_show grepShow) (by decide) (by decide)

theorem handed_untagged :
    ¬List.Forall₂ (Names (linuxEnv grepShow).limits)
      (handed (linuxEnv grepShow) "brlan1".toList twoGroups) (twoGroups.ports "brlan1".toList) ∧
    ¬List.Forall₂ (Names (linuxEnv grepShow).limits)
      (handed (linuxEnv grepShow) "brlan1".toList stackedGroups)
      (stackedGroups.ports "brlan1".toList) := by
  have hport : handed (linuxEnv grepShow) "brlan1".toList twoGroups = [("eth1\n".toList,[])] ∧
      twoGroups.ports "brlan1".toList = ["eth1".toList] := by decide +kernel
  have hflag : handed (linuxEnv grepShow) "brlan1".toList stackedGroups = [("no\n".toList,[])] ∧
      stackedGroups.ports "brlan1".toList = [] := by decide +kernel
  rw [hport.1,hport.2,hflag.1,hflag.2]
  constructor
  · intro h
    cases h with
    | cons hname _ => exact absurd (hname.plain (by decide)) (by decide)
  · intro h
    cases h

end RdkHal.Vlan
