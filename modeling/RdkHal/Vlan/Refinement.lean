import RdkHal.Vlan.Groups
import RdkHal.Vlan.Interfaces
import RdkHal.Vlan.Manager
import RdkHal.Vlan.Nodes

/-! The calls refine the table of groups: with the names that the kernel takes, every run answers
as the table does, and the bridges, their ports and the link say what the table says. -/

set_option autoImplicit false

namespace RdkHal.Vlan
open Text BridgeTable Runs

variable {σ : Type} {E : Env σ} {net : σ → BridgeTable}

/-- What all calls together assume: the buffers hold the names, the tools do their work, a new
bridge takes no port on or off, and the listings change nothing. -/
structure KernelTools (E : Env σ) (net : σ → BridgeTable) : Prop where
  limits : KernelLimits E.limits
  listing : ShowTools E.host net
  ports : PortTools E.host net
  groups : GroupTools E.host net
  addbr : ∀ s g h p, p ∈ (net (E.host.system (addbrLine g) s)).ports h ↔ p ∈ (net s).ports h
  print : ∀ s g, BridgeName g → net (E.host.system (brShowLine g) s) = net s
  printAll : ∀ s, net (E.host.system "brctl show".toList s) = net s

/-- The existence test is right about `g`, in the state `s` and in those that command lines lead to
where there are only fewer ports. -/
def Tests (E : Env σ) (net : σ → BridgeTable) (g : Str) (s : σ) : Prop :=
  ∀ lines, Thins (net s) (net (E.host.exec s lines)) →
    (isThisGroupAvailableInLinuxBridge E (some g) (E.host.exec s lines) = true ↔
      (net (E.host.exec s lines)).Has g)

theorem Tests.now {g : Str} {s : σ} (h : Tests E net g s) :
    isThisGroupAvailableInLinuxBridge E (some g) s = true ↔ (net s).Has g := h [] (Thins.refl _)

theorem Tests.after {g : Str} {st st' : Hal σ} {P : Str → Prop} (h : Tests E net g st.os)
    (hissues : Issues E P st st') (hthin : Thins (net st.os) (net st'.os)) :
    Tests E net g st'.os := by
  obtain ⟨lines,_,hos,_⟩ := hissues
  intro more hmore
  have hexec : E.host.exec st'.os more = E.host.exec st.os (lines ++ more) := by
    rw [hos,Host.exec,Host.exec,Host.exec,List.foldl_append]
  rw [hexec] at hmore ⊢
  exact h (lines ++ more) (hthin.trans hmore)

namespace Call

def Judged (E : Env σ) (net : σ → BridgeTable) (st : Hal σ) (c : Call) : Prop :=
  ∀ g ∈ c.group, Tests E net g st.os

/-- A new group gets its bridge, and memory for its default. -/
def Granted (E : Env σ) (net : σ → BridgeTable) (st : Hal σ) : Call → Prop
  | addGroup (some g) d => (net st.os).Has g ∨
      ((net (E.host.system (addbrLine g) st.os)).Has g ∧ (d.isSome → Memory E g st))
  | _ => True

end Call

/-- The bridges are the groups, the link has the defaults, and the ports are what is owned. -/
structure Manager.Represents (net : σ → BridgeTable) (m : Manager) (st : Hal σ) : Prop where
  groups : ∀ g, (net st.os).Has g ↔ (m.default g).isSome
  entries : ∀ g v, ⟨g,v⟩ ∈ st.config.entries ↔ m.default g = some (some v)
  distinct : (st.config.entries.map VlanEntry.groupName).Nodup
  ports : ∀ g p, p ∈ (net st.os).ports g ↔ ∃ i v, p = portName i v ∧ m.owner (i,v) = some g
  owners : ∀ i v g, m.owner (i,v) = some g → DeviceName i ∧ VlanTag v
  tags : ∀ g v, m.default g = some (some v) → VlanTag v

namespace Manager.Represents

variable {m : Manager} {st st' : Hal σ}

theorem lookup (h : m.Represents net st) {L : Limits} (hL : KernelLimits L) (g : Str) :
    lookup L st.config g = (m.default g).join := by
  rw [Vlan.lookup]
  cases hfind : st.config.entries.find? (named g) with
  | none =>
    have hnone := find?_named_none.mp hfind
    cases hd : (m.default g).join with
    | none => rfl
    | some v => exact absurd rfl (hnone _ ((h.entries g v).mpr (Option.join_eq_some_iff.mp hd)))
  | some e =>
    obtain ⟨g',v⟩ := e
    have hg : g' = g := by simpa [named] using List.find?_some hfind
    subst hg
    have hd := (h.entries g' v).mp (List.mem_of_find?_eq_some hfind)
    have hlen := (h.tags g' v hd).2
    have hfield := hL.vlanID
    have hcopy : v.take (L.vlanID-1) = v := List.take_of_length_le (by omega)
    rw [hd,Option.map_some,hcopy,Option.join_some]

theorem port_iff (h : m.Represents net st) {i v g : Str} (hi : DeviceName i) :
    portName i v ∈ (net st.os).ports g ↔ m.owner (i,v) = some g := by
  rw [h.ports]
  constructor
  · rintro ⟨j,w,hname,howner⟩
    obtain ⟨rfl,rfl⟩ := portName_inj hi.2.1 (h.owners j w g howner).1.2.1 hname
    exact howner
  · exact fun howner => ⟨i,v,rfl,howner⟩

theorem tagged (h : m.Represents net st) {g p : Str} (hp : p ∈ (net st.os).ports g) :
    ∃ i v, p = portName i v ∧ DeviceName i ∧ VlanTag v := by
  obtain ⟨i,v,hname,howner⟩ := (h.ports g p).mp hp
  exact ⟨i,v,hname,h.owners i v g howner⟩

theorem vlan_tag (h : m.Represents net st) {g w : Str} {v : Option Str}
    (hv : ∀ u ∈ v, VlanTag u) (hw : m.vlan g v = some w) : VlanTag w := by
  rw [vlan,Option.bind_eq_some_iff] at hw
  obtain ⟨d,hd,hor⟩ := hw
  cases v with
  | none => exact h.tags g w (by rw [hd,← hor]; rfl)
  | some u => exact hv w (by simpa using hor)

theorem tempvlanID (h : m.Represents net st) (hL : KernelLimits E.limits) {g : Str} {v : Option Str}
    (hg : (net st.os).Has g) (hv : ∀ u ∈ v, VlanTag u) :
    tempvlanID E g v st.config = m.vlan g v := by
  obtain ⟨d,hd⟩ := Option.isSome_iff_exists.mp ((h.groups g).mp hg)
  rw [vlan,hd,Option.bind_some]
  cases v with
  | none =>
    rw [tempvlanID_none,h.lookup hL,hd]
    rfl
  | some u =>
    have hlen := (hv u rfl).2
    have hfield := hL.vlanID
    rw [tempvlanID_given E g (by omega)]
    rfl

theorem relabel (h : m.Represents net st) {keep : Str → Str → Prop}
    (hrel : Relabels (net st.os) (net st'.os) keep) (hconf : st'.config = st.config) {m' : Manager}
    (hdefault : m'.default = m.default)
    (hkeep : ∀ g p, keep g p ↔ ∃ i v, p = portName i v ∧ m'.owner (i,v) = some g)
    (howners : ∀ i v g, m'.owner (i,v) = some g → DeviceName i ∧ VlanTag v) :
    m'.Represents net st' where
  groups g := by rw [hdefault,hrel.has,h.groups]
  entries := by
    rw [hconf,hdefault]
    exact h.entries
  distinct := hconf ▸ h.distinct
  ports g p := (hrel.ports g p).trans (hkeep g p)
  owners := howners
  tags := hdefault ▸ h.tags

end Manager.Represents

/-! Ports taken off, one or all -/

def AllTagged (t : BridgeTable) : Prop :=
  ∀ g p, p ∈ t.ports g → ∃ i v, p = portName i v ∧ DeviceName i ∧ VlanTag v

theorem AllTagged.fits {t : BridgeTable} (h : AllTagged t) {L : Limits} (hL : KernelLimits L)
    (g : Str) : ∀ p ∈ t.ports g, PortFits L p := by
  intro p hp
  obtain ⟨i,v,rfl,hi,hv⟩ := h g p hp
  exact hi.portFits hL hv

theorem AllTagged.fitting {t : BridgeTable} (h : AllTagged t) {L : Limits} (hL : KernelLimits L) :
    Fitting L t :=
  fun b hb p hp => h.fits hL b.name p (mem_ports.mpr ⟨b,hb,rfl,hp⟩)

theorem AllTagged.thins {t t' : BridgeTable} (h : AllTagged t) (hthin : Thins t t') :
    AllTagged t' :=
  fun g p hp => h g p (hthin.ports g p hp)

theorem AllTagged.dotted {t : BridgeTable} (h : AllTagged t) {p : Str} (hp : '.' ∉ p) (g : Str) :
    p ∉ t.ports g := by
  intro hmem
  obtain ⟨i,v,rfl,_⟩ := h g p hmem
  exact hp (by simp [portName])

theorem net_delInterface (K : KernelTools E net) {st : Hal σ} (hall : AllTagged (net st.os))
    {g i v : Str} (hg : (net st.os).Has g) (hname : BridgeName g) (hi : DeviceName i)
    (hv : VlanTag v) (htest : isThisGroupAvailableInLinuxBridge E (some g) st.os = true) :
    Relabels (net st.os) (net (vlanHalDelInterface E (some g) (some i) (some v) st).2.os)
      (fun h p => p ∈ (net st.os).ports h ∧ ¬(h = g ∧ p = portName i v)) := by
  have hlen := hv.2
  have hfield := K.limits.vlanID
  have hvlen : v.length < E.limits.vlanID := by omega
  have hfit := hall.fits K.limits g
  by_cases hmem : portName i v ∈ (net st.os).ports g
  · have hfound := (interfaceInGiven_iff K.listing hfit hg hname.lines_fit.2.1 hi.1.1 hi.2.1
      hv.1.1).mpr hmem
    have hline := remLine_length_lt (hname.ports_fit hi hv)
    have hstep : (vlanHalDelInterface E (some g) (some i) (some v) st).2 =
        st.system E (remLine i v g) := by
      simp [vlanHalDelInterface_given E g i hvlen,htest,hfound,cmdBuff_eq,hline]
    rw [hstep]
    refine (K.ports.detach st.os i v g hi.1.2 hv.1.2 hg).congr (fun h p => ?_)
    constructor
    · rintro ⟨hp,hne,_⟩
      exact ⟨hp,fun heq => hne heq.2⟩
    · rintro ⟨hp,hne⟩
      refine ⟨hp,?_,?_⟩
      · rintro rfl
        exact hne ⟨port_unique hp hmem,rfl⟩
      · rintro ⟨_,rfl⟩
        exact hall.dotted hi.2.1 h hp
  · rw [net_delInterface_absent K.listing st hfit hg hi.1 hi.2.1 hv.1 hvlen hmem]
    refine ⟨fun _ => Iff.rfl,fun _ => rfl,fun h p => ?_⟩
    refine ⟨fun hp => ⟨hp,?_⟩,fun hp => hp.1⟩
    rintro ⟨rfl,rfl⟩
    exact hmem hp

theorem deleteDecoded_portName {g i v : Str} (hi : DeviceName i) (hv : VlanTag v) (st : Hal σ) :
    deleteDecoded E g st (portName i v ++ ['\n']) =
      (vlanHalDelInterface E (some g) (some i) (some v) st).2 := by
  have hdec : sscanfPort (portName i v ++ ['\n']) = (i,v) := by
    rw [portName,List.append_assoc,List.cons_append,sscanfPort_dotted hi.1.1 hi.2.1 hv.1.2]
  rw [deleteDecoded,hdec]

theorem net_deleteLines (K : KernelTools E net) {g : Str} (hname : BridgeName g) {ps : List Str}
    (hps : ∀ p ∈ ps, ∃ i v, p = portName i v ∧ DeviceName i ∧ VlanTag v) {st : Hal σ}
    (hall : AllTagged (net st.os)) (hg : (net st.os).Has g)
    (htests : Tests E net g st.os) :
    Relabels (net st.os) (net ((ps.map (· ++ ['\n'])).foldl (deleteDecoded E g) st).os)
      (fun h p => p ∈ (net st.os).ports h ∧ ¬(h = g ∧ p ∈ ps)) := by
  induction ps generalizing st with
  | nil => exact ⟨fun _ => Iff.rfl,fun _ => rfl,fun h p => by simp⟩
  | cons q ps ih =>
    obtain ⟨i,v,rfl,hi,hv⟩ := hps q List.mem_cons_self
    have htest := htests.now.mpr hg
    have hfirst := net_delInterface K hall hg hname hi hv htest
    have hthin := hfirst.thins (fun _ _ hp => hp.1)
    rw [List.map_cons,List.foldl_cons,deleteDecoded_portName hi hv]
    have hissues := Call.issues E st (.delInterface (some g) (some i) (some v))
    have hrest := ih (fun p hp => hps p (List.mem_cons_of_mem _ hp)) (hall.thins hthin)
      ((hthin.has g).mpr hg) (htests.after hissues hthin)
    refine ⟨fun h => (hrest.has h).trans (hfirst.has h),fun h => (hrest.up h).trans (hfirst.up h),
      fun h p => ?_⟩
    rw [hrest.ports,hfirst.ports,List.mem_cons]
    tauto

theorem net_deleteEmpty (K : KernelTools E net) {st : Hal σ} (hall : AllTagged (net st.os))
    {b : Bridge} (hb : b ∈ (net st.os).bridges) (hempty : b.ports = []) (hname : BridgeName b.name)
    (htest : isThisGroupAvailableInLinuxBridge E (some b.name) st.os = true) :
    Relabels (net st.os)
      (net ((b.portLines.map (· ++ ['\n'])).foldl (deleteDecoded E b.name) st).os)
      (fun h p => p ∈ (net st.os).ports h) := by
  have hdel := net_deleteFlag (E := E) K.listing K.ports hb hempty htest hname.lines_fit.2.1
  simp only [Bridge.portLines,hempty,List.map_cons,List.map_nil,List.foldl_cons,List.foldl_nil]
  refine hdel.congr (fun h p => ⟨fun hp => hp.1,fun hp => ⟨hp,?_⟩⟩)
  rintro rfl
  exact hall.dotted (dot_not_mem_stpFlag b.stp) h hp

theorem net_deleteAll (K : KernelTools E net) {st : Hal σ} (hall : AllTagged (net st.os)) {g : Str}
    (hg : (net st.os).Has g) (hname : BridgeName g)
    (htests : Tests E net g st.os) :
    Relabels (net st.os) (net (vlanHalDeleteAllInterfaces E (some g) st).2.os)
      (fun h p => p ∈ (net st.os).ports h ∧ h ≠ g) := by
  have htest := htests.now.mpr hg
  obtain ⟨b,hb,rfl⟩ := hg
  have hbports : (net st.os).ports b.name = b.ports := by simp [BridgeTable.ports,find_eq hb]
  have hfit := hall.fits K.limits b.name
  have htagged := hall b.name
  rw [hbports] at hfit htagged
  rw [vlanHalDeleteAllInterfaces_lines K.listing hb hfit hname.lines_fit.2.1]
  have hports : ∀ h p, p ∈ (net st.os).ports h → (h = b.name ↔ h = b.name ∧ p ∈ b.ports) := by
    rintro h p hp
    refine ⟨?_,fun heq => heq.1⟩
    rintro rfl
    exact ⟨rfl,hbports ▸ hp⟩
  by_cases hempty : b.ports = []
  · refine (net_deleteEmpty K hall hb hempty hname htest).congr (fun h p => ?_)
    refine ⟨fun hp => ⟨hp,fun heq => ?_⟩,fun hp => hp.1⟩
    have hnone := ((hports h p hp).mp heq).2
    rw [hempty] at hnone
    cases hnone
  · have hlines : b.portLines = b.ports := by
      cases hp : b.ports with
      | nil => exact absurd hp hempty
      | cons p ps => simp [Bridge.portLines,hp]
    rw [hlines]
    refine (net_deleteLines K hname htagged hall ⟨b,hb,rfl⟩ htests).congr (fun h p => ?_)
    exact and_congr_right fun hp => not_congr (hports h p hp).symm

namespace Manager.Represents

variable {m : Manager} {st st' : Hal σ}

theorem allTagged (h : m.Represents net st) : AllTagged (net st.os) := fun _ _ hp => h.tagged hp

theorem dissolve_absent (h : m.Represents net st) {g : Str} (hg : ¬(net st.os).Has g) :
    m.release g = m ∧ m.dissolve g = m := by
  have hnone : m.default g = none := by
    cases hd : m.default g with
    | none => rfl
    | some d => exact absurd ((h.groups g).mpr (by simp [hd])) hg
  have howner : ∀ p, m.owner p ≠ some g := by
    rintro ⟨i,v⟩ hp
    exact hg (Has.of_port ((h.ports g _).mpr ⟨i,v,rfl,hp⟩))
  have hrelease : m.release g = m := by simp [release,howner]
  refine ⟨hrelease,?_⟩
  rw [dissolve,hrelease,← hnone,Function.update_eq_self]

theorem created (h : m.Represents net st) {g : Str} {d : Option Str} (hd : ∀ v ∈ d, VlanTag v)
    (hnone : m.default g = none)
    (hbridges : ∀ k, (net st'.os).Has k ↔ (net st.os).Has k ∨ k = g)
    (hports : ∀ k p, p ∈ (net st'.os).ports k ↔ p ∈ (net st.os).ports k)
    (hentries : st'.config.entries = st.config.entries ++ d.toList.map (fun v => ⟨g,v⟩)) :
    (⟨Function.update m.default g (some d),m.owner⟩ : Manager).Represents net st' := by
  have habsent : ∀ e ∈ st.config.entries, e.groupName ≠ g := by
    rintro ⟨k,v⟩ he rfl
    rw [h.entries,hnone] at he
    cases he
  refine ⟨fun k => ?_,fun k v => ?_,?_,fun k p => ?_,h.owners,fun k v hkv => ?_⟩
  · rw [hbridges,h.groups]
    by_cases hk : k = g <;> simp [hk]
  · rw [hentries,List.mem_append,h.entries]
    by_cases hk : k = g
    · subst hk
      simp [hnone]
    · simp [hk,Ne.symm hk]
  · rw [hentries,List.map_append,List.nodup_append]
    refine ⟨h.distinct,by cases d <;> simp,?_⟩
    intro a ha b hb hab
    obtain ⟨e,he,rfl⟩ := List.mem_map.mp ha
    refine habsent e he ?_
    cases d with
    | none => simp at hb
    | some v => simpa [hab] using hb
  · rw [hports,h.ports]
  · by_cases hk : k = g
    · subst hk
      exact hd v (by simpa using hkv)
    · exact h.tags k v (by simpa [hk] using hkv)

theorem addGroup (K : KernelTools E net) (h : m.Represents net st) {g : Str} {d : Option Str}
    (hg : BridgeName g) (hd : ∀ v ∈ d, VlanTag v)
    (htest : isThisGroupAvailableInLinuxBridge E (some g) st.os = true ↔ (net st.os).Has g)
    (hgrant : Call.Granted E net st (.addGroup (some g) d)) :
    (vlanHalAddGroup E (some g) d st).1 = .ok ∧
      (m.create g d).Represents net (vlanHalAddGroup E (some g) d st).2 := by
  by_cases hhas : (net st.os).Has g
  · rw [vlanHalAddGroup_found (htest.mpr hhas)]
    obtain ⟨x,hx⟩ := Option.isSome_iff_exists.mp ((h.groups g).mp hhas)
    rw [create_found hx]
    exact ⟨rfl,h⟩
  · obtain ⟨hnew,hmem⟩ := hgrant.resolve_left hhas
    have hnone : m.default g = none := by
      simpa [h.groups] using hhas
    have hglen := hg.2
    have hgroup := K.limits.groupName
    have hfield := K.limits.vlanID
    have hfit : (GroupCall.add g d).Fits E.limits := by
      cases d with
      | none => exact ⟨hg.1.1,by omega⟩
      | some v =>
        have hvlen := (hd v rfl).2
        exact ⟨⟨hg.1.1,by omega⟩,by omega⟩
    obtain ⟨hret,hos,hentries⟩ := vlanHalAddGroup_new hfit (fun ht => hhas (htest.mp ht))
    rw [cmdBuff_eq,if_pos hg.lines_fit.1] at hos
    have hadded : newEntries E g d st = d.toList.map (fun v => ⟨g,v⟩) := by
      cases d with
      | none => rfl
      | some v => simp [newEntries,hmem]
    rw [hadded] at hentries
    have hbridges : ∀ k, (net (E.host.system (addbrLine g) st.os)).Has k ↔
        (net st.os).Has k ∨ k = g := by
      rcases K.groups.addbr st.os g with hdone | hrefused
      · exact hdone
      · exact absurd ((hrefused g).mp hnew) hhas
    rw [create_new hnone]
    exact ⟨hret,h.created hd hnone (fun k => by rw [hos,hbridges])
      (fun k p => by rw [hos,K.addbr]) hentries⟩

theorem deleteAll (K : KernelTools E net) (h : m.Represents net st) {g : Str} (hg : BridgeName g)
    (htests : Tests E net g st.os) :
    (vlanHalDeleteAllInterfaces E (some g) st).1 = .ok ∧
      (m.release g).Represents net (vlanHalDeleteAllInterfaces E (some g) st).2 := by
  have hret : (vlanHalDeleteAllInterfaces E (some g) st).1 = .ok := by
    simp only [vlanHalDeleteAllInterfaces]
    split <;> rfl
  refine ⟨hret,?_⟩
  by_cases hhas : (net st.os).Has g
  · refine h.relabel (net_deleteAll K h.allTagged hhas hg htests)
      (vlanHalDeleteAllInterfaces_config E g st) rfl (fun k p => ?_) (fun i v k howner => ?_)
    · rw [h.ports]
      constructor
      · rintro ⟨⟨i,v,rfl,howner⟩,hne⟩
        exact ⟨i,v,rfl,release_eq_some.mpr ⟨howner,hne⟩⟩
      · rintro ⟨i,v,rfl,howner⟩
        obtain ⟨howner,hne⟩ := release_eq_some.mp howner
        exact ⟨⟨i,v,rfl,howner⟩,hne⟩
    · exact h.owners i v k (release_eq_some.mp howner).1
  · -- nothing is read as an interface of a group that is not found
    have htest : isThisGroupAvailableInLinuxBridge E (some g) st.os = false :=
      Bool.eq_false_iff.mpr (fun ht => hhas (htests.now.mp ht))
    have hdecoded : ∀ buf, deleteDecoded E g st buf = st := by
      intro buf
      simp [deleteDecoded,vlanHalDelInterface,htest]
    have hloop : ∀ bufs : List Str, bufs.foldl (deleteDecoded E g) st = st := by
      intro bufs
      induction bufs with
      | nil => rfl
      | cons buf bufs ih => rw [List.foldl_cons,hdecoded,ih]
    have hsame : (vlanHalDeleteAllInterfaces E (some g) st).2 = st := by
      simp only [vlanHalDeleteAllInterfaces]
      split
      · rfl
      · exact hloop _
    rwa [hsame,(h.dissolve_absent hhas).1]

theorem delGroup (K : KernelTools E net) (h : m.Represents net st) {g : Str} (hg : BridgeName g)
    (htests : Tests E net g st.os) :
    (vlanHalDelGroup E (some g) st).1 = .ok ∧
      (m.dissolve g).Represents net (vlanHalDelGroup E (some g) st).2 := by
  have hnow := htests.now
  by_cases hhas : (net st.os).Has g
  · have htest := hnow.mpr hhas
    obtain ⟨hdown,hdelbr⟩ := lines_fit K.listing hg.1.1 htest
    obtain ⟨_,hreleased⟩ := h.deleteAll K hg htests
    obtain ⟨hbridges,hports,hgone⟩ := net_removal (E := E) K.ports K.groups
      ((hreleased.groups g).mpr ((h.groups g).mp hhas))
    have hgone := hgone hdown hdelbr
    rw [vlanHalDelGroup_found htest]
    generalize (vlanHalDeleteAllInterfaces E (some g) st).2 = st' at *
    refine ⟨rfl,?_,?_,?_,?_,hreleased.owners,?_⟩
    · intro k
      by_cases hk : k = g
      · subst hk
        simp [hgone]
      · simpa [hk] using (hbridges k hk).trans (hreleased.groups k)
    · intro k v
      simp only [Hal.deleteEntry_entries,Hal.system_config,dissolve_default]
      rw [mem_eraseP_named hreleased.distinct,hreleased.entries]
      by_cases hk : k = g <;> simp [hk]
    · simp only [Hal.deleteEntry_entries,Hal.system_config]
      exact hreleased.distinct.sublist (List.eraseP_sublist.map _)
    · intro k p
      by_cases hk : k = g
      · subst hk
        simp only [Hal.deleteEntry_os,Hal.system_os]
        refine iff_of_false (fun hp => hgone (Has.of_port hp)) ?_
        rintro ⟨i,v,_,howner⟩
        exact (release_eq_some.mp howner).2 rfl
      · exact (hports k p hk).trans (hreleased.ports k p)
    · intro k v hkv
      by_cases hk : k = g
      · simp [hk] at hkv
      · rw [dissolve_default,Function.update_of_ne hk] at hkv
        exact h.tags k v hkv
  · have htest : isThisGroupAvailableInLinuxBridge E (some g) st.os = false :=
      Bool.eq_false_iff.mpr (fun ht => hhas (hnow.mp ht))
    have hsame : vlanHalDelGroup E (some g) st = (.ok,st) := by simp [vlanHalDelGroup,htest]
    rw [hsame,(h.dissolve_absent hhas).2]
    exact ⟨rfl,h⟩

theorem vlan_absent (h : m.Represents net st) {g : Str} (hg : ¬(net st.os).Has g)
    (v : Option Str) : m.vlan g v = none := by
  rw [h.groups,Option.not_isSome_iff_eq_none] at hg
  rw [vlan,hg,Option.bind_none]

theorem addInterface (K : KernelTools E net) (h : m.Represents net st) {g i : Str} {v : Option Str}
    (hg : BridgeName g) (hi : DeviceName i) (hv : ∀ u ∈ v, VlanTag u)
    (htest : isThisGroupAvailableInLinuxBridge E (some g) st.os = true ↔ (net st.os).Has g) :
    (vlanHalAddInterface E (some g) (some i) v st).1 = (m.onInterface attach g i v).1 ∧
      (m.onInterface attach g i v).2.Represents net
        (vlanHalAddInterface E (some g) (some i) v st).2 := by
  by_cases hhas : (net st.os).Has g
  · have hnot : ¬isThisGroupAvailableInLinuxBridge E (some g) st.os = false := by
      simp [htest.mpr hhas]
    simp only [vlanHalAddInterface,if_neg hnot,h.tempvlanID K.limits hhas hv,onInterface]
    cases hw : m.vlan g v with
    | none => exact ⟨rfl,h⟩
    | some w =>
      have htag := h.vlan_tag hv hw
      have havail := interfaceAvailable_iff K.listing (h.allTagged.fitting K.limits) hi.1.1 hi.2.1
        htag.1.1
      simp only [h.port_iff hi] at havail
      cases hown : m.owner (i,w) with
      | some k =>
        have hsame : m.attach g (i,w) = m := by rw [attach,hown]
        simp only [havail.mpr ⟨k,hown⟩,if_true,hsame]
        exact ⟨trivial,h⟩
      | none =>
        have hfree : ∀ k, portName i w ∉ (net st.os).ports k := by
          intro k hmem
          rw [h.port_iff hi,hown] at hmem
          cases hmem
        have hskip : ¬isThisInterfaceAvailableInLinuxBridge E (some i) (some w) st.os = true := by
          simp [havail,hown]
        have hadd := (net_addLine (E := E) K.ports hhas hi.1 htag.1 hfree).1 (hg.ports_fit hi htag)
        have hconf := Hal.system_config E st (cmdBuff E (addLine i w g))
        simp only [if_neg hskip]
        refine ⟨trivial,h.relabel hadd hconf (attach_default ..) (fun k p => ?_)
          (fun j u k howner => ?_)⟩
        · simp only [h.ports,attach_eq_some hown]
          constructor
          · rintro (⟨j,u,rfl,howner⟩ | ⟨rfl,rfl⟩)
            · exact ⟨j,u,rfl,Or.inl howner⟩
            · exact ⟨i,w,rfl,Or.inr ⟨rfl,rfl⟩⟩
          · rintro ⟨j,u,rfl,howner | ⟨rfl,hsame⟩⟩
            · exact Or.inl ⟨j,u,rfl,howner⟩
            · obtain ⟨rfl,rfl⟩ := Prod.mk.inj hsame
              exact Or.inr ⟨rfl,rfl⟩
        · rcases (attach_eq_some hown).mp howner with howner | ⟨_,hsame⟩
          · exact h.owners j u k howner
          · obtain ⟨rfl,rfl⟩ := Prod.mk.inj hsame
            exact ⟨hi,htag⟩
  · have hnot : isThisGroupAvailableInLinuxBridge E (some g) st.os = false :=
      Bool.eq_false_iff.mpr (fun ht => hhas (htest.mp ht))
    simp only [vlanHalAddInterface,if_pos hnot,onInterface,h.vlan_absent hhas]
    exact ⟨trivial,h⟩

theorem delInterface (K : KernelTools E net) (h : m.Represents net st) {g i : Str} {v : Option Str}
    (hg : BridgeName g) (hi : DeviceName i) (hv : ∀ u ∈ v, VlanTag u)
    (htest : isThisGroupAvailableInLinuxBridge E (some g) st.os = true ↔ (net st.os).Has g) :
    (vlanHalDelInterface E (some g) (some i) v st).1 = (m.onInterface detach g i v).1 ∧
      (m.onInterface detach g i v).2.Represents net
        (vlanHalDelInterface E (some g) (some i) v st).2 := by
  by_cases hhas : (net st.os).Has g
  · have ht := htest.mpr hhas
    have hid := h.tempvlanID (E := E) K.limits hhas hv
    rw [onInterface]
    cases hw : m.vlan g v with
    | none =>
      rw [hw] at hid
      simp only [vlanHalDelInterface,hid,ite_self]
      exact ⟨trivial,h⟩
    | some w =>
      have htag := h.vlan_tag hv hw
      have hgiven : vlanHalDelInterface E (some g) (some i) v st =
          vlanHalDelInterface E (some g) (some i) (some w) st := by
        have hsome := h.tempvlanID (E := E) (v := some w) K.limits hhas (by simpa using htag)
        obtain ⟨d,hd⟩ := Option.isSome_iff_exists.mp ((h.groups g).mp hhas)
        have hw' : m.vlan g (some w) = some w := by simp [vlan,hd]
        simp only [vlanHalDelInterface,hid,hw,hsome,hw']
      have hret : (vlanHalDelInterface E (some g) (some i) (some w) st).1 = .ok := by
        have hvlen := htag.2
        have hfield := K.limits.vlanID
        rw [vlanHalDelInterface_given E g i (by omega),ht]
        simp only [Bool.true_eq_false,if_false]
        split <;> rfl
      have hconf : (vlanHalDelInterface E (some g) (some i) (some w) st).2.config = st.config := by
        rcases vlanHalDelInterface_cases E g i w st with hcase | hcase <;> rw [hcase]
        rfl
      have hdel := net_delInterface K h.allTagged hhas hg hi htag ht
      rw [hgiven]
      refine ⟨hret,h.relabel hdel hconf (detach_default ..) (fun k p => ?_)
        (fun j u k howner => ?_)⟩
      · simp only [h.ports,detach_eq_some]
        constructor
        · rintro ⟨⟨j,u,rfl,howner⟩,hne⟩
          refine ⟨j,u,rfl,howner,?_⟩
          rintro ⟨rfl,⟨⟩⟩
          exact hne ⟨rfl,rfl⟩
        · rintro ⟨j,u,rfl,howner,hne⟩
          refine ⟨⟨j,u,rfl,howner⟩,?_⟩
          rintro ⟨rfl,hname⟩
          obtain ⟨rfl,rfl⟩ := portName_inj (h.owners j u k howner).1.2.1 hi.2.1 hname
          exact hne ⟨rfl,rfl⟩
      · exact h.owners j u k (detach_eq_some.mp howner).1
  · have hnot : isThisGroupAvailableInLinuxBridge E (some g) st.os = false :=
      Bool.eq_false_iff.mpr (fun ht => hhas (htest.mp ht))
    simp only [vlanHalDelInterface,if_pos hnot,onInterface,h.vlan_absent hhas]
    exact ⟨trivial,h⟩

theorem print (h : m.Represents net st) {line : Str}
    (hline : net (E.host.system line st.os) = net st.os) :
    m.Represents net (st.system E line) := by
  refine ⟨?_,h.entries,h.distinct,?_,h.owners,h.tags⟩
  · rw [Hal.system_os,hline]
    exact h.groups
  · rw [Hal.system_os,hline]
    exact h.ports

theorem step (K : KernelTools E net) (h : m.Represents net st) {c : Call} (hadm : c.Admitted)
    (hjudged : c.Judged E net st) (hgrant : c.Granted E net st) :
    (c.perform E st).1 = (m.perform c).1 ∧
      (m.perform c).2.Represents net (c.perform E st).2 := by
  have htest : ∀ g ∈ c.group,
      (isThisGroupAvailableInLinuxBridge E (some g) st.os = true ↔ (net st.os).Has g) :=
    fun g hg => (hjudged g hg).now
  cases c with
  | addGroup g d =>
    cases g with
    | none => exact ⟨rfl,h⟩
    | some g => exact h.addGroup K (hadm.group g rfl) hadm.tag (htest g rfl) hgrant
  | delGroup g =>
    cases g with
    | none => exact ⟨rfl,h⟩
    | some g => exact h.delGroup K (hadm.group g rfl) (hjudged g rfl)
  | addInterface g i v =>
    cases g with
    | none => exact ⟨rfl,h⟩
    | some g =>
      cases i with
      | none => exact ⟨rfl,h⟩
      | some i =>
        exact h.addInterface K (hadm.group g rfl) (hadm.device i rfl) hadm.tag (htest g rfl)
  | delInterface g i v =>
    cases g with
    | none => exact ⟨rfl,h⟩
    | some g =>
      cases i with
      | none => exact ⟨rfl,h⟩
      | some i =>
        exact h.delInterface K (hadm.group g rfl) (hadm.device i rfl) hadm.tag (htest g rfl)
  | printGroup g =>
    cases g with
    | none => exact ⟨rfl,h⟩
    | some g =>
      have hg := hadm.group g rfl
      refine ⟨rfl,h.print ?_⟩
      rw [cmdBuff_eq,if_pos hg.lines_fit.2.2]
      exact K.print st.os g hg
  | printAllGroup =>
    refine ⟨rfl,h.print ?_⟩
    rw [E.lib.strcpyS_fits _ _ (by decide)]
    exact K.printAll st.os
  | deleteAllInterfaces g =>
    cases g with
    | none => exact ⟨rfl,h⟩
    | some g => exact h.deleteAll K (hadm.group g rfl) (hjudged g rfl)

theorem empty (st : Hal σ) (hnet : (net st.os).bridges = []) (hconf : st.config.entries = []) :
    Manager.empty.Represents net st where
  groups g := by simp [Has,hnet,Manager.empty]
  entries g v := by simp [hconf,Manager.empty]
  distinct := by simp [hconf]
  ports g p := by simp [mem_ports,hnet,Manager.empty]
  owners i v g howner := by cases howner
  tags g v hd := by cases hd

end Manager.Represents

/-- A call with names that the kernel takes, about whose group the test is right, and which gets
what it needs. -/
structure Call.Sound (E : Env σ) (net : σ → BridgeTable) (st : Hal σ) (c : Call) : Prop where
  admitted : c.Admitted
  judged : c.Judged E net st
  granted : c.Granted E net st

theorem Manager.Represents.run (K : KernelTools E net) {m : Manager} {st : Hal σ}
    (h : m.Represents net st) {calls : List Call}
    (hcalls : Along (next (Call.perform E)) (Call.Sound E net) st calls) :
    answers (Call.perform E) st calls = answers Manager.perform m calls ∧
      (run (next Manager.perform) m calls).Represents net
        (run (next (Call.perform E)) st calls) := by
  refine refines (R := fun st (m : Manager) => m.Represents net st) ?_ h hcalls
  exact fun st m c h hc => h.step K hc.admitted hc.judged hc.granted

theorem BridgeTable.addBridge_has {t : BridgeTable} {g : Str} (hg : Word g) (hlen : g.length < 16) :
    (t.addBridge g).Has g := by
  by_cases hhas : t.Has g
  · rw [addBridge,dif_neg (fun h => h.2 hhas)]
    exact hhas
  · rw [addBridge,dif_pos ⟨⟨hg,hlen⟩,hhas⟩]
    exact ⟨⟨g,"8000.000000000000".toList,false,false,[]⟩,by simp,rfl⟩

theorem BridgeTable.addBridge_ports (t : BridgeTable) (g h p : Str) :
    p ∈ (t.addBridge g).ports h ↔ p ∈ t.ports h := by
  by_cases hcond : (Word g ∧ g.length < 16) ∧ ¬t.Has g
  · simp only [mem_ports,addBridge,dif_pos hcond,List.mem_append,List.mem_singleton]
    constructor
    · rintro ⟨b,hb | rfl,hname,hp⟩
      · exact ⟨b,hb,hname,hp⟩
      · cases hp
    · rintro ⟨b,hb,hname,hp⟩
      exact ⟨b,Or.inl hb,hname,hp⟩
  · rw [addBridge,dif_neg hcond]

theorem runLine_brShow (g : Str) (t : BridgeTable) : runLine (brShowLine g) t = t := by
  have h : brShowLine g = "brctl".toList ++ ' ' :: ("show".toList ++ ' ' :: g) := rfl
  rw [runLine,h,splitOn_cons (by decide),splitOn_cons (by decide)]
  rfl

theorem linuxEnv_tools (grep : Str → BridgeTable → Str) : KernelTools (linuxEnv grep) id where
  limits := (⟨by decide,by decide,by decide,by decide⟩ : KernelLimits Limits.reference)
  listing := linuxHost_show grep
  ports := linuxHost_ports grep
  groups := linuxHost_groups grep
  addbr t g h p := by
    show p ∈ (runLine (addbrLine g) t).ports h ↔ _
    rw [runLine_addbr]
    rcases hs : g.splitOn ' ' with _ | ⟨w,_ | ⟨x,xs⟩⟩
    · rfl
    · exact t.addBridge_ports w h p
    · rfl
  print t g _ := runLine_brShow g t
  printAll t := by
    show runLine "brctl show".toList t = t
    rw [runLine,(by decide : "brctl show".toList.splitOn ' ' = ["brctl".toList,"show".toList])]
    rfl

theorem linuxEnv_granted (grep : Str → BridgeTable → Str) {c : Call} (hadm : c.Admitted)
    (st : Hal BridgeTable) : c.Granted (linuxEnv grep) id st := by
  cases c with
  | addGroup g d =>
    cases g with
    | none => trivial
    | some g =>
      have hg := hadm.group g rfl
      have hlen := hg.2
      refine Or.inr ⟨?_,fun _ => rfl⟩
      show (runLine (addbrLine g) st.os).Has g
      rw [runLine_addbr,splitOn_word (hg.1.not_mem (by decide))]
      exact BridgeTable.addBridge_has hg.1 (by omega)
  | _ => trivial

theorem linuxHal_empty : Manager.empty.Represents id (linuxHal BridgeTable.empty) :=
  Manager.Represents.empty _ rfl rfl

end RdkHal.Vlan
