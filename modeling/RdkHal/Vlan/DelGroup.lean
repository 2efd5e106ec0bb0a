import RdkHal.Vlan.LinuxHost

/-! Deleting a group: the loop over the printed lines of a snapshot, on a table that each of
its steps changes, and the two lines that remove the bridge. -/

set_option autoImplicit false

namespace RdkHal.Vlan
open Text BridgeTable

variable {σ : Type} {E : Env σ} {net : σ → BridgeTable}

structure Thins (t t' : BridgeTable) : Prop where
  has : ∀ h, t'.Has h ↔ t.Has h
  up : ∀ h, t'.isUp h = t.isUp h
  ports : ∀ h p, p ∈ t'.ports h → p ∈ t.ports h

theorem Thins.refl (t : BridgeTable) : Thins t t := ⟨fun _ => Iff.rfl,fun _ => rfl,fun _ _ => id⟩

theorem Thins.trans {t t' t'' : BridgeTable} (h : Thins t t') (h' : Thins t' t'') : Thins t t'' :=
  ⟨fun g => (h'.has g).trans (h.has g),fun g => (h'.up g).trans (h.up g),
    fun g p hp => h.ports g p (h'.ports g p hp)⟩

theorem Relabels.thins {t t' : BridgeTable} {keep : Str → Str → Prop} (h : Relabels t t' keep)
    (hkeep : ∀ g p, keep g p → p ∈ t.ports g) : Thins t t' :=
  ⟨h.has,h.up,fun g p hp => hkeep g p ((h.ports g p).mp hp)⟩

theorem net_remLine_thins (hports : PortTools E.host net) {s : σ} {g i v : Str}
    (hg : (net s).Has g)
    (hargs : (NoSpace i ∧ NoSpace v) ∨ ∃ w, NoSpace w ∧ i = w ++ ['\n'] ∧ v = []) :
    Thins (net s) (net (E.host.system (cmdBuff E (remLine i v g)) s)) := by
  rw [cmdBuff_eq]
  by_cases hline : (remLine i v g).length < 128
  · rw [if_pos hline]
    rcases hargs with ⟨hi,hv⟩ | ⟨w,hw,rfl,rfl⟩
    · exact (hports.detach s i v g hi hv hg).thins (fun _ _ h => h.1)
    · exact (hports.detachNewline s w g hw hg).thins (fun _ _ h => h.1)
  · rw [if_neg hline,hports.idle]
    exact Thins.refl _

theorem noSpace_strcpyS (lib : Safec) (n : Nat) {v : Str} (hv : NoSpace v) :
    NoSpace (lib.strcpyS n v).2 := by
  rw [lib.strcpyS_text]
  by_cases h : v.length < n
  · rwa [if_pos h]
  · rw [if_neg h]
    exact noSpace_nil

theorem deleteDecoded_thins (hports : PortTools E.host net) {g : Str} {st : Hal σ}
    (hg : (net st.os).Has g) {buf : Str} (hbuf : Chunk buf) :
    Thins (net st.os) (net (deleteDecoded E g st buf).os) ∧
      (deleteDecoded E g st buf).config = st.config := by
  rcases vlanHalDelInterface_cases E g (sscanfPort buf).1 (sscanfPort buf).2 st with hcase | hcase
  · rw [deleteDecoded,hcase]
    exact ⟨Thins.refl _,rfl⟩
  · rw [deleteDecoded,hcase]
    refine ⟨net_remLine_thins hports hg ?_,rfl⟩
    rcases sscanfPort_chunk hbuf with ⟨hi,hv⟩ | ⟨w,hw,hdec⟩
    · exact Or.inl ⟨hi,noSpace_strcpyS E.lib _ hv⟩
    · exact Or.inr ⟨w,hw,by rw [hdec],by rw [hdec,E.lib.strcpyS_nil]⟩

theorem foldl_deleteDecoded_thins (hports : PortTools E.host net) {g : Str} {bufs : List Str}
    (hbufs : ∀ buf ∈ bufs, Chunk buf) {st : Hal σ} (hg : (net st.os).Has g) :
    Thins (net st.os) (net (bufs.foldl (deleteDecoded E g) st).os) ∧
      (bufs.foldl (deleteDecoded E g) st).config = st.config := by
  induction bufs generalizing st with
  | nil => exact ⟨Thins.refl _,rfl⟩
  | cons buf bufs ih =>
    obtain ⟨hthin,hconf⟩ := deleteDecoded_thins (E := E) hports hg (hbufs buf (by simp))
    obtain ⟨hthin',hconf'⟩ := ih (fun b hb => hbufs b (List.mem_cons_of_mem _ hb))
      ((hthin.has g).mpr hg)
    exact ⟨hthin.trans hthin',hconf'.trans hconf⟩

theorem vlanHalDeleteAllInterfaces_reads (hshow : ShowTools E.host net) {g : Str} {st : Hal σ}
    (hg : (net st.os).Has g) : ∃ bufs : List Str, (∀ buf ∈ bufs, Chunk buf) ∧
      (vlanHalDeleteAllInterfaces E (some g) st).2 = bufs.foldl (deleteDecoded E g) st := by
  obtain ⟨b,hb,rfl⟩ := hg
  have hw : ∀ p ∈ b.ports, Word p := ((net st.os).words b hb).2.2
  by_cases hline : (showLine b.name).length < 128
  · refine ⟨fgetsAll E.limits.line (lastFields [b]),?_,?_⟩
    · rw [lastFields_eq (by simpa using hw),List.flatMap_singleton]
      exact fgetsAll_chunk _ (fun l hl => (word_portLines hw hl).2)
    · simp only [vlanHalDeleteAllInterfaces,popen_showLine hshow hb hline]
  · refine ⟨[],by simp,?_⟩
    simp [vlanHalDeleteAllInterfaces,cmdBuff_eq,hline,hshow.silent,fgetsAll,fgetsFuel]

theorem vlanHalDeleteAllInterfaces_thins (hshow : ShowTools E.host net)
    (hports : PortTools E.host net) {g : Str} {st : Hal σ} (hg : (net st.os).Has g) :
    Thins (net st.os) (net (vlanHalDeleteAllInterfaces E (some g) st).2.os) ∧
      (vlanHalDeleteAllInterfaces E (some g) st).2.config = st.config := by
  obtain ⟨bufs,hbufs,hloop⟩ := vlanHalDeleteAllInterfaces_reads (E := E) hshow hg
  rw [hloop]
  exact foldl_deleteDecoded_thins hports hbufs hg

theorem net_removal (hports : PortTools E.host net) (hgroups : GroupTools E.host net) {s : σ}
    {g : Str} (hg : (net s).Has g) :
    let s' := E.host.system (cmdBuff E (delbrLine g)) (E.host.system (cmdBuff E (downLine g)) s)
    (∀ h, h ≠ g → ((net s').Has h ↔ (net s).Has h)) ∧
    (∀ h p, h ≠ g → (p ∈ (net s').ports h ↔ p ∈ (net s).ports h)) ∧
    ((downLine g).length < 128 → (delbrLine g).length < 128 → ¬(net s').Has g) := by
  intro s'
  have hdown : (∀ h, (net (E.host.system (cmdBuff E (downLine g)) s)).Has h ↔ (net s).Has h) ∧
      (∀ h p, p ∈ (net (E.host.system (cmdBuff E (downLine g)) s)).ports h ↔
        p ∈ (net s).ports h) ∧
      ((downLine g).length < 128 →
        (net (E.host.system (cmdBuff E (downLine g)) s)).isUp g = false) := by
    rw [cmdBuff_eq]
    by_cases hline : (downLine g).length < 128
    · obtain ⟨hhas,hsame,hup⟩ := hgroups.down s g hg
      rw [if_pos hline]
      exact ⟨hhas,hsame,fun _ => hup⟩
    · rw [if_neg hline,hports.idle]
      exact ⟨fun _ => Iff.rfl,fun _ _ => Iff.rfl,fun h => absurd h hline⟩
  obtain ⟨hhas,hsame,hup⟩ := hdown
  have hdelbr := hgroups.delbr (E.host.system (cmdBuff E (downLine g)) s) g ((hhas g).mpr hg)
  by_cases hline : (delbrLine g).length < 128
  · have hs' : s' = E.host.system (delbrLine g) (E.host.system (cmdBuff E (downLine g)) s) := by
      simp only [s',cmdBuff_eq E (delbrLine g),hline,if_true]
    obtain ⟨hhas',hsame',hgone⟩ := hdelbr
    rw [← hs'] at hhas' hsame' hgone
    exact ⟨fun h hne => (hhas' h hne).trans (hhas h),
      fun h p hne => (hsame' h p hne).trans (hsame h p),fun hd _ => hgone (hup hd)⟩
  · have hs' : net s' = net (E.host.system (cmdBuff E (downLine g)) s) := by
      simp only [s',cmdBuff_eq E (delbrLine g),hline,if_false,hports.idle]
    rw [hs']
    exact ⟨fun h _ => hhas h,fun h p _ => hsame h p,fun _ h => absurd h hline⟩

theorem vlanHalDelGroup_found {g : Str} {st : Hal σ}
    (htest : isThisGroupAvailableInLinuxBridge E (some g) st.os = true) :
    vlanHalDelGroup E (some g) st = (.ok,
      (((vlanHalDeleteAllInterfaces E (some g) st).2.system E (cmdBuff E (downLine g))).system E
        (cmdBuff E (delbrLine g))).deleteEntry g) := by
  simp [vlanHalDelGroup,htest]

theorem vlanHalDelGroup_keeps (hshow : ShowTools E.host net) (hports : PortTools E.host net)
    (hgroups : GroupTools E.host net) {g : Str} {st : Hal σ}
    (htest : isThisGroupAvailableInLinuxBridge E (some g) st.os = true)
    (hg : (net st.os).Has g) :
    (∀ h, h ≠ g → ((net (vlanHalDelGroup E (some g) st).2.os).Has h ↔ (net st.os).Has h)) ∧
    (vlanHalDelGroup E (some g) st).2.config.entries = st.config.entries.eraseP (named g) := by
  obtain ⟨hthin,hconf⟩ := vlanHalDeleteAllInterfaces_thins hshow hports hg
  obtain ⟨hhas,_,_⟩ := net_removal (E := E) hports hgroups ((hthin.has g).mpr hg)
  rw [vlanHalDelGroup_found htest]
  refine ⟨fun h hne => (hhas h hne).trans (hthin.has h),?_⟩
  simp [hconf]

/-! The exact effect on the other groups, where the ports are VLAN devices -/

def VlanDevice (p : Str) : Prop := '.' ∈ p.tail.dropLast

instance (p : Str) : Decidable (VlanDevice p) := inferInstanceAs (Decidable (_ ∈ _))

/-- The name that `sscanf` cannot decode: it starts with the dot. -/
def Undecoded (p : Str) : Prop := p.head? = some '.'

instance (p : Str) : Decidable (Undecoded p) := inferInstanceAs (Decidable (_ = _))

theorem VlanDevice.cases {p : Str} (h : VlanDevice p) :
    (Undecoded p ∧ p ≠ ['.']) ∨ ∃ i v, i ≠ [] ∧ '.' ∉ i ∧ p = portName i v := by
  rcases dot_cases p with hplain | ⟨rest,rfl⟩ | ⟨i,v,hi,hdot,rfl⟩
  · exact absurd (List.mem_of_mem_tail (List.mem_of_mem_dropLast h)) hplain
  · refine Or.inl ⟨rfl,?_⟩
    rintro ⟨⟩
    simp [VlanDevice] at h
  · exact Or.inr ⟨i,v,hi,hdot,rfl⟩

/-- What the loop keeps, `t` being the table it started on: the ports of the other groups, but
for a device named by the dot alone once a name has not been decoded. -/
structure LoopInv (t : BridgeTable) (g : Str) (seen : Prop) (t' : BridgeTable) : Prop where
  thins : Thins t t'
  undecoded : ∀ p ∈ t.ports g, Undecoded p → p ≠ ['.'] → p ∈ t'.ports g
  others : ∀ h p, h ≠ g → (p ∈ t'.ports h ↔ p ∈ t.ports h ∧ ¬(p = ['.'] ∧ seen))

theorem LoopInv.start (t : BridgeTable) (g : Str) : LoopInv t g False t :=
  ⟨Thins.refl t,fun _ hp _ _ => hp,fun _ _ _ => by simp⟩

theorem LoopInv.detach {t t' t'' : BridgeTable} {g i v : Str} {seen seen' : Prop}
    (h : LoopInv t g seen t')
    (hdet : Relabels t' t'' (fun k p => p ∈ t'.ports k ∧ p ≠ portName i v ∧ ¬(k = g ∧ p = i)))
    (hkept : ∀ p, Undecoded p → p ≠ ['.'] → p ≠ portName i v ∧ p ≠ i)
    (hothers : ∀ k p, k ≠ g → p ∈ t.ports k →
      (¬(p = ['.'] ∧ seen) ∧ p ≠ portName i v ↔ ¬(p = ['.'] ∧ seen'))) :
    LoopInv t g seen' t'' := by
  refine ⟨h.thins.trans (hdet.thins (fun _ _ hk => hk.1)),?_,?_⟩
  · intro p hp hun hne
    obtain ⟨hname,hbare⟩ := hkept p hun hne
    exact (hdet.ports g p).mpr ⟨h.undecoded p hp hun hne,hname,fun heq => hbare heq.2⟩
  · intro k p hk
    rw [hdet.ports k p,h.others k p hk]
    constructor
    · rintro ⟨⟨hp,hseen⟩,hname,_⟩
      exact ⟨hp,(hothers k p hk hp).mp ⟨hseen,hname⟩⟩
    · rintro ⟨hp,hseen'⟩
      obtain ⟨hseen,hname⟩ := (hothers k p hk hp).mpr hseen'
      exact ⟨⟨hp,hseen⟩,hname,fun heq => hk heq.1⟩

theorem not_undecoded_portName {i v : Str} (hi : i ≠ []) (hdot : '.' ∉ i) :
    ¬Undecoded (portName i v) ∧ ¬Undecoded i := by
  cases i with
  | nil => exact absurd rfl hi
  | cons c i =>
    simp only [List.mem_cons,not_or] at hdot
    have hc : c ≠ '.' := fun h => hdot.1 h.symm
    simp [Undecoded,portName,hc]

theorem LoopInv.decoded {t : BridgeTable} {g : Str} {seen : Prop} {st : Hal σ}
    (hports : PortTools E.host net) (hg : t.Has g) (h : LoopInv t g seen (net st.os))
    {i v : Str} (hi : i ≠ []) (hdot : '.' ∉ i) (hp : portName i v ∈ t.ports g)
    (hv : v.length < E.limits.vlanID) :
    LoopInv t g seen (net (deleteDecoded E g st (portName i v ++ ['\n'])).os) := by
  have hns : NoSpace i ∧ NoSpace v := by
    have hword := (port_word hp).2
    simp only [portName,noSpace_append,noSpace_cons] at hword
    exact ⟨hword.1,hword.2.2⟩
  have hdec : sscanfPort (portName i v ++ ['\n']) = (i,v) := by
    rw [portName,List.append_assoc,List.cons_append,sscanfPort_dotted hi hdot hns.2]
  have hcopy : (E.lib.strcpyS E.limits.vlanID v).2 = v := by rw [E.lib.strcpyS_fits _ _ hv]
  have hcases := vlanHalDelInterface_cases E g i v st
  rw [hcopy,cmdBuff_eq] at hcases
  simp only [deleteDecoded,hdec]
  rcases hcases with hcase | hcase
  · rwa [hcase]
  rw [hcase,Hal.system_os]
  by_cases hline : (remLine i v g).length < 128
  · rw [if_pos hline]
    have hdet := hports.detach st.os i v g hns.1 hns.2 ((h.thins.has g).mpr hg)
    obtain ⟨hname,hbare⟩ := not_undecoded_portName (v := v) hi hdot
    refine h.detach hdet ?_ ?_
    · intro p hun _
      refine ⟨?_,?_⟩
      · rintro rfl
        exact hname hun
      · rintro rfl
        exact hbare hun
    · intro k p hk hpk
      have hne : p ≠ portName i v := by
        rintro rfl
        exact hk (port_unique hpk hp)
      simp [hne]
  · rwa [if_neg hline,hports.idle]

theorem interfaceInGiven_undecoded (hshow : ShowTools E.host net) {s : σ} {g p : Str}
    (hfit : ∀ q ∈ (net s).ports g, PortFits E.limits q) (hline : (showLine g).length < 128)
    (hp : p ∈ (net s).ports g) (hun : Undecoded p) :
    isThisInterfaceAvailableInGivenLinuxBridge E (some []) (some g) (some []) s = true := by
  obtain ⟨b,hb,rfl,hpb⟩ := mem_ports.mp hp
  have hports : (net s).ports b.name = b.ports := by simp [BridgeTable.ports,find_eq hb]
  have hw : ∀ q ∈ b.ports, Word q := ((net s).words b hb).2.2
  rw [hports] at hfit
  simp only [isThisInterfaceAvailableInGivenLinuxBridge,popen_showLine hshow hb hline]
  rw [fgetsAll_bridge hw hfit,any_lines]
  obtain ⟨rest,rfl⟩ : ∃ rest, p = '.' :: rest := by
    cases p with
    | nil => simp [Undecoded] at hun
    | cons c rest => exact ⟨rest,by rw [Option.some.inj hun]⟩
  refine ⟨'.' :: rest,?_,sscanfPort_head _⟩
  cases hlist : b.ports with
  | nil => simp [hlist] at hpb
  | cons q qs => simpa only [Bridge.portLines,hlist] using hpb

theorem LoopInv.notDecoded {t : BridgeTable} {g : Str} {seen : Prop} {st : Hal σ}
    (hshow : ShowTools E.host net) (hports : PortTools E.host net) (hg : t.Has g)
    (hexact : ∀ s, isThisGroupAvailableInLinuxBridge E (some g) s = true ↔ (net s).Has g)
    (hfit : ∀ p ∈ t.ports g, PortFits E.limits p) (hline : (showLine g).length < 128)
    (h : LoopInv t g seen (net st.os)) {p : Str} (hp : p ∈ t.ports g) (hun : Undecoded p)
    (hne : p ≠ ['.']) :
    LoopInv t g True (net (deleteDecoded E g st (p ++ ['\n'])).os) := by
  have hg' : (net st.os).Has g := (h.thins.has g).mpr hg
  have htest : isThisGroupAvailableInLinuxBridge E (some g) st.os = true := (hexact st.os).mpr hg'
  have hfound := interfaceInGiven_undecoded (E := E) hshow
    (fun q hq => hfit q (h.thins.ports g q hq)) hline (h.undecoded p hp hun hne) hun
  have hdec : sscanfPort (p ++ ['\n']) = ([],[]) := by
    cases p with
    | nil => simp [Undecoded] at hun
    | cons c rest =>
      rw [Option.some.inj hun,List.cons_append,sscanfPort_head]
  have hshort : (remLine [] [] g).length < 128 := by
    simp [remLine_eq]
    simp [showLine_eq] at hline
    omega
  have hstep : (deleteDecoded E g st (p ++ ['\n'])).os = E.host.system (remLine [] [] g) st.os := by
    have hempty : tempvlanID E g (some []) st.config = some [] := by
      simp [tempvlanID]
    simp [deleteDecoded,hdec,vlanHalDelInterface,htest,hempty,hfound,cmdBuff_eq,hshort]
  rw [hstep]
  have hdet := hports.detach st.os [] [] g noSpace_nil noSpace_nil hg'
  have hname : portName [] [] = ['.'] := rfl
  refine h.detach hdet ?_ ?_
  · intro q hunq hneq
    refine ⟨hneq,?_⟩
    rintro rfl
    simp [Undecoded] at hunq
  · intro k q _ _
    rw [hname]
    by_cases hq : q = ['.'] <;> simp [hq]

theorem LoopInv.loop {t : BridgeTable} {g : Str} (hshow : ShowTools E.host net)
    (hports : PortTools E.host net) (hg : t.Has g)
    (hexact : ∀ s, isThisGroupAvailableInLinuxBridge E (some g) s = true ↔ (net s).Has g)
    (hfit : ∀ p ∈ t.ports g, PortFits E.limits p) (hline : (showLine g).length < 128)
    {ps : List Str} (hps : ∀ p ∈ ps, p ∈ t.ports g ∧ VlanDevice p) {seen : Prop} {st : Hal σ}
    (h : LoopInv t g seen (net st.os)) :
    LoopInv t g (seen ∨ ∃ p ∈ ps, Undecoded p)
      (net ((ps.map (· ++ ['\n'])).foldl (deleteDecoded E g) st).os) := by
  -- the lines still to be read; `seen` records whether one before them was not decoded
  induction ps generalizing seen st with
  | nil => simpa using h
  | cons p ps ih =>
    obtain ⟨hp,hvlan⟩ := hps p (by simp)
    have hrest : ∀ q ∈ ps, q ∈ t.ports g ∧ VlanDevice q := fun q hq =>
      hps q (List.mem_cons_of_mem _ hq)
    rcases hvlan.cases with ⟨hun,hne⟩ | ⟨i,v,hi,hdot,rfl⟩
    · have hstep := LoopInv.notDecoded hshow hports hg hexact hfit hline h hp hun hne
      simpa [hun] using ih hrest hstep
    · have hstep := h.decoded hports hg hi hdot hp (portFits_portName hdot (hfit _ hp))
      have hun := (not_undecoded_portName (v := v) hi hdot).1
      simpa [hun] using ih hrest hstep

theorem net_deleteFlag (hshow : ShowTools E.host net) (hports : PortTools E.host net)
    {st : Hal σ} {b : Bridge} (hb : b ∈ (net st.os).bridges) (hempty : b.ports = [])
    (htest : isThisGroupAvailableInLinuxBridge E (some b.name) st.os = true)
    (hline : (showLine b.name).length < 128) :
    Relabels (net st.os) (net (deleteDecoded E b.name st (stpFlag b.stp ++ ['\n'])).os)
      (fun h p => p ∈ (net st.os).ports h ∧ p ≠ stpFlag b.stp) := by
  have hword := word_stpFlag b.stp
  have hdec : sscanfPort (stpFlag b.stp ++ ['\n']) = (stpFlag b.stp ++ ['\n'],[]) :=
    sscanfPort_plain (by simp) (by simpa using dot_not_mem_stpFlag b.stp)
  have hfound : isThisInterfaceAvailableInGivenLinuxBridge E (some (stpFlag b.stp ++ ['\n']))
      (some b.name) (some []) st.os = true := by
    simp only [isThisInterfaceAvailableInGivenLinuxBridge,popen_showLine hshow hb hline]
    rw [fgetsAll_bridge (by simp [hempty]) (by simp [hempty]),any_lines]
    exact ⟨stpFlag b.stp,by simp [Bridge.portLines,hempty],hdec⟩
  have hshort : (remLine (stpFlag b.stp ++ ['\n']) [] b.name).length < 128 := by
    have hflag : (stpFlag b.stp).length ≤ 3 := by cases b.stp <;> decide
    simp [remLine_eq]
    simp [showLine_eq] at hline
    omega
  have hstep : (deleteDecoded E b.name st (stpFlag b.stp ++ ['\n'])).os =
      E.host.system (remLine (stpFlag b.stp ++ ['\n']) [] b.name) st.os := by
    have hcopy : tempvlanID E b.name (some []) st.config = some [] := by simp [tempvlanID]
    simp [deleteDecoded,hdec,vlanHalDelInterface,htest,hcopy,hfound,cmdBuff_eq,hshort]
  rw [hstep]
  exact hports.detachNewline st.os (stpFlag b.stp) b.name hword.2 ⟨b,hb,rfl⟩

def BridgeTable.flag (t : BridgeTable) (g : Str) : Str :=
  match t.find g with
  | some b => stpFlag b.stp
  | none => []

/-- Where the listing can be asked for, the loop spares the other groups exactly when none of
them has a device named by the flag of the empty group, or by the dot alone. -/
def Spared (t : BridgeTable) (g : Str) : Prop :=
  (t.ports g = [] → ∀ h, h ≠ g → t.flag g ∉ t.ports h) ∧
  ((∃ p ∈ t.ports g, Undecoded p) → ∀ h, h ≠ g → ['.'] ∉ t.ports h)

theorem vlanHalDeleteAllInterfaces_lines (hshow : ShowTools E.host net) {b : Bridge} {st : Hal σ}
    (hb : b ∈ (net st.os).bridges) (hfit : ∀ p ∈ b.ports, PortFits E.limits p)
    (hline : (showLine b.name).length < 128) :
    (vlanHalDeleteAllInterfaces E (some b.name) st).2 =
      (b.portLines.map (· ++ ['\n'])).foldl (deleteDecoded E b.name) st := by
  simp only [vlanHalDeleteAllInterfaces,popen_showLine hshow hb hline]
  rw [fgetsAll_bridge ((net st.os).words b hb).2.2 hfit]

theorem loop_empty_spares_iff (hshow : ShowTools E.host net) (hports : PortTools E.host net)
    {b : Bridge} {st : Hal σ} (hb : b ∈ (net st.os).bridges) (hempty : b.ports = [])
    (htest : isThisGroupAvailableInLinuxBridge E (some b.name) st.os = true)
    (hline : (showLine b.name).length < 128) :
    (∀ h, h ≠ b.name → ∀ p,
      p ∈ (net ((b.portLines.map (· ++ ['\n'])).foldl (deleteDecoded E b.name) st).os).ports h ↔
        p ∈ (net st.os).ports h) ↔
    ∀ h, h ≠ b.name → stpFlag b.stp ∉ (net st.os).ports h := by
  have hdel := net_deleteFlag (E := E) hshow hports hb hempty htest hline
  simp only [Bridge.portLines,hempty,List.map_cons,List.map_nil,List.foldl_cons,List.foldl_nil,
    hdel.ports]
  constructor
  · intro h k hk hmem
    exact ((h k hk _).mpr hmem).2 rfl
  · intro h k hk p
    refine ⟨fun hp => hp.1,fun hp => ⟨hp,?_⟩⟩
    rintro rfl
    exact h k hk hp

theorem loop_ports_spares_iff (hshow : ShowTools E.host net) (hports : PortTools E.host net)
    {g : Str} {st : Hal σ} (hg : (net st.os).Has g)
    (hexact : ∀ s, isThisGroupAvailableInLinuxBridge E (some g) s = true ↔ (net s).Has g)
    (hfit : ∀ p ∈ (net st.os).ports g, PortFits E.limits p)
    (hvlan : ∀ p ∈ (net st.os).ports g, VlanDevice p) (hline : (showLine g).length < 128) :
    (∀ h, h ≠ g → ∀ p,
      p ∈ (net ((((net st.os).ports g).map (· ++ ['\n'])).foldl (deleteDecoded E g) st).os).ports h ↔
        p ∈ (net st.os).ports h) ↔
    ((∃ p ∈ (net st.os).ports g, Undecoded p) → ∀ h, h ≠ g → ['.'] ∉ (net st.os).ports h) := by
  have hinv := LoopInv.loop (E := E) hshow hports hg hexact hfit hline
    (fun p hp => ⟨hp,hvlan p hp⟩) (LoopInv.start (net st.os) g)
  rw [false_or] at hinv
  constructor
  · intro h hseen k hk hmem
    exact ((hinv.others k _ hk).mp ((h k hk _).mpr hmem)).2 ⟨rfl,hseen⟩
  · intro h k hk p
    rw [hinv.others k p hk]
    refine ⟨fun hp => hp.1,fun hp => ⟨hp,?_⟩⟩
    rintro ⟨rfl,hseen⟩
    exact h hseen k hk hp

theorem vlanHalDeleteAllInterfaces_spares_iff (hshow : ShowTools E.host net)
    (hports : PortTools E.host net) {g : Str} {st : Hal σ} (hg : (net st.os).Has g)
    (hexact : ∀ s, isThisGroupAvailableInLinuxBridge E (some g) s = true ↔ (net s).Has g)
    (hfit : ∀ p ∈ (net st.os).ports g, PortFits E.limits p)
    (hvlan : ∀ p ∈ (net st.os).ports g, VlanDevice p) (hline : (showLine g).length < 128) :
    (∀ h, h ≠ g → ∀ p, p ∈ (net (vlanHalDeleteAllInterfaces E (some g) st).2.os).ports h ↔
      p ∈ (net st.os).ports h) ↔ Spared (net st.os) g := by
  have htest := (hexact st.os).mpr hg
  obtain ⟨b,hb,rfl⟩ := hg
  have hbports : (net st.os).ports b.name = b.ports := by simp [BridgeTable.ports,find_eq hb]
  have hflag : (net st.os).flag b.name = stpFlag b.stp := by simp [BridgeTable.flag,find_eq hb]
  rw [vlanHalDeleteAllInterfaces_lines hshow hb (by simpa [hbports] using hfit) hline,Spared,hflag]
  by_cases hempty : b.ports = []
  · rw [loop_empty_spares_iff hshow hports hb hempty htest hline,hbports,hempty]
    simp
  · have hlines : b.portLines = (net st.os).ports b.name := by
      rw [hbports]
      cases hp : b.ports with
      | nil => exact absurd hp hempty
      | cons p ps => simp [Bridge.portLines,hp]
    have hne : (net st.os).ports b.name ≠ [] := hbports ▸ hempty
    rw [hlines,loop_ports_spares_iff hshow hports ⟨b,hb,rfl⟩ hexact hfit hvlan hline]
    simp only [hne,false_implies,true_and]

structure Removed (t t' : BridgeTable) (g : Str) : Prop where
  ports : t'.ports g = []
  gone : ¬t'.Has g
  others : ∀ h, h ≠ g → ∀ p, p ∈ t'.ports h ↔ p ∈ t.ports h

theorem lines_fit (hshow : ShowTools E.host net) {g : Str} (hg : g ≠ []) {s : σ}
    (htest : isThisGroupAvailableInLinuxBridge E (some g) s = true) :
    (downLine g).length < 128 ∧ (delbrLine g).length < 128 := by
  have hgrep : (grepLine g).length < 128 := by
    by_cases hline : (grepLine g).length < 128
    · exact hline
    · rw [groupAvailable_over (hshow.silent s) hg hline] at htest
      cases htest
  simp only [grepLine_eq,downLine_eq,delbrLine_eq,List.length_append] at hgrep ⊢
  have hlit : "brctl show | grep -w ".toList.length = 21 ∧ "ip link set ".toList.length = 12 ∧
      " down".toList.length = 5 ∧ "brctl delbr ".toList.length = 12 := by decide
  omega

/-- A deletion of a group of VLAN devices removes the group, and it spares the other groups
exactly when the loop over its lines does. -/
theorem vlanHalDelGroup_removes_iff (hshow : ShowTools E.host net)
    (hports : PortTools E.host net) (hgroups : GroupTools E.host net) (st : Hal σ) {g : Str}
    (hg : (net st.os).Has g)
    (hexact : ∀ s, isThisGroupAvailableInLinuxBridge E (some g) s = true ↔ (net s).Has g)
    (hvlan : ∀ p ∈ (net st.os).ports g, VlanDevice p)
    (hfit : ∀ p ∈ (net st.os).ports g, PortFits E.limits p) :
    Removed (net st.os) (net (vlanHalDelGroup E (some g) st).2.os) g ↔
      ((showLine g).length < 128 → Spared (net st.os) g) := by
  have htest : isThisGroupAvailableInLinuxBridge E (some g) st.os = true := (hexact st.os).mpr hg
  obtain ⟨hdown,hdelbr⟩ := lines_fit hshow hg.word.1 htest
  obtain ⟨hthin,_⟩ := vlanHalDeleteAllInterfaces_thins hshow hports hg
  obtain ⟨_,hsame,hgone⟩ := net_removal (E := E) hports hgroups ((hthin.has g).mpr hg)
  have hgone := hgone hdown hdelbr
  rw [vlanHalDelGroup_found htest]
  have hspare : Removed (net st.os) (net (((vlanHalDeleteAllInterfaces E (some g) st).2.system E
      (cmdBuff E (downLine g))).system E (cmdBuff E (delbrLine g))).os) g ↔
      ∀ h, h ≠ g → ∀ p, p ∈ (net (vlanHalDeleteAllInterfaces E (some g) st).2.os).ports h ↔
        p ∈ (net st.os).ports h := by
    constructor
    · intro hrem h hne p
      exact (hsame h p hne).symm.trans (hrem.others h hne p)
    · intro hloop
      refine ⟨?_,hgone,fun h hne p => (hsame h p hne).trans (hloop h hne p)⟩
      exact List.eq_nil_iff_forall_not_mem.mpr (fun p hp => hgone (Has.of_port hp))
  refine hspare.trans ?_
  by_cases hline : (showLine g).length < 128
  · simp only [hline,true_implies]
    exact vlanHalDeleteAllInterfaces_spares_iff hshow hports hg hexact hfit hvlan hline
  · have hnone : (vlanHalDeleteAllInterfaces E (some g) st).2 = st := by
      simp [vlanHalDeleteAllInterfaces,cmdBuff_eq,hline,hshow.silent,fgetsAll,fgetsFuel]
    simp [hnone,hline]

def taggedGroups : BridgeTable where
  bridges := [⟨"brlan0".toList,"8000.3c".toList,false,true,
      ["eth0.5".toList,"eth1.5".toList,"wlan0.100".toList]⟩,
    ⟨"brlan1".toList,"8000.3d".toList,true,true,["eth0.7".toList]⟩]
  names_nodup := by decide
  words := by decide
  disjoint := by decide

theorem vlanHalDelGroup_removes_iff_taggedGroups :
    Removed taggedGroups
      (vlanHalDelGroup (linuxEnv grepExact) (some "brlan0".toList) (linuxHal taggedGroups)).2.os
      "brlan0".toList ↔
    ((showLine "brlan0".toList).length < 128 → Spared taggedGroups "brlan0".toList) :=
  vlanHalDelGroup_removes_iff (E := linuxEnv grepExact) (linuxHost_show grepExact)
    (linuxHost_ports grepExact) (linuxHost_groups grepExact) (linuxHal taggedGroups) (by decide)
    (grepExact_test (by decide) (by decide)) (by decide) (by decide)

def emptyGroup : BridgeTable where
  bridges := [⟨"brlan0".toList,"8000.3c".toList,false,true,[]⟩,
    ⟨"brlan1".toList,"8000.3d".toList,true,true,["no".toList]⟩]
  names_nodup := by decide
  words := by decide
  disjoint := by decide

theorem vlanHalDelGroup_emptyGroup :
    (emptyGroup.Has "brlan0".toList ∧ ∀ p ∈ emptyGroup.ports "brlan0".toList, VlanDevice p) ∧
    (∀ t, isThisGroupAvailableInLinuxBridge (linuxEnv grepExact) (some "brlan0".toList) t = true ↔
      t.Has "brlan0".toList) ∧
    ¬Removed emptyGroup
      (vlanHalDelGroup (linuxEnv grepExact) (some "brlan0".toList) (linuxHal emptyGroup)).2.os
      "brlan0".toList := by
  refine ⟨by decide +kernel,grepExact_test (by decide) (by decide),fun hrem => ?_⟩
  have hbefore : "no".toList ∈ emptyGroup.ports "brlan1".toList := by decide +kernel
  have hafter : "no".toList ∉ (vlanHalDelGroup (linuxEnv grepExact) (some "brlan0".toList)
      (linuxHal emptyGroup)).2.os.ports "brlan1".toList := by
    decide +kernel
  exact hafter ((hrem.others _ (by decide) _).mpr hbefore)

end RdkHal.Vlan
