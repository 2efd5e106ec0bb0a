import RdkHal.Vlan.LinuxHost

/-! Adding an interface to a group and taking it off again, on any bridge table. -/

set_option autoImplicit false

namespace RdkHal.Vlan
open Text BridgeTable

variable {σ : Type} {E : Env σ} {net : σ → BridgeTable}

theorem tempvlanID_given (E : Env σ) (g : Str) {v : Str} (hv : v.length < E.limits.vlanID)
    (config : ConfigList) : tempvlanID E g (some v) config = some v := by
  simp [tempvlanID,E.lib.strcpyS_fits _ _ hv]

theorem vlanHalAddInterface_given (E : Env σ) (g i : Str) {v : Str}
    (hv : v.length < E.limits.vlanID) (st : Hal σ) :
    vlanHalAddInterface E (some g) (some i) (some v) st =
      if isThisGroupAvailableInLinuxBridge E (some g) st.os = false then (.err,st)
      else if isThisInterfaceAvailableInLinuxBridge E (some i) (some v) st.os = true then (.ok,st)
      else (.ok,st.system E (cmdBuff E (addLine i v g))) := by
  simp only [vlanHalAddInterface,tempvlanID_given E g hv]

theorem vlanHalDelInterface_given (E : Env σ) (g i : Str) {v : Str}
    (hv : v.length < E.limits.vlanID) (st : Hal σ) :
    vlanHalDelInterface E (some g) (some i) (some v) st =
      if isThisGroupAvailableInLinuxBridge E (some g) st.os = false then (.err,st)
      else if isThisInterfaceAvailableInGivenLinuxBridge E (some i) (some g) (some v) st.os = false
        then (.ok,st)
      else (.ok,st.system E (cmdBuff E (remLine i v g))) := by
  simp only [vlanHalDelInterface,tempvlanID_given E g hv]

theorem net_addLine (hports : PortTools E.host net) {s : σ} {g i v : Str} (hg : (net s).Has g)
    (hi : Word i) (hv : Word v) (hfree : ∀ h, portName i v ∉ (net s).ports h) :
    ((addLine i v g).length < 128 → Relabels (net s)
      (net (E.host.system (cmdBuff E (addLine i v g)) s))
      (fun h p => p ∈ (net s).ports h ∨ (h = g ∧ p = portName i v))) ∧
    (¬(addLine i v g).length < 128 →
      net (E.host.system (cmdBuff E (addLine i v g)) s) = net s) := by
  constructor
  · intro hline
    rw [cmdBuff_eq,if_pos hline]
    exact hports.attach s i v g hi hv hg hfree
  · intro hline
    rw [cmdBuff_eq,if_neg hline]
    exact hports.idle s

/-- An addition that reports success has put the port on the group exactly when it was there
already, or was nowhere and the line fits: a port of another bridge is reported as present. -/
theorem vlanHalAddInterface_attached_iff (hshow : ShowTools E.host net)
    (hports : PortTools E.host net) (st : Hal σ) (hfit : Fitting E.limits (net st.os))
    {g i v : Str} (hg : (net st.os).Has g) (hi : Word i) (hdot : '.' ∉ i) (hv : Word v)
    (hvlen : v.length < E.limits.vlanID) :
    ((vlanHalAddInterface E (some g) (some i) (some v) st).1 = .ok →
      portName i v ∈
        (net (vlanHalAddInterface E (some g) (some i) (some v) st).2.os).ports g) ↔
    isThisGroupAvailableInLinuxBridge E (some g) st.os = false ∨
      portName i v ∈ (net st.os).ports g ∨
      ((∀ h, portName i v ∉ (net st.os).ports h) ∧ (addLine i v g).length < 128) := by
  have havail := interfaceAvailable_iff hshow hfit hi.1 hdot hv.1
  rw [vlanHalAddInterface_given E g i hvlen]
  by_cases htest : isThisGroupAvailableInLinuxBridge E (some g) st.os = false
  · simp [htest]
  by_cases hany : ∃ h, portName i v ∈ (net st.os).ports h
  · have hnot : ¬∀ h, portName i v ∉ (net st.os).ports h := not_forall_not.mpr hany
    simp [htest,havail.mpr hany,hnot]
  · have hfree : ∀ h, portName i v ∉ (net st.os).ports h := not_exists.mp hany
    have hskip : isThisInterfaceAvailableInLinuxBridge E (some i) (some v) st.os ≠ true :=
      fun h => hany (havail.mp h)
    obtain ⟨hfits,hover⟩ := net_addLine (E := E) hports hg hi hv hfree
    by_cases hline : (addLine i v g).length < 128
    · have hmem := ((hfits hline).ports g (portName i v)).mpr (Or.inr ⟨rfl,rfl⟩)
      simp [htest,hskip,hmem,hfree,hline]
    · simp [htest,hskip,hover hline,hfree,hline]

theorem vlanHalAddInterface_attached_iff_twoGroups :
    ((vlanHalAddInterface (linuxEnv grepShow) (some "brlan1".toList) (some "eth0".toList)
        (some "7".toList) (linuxHal twoGroups)).1 = .ok →
      portName "eth0".toList "7".toList ∈ ((vlanHalAddInterface (linuxEnv grepShow)
        (some "brlan1".toList) (some "eth0".toList) (some "7".toList)
        (linuxHal twoGroups)).2.os).ports "brlan1".toList) ↔
    isThisGroupAvailableInLinuxBridge (linuxEnv grepShow) (some "brlan1".toList) twoGroups =
        false ∨
      portName "eth0".toList "7".toList ∈ twoGroups.ports "brlan1".toList ∨
      ((∀ h, portName "eth0".toList "7".toList ∉ twoGroups.ports h) ∧
        (addLine "eth0".toList "7".toList "brlan1".toList).length < 128) :=
  vlanHalAddInterface_attached_iff (E := linuxEnv grepShow) (linuxHost_show grepShow)
    (linuxHost_ports grepShow) (linuxHal twoGroups) (by decide) (by decide) (by decide)
    (by decide) (by decide) (by decide)

theorem vlanHalAddInterface_elsewhere :
    twoGroups.Has "brlan1".toList ∧
    (vlanHalAddInterface (linuxEnv grepShow) (some "brlan1".toList) (some "eth0".toList)
      (some "5".toList) (linuxHal twoGroups)).1 = .ok ∧
    portName "eth0".toList "5".toList ∉ ((vlanHalAddInterface (linuxEnv grepShow)
      (some "brlan1".toList) (some "eth0".toList) (some "5".toList)
      (linuxHal twoGroups)).2.os).ports "brlan1".toList := by
  decide +kernel

/-! An addition followed by the deletion of the same interface -/

def addThenDelete (E : Env σ) (g i v : Str) (st : Hal σ) : Hal σ :=
  (vlanHalDelInterface E (some g) (some i) (some v)
    (vlanHalAddInterface E (some g) (some i) (some v) st).2).2

theorem net_delInterface_absent (hshow : ShowTools E.host net) {g i v : Str} (st : Hal σ)
    (hfit : ∀ p ∈ (net st.os).ports g, PortFits E.limits p) (hg : (net st.os).Has g)
    (hi : Word i) (hdot : '.' ∉ i) (hv : Word v) (hvlen : v.length < E.limits.vlanID)
    (habsent : portName i v ∉ (net st.os).ports g) :
    (vlanHalDelInterface E (some g) (some i) (some v) st).2 = st := by
  have hskip : isThisInterfaceAvailableInGivenLinuxBridge E (some i) (some g) (some v) st.os =
      false := by
    by_cases hline : (showLine g).length < 128
    · have hiff := interfaceInGiven_iff hshow hfit hg hline hi.1 hdot hv.1
      exact Bool.eq_false_iff.mpr (fun h => habsent (hiff.mp h))
    · exact interfaceInGiven_over hshow hline i v st.os
  rw [vlanHalDelInterface_given E g i hvlen,hskip]
  by_cases htest : isThisGroupAvailableInLinuxBridge E (some g) st.os = false <;> simp [htest]

theorem remLine_length_lt {g i v : Str} (hline : (addLine i v g).length < 128) :
    (remLine i v g).length < 128 := by
  have hadd : (addLine i v g).length = 29+2*i.length+2*v.length+g.length := by
    simp [addLine_eq]
    omega
  have hrem : (remLine i v g).length = 28+2*i.length+v.length+g.length := by
    simp [remLine_eq]
    omega
  omega

theorem net_delInterface_attached (hshow : ShowTools E.host net) (hports : PortTools E.host net)
    {t : BridgeTable} (st : Hal σ) {g i v : Str} (hfit : Fitting E.limits t)
    (hg : t.Has g) (hi : Word i) (hdot : '.' ∉ i) (hv : Word v)
    (hname : PortFits E.limits (portName i v)) (hfree : ∀ h, portName i v ∉ t.ports h)
    (hline : (remLine i v g).length < 128)
    (hrel : Relabels t (net st.os) (fun h p => p ∈ t.ports h ∨ (h = g ∧ p = portName i v))) :
    (∀ h p, p ∈ (net (vlanHalDelInterface E (some g) (some i) (some v) st).2.os).ports h ↔
      p ∈ t.ports h) ↔
    isThisGroupAvailableInLinuxBridge E (some g) st.os = true ∧ (showLine g).length < 128 ∧
      i ∉ t.ports g := by
  have hvlen := portFits_portName hdot hname
  have hmem : portName i v ∈ (net st.os).ports g := (hrel.ports g _).mpr (Or.inr ⟨rfl,rfl⟩)
  have hchanged : ¬∀ h p, p ∈ (net st.os).ports h ↔ p ∈ t.ports h :=
    fun h => hfree g ((h g _).mp hmem)
  have hfit' : ∀ p ∈ (net st.os).ports g, PortFits E.limits p := by
    intro p hp
    rcases (hrel.ports g p).mp hp with hold | ⟨_,rfl⟩
    · exact hfit.port hold
    · exact hname
  have hg' : (net st.os).Has g := (hrel.has g).mpr hg
  rw [vlanHalDelInterface_given E g i hvlen]
  by_cases htest : isThisGroupAvailableInLinuxBridge E (some g) st.os = false
  · simp [htest,hchanged]
  by_cases hshown : (showLine g).length < 128
  · have hfound := (interfaceInGiven_iff hshow hfit' hg' hshown hi.1 hdot hv.1).mpr hmem
    have hdet := hports.detach st.os i v g hi.2 hv.2 hg'
    simp only [htest,hfound,Bool.true_eq_false,if_false,Hal.system_os,cmdBuff_eq,hline,if_true,
      hdet.ports,hrel.ports,hshown,true_and]
    constructor
    · intro h hbare
      exact ((h g i).mpr hbare).2.2 ⟨rfl,rfl⟩
    · intro hbare h p
      constructor
      · rintro ⟨hold | ⟨_,hp⟩,hne,_⟩
        · exact hold
        · exact absurd hp hne
      · intro hold
        refine ⟨Or.inl hold,?_,?_⟩
        · rintro rfl
          exact hfree h hold
        · rintro ⟨rfl,rfl⟩
          exact hbare hold
  · have hskip := interfaceInGiven_over hshow hshown i v st.os
    simp [htest,hskip,hchanged,hshown]

/-- The deletion gives the ports back exactly when nothing was added, or when the group is
still found, its listing can be asked for, and the bare device is no port of the group. -/
theorem addThenDelete_restores_iff (hshow : ShowTools E.host net) (hports : PortTools E.host net)
    (st : Hal σ) (hfit : Fitting E.limits (net st.os)) {g i v : Str} (hg : (net st.os).Has g)
    (hi : Word i) (hdot : '.' ∉ i) (hv : Word v) (hname : PortFits E.limits (portName i v))
    (hfree : ∀ h, portName i v ∉ (net st.os).ports h) :
    (∀ h p, p ∈ (net (addThenDelete E g i v st).os).ports h ↔ p ∈ (net st.os).ports h) ↔
    isThisGroupAvailableInLinuxBridge E (some g) st.os = false ∨
      ¬(addLine i v g).length < 128 ∨
      (isThisGroupAvailableInLinuxBridge E (some g) (E.host.system (addLine i v g) st.os) = true ∧
        (showLine g).length < 128 ∧ i ∉ (net st.os).ports g) := by
  have hvlen := portFits_portName hdot hname
  have havail := interfaceAvailable_iff hshow hfit hi.1 hdot hv.1
  have hskip : isThisInterfaceAvailableInLinuxBridge E (some i) (some v) st.os ≠ true := by
    intro h
    obtain ⟨h',hmem⟩ := havail.mp h
    exact hfree h' hmem
  by_cases htest : isThisGroupAvailableInLinuxBridge E (some g) st.os = false
  · have hsame : addThenDelete E g i v st = st := by
      simp [addThenDelete,vlanHalAddInterface_given E g i hvlen,
        vlanHalDelInterface_given E g i hvlen,htest]
    simp [hsame,htest]
  obtain ⟨hfits,hover⟩ := net_addLine (E := E) hports hg hi hv hfree
  have hadd : (vlanHalAddInterface E (some g) (some i) (some v) st).2 =
      st.system E (cmdBuff E (addLine i v g)) := by
    simp [vlanHalAddInterface_given E g i hvlen,htest,hskip]
  rw [addThenDelete,hadd]
  by_cases hline : (addLine i v g).length < 128
  · rw [cmdBuff_eq,if_pos hline] at hfits ⊢
    have hiff := net_delInterface_attached hshow hports (st.system E (addLine i v g)) hfit hg hi
      hdot hv hname hfree (remLine_length_lt hline) (hfits hline)
    simpa [htest,hline] using hiff
  · -- the empty command leaves the table as it was, and the deletion finds no port to delete
    have hnet := hover hline
    have hsame := net_delInterface_absent (g := g) (i := i) (v := v) hshow
      (st.system E (cmdBuff E (addLine i v g)))
      (by simpa only [Hal.system_os,hnet] using fun p hp => hfit.port hp)
      (by simpa only [Hal.system_os,hnet] using hg) hi hdot hv hvlen
      (by simpa only [Hal.system_os,hnet] using hfree g)
    simp only [hsame,Hal.system_os,hnet,hline]
    simp

theorem addThenDelete_restores_iff_twoGroups :
    (∀ h p, p ∈ (addThenDelete (linuxEnv grepShow) "brlan0".toList "eth1".toList "7".toList
        (linuxHal twoGroups)).os.ports h ↔ p ∈ twoGroups.ports h) ↔
    isThisGroupAvailableInLinuxBridge (linuxEnv grepShow) (some "brlan0".toList) twoGroups =
        false ∨
      ¬(addLine "eth1".toList "7".toList "brlan0".toList).length < 128 ∨
      (isThisGroupAvailableInLinuxBridge (linuxEnv grepShow) (some "brlan0".toList)
        (runLine (addLine "eth1".toList "7".toList "brlan0".toList) twoGroups) = true ∧
        (showLine "brlan0".toList).length < 128 ∧ "eth1".toList ∉ twoGroups.ports "brlan0".toList) :=
  addThenDelete_restores_iff (E := linuxEnv grepShow) (linuxHost_show grepShow)
    (linuxHost_ports grepShow) (linuxHal twoGroups) (by decide) (by decide) (by decide)
    (by decide) (by decide) (by decide) (free_iff.mpr (by decide))

theorem addThenDelete_bare :
    (∀ h, portName "eth1".toList "7".toList ∉ twoGroups.ports h) ∧
    "eth1".toList ∈ twoGroups.ports "brlan1".toList ∧
    "eth1".toList ∉ (addThenDelete (linuxEnv grepShow) "brlan1".toList "eth1".toList "7".toList
      (linuxHal twoGroups)).os.ports "brlan1".toList :=
  ⟨free_iff.mpr (by decide),by decide,by decide +kernel⟩

end RdkHal.Vlan
