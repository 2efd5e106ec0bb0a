import RdkHal.Vlan.Bridges

/-! What the HAL assumes of `brctl`, `vconfig`, `ip` and the shell that runs them, and what
its queries answer under these assumptions. -/

set_option autoImplicit false

namespace RdkHal.Vlan
open Text BridgeTable

variable {σ : Type}

/-- The bridges of `t` remain, in their states, and the ports of bridge `h` become `keep h`. -/
structure Relabels (t t' : BridgeTable) (keep : Str → Str → Prop) : Prop where
  has : ∀ h, t'.Has h ↔ t.Has h
  up : ∀ h, t'.isUp h = t.isUp h
  ports : ∀ h p, p ∈ t'.ports h ↔ keep h p

theorem Relabels.congr {t t' : BridgeTable} {keep keep' : Str → Str → Prop}
    (h : Relabels t t' keep) (hkeep : ∀ g p, keep g p ↔ keep' g p) : Relabels t t' keep' :=
  ⟨h.has,h.up,fun g p => (h.ports g p).trans (hkeep g p)⟩

/-- The listings are snapshots of the table; the empty command prints nothing. -/
structure ShowTools (H : Host σ) (net : σ → BridgeTable) : Prop where
  silent : ∀ s, H.popen [] s = some []
  all : ∀ s, H.popen showAllLine s = some (lastFields (net s).bridges)
  one : ∀ s, ∀ b ∈ (net s).bridges, H.popen (showLine b.name) s = some (lastFields [b])

/-- The lines about interfaces, for words as arguments. `vconfig add` creates the device and
`brctl addif` attaches it if it is attached nowhere; `vconfig rem` deletes its device, which
detaches it, and `brctl delif` detaches its port. A newline in the first argument of the
latter ends the command there: the device is then the text before it, and so is the port. -/
structure PortTools (H : Host σ) (net : σ → BridgeTable) : Prop where
  idle : ∀ s, net (H.system [] s) = net s
  attach : ∀ s i v g, Word i → Word v → (net s).Has g → (∀ h, portName i v ∉ (net s).ports h) →
    Relabels (net s) (net (H.system (addLine i v g) s))
      (fun h p => p ∈ (net s).ports h ∨ (h = g ∧ p = portName i v))
  detach : ∀ s i v g, NoSpace i → NoSpace v → (net s).Has g →
    Relabels (net s) (net (H.system (remLine i v g) s))
      (fun h p => p ∈ (net s).ports h ∧ p ≠ portName i v ∧ ¬(h = g ∧ p = i))
  detachNewline : ∀ s w g, NoSpace w → (net s).Has g →
    Relabels (net s) (net (H.system (remLine (w ++ ['\n']) [] g) s))
      (fun h p => p ∈ (net s).ports h ∧ p ≠ w)

/-- The lines about groups. `brctl addbr` is carried out or refused; `brctl delbr` removes
at most its bridge, and does so if the bridge is down. -/
structure GroupTools (H : Host σ) (net : σ → BridgeTable) : Prop where
  addbr : ∀ s g, (∀ h, (net (H.system (addbrLine g) s)).Has h ↔ (net s).Has h ∨ h = g) ∨
    ∀ h, (net (H.system (addbrLine g) s)).Has h ↔ (net s).Has h
  down : ∀ s g, (net s).Has g →
    (∀ h, (net (H.system (downLine g) s)).Has h ↔ (net s).Has h) ∧
    (∀ h p, p ∈ (net (H.system (downLine g) s)).ports h ↔ p ∈ (net s).ports h) ∧
    (net (H.system (downLine g) s)).isUp g = false
  delbr : ∀ s g, (net s).Has g →
    (∀ h, h ≠ g → ((net (H.system (delbrLine g) s)).Has h ↔ (net s).Has h)) ∧
    (∀ h p, h ≠ g → (p ∈ (net (H.system (delbrLine g) s)).ports h ↔ p ∈ (net s).ports h)) ∧
    ((net s).isUp g = false → ¬(net (H.system (delbrLine g) s)).Has g)

def PortFits (L : Limits) (p : Str) : Prop :=
  p.length+1 < L.line ∧ (p.takeWhile (· != '.')).length+1 < L.ifName ∧
    (p.dropWhile (· != '.')).length ≤ L.vlanID

instance (L : Limits) (p : Str) : Decidable (PortFits L p) :=
  inferInstanceAs (Decidable (_ ∧ _))

def Fitting (L : Limits) (t : BridgeTable) : Prop := ∀ b ∈ t.bridges, ∀ p ∈ b.ports, PortFits L p

instance (L : Limits) (t : BridgeTable) : Decidable (Fitting L t) :=
  inferInstanceAs (Decidable (∀ b ∈ t.bridges, _))

theorem Fitting.port {L : Limits} {t : BridgeTable} (h : Fitting L t) {g p : Str}
    (hp : p ∈ t.ports g) : PortFits L p := by
  obtain ⟨b,hb,_,hpb⟩ := mem_ports.mp hp
  exact h b hb p hpb

theorem portFits_portName {L : Limits} {i v : Str} (hdot : '.' ∉ i)
    (h : PortFits L (portName i v)) : v.length < L.vlanID := by
  have hall : ∀ c ∈ i, (c != '.') = true := by
    intro c hc
    have hcd : c ≠ '.' := fun h => hdot (h ▸ hc)
    simp [hcd]
  have hdrop := h.2.2
  rw [portName,dropWhile_until hall (by simp),List.length_cons] at hdrop
  omega

theorem fgetsAll_portLines {L : Limits} (bs : List Bridge)
    (hw : ∀ b ∈ bs, ∀ p ∈ b.ports, Word p) (hfit : ∀ b ∈ bs, ∀ p ∈ b.ports, PortFits L p) :
    fgetsAll L.line (lastFields bs) = (bs.flatMap Bridge.portLines).map (· ++ ['\n']) := by
  rw [lastFields_eq hw]
  apply fgetsAll_unlines
  intro f hf
  obtain ⟨b,hb,hfb⟩ := List.mem_flatMap.mp hf
  refine ⟨(word_portLines (hw b hb) hfb).2.not_mem (by decide),?_⟩
  cases hp : b.ports with
  | nil =>
    simp only [Bridge.portLines,hp,List.mem_singleton] at hfb
    have hline := L.line_flag
    rw [hfb]
    cases b.stp <;> simp [stpFlag] <;> omega
  | cons p ps =>
    simp only [Bridge.portLines,hp] at hfb
    exact (hfit b hb f (by rw [hp]; exact hfb)).1

theorem fgetsAll_bridge {L : Limits} {b : Bridge} (hw : ∀ p ∈ b.ports, Word p)
    (hfit : ∀ p ∈ b.ports, PortFits L p) :
    fgetsAll L.line (lastFields [b]) = b.portLines.map (· ++ ['\n']) := by
  rw [fgetsAll_portLines [b] (by simpa using hw) (by simpa using hfit),List.flatMap_singleton]

theorem decodes_portLines {b : Bridge} (hb : ∀ p ∈ b.ports, Word p) {i v : Str} (hi : i ≠ [])
    (hdot : '.' ∉ i) (hv : v ≠ []) :
    (∃ f ∈ b.portLines, sscanfPort (f ++ ['\n']) = (i,v)) ↔ portName i v ∈ b.ports := by
  constructor
  · rintro ⟨f,hf,hdec⟩
    have hname := (sscanfPort_line_iff (word_portLines hb hf) hi hdot hv).mp hdec
    subst hname
    cases hp : b.ports with
    | nil =>
      simp only [Bridge.portLines,hp,List.mem_singleton] at hf
      have hmem : '.' ∈ stpFlag b.stp := hf ▸ (by simp [portName])
      exact absurd hmem (dot_not_mem_stpFlag b.stp)
    | cons p ps => simpa only [Bridge.portLines,hp] using hf
  · intro hmem
    have hname := (sscanfPort_line_iff (hb _ hmem) hi hdot hv).mpr rfl
    refine ⟨portName i v,?_,hname⟩
    cases hp : b.ports with
    | nil => simp [hp] at hmem
    | cons p ps => simpa only [Bridge.portLines,hp] using hmem

theorem any_lines (ls : List Str) (q : Str × Str) :
    (ls.map (· ++ ['\n'])).any (fun buf => decide (sscanfPort buf = q)) = true ↔
      ∃ f ∈ ls, sscanfPort (f ++ ['\n']) = q := by
  simp [List.any_eq_true]

theorem interfaceAvailable_iff {E : Env σ} {net : σ → BridgeTable} (hshow : ShowTools E.host net)
    {s : σ} (hfit : Fitting E.limits (net s)) {i v : Str} (hi : i ≠ []) (hdot : '.' ∉ i)
    (hv : v ≠ []) : isThisInterfaceAvailableInLinuxBridge E (some i) (some v) s = true ↔
      ∃ g, portName i v ∈ (net s).ports g := by
  have hw : ∀ b ∈ (net s).bridges, ∀ p ∈ b.ports, Word p := fun b hb => ((net s).words b hb).2.2
  have hline : (E.lib.strcpyS 128 showAllLine).2 = showAllLine := by
    rw [E.lib.strcpyS_fits _ _ (by decide)]
  simp only [isThisInterfaceAvailableInLinuxBridge,hline,hshow.all]
  rw [fgetsAll_portLines _ hw hfit,any_lines]
  constructor
  · rintro ⟨f,hf,hdec⟩
    obtain ⟨b,hb,hfb⟩ := List.mem_flatMap.mp hf
    exact ⟨b.name,mem_ports.mpr ⟨b,hb,rfl,
      (decodes_portLines (hw b hb) hi hdot hv).mp ⟨f,hfb,hdec⟩⟩⟩
  · rintro ⟨g,hg⟩
    obtain ⟨b,hb,_,hp⟩ := mem_ports.mp hg
    obtain ⟨f,hfb,hdec⟩ := (decodes_portLines (hw b hb) hi hdot hv).mpr hp
    exact ⟨f,List.mem_flatMap.mpr ⟨b,hb,hfb⟩,hdec⟩

theorem popen_showLine {E : Env σ} {net : σ → BridgeTable} (hshow : ShowTools E.host net)
    {s : σ} {b : Bridge} (hb : b ∈ (net s).bridges) (hline : (showLine b.name).length < 128) :
    E.host.popen (cmdBuff E (showLine b.name)) s = some (lastFields [b]) := by
  rw [cmdBuff_eq,if_pos hline,hshow.one s b hb]

theorem interfaceInGiven_iff {E : Env σ} {net : σ → BridgeTable} (hshow : ShowTools E.host net)
    {s : σ} {g : Str} (hfit : ∀ p ∈ (net s).ports g, PortFits E.limits p) (hg : (net s).Has g)
    (hline : (showLine g).length < 128) {i v : Str} (hi : i ≠ []) (hdot : '.' ∉ i) (hv : v ≠ []) :
    isThisInterfaceAvailableInGivenLinuxBridge E (some i) (some g) (some v) s = true ↔
      portName i v ∈ (net s).ports g := by
  obtain ⟨b,hb,rfl⟩ := hg
  have hports : (net s).ports b.name = b.ports := by simp [BridgeTable.ports,find_eq hb]
  have hw : ∀ p ∈ b.ports, Word p := ((net s).words b hb).2.2
  rw [hports] at hfit ⊢
  simp only [isThisInterfaceAvailableInGivenLinuxBridge,popen_showLine hshow hb hline]
  rw [fgetsAll_bridge hw hfit,any_lines,decodes_portLines hw hi hdot hv]

theorem interfaceInGiven_over {E : Env σ} {net : σ → BridgeTable} (hshow : ShowTools E.host net)
    {g : Str} (hline : ¬(showLine g).length < 128) (i v : Str) (s : σ) :
    isThisInterfaceAvailableInGivenLinuxBridge E (some i) (some g) (some v) s = false := by
  simp [isThisInterfaceAvailableInGivenLinuxBridge,cmdBuff_eq,hline,hshow.silent,fgetsAll,
    fgetsFuel]

theorem groupAvailable_over {E : Env σ} {s : σ} (hsilent : E.host.popen [] s = some [])
    {g : Str} (hg : g ≠ []) (hline : ¬(grepLine g).length < 128) :
    isThisGroupAvailableInLinuxBridge E (some g) s = false := by
  have hopen : E.host.popen (cmdBuff E (grepLine g)) s = some [] := by
    rw [cmdBuff_eq,if_neg hline,hsilent]
  rw [Bool.eq_false_iff,ne_eq,isThisGroupAvailable_occurs hopen,collected_short (by decide),
    List.infix_nil]
  exact hg

end RdkHal.Vlan
