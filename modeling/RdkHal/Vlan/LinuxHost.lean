import RdkHal.Vlan.Tools

/-! A host that keeps the bridge table and runs the HAL's lines on it: the assumptions on the
tools hold together, and the statements about them can be evaluated. -/

set_option autoImplicit false

namespace RdkHal.Vlan
open Text BridgeTable Chain

namespace BridgeTable

def empty : BridgeTable := ⟨[],List.nodup_nil,by simp,by simp⟩

/-- Changes of single bridges that keep the names and take no port on. -/
def restrict (t : BridgeTable) (f : Bridge → Bridge) (hname : ∀ b, (f b).name = b.name)
    (hid : ∀ b, (f b).id = b.id) (hports : ∀ b, ∀ p ∈ (f b).ports, p ∈ b.ports) :
    BridgeTable where
  bridges := t.bridges.map f
  names_nodup := by
    have hcomp : Bridge.name ∘ f = Bridge.name := funext hname
    rw [List.map_map,hcomp]
    exact t.names_nodup
  words := by
    intro b hb
    obtain ⟨x,hx,rfl⟩ := List.mem_map.mp hb
    obtain ⟨hn,hi,hp⟩ := t.words x hx
    exact ⟨by rwa [hname],by rwa [hid],fun p hp' => hp p (hports x p hp')⟩
  disjoint := by
    intro b hb b' hb' p hp hp'
    obtain ⟨x,hx,rfl⟩ := List.mem_map.mp hb
    obtain ⟨y,hy,rfl⟩ := List.mem_map.mp hb'
    rw [t.disjoint x hx y hy p (hports x p hp) (hports y p hp')]

def removePorts (t : BridgeTable) (drop : Str → Str → Bool) : BridgeTable :=
  t.restrict (fun b => { b with ports := b.ports.filter (fun p => !drop b.name p) })
    (fun _ => rfl) (fun _ => rfl) (fun _ _ hp => List.mem_of_mem_filter hp)

def setDown (t : BridgeTable) (g : Str) : BridgeTable :=
  t.restrict (fun b => { b with up := if b.name = g then false else b.up })
    (fun _ => rfl) (fun _ => rfl) (fun _ _ hp => hp)

/-- A bridge that is up is not removed. -/
def removeBridge (t : BridgeTable) (g : Str) : BridgeTable where
  bridges := t.bridges.filter (fun b => !decide (b.name = g) || b.up)
  names_nodup := t.names_nodup.sublist (List.filter_sublist.map _)
  words b hb := t.words b (List.mem_of_mem_filter hb)
  disjoint b hb b' hb' := t.disjoint b (List.mem_of_mem_filter hb) b' (List.mem_of_mem_filter hb')

/-- A new bridge is down and has no port. A name that is taken, or that the kernel does not
take for a device, is refused. -/
def addBridge (t : BridgeTable) (g : Str) : BridgeTable :=
  if h : (Word g ∧ g.length < 16) ∧ ¬t.Has g then
    { bridges := t.bridges ++ [⟨g,"8000.000000000000".toList,false,false,[]⟩]
      names_nodup := by
        rw [List.map_append,List.nodup_append]
        refine ⟨t.names_nodup,by simp,?_⟩
        intro a ha b hb hab
        obtain ⟨c,hc,rfl⟩ := List.mem_map.mp ha
        exact h.2 ⟨c,hc,by simpa [hab] using hb⟩
      words := by
        intro b hb
        rcases List.mem_append.mp hb with hb | hb
        · exact t.words b hb
        · rw [List.mem_singleton.mp hb]
          exact ⟨h.1.1,(by decide : Word "8000.000000000000".toList),by simp⟩
      disjoint := by
        intro b hb b' hb' p hp hp'
        rcases List.mem_append.mp hb with hb | hb
        · rcases List.mem_append.mp hb' with hb' | hb'
          · exact t.disjoint b hb b' hb' p hp hp'
          · simp [List.mem_singleton.mp hb'] at hp'
        · simp [List.mem_singleton.mp hb] at hp }
  else t

/-- A device is attached only where it is attached to no bridge. -/
def attach (t : BridgeTable) (g p : Str) : BridgeTable :=
  if h : Word p ∧ ∀ b ∈ t.bridges, p ∉ b.ports then
    { bridges := t.bridges.map
        (fun b => { b with ports := if b.name = g then b.ports ++ [p] else b.ports })
      names_nodup := by
        rw [List.map_map]
        exact t.names_nodup
      words := by
        intro b hb
        obtain ⟨x,hx,rfl⟩ := List.mem_map.mp hb
        obtain ⟨hn,hi,hp⟩ := t.words x hx
        refine ⟨hn,hi,?_⟩
        intro q hq
        by_cases hg : x.name = g
        · simp only [hg,if_true,List.mem_append,List.mem_singleton] at hq
          rcases hq with hq | rfl
          · exact hp q hq
          · exact h.1
        · simp only [hg,if_false] at hq
          exact hp q hq
      disjoint := by
        intro b hb b' hb' q hq hq'
        obtain ⟨x,hx,rfl⟩ := List.mem_map.mp hb
        obtain ⟨y,hy,rfl⟩ := List.mem_map.mp hb'
        have hold : ∀ c ∈ t.bridges,
            q ∈ (if c.name = g then c.ports ++ [p] else c.ports) →
            q ∈ c.ports ∨ (q = p ∧ c.name = g) := by
          intro c _ hc
          by_cases hg : c.name = g
          · simp only [hg,if_true,List.mem_append,List.mem_singleton] at hc
            exact hc.imp id (fun h => ⟨h,hg⟩)
          · simp only [hg,if_false] at hc
            exact Or.inl hc
        rcases hold x hx hq with hqx | ⟨rfl,hxg⟩
        · rcases hold y hy hq' with hqy | ⟨rfl,_⟩
          · rw [t.disjoint x hx y hy q hqx hqy]
          · exact absurd hqx (h.2 x hx)
        · rcases hold y hy hq' with hqy | ⟨_,hyg⟩
          · exact absurd hqy (h.2 y hy)
          · have hsame := find_eq hx
            rw [hxg,← hyg,find_eq hy] at hsame
            rw [Option.some.inj hsame] }
  else t

theorem has_of_map {t t' : BridgeTable} {f : Bridge → Bridge}
    (hmap : t'.bridges = t.bridges.map f) (hname : ∀ b, (f b).name = b.name) (h : Str) :
    t'.Has h ↔ t.Has h := by
  simp [Has,hmap,hname]

theorem find_of_map {t t' : BridgeTable} {f : Bridge → Bridge}
    (hmap : t'.bridges = t.bridges.map f) (hname : ∀ b, (f b).name = b.name) (h : Str) :
    t'.find h = (t.find h).map f := by
  have hcomp : (fun b : Bridge => decide (b.name = h)) ∘ f = fun b => decide (b.name = h) := by
    funext b
    simp [hname]
  rw [BridgeTable.find,hmap,List.find?_map,hcomp,BridgeTable.find]

theorem isUp_of_map {t t' : BridgeTable} {f : Bridge → Bridge}
    (hmap : t'.bridges = t.bridges.map f) (hname : ∀ b, (f b).name = b.name)
    (hup : ∀ b, (f b).up = b.up) (h : Str) : t'.isUp h = t.isUp h := by
  rw [isUp,find_of_map hmap hname,isUp]
  cases t.find h with
  | none => rfl
  | some b => exact hup b

theorem removePorts_relabels (t : BridgeTable) (drop : Str → Str → Bool) :
    Relabels t (t.removePorts drop) (fun h p => p ∈ t.ports h ∧ drop h p = false) where
  has := has_of_map rfl (fun _ => rfl)
  up := isUp_of_map rfl (fun _ => rfl) (fun _ => rfl)
  ports h p := by
    simp only [mem_ports,removePorts,restrict,List.mem_map]
    constructor
    · rintro ⟨x,⟨b,hb,rfl⟩,rfl,hp⟩
      simp only [List.mem_filter,Bool.not_eq_true'] at hp
      exact ⟨⟨b,hb,rfl,hp.1⟩,hp.2⟩
    · rintro ⟨⟨b,hb,rfl,hp⟩,hdrop⟩
      exact ⟨_,⟨b,hb,rfl⟩,rfl,by simp [hp,hdrop]⟩

theorem attach_relabels {t : BridgeTable} {g p : Str} (hg : t.Has g) (hp : Word p)
    (hfree : ∀ h, p ∉ t.ports h) :
    Relabels t (t.attach g p) (fun h q => q ∈ t.ports h ∨ (h = g ∧ q = p)) := by
  have hcond : Word p ∧ ∀ b ∈ t.bridges, p ∉ b.ports :=
    ⟨hp,free_iff.mp hfree⟩
  have hmap : (t.attach g p).bridges = t.bridges.map
      (fun b => { b with ports := if b.name = g then b.ports ++ [p] else b.ports }) := by
    rw [attach,dif_pos hcond]
  refine ⟨has_of_map hmap (fun _ => rfl),isUp_of_map hmap (fun _ => rfl) (fun _ => rfl),?_⟩
  intro h q
  simp only [mem_ports,hmap,List.mem_map]
  constructor
  · rintro ⟨x,⟨b,hb,rfl⟩,rfl,hq⟩
    by_cases hbg : b.name = g
    · simp only [hbg,if_true,List.mem_append,List.mem_singleton] at hq
      exact hq.imp (fun h => ⟨b,hb,rfl,h⟩) (fun h => ⟨hbg,h⟩)
    · simp only [hbg,if_false] at hq
      exact Or.inl ⟨b,hb,rfl,hq⟩
  · rintro (⟨b,hb,rfl,hq⟩ | ⟨rfl,rfl⟩)
    · refine ⟨_,⟨b,hb,rfl⟩,rfl,?_⟩
      by_cases hbg : b.name = g <;> simp [hbg,hq]
    · obtain ⟨b,hb,rfl⟩ := hg
      exact ⟨_,⟨b,hb,rfl⟩,rfl,by simp⟩

theorem has_addBridge (t : BridgeTable) (g : Str) :
    (∀ h, (t.addBridge g).Has h ↔ t.Has h ∨ h = g) ∨ ∀ h, (t.addBridge g).Has h ↔ t.Has h := by
  by_cases hcond : (Word g ∧ g.length < 16) ∧ ¬t.Has g
  · have hbridges : (t.addBridge g).bridges =
        t.bridges ++ [⟨g,"8000.000000000000".toList,false,false,[]⟩] := by
      rw [addBridge,dif_pos hcond]
    refine Or.inl (fun h => ?_)
    simp only [Has,hbridges,List.mem_append,List.mem_singleton]
    constructor
    · rintro ⟨b,hb | rfl,rfl⟩
      · exact Or.inl ⟨b,hb,rfl⟩
      · exact Or.inr rfl
    · rintro (⟨b,hb,rfl⟩ | rfl)
      · exact ⟨b,Or.inl hb,rfl⟩
      · exact ⟨_,Or.inr rfl,rfl⟩
  · refine Or.inr (fun h => ?_)
    rw [addBridge,dif_neg hcond]

theorem setDown_spec (t : BridgeTable) (g : Str) :
    (∀ h, (t.setDown g).Has h ↔ t.Has h) ∧
    (∀ h p, p ∈ (t.setDown g).ports h ↔ p ∈ t.ports h) ∧ (t.setDown g).isUp g = false := by
  refine ⟨has_of_map rfl (fun _ => rfl),?_,?_⟩
  · intro h p
    simp only [mem_ports,setDown,restrict,List.mem_map]
    constructor
    · rintro ⟨x,⟨b,hb,rfl⟩,rfl,hp⟩
      exact ⟨b,hb,rfl,hp⟩
    · rintro ⟨b,hb,rfl,hp⟩
      exact ⟨_,⟨b,hb,rfl⟩,rfl,hp⟩
  · have hmap : (t.setDown g).bridges =
        t.bridges.map (fun b => { b with up := if b.name = g then false else b.up }) := rfl
    have hfind := find_of_map hmap (fun _ => rfl) g
    rw [isUp,hfind]
    cases hf : t.find g with
    | none => rfl
    | some b => simp [(find_some hf).2]

theorem removeBridge_spec (t : BridgeTable) (g : Str) :
    (∀ h, h ≠ g → ((t.removeBridge g).Has h ↔ t.Has h)) ∧
    (∀ h p, h ≠ g → (p ∈ (t.removeBridge g).ports h ↔ p ∈ t.ports h)) ∧
    (t.isUp g = false → ¬(t.removeBridge g).Has g) := by
  have hmem : ∀ b, b ∈ (t.removeBridge g).bridges ↔
      b ∈ t.bridges ∧ (b.name ≠ g ∨ b.up = true) := by
    intro b
    simp [removeBridge,List.mem_filter]
  refine ⟨?_,?_,?_⟩
  · intro h hne
    simp only [Has,hmem]
    constructor
    · rintro ⟨b,⟨hb,_⟩,rfl⟩
      exact ⟨b,hb,rfl⟩
    · rintro ⟨b,hb,rfl⟩
      exact ⟨b,⟨hb,Or.inl hne⟩,rfl⟩
  · intro h p hne
    simp only [mem_ports,hmem]
    constructor
    · rintro ⟨b,⟨hb,_⟩,rfl,hp⟩
      exact ⟨b,hb,rfl,hp⟩
    · rintro ⟨b,hb,rfl,hp⟩
      exact ⟨b,⟨hb,Or.inl hne⟩,rfl,hp⟩
  · rintro hdown ⟨b,hb,rfl⟩
    obtain ⟨hbt,hcond⟩ := (hmem b).mp hb
    have hup : b.up = false := by simpa [isUp,find_eq hbt] using hdown
    simp [hup] at hcond

end BridgeTable

/-- What `vconfig rem d; brctl delif g p` takes off; a newline in `d` or `p` ends the command. -/
def dropped (d g p : Str) (h q : Str) : Bool :=
  decide (q = d.takeWhile (· != '\n')) || (decide (h = g) && decide (q = p.takeWhile (· != '\n')))

def runRem (args : List Str) (t : BridgeTable) : BridgeTable :=
  match args with
  | [d,_,_,g,p] => t.removePorts (dropped d.dropLast g p)
  | _ => t

def runAdd (args : List Str) (t : BridgeTable) : BridgeTable :=
  match args with
  | [_,_,_,_,g,p] => t.attach g p
  | _ => t

/-- The arguments of `brctl addbr`; a name with a blank is refused. -/
def runAddbr (args : List Str) (t : BridgeTable) : BridgeTable :=
  match args with
  | [g] => t.addBridge g
  | _ => t

def runDelbr (args : List Str) (t : BridgeTable) : BridgeTable :=
  match args with
  | [g] => t.removeBridge g
  | _ => t

def runDown (args : List Str) (t : BridgeTable) : BridgeTable :=
  match args with
  | [_,g,_] => t.setDown g
  | _ => t

def runLine (line : Str) (t : BridgeTable) : BridgeTable :=
  match line.splitOn ' ' with
  | c₁ :: c₂ :: args =>
    if [c₁,c₂] = ["brctl".toList,"addbr".toList] then runAddbr args t
    else if [c₁,c₂] = ["brctl".toList,"delbr".toList] then runDelbr args t
    else if [c₁,c₂] = ["ip".toList,"link".toList] then runDown args t
    else if [c₁,c₂] = ["vconfig".toList,"add".toList] then runAdd args t
    else if [c₁,c₂] = ["vconfig".toList,"rem".toList] then runRem args t
    else t
  | _ => t

/-- What the listings print; `grep -w` searches as described in `grep`. -/
def printLine (grep : Str → BridgeTable → Str) (line : Str) (t : BridgeTable) : Option Str :=
  if line = showAllLine then some (lastFields t.bridges)
  else if grepLine [] <+: line then some (grep (line.drop (grepLine []).length) t)
  else
    match t.bridges.find? (fun b => decide (line = showLine b.name)) with
    | some b => some (lastFields [b])
    | none => some []

/-- A host on a bridge table, with memory enough. -/
def linuxHost (grep : Str → BridgeTable → Str) : Host BridgeTable where
  system := runLine
  popen := printLine grep
  malloc _ h := some (atBreak h)

theorem linuxHost_system (grep : Str → BridgeTable → Str) (line : Str) (t : BridgeTable) :
    (linuxHost grep).system line t = runLine line t := rfl

theorem splitOn_word {w : Str} (hw : ' ' ∉ w) : w.splitOn ' ' = [w] := by
  have h : ([' '].intercalate [w]).splitOn ' ' = [w] :=
    List.splitOn_intercalate ' ' (by simpa using hw) (by simp)
  simpa [List.intercalate] using h

theorem splitOn_cons {w : Str} (hw : ' ' ∉ w) (rest : Str) :
    (w ++ ' ' :: rest).splitOn ' ' = w :: rest.splitOn ' ' := by
  rw [List.splitOn_append_cons_self_of_not_mem hw]

theorem runLine_addbr (g : Str) (t : BridgeTable) :
    runLine (addbrLine g) t = runAddbr (g.splitOn ' ') t := by
  have h : addbrLine g = "brctl".toList ++ ' ' :: ("addbr".toList ++ ' ' :: g) := rfl
  rw [runLine,h,splitOn_cons (by decide),splitOn_cons (by decide)]
  rfl

theorem runLine_delbr {g : Str} (hg : ' ' ∉ g) (t : BridgeTable) :
    runLine (delbrLine g) t = t.removeBridge g := by
  have h : delbrLine g = "brctl".toList ++ ' ' :: ("delbr".toList ++ ' ' :: g) := rfl
  rw [runLine,h,splitOn_cons (by decide),splitOn_cons (by decide),splitOn_word hg]
  rfl

theorem runLine_down {g : Str} (hg : ' ' ∉ g) (t : BridgeTable) :
    runLine (downLine g) t = t.setDown g := by
  have h : downLine g = "ip".toList ++ ' ' :: ("link".toList ++ ' ' :: ("set".toList ++ ' ' ::
      (g ++ ' ' :: "down".toList))) := List.append_assoc _ _ _
  rw [runLine,h,splitOn_cons (by decide),splitOn_cons (by decide),splitOn_cons (by decide),
    splitOn_cons hg,splitOn_word (by decide)]
  rfl

theorem runLine_add {i v g : Str} (hi : ' ' ∉ i) (hv : ' ' ∉ v) (hg : ' ' ∉ g)
    (t : BridgeTable) : runLine (addLine i v g) t = t.attach g (portName i v) := by
  have h : addLine i v g = "vconfig".toList ++ ' ' :: ("add".toList ++ ' ' :: (i ++ ' ' ::
      (v ++ [';'] ++ ' ' :: ("brctl".toList ++ ' ' :: ("addif".toList ++ ' ' :: (g ++ ' ' ::
        portName i v)))))) := by
    simp only [addLine_eq,List.append_assoc]
    exact rfl
  rw [runLine,h,splitOn_cons (by decide),splitOn_cons (by decide),splitOn_cons hi,
    splitOn_cons (by simpa using hv),splitOn_cons (by decide),splitOn_cons (by decide),
    splitOn_cons hg,splitOn_word (by simp [portName,hi,hv])]
  rfl

theorem runLine_rem {i v g : Str} (hi : ' ' ∉ i) (hv : ' ' ∉ v) (hg : ' ' ∉ g)
    (t : BridgeTable) :
    runLine (remLine i v g) t = t.removePorts (dropped (portName i v) g i) := by
  have h : remLine i v g = "vconfig".toList ++ ' ' :: ("rem".toList ++ ' ' ::
      (portName i v ++ [';'] ++ ' ' :: ("brctl".toList ++ ' ' :: ("delif".toList ++ ' ' ::
        (g ++ ' ' :: i))))) := by
    simp only [remLine_eq,portName,List.append_assoc]
    exact rfl
  have hdrop : (portName i v ++ [';']).dropLast = portName i v := List.dropLast_concat
  have hargs : ∀ c c', runRem [portName i v ++ [';'],c,c',g,i] t =
      t.removePorts (dropped (portName i v) g i) := by
    intro c c'
    simp only [runRem,hdrop]
  rw [runLine,h,splitOn_cons (by decide),splitOn_cons (by decide),
    splitOn_cons (by simp [portName,hi,hv]),splitOn_cons (by decide),splitOn_cons (by decide),
    splitOn_cons hg,splitOn_word hi]
  exact hargs "brctl".toList "delif".toList

theorem portName_noSpace {i v : Str} (hi : NoSpace i) (hv : NoSpace v) : NoSpace (portName i v) := by
  have hdot : isSpace '.' = false := by decide
  simp [portName,hi,hv,hdot]

theorem linuxHost_ports (grep : Str → BridgeTable → Str) : PortTools (linuxHost grep) id where
  idle _ := rfl
  attach t i v g hi hv hg hfree := by
    have hp : Word (portName i v) := ⟨by simp [portName],portName_noSpace hi.2 hv.2⟩
    rw [linuxHost_system,runLine_add (hi.not_mem (by decide)) (hv.not_mem (by decide))
      (hg.word.not_mem (by decide))]
    exact attach_relabels hg hp hfree
  detach t i v g hi hv hg := by
    rw [linuxHost_system,runLine_rem (hi.not_mem (by decide)) (hv.not_mem (by decide))
      (hg.word.not_mem (by decide))]
    refine (removePorts_relabels t _).congr (fun h p => ?_)
    have hnl : '\n' ∉ i := hi.not_mem (by decide)
    have hname : '\n' ∉ portName i v := (portName_noSpace hi hv).not_mem (by decide)
    simp [dropped,takeWhile_ne hnl,takeWhile_ne hname]
  detachNewline t w g hw hg := by
    have hi : ' ' ∉ w ++ ['\n'] := by simp [hw.not_mem (by decide : isSpace ' ' = true)]
    rw [linuxHost_system,runLine_rem hi (by simp) (hg.word.not_mem (by decide))]
    refine (removePorts_relabels t _).congr (fun h p => ?_)
    have hname : portName (w ++ ['\n']) [] = w ++ '\n' :: ['.'] := by simp [portName]
    have hnl : '\n' ∉ w := hw.not_mem (by decide)
    simp only [dropped,hname,takeWhile_ne_until hnl]
    by_cases hp : p = w <;> simp [hp]

theorem linuxHost_groups (grep : Str → BridgeTable → Str) : GroupTools (linuxHost grep) id where
  addbr t g := by
    rw [linuxHost_system,runLine_addbr]
    by_cases hg : ' ' ∈ g
    · obtain ⟨w,rest,rfl,hw⟩ := List.eq_append_cons_of_mem hg
      rw [splitOn_cons hw]
      refine Or.inr (fun h => ?_)
      cases hs : rest.splitOn ' ' with
      | nil => simp [List.splitOn_ne_nil] at hs
      | cons x xs => rfl
    · rw [splitOn_word hg]
      exact has_addBridge t g
  down t g hg := by
    rw [linuxHost_system,runLine_down (hg.word.not_mem (by decide))]
    exact setDown_spec t g
  delbr t g hg := by
    rw [linuxHost_system,runLine_delbr (hg.word.not_mem (by decide))]
    exact removeBridge_spec t g

theorem showLine_inj {g g' : Str} (h : showLine g = showLine g') : g = g' :=
  List.append_cancel_left (List.append_cancel_right h)

theorem showLine_ne_all (g : Str) : showLine g ≠ showAllLine := by
  intro h
  have hlen := congrArg List.length h
  have hall : showAllLine.length = 42 := by decide
  have hone : (showLine g).length = g.length+11+32 := by
    simp [showLine_eq]
  omega

theorem not_grepLine_showLine {g : Str} (hg : Word g) : ¬grepLine [] <+: showLine g := by
  intro h
  have hgrep : grepLine [] = "brctl show ".toList ++ ['|',' ','g','r','e','p',' ','-','w',' '] := by
    decide
  have hshow : showLine g = "brctl show ".toList ++
      (g ++ ' ' :: "| awk '\x7b print $NF \x7d' | tail +2".toList) := List.append_assoc _ _ _
  rw [hgrep,hshow,List.prefix_append_right_inj] at h
  obtain ⟨hne,hns⟩ := hg
  rcases g with _ | ⟨c,_ | ⟨d,g⟩⟩
  · exact hne rfl
  · have htail := (List.cons_prefix_cons.mp h).2
    revert htail
    decide
  · have htail := (List.cons_prefix_cons.mp h).2
    have hblank : ' ' = d := (List.cons_prefix_cons.mp htail).1
    exact hns.not_mem (c := d) (hblank ▸ (by decide)) (by simp)

theorem linuxHost_show (grep : Str → BridgeTable → Str) : ShowTools (linuxHost grep) id where
  silent t := by
    have hnone : t.bridges.find? (fun b => decide ([] = showLine b.name)) = none := by
      simp [showLine_eq]
    show printLine grep [] t = _
    rw [printLine,if_neg (by decide),if_neg (by decide),hnone]
  all t := by
    show printLine grep showAllLine t = _
    rw [printLine,if_pos rfl]
    rfl
  one t b hb := by
    have hfind : t.bridges.find? (fun c => decide (showLine b.name = showLine c.name)) =
        some b := by
      have hsame : (fun c : Bridge => decide (showLine b.name = showLine c.name)) =
          fun c => decide (c.name = b.name) := by
        funext c
        exact decide_eq_decide.mpr ⟨fun h => (showLine_inj h).symm,fun h => by rw [h]⟩
      rw [hsame]
      exact find_eq hb
    show printLine grep (showLine b.name) t = _
    rw [printLine,if_neg (showLine_ne_all _),if_neg (not_grepLine_showLine (t.words b hb).1),hfind]

/-! Two answers of `grep -w`: the search in the listing, and one that knows the bridges. -/

def grepShow (n : Str) (t : BridgeTable) : Str :=
  if n = [] then [] else unlines (grepWord n (brctlShow t.bridges))

def grepExact (n : Str) (t : BridgeTable) : Str := if t.Has n then n else []

def linuxEnv (grep : Str → BridgeTable → Str) : Env BridgeTable :=
  ⟨Limits.reference,Safec.reference,linuxHost grep⟩

def linuxHal (t : BridgeTable) : Hal BridgeTable := ⟨t,ConfigList.empty,[]⟩

theorem popen_grepLine (grep : Str → BridgeTable → Str) (n : Str) (t : BridgeTable) :
    (linuxHost grep).popen (grepLine n) t = some (grep n t) := by
  have hne : grepLine n ≠ showAllLine := by
    intro h
    have htake : (grepLine n).take 21 = grepLine [] := rfl
    have hall : showAllLine.take 21 ≠ grepLine [] := by decide
    exact hall (h ▸ htake)
  have hpre : grepLine [] <+: grepLine n := ⟨n,rfl⟩
  have hdrop : (grepLine n).drop (grepLine []).length = n := rfl
  show printLine grep (grepLine n) t = _
  rw [printLine,if_neg hne,if_pos hpre,hdrop]

theorem grepExact_test {g : Str} (hg : Word g) (hfit : (grepLine g).length < 128)
    (t : BridgeTable) : isThisGroupAvailableInLinuxBridge (linuxEnv grepExact) (some g) t = true ↔
      t.Has g := by
  have hopen : (linuxEnv grepExact).host.popen (cmdBuff (linuxEnv grepExact) (grepLine g)) t =
      some (grepExact g t) := by
    rw [cmdBuff_eq,if_pos hfit]
    exact popen_grepLine grepExact g t
  have hlen : (grepExact g t).length < 512 := by
    have hg : (grepLine g).length = g.length+21 := by simp [grepLine_eq]
    by_cases h : t.Has g
    · simp only [grepExact,h,if_true]
      omega
    · simp [grepExact,h]
  rw [isThisGroupAvailable_occurs hopen,collected_short hlen]
  by_cases h : t.Has g
  · simp [grepExact,h]
  · simp [grepExact,h,hg.1]

def twoGroups : BridgeTable where
  bridges := [⟨"brlan0".toList,"8000.3c".toList,false,true,["eth0.5".toList]⟩,
    ⟨"brlan1".toList,"8000.3d".toList,true,true,["eth1".toList]⟩]
  names_nodup := by decide
  words := by decide
  disjoint := by decide

end RdkHal.Vlan
