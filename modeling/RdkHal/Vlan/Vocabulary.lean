import RdkHal.Lib.WordSearch
import RdkHal.Vlan.GroupTest
import RdkHal.Vlan.Refinement

/-! A discipline of names under which the word search for a group is right in every state that the
calls reach, so that what they do can be told from their arguments alone. -/

set_option autoImplicit false

namespace RdkHal.Vlan
open Text BridgeTable Runs

variable {σ : Type} {E : Env σ} {net : σ → BridgeTable}

def IdWord (w : Str) : Prop :=
  (w.length = 4 ∨ w.length = 12) ∧ ∀ c ∈ w, c ∈ "0123456789abcdef".toList

instance (w : Str) : Decidable (IdWord w) := inferInstanceAs (Decidable (_ ∧ _))

def BridgeId (id : Str) : Prop := id.length = 17 ∧ ∀ w ∈ wordsOf id, IdWord w

instance (id : Str) : Decidable (BridgeId id) := inferInstanceAs (Decidable (_ ∧ _))

def BridgeIds (t : BridgeTable) : Prop := ∀ b ∈ t.bridges, BridgeId b.id

def listingWords : List Str := wordsOf headerLine ++ ["yes".toList,"no".toList]

theorem columns_append (b : Bridge) (r : Str) : b.columns ++ r =
    b.name ++ '\t' :: '\t' :: (b.id ++ '\t' :: (stpFlag b.stp ++ '\t' :: '\t' :: r)) := by
  simp [Bridge.columns]

theorem wordsOf_columns (b : Bridge) (r : Str) : wordsOf (b.columns ++ r) =
    wordsOf b.name ++ ([] :: (wordsOf b.id ++ (wordsOf (stpFlag b.stp) ++ ([] :: wordsOf r)))) := by
  have htab : isWordChar '\t' = false := by decide
  rw [columns_append,wordsOf_append_cons _ htab,wordsOf_cons htab,wordsOf_append_cons _ htab,
    wordsOf_append_cons _ htab,wordsOf_cons htab]

theorem wordsOf_portLine (p : Str) :
    wordsOf ("\t\t\t\t\t\t\t".toList ++ p) = List.replicate 7 [] ++ wordsOf p := by
  have htab : isWordChar '\t' = false := by decide
  have hline : "\t\t\t\t\t\t\t".toList ++ p =
      '\t' :: '\t' :: '\t' :: '\t' :: '\t' :: '\t' :: '\t' :: p := rfl
  rw [hline]
  simp only [wordsOf_cons htab]
  rfl

theorem wordsOf_stpFlag (stp : Bool) : wordsOf (stpFlag stp) = [stpFlag stp] := by
  cases stp <;> decide

theorem wordsOf_portName (i v : Str) : wordsOf (portName i v) = wordsOf i ++ wordsOf v :=
  wordsOf_append_cons i (by decide) v

structure Vocabulary where
  groups : List Str
  devices : List Str
  tags : List Str

namespace Vocabulary

/-- The name of a group is one word, and no word of a listing, of an id, of a device or of a
VLAN ID. -/
structure Clear (V : Vocabulary) : Prop where
  name : ∀ g ∈ V.groups, BridgeName g
  word : ∀ g ∈ V.groups, ∀ c ∈ g, isWordChar c = true
  listing : ∀ g ∈ V.groups, g ∉ listingWords
  id : ∀ g ∈ V.groups, ¬IdWord g
  device : ∀ i ∈ V.devices, DeviceName i ∧ ∀ g ∈ V.groups, g ∉ wordsOf i
  tag : ∀ v ∈ V.tags, VlanTag v ∧ ∀ g ∈ V.groups, g ∉ wordsOf v

structure Uses (V : Vocabulary) (c : Call) : Prop where
  group : ∀ g ∈ c.group, g ∈ V.groups
  device : ∀ i ∈ c.device, i ∈ V.devices
  tag : ∀ v ∈ c.tag, v ∈ V.tags

theorem uses_iff (V : Vocabulary) (c : Call) : V.Uses c ↔ (c.group.all V.groups.contains &&
    c.device.all V.devices.contains && c.tag.all V.tags.contains) = true := by
  have hall : ∀ (o : Option Str) (l : List Str),
      o.all l.contains = true ↔ ∀ s ∈ o, s ∈ l := by
    intro o l
    cases o <;> simp
  rw [Bool.and_eq_true,Bool.and_eq_true,hall,hall,hall]
  exact ⟨fun h => ⟨⟨h.group,h.device⟩,h.tag⟩,fun h => ⟨h.1.1,h.1.2,h.2⟩⟩

instance (V : Vocabulary) (c : Call) : Decidable (V.Uses c) := decidable_of_iff' _ (uses_iff V c)

structure Table (V : Vocabulary) (t : BridgeTable) : Prop where
  groups : ∀ b ∈ t.bridges, b.name ∈ V.groups
  ids : BridgeIds t
  ports : ∀ b ∈ t.bridges, ∀ p ∈ b.ports, ∃ i v, p = portName i v ∧ i ∈ V.devices ∧ v ∈ V.tags

variable {V : Vocabulary} {t : BridgeTable} {g : Str}

theorem Clear.admitted (hV : V.Clear) {c : Call} (h : V.Uses c) : c.Admitted :=
  ⟨fun g hg => hV.name g (h.group g hg),fun i hi => (hV.device i (h.device i hi)).1,
    fun v hv => (hV.tag v (h.tag v hv)).1⟩

theorem Clear.not_port (hV : V.Clear) (hg : g ∈ V.groups) {p : Str}
    (hp : ∃ i v, p = portName i v ∧ i ∈ V.devices ∧ v ∈ V.tags) : g ∉ wordsOf p := by
  obtain ⟨i,v,rfl,hi,hv⟩ := hp
  rw [wordsOf_portName,List.mem_append,not_or]
  exact ⟨(hV.device i hi).2 g hg,(hV.tag v hv).2 g hg⟩

theorem Clear.not_columns (hV : V.Clear) (hg : g ∈ V.groups) {b : Bridge} (hb : b.name ∈ V.groups)
    (hid : BridgeId b.id) (hne : b.name ≠ g) {r : Str} (hr : g ∉ wordsOf r) :
    g ∉ wordsOf (b.columns ++ r) := by
  have hnil : g ≠ [] := (hV.name g hg).1.1
  have hlisting := hV.listing g hg
  rw [wordsOf_columns,wordsOf_word (hV.word b.name hb),wordsOf_stpFlag]
  simp only [List.mem_append,List.mem_cons,List.not_mem_nil,or_false,not_or]
  refine ⟨hne.symm,hnil,fun hw => hV.id g hg (hid.2 g hw),?_,hnil,hr⟩
  rintro rfl
  apply hlisting
  cases b.stp <;> simp [listingWords,stpFlag]

end Vocabulary

/-! What the search prints -/

def Bridge.firstLine (b : Bridge) : Str := b.columns ++ b.ports.headD []

def Bridge.moreLines (b : Bridge) : List Str := b.ports.tail.map ("\t\t\t\t\t\t\t".toList ++ ·)

theorem Bridge.showLines_eq (b : Bridge) : b.showLines = b.firstLine :: b.moreLines := by
  unfold Bridge.showLines Bridge.firstLine Bridge.moreLines
  cases b.ports with
  | nil => simp
  | cons p ps => rfl

theorem Bridge.hasWord_firstLine {b : Bridge} (hne : b.name ≠ []) :
    hasWord b.name none b.firstLine = true := by
  rw [Bridge.firstLine,columns_append]
  exact hasWord_start hne rfl

namespace Vocabulary

variable {V : Vocabulary} {t : BridgeTable} {g : Str}

theorem Clear.not_moreLines (hV : V.Clear) (hg : g ∈ V.groups) {b : Bridge}
    (hports : ∀ p ∈ b.ports, ∃ i v, p = portName i v ∧ i ∈ V.devices ∧ v ∈ V.tags) :
    ∀ l ∈ b.moreLines, g ∉ wordsOf l := by
  intro l hl
  obtain ⟨p,hp,rfl⟩ := List.mem_map.mp hl
  rw [wordsOf_portLine,List.mem_append,not_or]
  refine ⟨fun hnil => (hV.name g hg).1.1 (List.eq_of_mem_replicate hnil),?_⟩
  exact hV.not_port hg (hports p (List.mem_of_mem_tail hp))

theorem Clear.search_bridge (hV : V.Clear) (hg : g ∈ V.groups) {b : Bridge} (hb : b.name ∈ V.groups)
    (hid : BridgeId b.id)
    (hports : ∀ p ∈ b.ports, ∃ i v, p = portName i v ∧ i ∈ V.devices ∧ v ∈ V.tags) :
    grepWord g b.showLines = if b.name = g then [b.firstLine] else [] := by
  have hmore := grepWord_none (hV.word g hg) (hV.not_moreLines hg hports)
  by_cases hname : b.name = g
  · subst hname
    have hfirst := b.hasWord_firstLine (hV.name _ hg).1.1
    rw [if_pos rfl,b.showLines_eq,grepWord,List.filter_cons_of_pos hfirst]
    rw [grepWord] at hmore
    rw [hmore]
  · rw [if_neg hname]
    refine grepWord_none (hV.word g hg) (fun l hl => ?_)
    rw [b.showLines_eq] at hl
    rcases List.mem_cons.mp hl with rfl | hl
    · refine hV.not_columns hg hb hid hname ?_
      cases hp : b.ports with
      | nil => simpa [wordsOf_nil] using (hV.name g hg).1.1
      | cons p ps => exact hV.not_port hg (hports p (by simp [hp]))
    · exact hV.not_moreLines hg hports l hl

theorem Clear.matching_eq (hV : V.Clear) (ht : V.Table t) (hg : g ∈ V.groups) :
    matching t g = ((t.find g).map Bridge.firstLine).toList := by
  have hheader : ¬hasWord g none headerLine = true := by
    intro h
    exact hV.listing g hg (List.mem_append_left _ (hasWord_mem (hV.word g hg) h))
  have hbridges : ∀ bs : List Bridge, (∀ b ∈ bs, b ∈ t.bridges) → (bs.map Bridge.name).Nodup →
      grepWord g (bs.flatMap Bridge.showLines) =
        ((bs.find? (fun b => decide (b.name = g))).map Bridge.firstLine).toList := by
    intro bs hbs hnodup
    induction bs with
    | nil => rfl
    | cons b bs ih =>
      have hb := hbs b List.mem_cons_self
      rw [List.map_cons,List.nodup_cons] at hnodup
      have hone := hV.search_bridge hg (ht.groups b hb) (ht.ids b hb) (ht.ports b hb)
      have hrest := ih (fun x hx => hbs x (List.mem_cons_of_mem _ hx)) hnodup.2
      rw [grepWord] at hone hrest ⊢
      rw [List.flatMap_cons,List.filter_append,hone,hrest]
      by_cases hname : b.name = g
      · have hnone : bs.find? (fun x => decide (x.name = g)) = none := by
          rw [List.find?_eq_none]
          intro x hx hxg
          exact hnodup.1 (hname ▸ (of_decide_eq_true hxg) ▸ List.mem_map_of_mem hx)
        simp [hname,hnone]
      · simp [hname]
  have hall := hbridges t.bridges (fun _ hb => hb) t.names_nodup
  rw [matching,brctlShow,grepWord,List.filter_cons_of_neg hheader]
  exact hall

/-- The existence test is right about the groups of a clear vocabulary. -/
theorem Clear.test_exact (hV : V.Clear) (hgrep : GrepTools E.host net) {s : σ}
    (ht : V.Table (net s)) (hg : g ∈ V.groups) :
    isThisGroupAvailableInLinuxBridge E (some g) s = true ↔ (net s).Has g := by
  have hname := hV.name g hg
  have hlen := hname.2
  have hline : (grepLine g).length < 128 := by
    have hgrepLine : (grepLine g).length = g.length+21 := by simp [grepLine_eq]
    rw [hgrepLine]
    omega
  have hplain : Plain g := by
    have hmeta : ∀ c ∈ '-' :: metacharacters, isWordChar c = false := by decide
    refine ⟨hname.1.2,fun c hc hm => ?_,fun hhead => ?_⟩
    · have hword := hV.word g hg c hc
      rw [hmeta c (List.mem_cons_of_mem _ hm)] at hword
      cases hword
    · have hword := hV.word g hg '-' (List.mem_of_mem_head? hhead)
      rw [hmeta '-' List.mem_cons_self] at hword
      cases hword
  have hmatch := hV.matching_eq ht hg
  have hshort : (unlines (matching (net s) g)).length < 512 := by
    rw [hmatch]
    cases hfind : (net s).find g with
    | none => simp [unlines]
    | some b =>
      obtain ⟨hb,hbg⟩ := find_some hfind
      have hnamelen := (hV.name b.name (ht.groups b hb)).2
      have hid := (ht.ids b hb).1
      have hstp : (stpFlag b.stp).length ≤ 3 := by cases b.stp <;> decide
      have hport : (b.ports.headD []).length ≤ 15 := by
        cases hp : b.ports with
        | nil => simp
        | cons p ps =>
          obtain ⟨i,v,rfl,hi,hv⟩ := ht.ports b hb p (by simp [hp])
          have hilen := (hV.device i hi).1.2.2
          have hvlen := (hV.tag v hv).1.2
          simp [portName]
          omega
      have hcolumns : b.firstLine.length = b.name.length + b.id.length + (stpFlag b.stp).length +
          (b.ports.headD []).length + 5 := by
        rw [Bridge.firstLine,columns_append]
        simp
        omega
      simp only [Option.map_some,Option.toList_some,unlines,List.flatMap_singleton,
        List.length_append,List.length_singleton,hcolumns]
      omega
  refine (isThisGroupAvailable_exact_iff hgrep g s).mpr ⟨hname.1.1,?_⟩
  rw [if_neg (not_not.mpr hline),if_pos hplain,if_pos hshort,hmatch]
  cases hfind : (net s).find g with
  | none => exact Or.inr rfl
  | some b => exact Or.inl ⟨b,find_some hfind⟩

structure Names (V : Vocabulary) (m : Manager) : Prop where
  group : ∀ g, (m.default g).isSome → g ∈ V.groups
  owner : ∀ i v g, m.owner (i,v) = some g → i ∈ V.devices ∧ v ∈ V.tags
  tag : ∀ g v, m.default g = some (some v) → v ∈ V.tags

theorem Names.vlan {m : Manager} (h : V.Names m) {v : Option Str} (hv : ∀ u ∈ v, u ∈ V.tags)
    {w : Str} (hw : m.vlan g v = some w) : w ∈ V.tags := by
  rw [Manager.vlan,Option.bind_eq_some_iff] at hw
  obtain ⟨d,hd,hor⟩ := hw
  cases v with
  | none => exact h.tag g w (by rw [hd,← hor]; rfl)
  | some u => exact hv w (by simpa using hor)

theorem Names.release {m : Manager} (h : V.Names m) (g : Str) : V.Names (m.release g) :=
  ⟨h.group,fun i v k hown => h.owner i v k (Manager.release_eq_some.mp hown).1,h.tag⟩

theorem Names.perform {m : Manager} (h : V.Names m) {c : Call} (hc : V.Uses c) :
    V.Names (m.perform c).2 := by
  have heffect := m.perform_effect c
  generalize (m.perform c).2 = m' at heffect ⊢
  cases heffect with
  | unchanged => exact h
  | @created g d _ =>
    refine ⟨fun k hk => ?_,h.owner,fun k v hk => ?_⟩
    · by_cases hkg : k = g
      · exact hkg ▸ hc.group g rfl
      · exact h.group k (by simpa [hkg] using hk)
    · by_cases hkg : k = g
      · have hd : d = some v := by simpa [hkg] using hk
        exact hc.tag v hd
      · exact h.tag k v (by simpa [hkg] using hk)
  | dissolved g =>
    refine ⟨fun k hk => ?_,(h.release g).owner,fun k v hk => ?_⟩
    · by_cases hkg : k = g
      · simp [hkg] at hk
      · exact h.group k (by simpa [hkg] using hk)
    · by_cases hkg : k = g
      · simp [hkg] at hk
      · exact h.tag k v (by simpa [hkg] using hk)
  | @attached g i w v hw _ =>
    refine ⟨h.group,fun j u k howner => ?_,h.tag⟩
    by_cases hp : (j,u) = (i,w)
    · obtain ⟨rfl,rfl⟩ := Prod.mk.inj hp
      exact ⟨hc.device j rfl,h.vlan hc.tag hw⟩
    · exact h.owner j u k (by simpa [hp] using howner)
  | @detached g i w v _ =>
    refine ⟨h.group,fun j u k howner => h.owner j u k ?_,h.tag⟩
    by_cases hp : (j,u) = (i,w)
    · simp [hp] at howner
    · simpa [hp] using howner
  | released g => exact h.release g

theorem Names.table {m : Manager} (h : V.Names m) {st : Hal σ} (hrep : m.Represents net st)
    {t : BridgeTable} (hthin : Thins (net st.os) t) (hids : BridgeIds t) : V.Table t := by
  refine ⟨fun b hb => ?_,hids,fun b hb p hp => ?_⟩
  · have hhas := (hthin.has b.name).mp ⟨b,hb,rfl⟩
    exact h.group b.name ((hrep.groups b.name).mp hhas)
  · have hmem := hthin.ports b.name p (mem_ports.mpr ⟨b,hb,rfl,hp⟩)
    obtain ⟨i,v,hname,howner⟩ := (hrep.ports b.name p).mp hmem
    exact ⟨i,v,hname,h.owner i v b.name howner⟩

end Vocabulary

theorem bridgeIds_exec (hids : ∀ s line, BridgeIds (net s) → BridgeIds (net (E.host.system line s)))
    (lines : List Str) {s : σ} (h : BridgeIds (net s)) : BridgeIds (net (E.host.exec s lines)) := by
  induction lines generalizing s with
  | nil => exact h
  | cons l lines ih => exact ih (hids s l h)

/-- With clear names the test is right about the groups of the calls in every state that these
reach. -/
theorem Vocabulary.Clear.sound (K : KernelTools E net) (hgrep : GrepTools E.host net)
    (hids : ∀ s line, BridgeIds (net s) → BridgeIds (net (E.host.system line s)))
    {V : Vocabulary} (hV : V.Clear) {st : Hal σ} (hnet : (net st.os).bridges = [])
    (hconf : st.config.entries = []) {calls : List Call} (huses : ∀ c ∈ calls, V.Uses c)
    (hgranted : Along (next (Call.perform E)) (Call.Granted E net) st calls) :
    Along (next (Call.perform E)) (Call.Sound E net) st calls := by
  have hempty : Manager.empty.Represents net st := Manager.Represents.empty st hnet hconf
  have hmore : ∀ (st : Hal σ) (c : Call),
      (∃ m : Manager, m.Represents net st ∧ V.Names m ∧ BridgeIds (net st.os)) →
      V.Uses c ∧ c.Granted E net st → c.Sound E net st := by
    rintro st c ⟨m,hrep,hnames,hid⟩ ⟨hc,hgrant⟩
    refine ⟨hV.admitted hc,fun g hg lines hthin => ?_,hgrant⟩
    exact hV.test_exact hgrep (hnames.table hrep hthin (bridgeIds_exec hids lines hid))
      (hc.group g hg)
  have hkeep : ∀ (st : Hal σ) (c : Call),
      (∃ m : Manager, m.Represents net st ∧ V.Names m ∧ BridgeIds (net st.os)) →
      V.Uses c ∧ c.Granted E net st →
      ∃ m : Manager, m.Represents net (next (Call.perform E) st c) ∧ V.Names m ∧
        BridgeIds (net (next (Call.perform E) st c).os) := by
    rintro st c ⟨m,hrep,hnames,hid⟩ hc
    have hsound := hmore st c ⟨m,hrep,hnames,hid⟩ hc
    obtain ⟨lines,_,hos,_⟩ := Call.issues E st c
    refine ⟨_,(hrep.step K hsound.admitted hsound.judged hsound.granted).2,hnames.perform hc.1,?_⟩
    rw [next,hos]
    exact bridgeIds_exec hids lines hid
  have hstart : V.Names Manager.empty :=
    ⟨fun g hg => (by cases hg),fun i v g howner => (by cases howner),fun g v hd => (by cases hd)⟩
  have hnoIds : BridgeIds (net st.os) := by
    intro b hb
    rw [hnet] at hb
    cases hb
  have hdomain := ((along_labels (next (Call.perform E))).mpr huses).and hgranted
  exact along_invariant hkeep hmore ⟨_,hempty,hstart,hnoIds⟩ hdomain

theorem BridgeIds.change {t t' : BridgeTable} (h : BridgeIds t) {f : Bridge → Bridge}
    (hbridges : t'.bridges = t.bridges.map f) (hid : ∀ b, (f b).id = b.id) : BridgeIds t' := by
  intro b hb
  rw [hbridges] at hb
  obtain ⟨x,hx,rfl⟩ := List.mem_map.mp hb
  rw [hid]
  exact h x hx

theorem BridgeIds.addBridge {t : BridgeTable} (h : BridgeIds t) (g : Str) :
    BridgeIds (t.addBridge g) := by
  by_cases hcond : (Word g ∧ g.length < 16) ∧ ¬t.Has g
  · rw [BridgeTable.addBridge,dif_pos hcond]
    intro b hb
    rcases List.mem_append.mp hb with hb | hb
    · exact h b hb
    · rw [List.mem_singleton.mp hb]
      exact (by decide : BridgeId "8000.000000000000".toList)
  · rwa [BridgeTable.addBridge,dif_neg hcond]

theorem BridgeIds.attach {t : BridgeTable} (h : BridgeIds t) (g p : Str) :
    BridgeIds (t.attach g p) := by
  by_cases hcond : Word p ∧ ∀ b ∈ t.bridges, p ∉ b.ports
  · rw [BridgeTable.attach,dif_pos hcond]
    exact h.change rfl (fun _ => rfl)
  · rwa [BridgeTable.attach,dif_neg hcond]

theorem runLine_ids (line : Str) {t : BridgeTable} (h : BridgeIds t) :
    BridgeIds (runLine line t) := by
  have haddbr : ∀ args, BridgeIds (runAddbr args t) := by
    intro args
    unfold runAddbr
    split
    · exact h.addBridge _
    · exact h
  have hdelbr : ∀ args, BridgeIds (runDelbr args t) := by
    intro args
    unfold runDelbr
    split
    · exact fun b hb => h b (List.mem_of_mem_filter hb)
    · exact h
  have hdown : ∀ args, BridgeIds (runDown args t) := by
    intro args
    unfold runDown
    split
    · exact h.change rfl (fun _ => rfl)
    · exact h
  have hattached : ∀ args, BridgeIds (runAdd args t) := by
    intro args
    unfold runAdd
    split
    · exact h.attach _ _
    · exact h
  have hrem : ∀ args, BridgeIds (runRem args t) := by
    intro args
    unfold runRem
    split
    · exact h.change rfl (fun _ => rfl)
    · exact h
  unfold runLine
  split
  · split_ifs
    · exact haddbr _
    · exact hdelbr _
    · exact hdown _
    · exact hattached _
    · exact hrem _
    · exact h
  · exact h

def homeNames : Vocabulary :=
  ⟨["brlan0".toList,"brlan1".toList,"brlan2".toList],["eth0".toList,"wlan1".toList],
    ["5".toList,"7".toList,"9".toList]⟩

theorem homeNames_clear : homeNames.Clear :=
  ⟨by decide,by decide,by decide,by decide,by decide,by decide⟩

theorem homeNames_granted {calls : List Call} (huses : ∀ c ∈ calls, homeNames.Uses c)
    (st : Hal BridgeTable) : Along (next (Call.perform (linuxEnv grepShow)))
      (Call.Granted (linuxEnv grepShow) id) st calls :=
  Along.mono (fun st _ hc => linuxEnv_granted grepShow (homeNames_clear.admitted hc) st)
    ((along_labels _).mpr huses)

theorem grepShow_sound {calls : List Call} (huses : ∀ c ∈ calls, homeNames.Uses c) :
    Along (next (Call.perform (linuxEnv grepShow))) (Call.Sound (linuxEnv grepShow) id)
      (linuxHal BridgeTable.empty) calls :=
  homeNames_clear.sound (E := linuxEnv grepShow) (linuxEnv_tools grepShow) linuxHost_grep
    (fun _ line h => runLine_ids line h) rfl rfl huses (homeNames_granted huses _)

def tenCalls : List Call :=
  [.addGroup (some "brlan0".toList) (some "5".toList),.addGroup (some "brlan1".toList) none,
   .addInterface (some "brlan0".toList) (some "eth0".toList) none,
   .addInterface (some "brlan1".toList) (some "eth0".toList) none,
   .addInterface (some "brlan1".toList) (some "eth0".toList) (some "7".toList),
   .printGroup (some "brlan1".toList),.printAllGroup,
   .delInterface (some "brlan1".toList) (some "eth0".toList) (some "5".toList),
   .deleteAllInterfaces (some "brlan1".toList),.delGroup (some "brlan0".toList)]

end RdkHal.Vlan
