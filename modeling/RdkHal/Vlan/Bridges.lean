import RdkHal.Vlan.Hal

/-! The bridge table of the kernel, what `brctl show` prints of it, and what the HAL reads
back from its lines. -/

set_option autoImplicit false

namespace RdkHal.Vlan
open Text

structure Bridge where
  name : Str
  id : Str
  stp : Bool
  up : Bool
  ports : List Str
  deriving DecidableEq, Repr

/-- A bridge has its name alone, and a port belongs to one bridge. -/
structure BridgeTable where
  bridges : List Bridge
  names_nodup : (bridges.map Bridge.name).Nodup
  words : ∀ b ∈ bridges, Word b.name ∧ Word b.id ∧ ∀ p ∈ b.ports, Word p
  disjoint : ∀ b ∈ bridges, ∀ b' ∈ bridges, ∀ p ∈ b.ports, p ∈ b'.ports → b = b'

namespace BridgeTable

def find (t : BridgeTable) (g : Str) : Option Bridge :=
  t.bridges.find? (fun b => decide (b.name = g))

def Has (t : BridgeTable) (g : Str) : Prop := ∃ b ∈ t.bridges, b.name = g

instance (t : BridgeTable) (g : Str) : Decidable (t.Has g) :=
  inferInstanceAs (Decidable (∃ b ∈ t.bridges, b.name = g))

def ports (t : BridgeTable) (g : Str) : List Str :=
  match t.find g with
  | some b => b.ports
  | none => []

def isUp (t : BridgeTable) (g : Str) : Bool :=
  match t.find g with
  | some b => b.up
  | none => false

theorem find_eq {t : BridgeTable} {b : Bridge} (hb : b ∈ t.bridges) : t.find b.name = some b := by
  have hnodup := t.names_nodup
  unfold find
  generalize t.bridges = bs at hb hnodup
  induction bs with
  | nil => simp at hb
  | cons x bs ih =>
    rw [List.map_cons,List.nodup_cons] at hnodup
    rcases List.mem_cons.mp hb with rfl | hb
    · simp
    · have hne : x.name ≠ b.name := fun h => hnodup.1 (h ▸ List.mem_map_of_mem hb)
      simp [hne,ih hb hnodup.2]

theorem find_some {t : BridgeTable} {g : Str} {b : Bridge} (h : t.find g = some b) :
    b ∈ t.bridges ∧ b.name = g := by
  refine ⟨List.mem_of_find?_eq_some h,?_⟩
  simpa using List.find?_some h

theorem mem_ports {t : BridgeTable} {g p : Str} :
    p ∈ t.ports g ↔ ∃ b ∈ t.bridges, b.name = g ∧ p ∈ b.ports := by
  constructor
  · intro h
    unfold ports at h
    cases hf : t.find g with
    | none => simp [hf] at h
    | some b =>
      obtain ⟨hb,hg⟩ := find_some hf
      exact ⟨b,hb,hg,by simpa [hf] using h⟩
  · rintro ⟨b,hb,rfl,hp⟩
    simpa [ports,find_eq hb] using hp

theorem free_iff {t : BridgeTable} {p : Str} :
    (∀ g, p ∉ t.ports g) ↔ ∀ b ∈ t.bridges, p ∉ b.ports := by
  constructor
  · intro h b hb hp
    exact h b.name (mem_ports.mpr ⟨b,hb,rfl,hp⟩)
  · intro h g hp
    obtain ⟨b,hb,_,hpb⟩ := mem_ports.mp hp
    exact h b hb hpb

theorem Has.of_port {t : BridgeTable} {g p : Str} (h : p ∈ t.ports g) : t.Has g := by
  obtain ⟨b,hb,hg,_⟩ := mem_ports.mp h
  exact ⟨b,hb,hg⟩

theorem Has.word {t : BridgeTable} {g : Str} (h : t.Has g) : Word g := by
  obtain ⟨b,hb,rfl⟩ := h
  exact (t.words b hb).1

theorem port_word {t : BridgeTable} {g p : Str} (h : p ∈ t.ports g) : Word p := by
  obtain ⟨b,hb,_,hp⟩ := mem_ports.mp h
  exact (t.words b hb).2.2 p hp

theorem port_unique {t : BridgeTable} {g g' p : Str} (h : p ∈ t.ports g) (h' : p ∈ t.ports g') :
    g = g' := by
  obtain ⟨b,hb,rfl,hp⟩ := mem_ports.mp h
  obtain ⟨b',hb',rfl,hp'⟩ := mem_ports.mp h'
  rw [t.disjoint b hb b' hb' p hp hp']

end BridgeTable

def stpFlag (stp : Bool) : Str := if stp then "yes".toList else "no".toList

def headerLine : Str := "bridge name\tbridge id\t\tSTP enabled\tinterfaces".toList

def Bridge.columns (b : Bridge) : Str :=
  b.name ++ "\t\t".toList ++ b.id ++ "\t".toList ++ stpFlag b.stp ++ "\t\t".toList

/-- The first port stands behind the columns of the bridge, each further one on its own line. -/
def Bridge.showLines (b : Bridge) : List Str :=
  match b.ports with
  | [] => [b.columns]
  | p :: ps => (b.columns ++ p) :: ps.map ("\t\t\t\t\t\t\t".toList ++ ·)

def brctlShow (bs : List Bridge) : List Str := headerLine :: bs.flatMap Bridge.showLines

/-- The pipeline `awk '\x7b print $NF \x7d' | tail +2` on these lines. -/
def lastFields (bs : List Bridge) : Str := unlines (((brctlShow bs).map lastField).drop 1)

/-- The ports of a bridge; where there are none, the STP flag is the last field. -/
def Bridge.portLines (b : Bridge) : List Str :=
  match b.ports with
  | [] => [stpFlag b.stp]
  | p :: ps => p :: ps

theorem word_stpFlag (stp : Bool) : Word (stpFlag stp) := by cases stp <;> decide

theorem dot_not_mem_stpFlag (stp : Bool) : '.' ∉ stpFlag stp := by cases stp <;> decide

theorem lastField_columns (b : Bridge) : lastField b.columns = stpFlag b.stp := by
  have h := lastField_tail (b.name ++ "\t\t".toList ++ b.id) "\t\t".toList
    (d := '\t') (by decide) (word_stpFlag b.stp) (by decide)
  simpa [Bridge.columns] using h

theorem lastField_columns_port (b : Bridge) {p : Str} (hp : Word p) :
    lastField (b.columns ++ p) = p := by
  have h := lastField_tail (b.name ++ "\t\t".toList ++ b.id ++ "\t".toList ++ stpFlag b.stp ++
    "\t".toList) [] (d := '\t') (by decide) hp (by simp)
  simpa [Bridge.columns] using h

theorem lastField_port {p : Str} (hp : Word p) : lastField ("\t\t\t\t\t\t\t".toList ++ p) = p := by
  have h := lastField_tail "\t\t\t\t\t\t".toList [] (d := '\t') (by decide) hp (by simp)
  simpa using h

theorem lastField_showLines {b : Bridge} (hb : ∀ p ∈ b.ports, Word p) :
    b.showLines.map lastField = b.portLines := by
  unfold Bridge.showLines Bridge.portLines
  cases hp : b.ports with
  | nil => simp [lastField_columns]
  | cons p ps =>
    rw [hp] at hb
    have hrest : ps.map (lastField ∘ ("\t\t\t\t\t\t\t".toList ++ ·)) = ps :=
      (List.map_congr_left (fun q hq =>
        lastField_port (hb q (List.mem_cons_of_mem _ hq)))).trans (List.map_id' ps)
    simp only [List.map_cons,List.map_map,hrest,lastField_columns_port b (hb p (by simp))]

theorem lastFields_eq {bs : List Bridge} (hbs : ∀ b ∈ bs, ∀ p ∈ b.ports, Word p) :
    lastFields bs = unlines (bs.flatMap Bridge.portLines) := by
  have hlines : (bs.flatMap Bridge.showLines).map lastField = bs.flatMap Bridge.portLines := by
    induction bs with
    | nil => rfl
    | cons b bs ih =>
      rw [List.flatMap_cons,List.flatMap_cons,List.map_append,
        lastField_showLines (hbs b (by simp)),ih (fun x hx => hbs x (List.mem_cons_of_mem _ hx))]
  simp [lastFields,brctlShow,hlines]

theorem word_portLines {b : Bridge} (hb : ∀ p ∈ b.ports, Word p) {f : Str}
    (hf : f ∈ b.portLines) : Word f := by
  unfold Bridge.portLines at hf
  cases hp : b.ports with
  | nil =>
    rw [hp] at hf
    rw [List.mem_singleton.mp hf]
    exact word_stpFlag b.stp
  | cons p ps =>
    rw [hp] at hf
    exact hb f (by rw [hp]; exact hf)

/-! What `sscanf` makes of one printed line -/

theorem sscanfPort_plain {f : Str} (hne : f ≠ []) (hf : '.' ∉ f) : sscanfPort f = (f,[]) := by
  simp only [sscanfPort,scanSet_all hne hf]

theorem sscanfPort_dotted {i v : Str} (hne : i ≠ []) (hi : '.' ∉ i) (hv : NoSpace v) :
    sscanfPort (i ++ '.' :: (v ++ ['\n'])) = (i,v) := by
  simp only [sscanfPort,scanSet_stop hne hi]
  cases v with
  | nil => rw [List.nil_append,scanWord_blank (by decide)]
  | cons c v => simp only [scanWord_line (d := '\n') ⟨by simp,hv⟩ (by decide) []]

theorem sscanfPort_head (rest : Str) : sscanfPort ('.' :: rest) = ([],[]) := by
  simp only [sscanfPort,scanSet_head]

theorem dot_cases (f : Str) : '.' ∉ f ∨ (∃ rest, f = '.' :: rest) ∨
    ∃ i v, i ≠ [] ∧ '.' ∉ i ∧ f = i ++ '.' :: v := by
  by_cases h : '.' ∈ f
  · obtain ⟨i,v,hf,hi⟩ := List.eq_append_cons_of_mem h
    cases i with
    | nil => exact Or.inr (Or.inl ⟨v,hf⟩)
    | cons c i => exact Or.inr (Or.inr ⟨c :: i,v,by simp,hi,hf⟩)
  · exact Or.inl h

theorem sscanfPort_chunk {buf : Str} (h : Chunk buf) :
    (NoSpace (sscanfPort buf).1 ∧ NoSpace (sscanfPort buf).2) ∨
    ∃ w, NoSpace w ∧ sscanfPort buf = (w ++ ['\n'],[]) := by
  obtain ⟨w,hw,hbuf⟩ := h
  rcases dot_cases buf with hplain | ⟨rest,rfl⟩ | ⟨i,v,hi,hdot,rfl⟩
  · by_cases hnil : buf = []
    · subst hnil
      exact Or.inl (by simp [sscanfPort,scanSet])
    · rw [sscanfPort_plain hnil hplain]
      rcases hbuf with rfl | rfl
      · exact Or.inl ⟨hw,noSpace_nil⟩
      · exact Or.inr ⟨w,hw,rfl⟩
  · rw [sscanfPort_head]
    exact Or.inl ⟨noSpace_nil,noSpace_nil⟩
  · have hi' : NoSpace i := by
      rcases hbuf with rfl | hnl
      · exact ((noSpace_append _ _).mp hw).1
      · have hdrop : (i ++ '.' :: v).dropLast = w := by rw [hnl,List.dropLast_concat]
        rw [List.dropLast_append_of_ne_nil (by simp)] at hdrop
        rw [← hdrop] at hw
        exact ((noSpace_append _ _).mp hw).1
    left
    simp only [sscanfPort,scanSet_stop hi hdot]
    cases hs : scanWord v with
    | none => exact ⟨hi',noSpace_nil⟩
    | some q =>
      obtain ⟨w',rest⟩ := q
      exact ⟨hi',scanWord_noSpace hs⟩

def portName (i v : Str) : Str := i ++ '.' :: v

theorem portName_inj {i j v w : Str} (hi : '.' ∉ i) (hj : '.' ∉ j)
    (h : portName i v = portName j w) : i = j ∧ v = w := by
  unfold portName at h
  induction i generalizing j with
  | nil =>
    cases j with
    | nil => exact ⟨rfl,by simpa using h⟩
    | cons d j => simp at h hj; exact absurd h.1 hj.1
  | cons c i ih =>
    cases j with
    | nil =>
      simp only [List.cons_append,List.nil_append,List.cons.injEq] at h
      simp only [List.mem_cons,not_or] at hi
      exact absurd h.1.symm hi.1
    | cons d j =>
      simp only [List.cons_append,List.cons.injEq] at h
      simp only [List.mem_cons,not_or] at hi hj
      obtain ⟨hij,hvw⟩ := ih hi.2 hj.2 h.2
      exact ⟨by rw [h.1,hij],hvw⟩

/-- For a device name without a dot the decoding of a line inverts the encoding. -/
theorem sscanfPort_line_iff {f i v : Str} (hf : Word f) (hi : i ≠ []) (hdot : '.' ∉ i)
    (hv : v ≠ []) : sscanfPort (f ++ ['\n']) = (i,v) ↔ f = portName i v := by
  rcases dot_cases f with hplain | ⟨rest,rfl⟩ | ⟨j,w,hj,hjdot,rfl⟩
  · rw [sscanfPort_plain (by simp) (by simpa using hplain)]
    constructor
    · intro h
      exact absurd (congrArg Prod.snd h).symm hv
    · rintro rfl
      simp [portName] at hplain
  · rw [List.cons_append,sscanfPort_head]
    constructor
    · intro h
      exact absurd (congrArg Prod.fst h).symm hi
    · intro h
      cases i with
      | nil => exact absurd rfl hi
      | cons c i =>
        simp only [portName,List.cons_append,List.cons.injEq] at h
        simp only [List.mem_cons,not_or] at hdot
        exact absurd h.1 hdot.1
  · have hw : NoSpace w := by
      have h := hf.2
      simp only [noSpace_append,noSpace_cons] at h
      exact h.2.2
    rw [List.append_assoc,List.cons_append,sscanfPort_dotted hj hjdot hw]
    constructor
    · intro h
      obtain ⟨rfl,rfl⟩ := Prod.mk.inj h
      rfl
    · intro h
      obtain ⟨rfl,rfl⟩ := portName_inj hjdot hdot h
      rfl

end RdkHal.Vlan
