import RdkHal.Lib.Runs
import RdkHal.Vlan.Config

/-! The configuration link and an ordered association list, over every sequence of operations;
and the link as a type whose values are chained, so that its operations are total. -/

set_option autoImplicit false

namespace RdkHal.Vlan
open Text Chain Runs

/-- A call of one of the three operations. `malloc` fails, or places the node at an address
that is not in use in the memory it meets. The lookup is given an array of the caller. -/
inductive ConfigOp where
  | insert (groupName vlanID : Str)
      (malloc : Option ((h : Heap VlanEntry) → {a : Addr // h.cell a = none}))
  | delete (groupName : Str)
  | get (groupName : Str) (vlanID : Bytes)

def VlanEntry.Fits (L : Limits) (e : VlanEntry) : Prop :=
  e.groupName.length < L.groupName ∧ e.vlanID.length < L.vlanID

instance (L : Limits) (e : VlanEntry) : Decidable (e.Fits L) :=
  inferInstanceAs (Decidable (_ ∧ _))

def ConfigOp.Fits (L : Limits) : ConfigOp → Prop
  | .insert g v _ => VlanEntry.Fits L ⟨g,v⟩
  | .delete _ => True
  | .get _ vlanID => L.vlanID ≤ vlanID.length

/-- The return value, and the string that the caller's array then holds. -/
structure Answer where
  ret : Ret
  vlanID : Option Str
  deriving DecidableEq, Repr

def ConfigOp.apply (L : Limits) (lib : Safec) (c : Config) : ConfigOp → Option (Answer × Config)
  | .insert g v malloc => do
    let (ret,c) ← insertVlanConfigEntry L lib c (malloc.map (· c.heap)) (some g) (some v)
    pure (⟨ret,none⟩,c)
  | .delete g => do
    let (ret,c) ← deleteVlanConfigEntry c (some g)
    pure (⟨ret,none⟩,c)
  | .get g vlanID => do
    let (ret,v) ← getVlanIdForGroupName L lib c (some g) (some vlanID)
    pure (⟨ret,v.bind strAt⟩,c)

def applyAll (L : Limits) (lib : Safec) : Config → List ConfigOp → Option (List Answer × Config)
  | c, [] => some ([],c)
  | c, op :: ops => do
    let (x,c) ← op.apply L lib c
    let (xs,c) ← applyAll L lib c ops
    pure (x :: xs,c)

def ConfigOp.spec (l : List VlanEntry) : ConfigOp → Answer × List VlanEntry
  | .insert _ _ none => (⟨.err,none⟩,l)
  | .insert g v (some _) => (⟨.ok,none⟩,l ++ [⟨g,v⟩])
  | .delete g => (⟨.ok,none⟩,l.eraseP (named g))
  | .get g vlanID =>
    match l.find? (named g) with
    | some e => (⟨.ok,some e.vlanID⟩,l)
    | none => (⟨.err,strAt vlanID⟩,l)

def specAll : List VlanEntry → List ConfigOp → List Answer × List VlanEntry
  | l, [] => ([],l)
  | l, op :: ops => ((op.spec l).1 :: (specAll (op.spec l).2 ops).1,(specAll (op.spec l).2 ops).2)

def Represents (L : Limits) (c : Config) (l : List VlanEntry) : Prop :=
  (∃ chain, ChainOf c.heap c.gpvlanConfigHead chain ∧ chain.map Prod.snd = l) ∧
    ∀ e ∈ l, e.Fits L

theorem eraseP_map_snd (g : Str) (l : List (Addr × VlanEntry)) :
    (l.eraseP (fun x => named g x.2)).map Prod.snd = (l.map Prod.snd).eraseP (named g) := by
  rw [List.eraseP_map]
  rfl

/-- The end of a VLAN ID that takes all of its array but one byte is not copied: the array of the
caller must have one there. -/
def ConfigOp.Ended (L : Limits) (l : List VlanEntry) : ConfigOp → Prop
  | .get g vlanID => ∀ e ∈ l.find? (named g),
    e.vlanID.length < L.vlanID-1 ∨ vlanID[L.vlanID-1]? = some none
  | .insert _ _ _ | .delete _ => True

instance (L : Limits) (l : List VlanEntry) (op : ConfigOp) : Decidable (op.Ended L l) :=
  match op with
  | .get g vlanID => inferInstanceAs (Decidable (∀ e ∈ l.find? (named g),
    e.vlanID.length < L.vlanID-1 ∨ vlanID[L.vlanID-1]? = some none))
  | .insert _ _ _ | .delete _ => inferInstanceAs (Decidable True)

theorem copyID_iff {L : Limits} {e : VlanEntry} (he : e.vlanID.length < L.vlanID) (old : Bytes) :
    strAt (copyID L e old) = some e.vlanID ↔
      e.vlanID.length < L.vlanID-1 ∨ old[L.vlanID-1]? = some none :=
  strAt_copied he old

theorem apply_refines {L : Limits} (lib : Safec) {c : Config} {l : List VlanEntry}
    (hrep : Represents L c l) {op : ConfigOp} (hfit : op.Fits L) :
    ∃ x c', op.apply L lib c = some (x,c') ∧ Represents L c' (op.spec l).2 ∧
      (x = (op.spec l).1 ↔ op.Ended L l) := by
  obtain ⟨⟨chain,hchain,rfl⟩,hl⟩ := hrep
  cases op with
  | insert g v malloc =>
    cases malloc with
    | none => exact ⟨⟨.err,none⟩,c,rfl,⟨⟨chain,hchain,rfl⟩,hl⟩,iff_of_true rfl trivial⟩
    | some place =>
      obtain ⟨c',hins,hchain'⟩ :=
        insertVlanConfigEntry_chain L lib hchain (place c.heap) g v
      rw [lib.strcpyS_fits _ _ hfit.1,lib.strcpyS_fits _ _ hfit.2] at hchain'
      refine ⟨⟨.ok,none⟩,c',by simp [ConfigOp.apply,hins],
        ⟨⟨_,hchain',by simp [ConfigOp.spec]⟩,?_⟩,iff_of_true rfl trivial⟩
      intro e he
      rcases List.mem_append.mp he with he | he
      · exact hl e he
      · rw [List.mem_singleton.mp he]
        exact hfit
  | delete g =>
    obtain ⟨c',hdel,hchain'⟩ := deleteVlanConfigEntry_chain hchain g
    refine ⟨⟨.ok,none⟩,c',by simp [ConfigOp.apply,hdel],
      ⟨⟨_,hchain',eraseP_map_snd g chain⟩,?_⟩,iff_of_true rfl trivial⟩
    intro e he
    exact hl e (List.mem_of_mem_eraseP he)
  | get g old =>
    have hget := getVlanIdForGroupName_chain L lib hchain g old
    cases hfind : (chain.map Prod.snd).find? (named g) with
    | none =>
      refine ⟨⟨.err,strAt old⟩,c,by simp [ConfigOp.apply,hget,hfind],?_⟩
      simp only [ConfigOp.spec,ConfigOp.Ended,hfind]
      exact ⟨⟨⟨chain,hchain,rfl⟩,hl⟩,by simp⟩
    | some e =>
      have hcopy := copyID_iff (hl e (List.mem_of_find?_eq_some hfind)).2 old
      refine ⟨⟨.ok,strAt (copyID L e old)⟩,c,by simp [ConfigOp.apply,hget,hfind],?_⟩
      simp only [ConfigOp.spec,ConfigOp.Ended,hfind]
      exact ⟨⟨⟨chain,hchain,rfl⟩,hl⟩,by simp [hcopy]⟩

theorem applyAll_refines {L : Limits} (lib : Safec) {c : Config} {l : List VlanEntry}
    (hrep : Represents L c l) {ops : List ConfigOp} (hfit : ∀ op ∈ ops, op.Fits L) :
    ∃ xs c', applyAll L lib c ops = some (xs,c') ∧ Represents L c' (specAll l ops).2 ∧
      (xs = (specAll l ops).1 ↔
        Along (fun l op => (ConfigOp.spec l op).2) (fun l op => op.Ended L l) l ops) := by
  induction ops generalizing c l with
  | nil => exact ⟨[],c,rfl,hrep,by simp [specAll]⟩
  | cons op ops ih =>
    obtain ⟨x,c₁,hstep,hrep₁,hx⟩ := apply_refines lib hrep (hfit op (by simp))
    obtain ⟨xs,c₂,hrest,hrep₂,hxs⟩ := ih hrep₁ (fun o ho => hfit o (List.mem_cons_of_mem _ ho))
    refine ⟨x :: xs,c₂,by simp [applyAll,hstep,hrest],hrep₂,?_⟩
    rw [specAll,List.cons.injEq,hx,hxs,along_cons]

def Carries (c : Config) (l : List VlanEntry) : Prop :=
  ∃ chain, ChainOf c.heap c.gpvlanConfigHead chain ∧ (chain.map Prod.fst).Nodup ∧
    (∀ a ∈ chain.map Prod.fst, c.heap.cell a ≠ none) ∧ chain.map Prod.snd = l

/-- Over every sequence of operations, from an empty link in any memory, each operation ends,
reads only live nodes, and does to the chain what is done to the list. The answers are those of
the list exactly where each VLAN ID that is looked up is ended in the caller's array. -/
theorem configLink_refines_iff (L : Limits) (lib : Safec) (h : Heap VlanEntry)
    (ops : List ConfigOp) (hfit : ∀ op ∈ ops, op.Fits L) :
    (∃ xs c', applyAll L lib ⟨h,none⟩ ops = some (xs,c') ∧ Carries c' (specAll [] ops).2) ∧
    ((∃ c', applyAll L lib ⟨h,none⟩ ops = some ((specAll [] ops).1,c') ∧
        Carries c' (specAll [] ops).2) ↔
      Along (fun l op => (ConfigOp.spec l op).2) (fun l op => op.Ended L l) [] ops) := by
  have hstart : Represents L ⟨h,none⟩ [] := ⟨⟨[],rfl,rfl⟩,by simp⟩
  obtain ⟨xs,c',hrun,⟨⟨chain,hchain,hmap⟩,_⟩,hanswers⟩ := applyAll_refines lib hstart hfit
  have hcarries : Carries c' (specAll [] ops).2 :=
    ⟨chain,hchain,chainOf_nodup _ hchain,fun a ha => chainOf_live _ hchain ha,hmap⟩
  refine ⟨⟨xs,c',hrun,hcarries⟩,?_⟩
  rw [← hanswers]
  constructor
  · rintro ⟨c₁,hrun₁,_⟩
    rw [hrun,Option.some.injEq,Prod.mk.injEq] at hrun₁
    exact hrun₁.1
  · rintro rfl
    exact ⟨c',hrun,hcarries⟩

def Limits.reference : Limits where
  groupName := 32
  ifName := 32
  vlanID := 32
  line := 120
  groupName_pos := by decide
  vlanID_pos := by decide
  vlanID_copied := by decide
  ifName_flag := by decide
  line_flag := by decide
  line_buffer := by decide

def atBreak (h : Heap VlanEntry) : {a : Addr // h.cell a = none} :=
  ⟨h.brk,h.bounded h.brk (Nat.le_refl _)⟩

def threeGroups : List ConfigOp :=
  [.insert "brlan0".toList "100".toList (some atBreak),
   .insert "brlan1".toList "101".toList none,
   .insert "brlan2".toList "102".toList (some atBreak),
   .delete "brlan0".toList,.get "brlan2".toList (List.replicate 32 (some 'x')),
   .get "brlan0".toList (List.replicate 32 (some 'x'))]

theorem configLink_refines_iff_threeGroups :
    (∃ xs c', applyAll Limits.reference Safec.reference ⟨Heap.empty,none⟩ threeGroups =
        some (xs,c') ∧ Carries c' (specAll [] threeGroups).2) ∧
    ((∃ c', applyAll Limits.reference Safec.reference ⟨Heap.empty,none⟩ threeGroups =
        some ((specAll [] threeGroups).1,c') ∧ Carries c' (specAll [] threeGroups).2) ↔
      Along (fun l op => (ConfigOp.spec l op).2) (fun l op => op.Ended Limits.reference l) []
        threeGroups) :=
  configLink_refines_iff Limits.reference Safec.reference Heap.empty threeGroups
    (by simp [threeGroups,ConfigOp.Fits,VlanEntry.Fits,Limits.reference])

def longID : List ConfigOp :=
  [.insert "brlan0".toList (List.replicate 31 '1') (some atBreak),
   .get "brlan0".toList (List.replicate 32 (some 'x'))]

theorem configLink_longID :
    (∀ op ∈ longID, op.Fits Limits.reference) ∧
    ¬∃ c', applyAll Limits.reference Safec.reference ⟨Heap.empty,none⟩ longID =
      some ((specAll [] longID).1,c') ∧ Carries c' (specAll [] longID).2 := by
  refine ⟨by simp [longID,ConfigOp.Fits,VlanEntry.Fits,Limits.reference],?_⟩
  rintro ⟨c',hrun,_⟩
  have hcopied : (applyAll Limits.reference Safec.reference ⟨Heap.empty,none⟩ longID).map Prod.fst =
      some [⟨.ok,none⟩,⟨.ok,none⟩] := by decide +kernel
  rw [hrun,Option.map_some] at hcopied
  have hspec : some (specAll [] longID).1 ≠ some [⟨.ok,none⟩,⟨.ok,none⟩] := by decide +kernel
  exact hspec hcopied

/-! The link as a type -/

structure ConfigList where
  raw : Config
  chained : ∃ l, ChainOf raw.heap raw.gpvlanConfigHead l

def ConfigList.empty : ConfigList := ⟨⟨Heap.empty,none⟩,[],rfl⟩

def ConfigList.entries (c : ConfigList) : List VlanEntry :=
  walk c.raw.heap c.raw.heap.brk c.raw.gpvlanConfigHead

theorem ConfigList.entries_eq (c : ConfigList) {l : List (Addr × VlanEntry)}
    (hl : ChainOf c.raw.heap c.raw.gpvlanConfigHead l) : c.entries = l.map Prod.snd :=
  walk_chain _ hl (chainOf_length_le _ hl)

@[simp] theorem ConfigList.entries_empty : ConfigList.empty.entries = [] := rfl

theorem insert_total (L : Limits) (lib : Safec) (c : ConfigList) (malloc : Fresh c.raw.heap)
    (g v : Str) : ∃ r, insertVlanConfigEntry L lib c.raw malloc (some g) (some v) = some r ∧
      ∃ l, ChainOf r.2.heap r.2.gpvlanConfigHead l := by
  obtain ⟨l,hl⟩ := c.chained
  cases malloc with
  | none => exact ⟨(.err,c.raw),rfl,l,hl⟩
  | some temp =>
    obtain ⟨c',hins,hchain⟩ := insertVlanConfigEntry_chain L lib hl temp g v
    exact ⟨(.ok,c'),hins,_,hchain⟩

theorem delete_total (c : ConfigList) (g : Str) :
    ∃ r, deleteVlanConfigEntry c.raw (some g) = some r ∧
      ∃ l, ChainOf r.2.heap r.2.gpvlanConfigHead l := by
  obtain ⟨l,hl⟩ := c.chained
  obtain ⟨c',hdel,hchain⟩ := deleteVlanConfigEntry_chain hl g
  exact ⟨(.ok,c'),hdel,_,hchain⟩

theorem get_total (L : Limits) (lib : Safec) (c : ConfigList) (g : Str) (old : Bytes) :
    ∃ r, getVlanIdForGroupName L lib c.raw (some g) (some old) = some r := by
  obtain ⟨l,hl⟩ := c.chained
  exact ⟨_,getVlanIdForGroupName_chain L lib hl g old⟩

def ConfigList.insert (L : Limits) (lib : Safec) (c : ConfigList) (malloc : Fresh c.raw.heap)
    (g v : Str) : Ret × ConfigList :=
  let result := insertVlanConfigEntry L lib c.raw malloc (some g) (some v)
  have hsome : result.isSome := by
    obtain ⟨r,hr,_⟩ := insert_total L lib c malloc g v
    simp [result,hr]
  ((result.get hsome).1,⟨(result.get hsome).2,by
    obtain ⟨r,hr,hl⟩ := insert_total L lib c malloc g v
    simpa [result,hr] using hl⟩)

def ConfigList.delete (c : ConfigList) (g : Str) : Ret × ConfigList :=
  let result := deleteVlanConfigEntry c.raw (some g)
  have hsome : result.isSome := by
    obtain ⟨r,hr,_⟩ := delete_total c g
    simp [result,hr]
  ((result.get hsome).1,⟨(result.get hsome).2,by
    obtain ⟨r,hr,hl⟩ := delete_total c g
    simpa [result,hr] using hl⟩)

def ConfigList.get (L : Limits) (lib : Safec) (c : ConfigList) (g : Str) (old : Bytes) :
    Ret × Option Bytes :=
  let result := getVlanIdForGroupName L lib c.raw (some g) (some old)
  have hsome : result.isSome := by
    obtain ⟨r,hr⟩ := get_total L lib c g old
    simp [result,hr]
  result.get hsome

@[simp] theorem ConfigList.insert_none (L : Limits) (lib : Safec) (c : ConfigList) (g v : Str) :
    c.insert L lib none g v = (.err,c) := rfl

theorem ConfigList.insert_some (L : Limits) (lib : Safec) (c : ConfigList)
    (temp : {a : Addr // c.raw.heap.cell a = none}) (g v : Str) :
    (c.insert L lib (some temp) g v).1 = .ok ∧
    (c.insert L lib (some temp) g v).2.entries =
      c.entries ++ [⟨(lib.strcpyS L.groupName g).2,(lib.strcpyS L.vlanID v).2⟩] := by
  obtain ⟨l,hl⟩ := c.chained
  obtain ⟨c',hins,hchain⟩ := insertVlanConfigEntry_chain L lib hl temp g v
  refine ⟨by simp [ConfigList.insert,hins],?_⟩
  rw [c.entries_eq hl]
  have hraw : (c.insert L lib (some temp) g v).2.raw = c' := by simp [ConfigList.insert,hins]
  rw [ConfigList.entries_eq _ (by rw [hraw]; exact hchain)]
  simp

@[simp] theorem ConfigList.delete_entries (c : ConfigList) (g : Str) :
    (c.delete g).2.entries = c.entries.eraseP (named g) := by
  obtain ⟨l,hl⟩ := c.chained
  obtain ⟨c',hdel,hchain⟩ := deleteVlanConfigEntry_chain hl g
  have hraw : (c.delete g).2.raw = c' := by simp [ConfigList.delete,hdel]
  rw [c.entries_eq hl,ConfigList.entries_eq _ (by rw [hraw]; exact hchain),eraseP_map_snd]

theorem ConfigList.get_eq (L : Limits) (lib : Safec) (c : ConfigList) (g : Str) (old : Bytes) :
    c.get L lib g old = match c.entries.find? (named g) with
      | some e => (.ok,some (copyID L e old))
      | none => (.err,some old) := by
  obtain ⟨l,hl⟩ := c.chained
  have hget := getVlanIdForGroupName_chain L lib hl g old
  rw [c.entries_eq hl]
  exact Option.get_of_eq_some _ hget

end RdkHal.Vlan
