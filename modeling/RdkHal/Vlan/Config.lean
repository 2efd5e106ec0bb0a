import RdkHal.Lib.Chain
import RdkHal.Platform

/-! The VLAN configuration link: the global list headed by `gpvlan_Config_Head` and its
three operations, over a memory of nodes with `nextlink` pointers. -/

set_option autoImplicit false

namespace RdkHal.Vlan
open Text Chain

/-- The sizes that vlan_hal.h fixes. A buffer of 128 characters receives the lines, and
`get_vlanId_for_GroupName` copies all but the last character of `vlanID` into 32. -/
structure Limits where
  groupName : Nat
  ifName : Nat
  vlanID : Nat
  line : Nat
  groupName_pos : 0 < groupName
  vlanID_pos : 0 < vlanID
  vlanID_copied : vlanID ≤ 33
  ifName_flag : 5 ≤ ifName
  line_flag : 5 ≤ line
  line_buffer : line ≤ 128

/-- A `vlan_vlanidconfiguration_t` without its `nextlink`, which is the `next` of the cell. Its
arrays are cleared before the strings are stored. -/
structure VlanEntry where
  groupName : Str
  vlanID : Str
  deriving DecidableEq, Repr

structure Config where
  heap : Heap VlanEntry
  gpvlanConfigHead : Ptr

/-- The loop `while( NULL != curr->nextlink ) curr = curr->nextlink;` from a node that is not NULL.
No result: the fuel is used up, or a node that is not live is read. -/
def lastLink (h : Heap VlanEntry) : Nat → Addr → Option Addr
  | 0, _ => none
  | fuel+1, curr =>
    match h.cell curr with
    | none => none
    | some node =>
      match node.next with
      | none => some curr
      | some nx => lastLink h fuel nx

def setNextlink (h : Heap VlanEntry) (p : Addr) (q : Ptr) : Option (Heap VlanEntry) :=
  match h.cell p with
  | none => none
  | some node => some (h.write p ⟨node.val,q⟩)

def insertVlanConfigEntry (L : Limits) (lib : Safec) (c : Config) (malloc : Fresh c.heap)
    (groupName vlanID : Option Str) : Option (Ret × Config) :=
  match groupName, vlanID with
  | some g, some v =>
    match malloc with
    | none => some (.err,c)
    | some temp =>
      let entry : VlanEntry := ⟨(lib.strcpyS L.groupName g).2,(lib.strcpyS L.vlanID v).2⟩
      let heap := c.heap.write temp ⟨entry,none⟩
      match c.gpvlanConfigHead with
      | none => some (.ok,⟨heap,some temp⟩)
      | some head => do
        let curr ← lastLink heap (heap.brk+1) head
        let heap ← setNextlink heap curr (some temp)
        pure (.ok,⟨heap,c.gpvlanConfigHead⟩)
  | _, _ => some (.err,c)

def deleteLoop (groupName : Str) (c : Config) : Nat → Ptr → Ptr → Option Config
  | 0, _, _ => none
  | _+1, _, none => some c
  | fuel+1, prev, some curr =>
    match c.heap.cell curr with
    | none => none
    | some node =>
      if node.val.groupName = groupName then
        match prev with
        | none => some ⟨c.heap.free curr,node.next⟩
        | some prev => do
          let heap ← setNextlink c.heap prev node.next
          pure ⟨heap.free curr,c.gpvlanConfigHead⟩
      else deleteLoop groupName c fuel (some curr) node.next

def deleteVlanConfigEntry (c : Config) (groupName : Option Str) : Option (Ret × Config) :=
  match groupName with
  | none => some (.err,c)
  | some g => do
    let c ← deleteLoop g c (c.heap.brk+1) none c.gpvlanConfigHead
    pure (.ok,c)

/-- The loop of the lookup: the caller's array with the copy, or `none` where `bFound` stays
FALSE. -/
def getLoop (L : Limits) (lib : Safec) (groupName : Str) (vlanID : Bytes) (h : Heap VlanEntry) :
    Nat → Ptr → Option (Option Bytes)
  | 0, _ => none
  | _+1, none => some none
  | fuel+1, some temp =>
    match h.cell temp with
    | none => none
    | some node =>
      if node.val.groupName = groupName then
        some (some (lib.memcpyS 32 vlanID (arrayOf L.vlanID node.val.vlanID) (L.vlanID-1)).2)
      else getLoop L lib groupName vlanID h fuel node.next

/-- Here `vlanID` is the caller's array, which stays as it is where the lookup fails. -/
def getVlanIdForGroupName (L : Limits) (lib : Safec) (c : Config) (groupName : Option Str)
    (vlanID : Option Bytes) : Option (Ret × Option Bytes) :=
  match groupName, vlanID with
  | some g, some old => do
    let found ← getLoop L lib g old c.heap (c.heap.brk+1) c.gpvlanConfigHead
    match found with
    | some new => pure (.ok,some new)
    | none => pure (.err,vlanID)
  | _, _ => some (.err,vlanID)

/-! What the loops do on a chain -/

theorem lastLink_chain {h : Heap VlanEntry} {l : List (Addr × VlanEntry)} {a z : Addr}
    {v : VlanEntry} (hl : ChainOf h (some a) (l ++ [(z,v)])) {fuel : Nat}
    (hf : l.length < fuel) : lastLink h fuel a = some z := by
  induction l generalizing a fuel with
  | nil =>
    obtain ⟨haz,nx,hc,rfl⟩ := hl
    obtain rfl : a = z := Option.some.inj haz
    obtain ⟨fuel,rfl⟩ : ∃ k, fuel = k+1 := ⟨fuel-1,by simp at hf; omega⟩
    simp [lastLink,hc]
  | cons x l ih =>
    obtain ⟨b,w⟩ := x
    obtain ⟨hab,nx,hc,hrest⟩ := hl
    obtain rfl : a = b := Option.some.inj hab
    obtain ⟨fuel,rfl⟩ : ∃ k, fuel = k+1 := ⟨fuel-1,by simp at hf; omega⟩
    cases nx with
    | none =>
      cases l with
      | nil => simp [ChainOf] at hrest
      | cons y l => simp [ChainOf] at hrest
    | some nx => simpa [lastLink,hc] using ih hrest (by simpa using hf)

theorem setNextlink_cell {h : Heap VlanEntry} {a : Addr} {v : VlanEntry} {nx : Ptr}
    (hc : h.cell a = some ⟨v,nx⟩) (q : Ptr) :
    setNextlink h a q = some (h.write a ⟨v,q⟩) := by
  simp [setNextlink,hc]

theorem insertVlanConfigEntry_chain (L : Limits) (lib : Safec) {c : Config}
    {l : List (Addr × VlanEntry)} (hl : ChainOf c.heap c.gpvlanConfigHead l)
    (temp : {a : Addr // c.heap.cell a = none}) (g v : Str) :
    ∃ c', insertVlanConfigEntry L lib c (some temp) (some g) (some v) = some (.ok,c') ∧
      ChainOf c'.heap c'.gpvlanConfigHead
        (l ++ [(temp.val,⟨(lib.strcpyS L.groupName g).2,(lib.strcpyS L.vlanID v).2⟩)]) := by
  obtain ⟨t,ht⟩ := temp
  obtain ⟨heap,head⟩ := c
  simp only at ht hl
  generalize hentry : (⟨(lib.strcpyS L.groupName g).2,(lib.strcpyS L.vlanID v).2⟩ : VlanEntry) = e
  have hframe : ChainOf (heap.write t ⟨e,none⟩) head l :=
    chainOf_frame (fun a ha => by simp [chainOf_fresh heap hl ht ha]) hl
  rcases List.eq_nil_or_concat l with rfl | ⟨l₁,⟨z,w⟩,rfl⟩
  · obtain rfl : head = none := hl
    refine ⟨⟨heap.write t ⟨e,none⟩,some t⟩,?_,?_⟩
    · simp only [insertVlanConfigEntry,hentry]
    · exact ⟨rfl,none,by simp,rfl⟩
  · rw [List.concat_eq_append] at hl hframe ⊢
    have hlen := chainOf_length_le _ hframe
    obtain ⟨_,nx,hc,_⟩ := chainOf_tail _ hframe
    obtain ⟨a,rfl⟩ : ∃ a, head = some a := by
      cases l₁ with
      | nil => exact ⟨z,hframe.1⟩
      | cons x l₁ => exact ⟨x.1,hframe.1⟩
    have hlast : lastLink (heap.write t ⟨e,none⟩) ((heap.write t ⟨e,none⟩).brk+1) a = some z :=
      lastLink_chain hframe (by simp at hlen; omega)
    refine ⟨⟨(heap.write t ⟨e,none⟩).write z ⟨w,some t⟩,some a⟩,?_,?_⟩
    · simp [insertVlanConfigEntry,hentry,hlast,setNextlink_cell hc]
    · rw [List.append_assoc]
      exact chainOf_snoc hl ht

def named (g : Str) (e : VlanEntry) : Bool := decide (e.groupName = g)

/-- The loop of the deletion with `done` behind it and `rest` ahead: `prev` is the last
node of `done`, whose names all differ. -/
theorem deleteLoop_chain {g : Str} {c : Config} {done rest : List (Addr × VlanEntry)}
    {curr : Ptr} (hall : ChainOf c.heap c.gpvlanConfigHead (done ++ rest))
    (hrest : ChainOf c.heap curr rest) (hdone : ∀ x ∈ done, named g x.2 = false)
    {fuel : Nat} (hf : rest.length < fuel) :
    ∃ c', deleteLoop g c fuel (done.getLast?.map Prod.fst) curr = some c' ∧
      ChainOf c'.heap c'.gpvlanConfigHead ((done ++ rest).eraseP (fun x => named g x.2)) := by
  induction rest generalizing done curr fuel with
  | nil =>
    obtain rfl : curr = none := hrest
    obtain ⟨fuel,rfl⟩ : ∃ k, fuel = k+1 := ⟨fuel-1,by simp at hf; omega⟩
    refine ⟨c,rfl,?_⟩
    rw [List.append_nil] at hall ⊢
    rwa [List.eraseP_of_forall_not (fun x hx => by simp [hdone x hx])]
  | cons x rest ih =>
    obtain ⟨a,v⟩ := x
    obtain ⟨rfl,nx,hc,hnx⟩ := hrest
    obtain ⟨fuel,rfl⟩ : ∃ k, fuel = k+1 := ⟨fuel-1,by simp at hf; omega⟩
    by_cases hv : v.groupName = g
    · have herase : (done ++ (a,v) :: rest).eraseP (fun x => named g x.2) = done ++ rest := by
        rw [List.eraseP_append_right _ (fun x hx => by simp [hdone x hx])]
        simp [named,hv]
      rw [herase]
      rcases List.eq_nil_or_concat done with rfl | ⟨front,⟨z,w⟩,rfl⟩
      · -- the node is the head of the link
        refine ⟨⟨c.heap.free a,nx⟩,by simp [deleteLoop,hc,hv],?_⟩
        exact chainOf_free_head hall hnx
      · rw [List.concat_eq_append] at hall ⊢
        rw [List.append_assoc,List.singleton_append] at hall
        obtain ⟨_,nz,hz,_⟩ := chainOf_tail _ hall
        refine ⟨⟨(c.heap.write z ⟨w,nx⟩).free a,c.gpvlanConfigHead⟩,?_,?_⟩
        · simp [deleteLoop,hc,hv,setNextlink_cell hz]
        · rw [List.append_assoc,List.singleton_append]
          exact chainOf_unlink hall hnx
    · have hdone' : ∀ x ∈ done ++ [(a,v)], named g x.2 = false := by
        intro x hx
        rcases List.mem_append.mp hx with hx | hx
        · exact hdone x hx
        · obtain rfl := List.mem_singleton.mp hx
          simp [named,hv]
      have hfuel : rest.length < fuel := by simpa using hf
      obtain ⟨c',hloop,hchain⟩ := ih (by rw [List.append_assoc]; exact hall) hnx hdone' hfuel
      rw [List.append_assoc,List.singleton_append] at hchain
      refine ⟨c',?_,hchain⟩
      simpa [deleteLoop,hc,hv] using hloop

theorem deleteVlanConfigEntry_chain {c : Config} {l : List (Addr × VlanEntry)}
    (hl : ChainOf c.heap c.gpvlanConfigHead l) (g : Str) :
    ∃ c', deleteVlanConfigEntry c (some g) = some (.ok,c') ∧
      ChainOf c'.heap c'.gpvlanConfigHead (l.eraseP (fun x => named g x.2)) := by
  have hlen := chainOf_length_le _ hl
  have hfuel : l.length < c.heap.brk+1 := by omega
  have hnone : ∀ x ∈ ([] : List (Addr × VlanEntry)), named g x.2 = false := by simp
  obtain ⟨c',hloop,hchain⟩ := deleteLoop_chain hl hl hnone hfuel
  have hprev : (([] : List (Addr × VlanEntry)).getLast?.map Prod.fst) = none := rfl
  rw [hprev] at hloop
  exact ⟨c',by simp [deleteVlanConfigEntry,hloop],hchain⟩

def copyID (L : Limits) (e : VlanEntry) (old : Bytes) : Bytes :=
  (arrayOf L.vlanID e.vlanID).take (L.vlanID-1) ++ old.drop (L.vlanID-1)

theorem getLoop_chain (L : Limits) (lib : Safec) (g : Str) (old : Bytes) {h : Heap VlanEntry}
    {p : Ptr} {l : List (Addr × VlanEntry)} (hl : ChainOf h p l) {fuel : Nat}
    (hf : l.length < fuel) :
    getLoop L lib g old h fuel p =
      some (((l.map Prod.snd).find? (named g)).map (fun e => copyID L e old)) := by
  induction l generalizing p fuel with
  | nil =>
    obtain rfl : p = none := hl
    obtain ⟨fuel,rfl⟩ : ∃ k, fuel = k+1 := ⟨fuel-1,by simp at hf; omega⟩
    rfl
  | cons x l ih =>
    obtain ⟨a,v⟩ := x
    obtain ⟨rfl,nx,hc,hrest⟩ := hl
    obtain ⟨fuel,rfl⟩ : ∃ k, fuel = k+1 := ⟨fuel-1,by simp at hf; omega⟩
    by_cases hv : v.groupName = g
    · have hcopy := L.vlanID_copied
      have hmem := lib.memcpyS_fits 32 old (arrayOf L.vlanID v.vlanID) (L.vlanID-1) (by omega)
      simp [getLoop,hc,hv,named,hmem,copyID]
    · have hnext := ih hrest (by simpa using hf)
      simp [getLoop,hc,hv,named,hnext]

theorem getVlanIdForGroupName_chain (L : Limits) (lib : Safec) {c : Config}
    {l : List (Addr × VlanEntry)} (hl : ChainOf c.heap c.gpvlanConfigHead l) (g : Str)
    (old : Bytes) :
    getVlanIdForGroupName L lib c (some g) (some old) =
      some (match (l.map Prod.snd).find? (named g) with
        | some e => (.ok,some (copyID L e old))
        | none => (.err,some old)) := by
  have hlen := chainOf_length_le _ hl
  have hfuel : l.length < c.heap.brk+1 := by omega
  have hloop := getLoop_chain L lib g old hl hfuel
  cases hfind : (l.map Prod.snd).find? (named g) <;>
    simp [getVlanIdForGroupName,hloop,hfind]

end RdkHal.Vlan
