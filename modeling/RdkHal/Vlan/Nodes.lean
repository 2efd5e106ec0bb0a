import RdkHal.Lib.Beside
import RdkHal.Vlan.Calls

/-! The nodes of the configuration link in the memory of the process, over runs of all calls,
and the table of the link that is printed. -/

set_option autoImplicit false

namespace RdkHal.Vlan
open Text Chain Runs

variable {σ : Type}

theorem lastLink_mem {h : Heap VlanEntry} {fuel : Nat} {a z : Addr} {l : List (Addr × VlanEntry)}
    (hl : ChainOf h (some a) l) (hlast : lastLink h fuel a = some z) : z ∈ l.map Prod.fst := by
  induction l generalizing a fuel with
  | nil => cases hl
  | cons x l ih =>
    obtain ⟨b,v⟩ := x
    obtain ⟨hab,nx,hc,hrest⟩ := hl
    obtain rfl : a = b := Option.some.inj hab
    cases fuel with
    | zero => cases hlast
    | succ fuel =>
      cases nx with
      | none =>
        simp only [lastLink,hc,Option.some.injEq] at hlast
        simp [hlast]
      | some nx =>
        simp only [lastLink,hc] at hlast
        exact List.mem_cons_of_mem _ (ih hrest hlast)

theorem setNextlink_frame {h h' : Heap VlanEntry} {p a : Addr} {q : Ptr}
    (hset : setNextlink h p q = some h') (ha : a ≠ p) : h'.cell a = h.cell a := by
  cases hc : h.cell p with
  | none => simp [setNextlink,hc] at hset
  | some node =>
    simp only [setNextlink,hc,Option.some.injEq] at hset
    simp [← hset,ha]

theorem insertVlanConfigEntry_frame {L : Limits} {lib : Safec} {c c' : Config} {r : Ret}
    {l : List (Addr × VlanEntry)} (hl : ChainOf c.heap c.gpvlanConfigHead l)
    {temp : {a : Addr // c.heap.cell a = none}} {g v : Str}
    (hins : insertVlanConfigEntry L lib c (some temp) (some g) (some v) = some (r,c')) {a : Addr}
    (hout : a ∉ l.map Prod.fst) (hnew : a ≠ temp.val) : c'.heap.cell a = c.heap.cell a := by
  obtain ⟨t,ht⟩ := temp
  obtain ⟨heap,head⟩ := c
  simp only at ht hl hnew
  cases head with
  | none =>
    simp only [insertVlanConfigEntry,Option.some.injEq,Prod.mk.injEq] at hins
    simp [← hins.2,hnew]
  | some head =>
    simp only [insertVlanConfigEntry,Option.bind_eq_bind,Option.bind_eq_some_iff,
      Option.pure_def,Option.some.injEq,Prod.mk.injEq] at hins
    obtain ⟨curr,hlast,heap',hset,_,rfl⟩ := hins
    have hframe : ChainOf (heap.write t
        ⟨⟨(lib.strcpyS L.groupName g).2,(lib.strcpyS L.vlanID v).2⟩,none⟩) (some head) l :=
      chainOf_frame (fun b hb => by simp [chainOf_fresh heap hl ht hb]) hl
    have hcurr := lastLink_mem hframe hlast
    have hne : a ≠ curr := fun heq => hout (heq ▸ hcurr)
    simp [setNextlink_frame hset hne,hnew]

theorem deleteLoop_frame {g : Str} {c c' : Config} {done rest : List (Addr × VlanEntry)}
    {curr : Ptr} (hrest : ChainOf c.heap curr rest) (hdone : ∀ x ∈ done, named g x.2 = false)
    {fuel : Nat} (hdel : deleteLoop g c fuel (done.getLast?.map Prod.fst) curr = some c')
    {a : Addr} :
    (a ∉ (done ++ rest).map Prod.fst → c'.heap.cell a = c.heap.cell a) ∧
    (a ∈ (done ++ rest).map Prod.fst →
      a ∉ ((done ++ rest).eraseP (fun x => named g x.2)).map Prod.fst → c'.heap.cell a = none) := by
  induction rest generalizing done curr fuel with
  | nil =>
    obtain rfl : curr = none := hrest
    cases fuel with
    | zero => cases hdel
    | succ fuel =>
      obtain rfl : c = c' := Option.some.inj hdel
      refine ⟨fun _ => rfl,fun ha herased => absurd ha ?_⟩
      rw [List.append_nil] at herased ⊢
      rwa [List.eraseP_of_forall_not (fun x hx => by simp [hdone x hx])] at herased
  | cons x rest ih =>
    obtain ⟨b,v⟩ := x
    obtain ⟨rfl,nx,hc,hnx⟩ := hrest
    cases fuel with
    | zero => cases hdel
    | succ fuel =>
      by_cases hv : v.groupName = g
      · have herase : (done ++ (b,v) :: rest).eraseP (fun x => named g x.2) = done ++ rest := by
          rw [List.eraseP_append_right _ (fun x hx => by simp [hdone x hx])]
          simp [named,hv]
        have hfreed : a ∈ (done ++ (b,v) :: rest).map Prod.fst → a ∉ (done ++ rest).map Prod.fst →
            a = b := by
          simp only [List.map_append,List.map_cons,List.mem_append,List.mem_cons,not_or]
          tauto
        rw [herase]
        cases hlast : done.getLast? with
        | none =>
          simp only [deleteLoop,hc,hv,if_true,hlast,Option.map_none,Option.some.injEq] at hdel
          subst hdel
          refine ⟨fun ha => ?_,fun ha hne => by simp [hfreed ha hne]⟩
          have hab : a ≠ b := fun heq => ha (by simp [heq])
          simp [hab]
        | some z =>
          simp only [deleteLoop,hc,hv,if_true,hlast,Option.map_some,Option.bind_eq_bind,
            Option.bind_eq_some_iff,Option.pure_def,Option.some.injEq] at hdel
          obtain ⟨heap,hset,rfl⟩ := hdel
          refine ⟨fun ha => ?_,fun ha hne => by simp [hfreed ha hne]⟩
          have hab : a ≠ b := fun heq => ha (by simp [heq])
          have haz : a ≠ z.1 := by
            rintro rfl
            have hz := List.mem_of_getLast? hlast
            exact ha (List.mem_map_of_mem (List.mem_append_left _ hz))
          simp [hab,setNextlink_frame hset haz]
      · have hdone' : ∀ x ∈ done ++ [(b,v)], named g x.2 = false := by
          intro x hx
          rcases List.mem_append.mp hx with hx | hx
          · exact hdone x hx
          · obtain rfl := List.mem_singleton.mp hx
            simp [named,hv]
        have hloop : deleteLoop g c fuel ((done ++ [(b,v)]).getLast?.map Prod.fst) nx =
            some c' := by
          simpa [deleteLoop,hc,hv] using hdel
        have hnext := ih hnx hdone' hloop
        rwa [List.append_assoc,List.singleton_append] at hnext

/-- The nodes of the link are the cells in use that `frame` has not. -/
def ConfigList.Beside (c : ConfigList) (frame : Addr → Option (Cell VlanEntry)) : Prop :=
  ∃ l, Chain.Beside c.raw.heap c.raw.gpvlanConfigHead frame l ∧ l.map Prod.snd = c.entries

theorem ConfigList.Beside.insert {c : ConfigList} {frame : Addr → Option (Cell VlanEntry)}
    (h : c.Beside frame) (L : Limits) (lib : Safec) (malloc : Fresh c.raw.heap) (g v : Str) :
    (c.insert L lib malloc g v).2.Beside frame := by
  obtain ⟨l,hb,hl⟩ := h
  cases malloc with
  | none => exact ⟨l,hb,hl⟩
  | some temp =>
    obtain ⟨c',hins,hchain⟩ := insertVlanConfigEntry_chain L lib hb.chain temp g v
    have hraw : (c.insert L lib (some temp) g v).2.raw = c' := by simp [ConfigList.insert,hins]
    refine ⟨_,?_,by rw [ConfigList.entries_eq _ (by rw [hraw]; exact hchain)]⟩
    rw [hraw]
    refine hb.change hchain (fun a hout hnew => ?_) (fun a ha => ?_) (fun a ha hgone => ?_)
    · have hne : a ≠ temp.val := by
        rintro rfl
        exact hnew (by simp)
      exact insertVlanConfigEntry_frame hb.chain hins hout hne
    · rw [List.map_append,List.mem_append] at ha
      rcases ha with ha | ha
      · exact Or.inl ha
      · have htemp : a = temp.val := by simpa using ha
        exact Or.inr (htemp ▸ temp.property)
    · refine absurd ?_ hgone
      rw [List.map_append]
      exact List.mem_append_left _ ha

theorem ConfigList.Beside.delete {c : ConfigList} {frame : Addr → Option (Cell VlanEntry)}
    (h : c.Beside frame) (g : Str) : (c.delete g).2.Beside frame := by
  obtain ⟨l,hb,hl⟩ := h
  have hlen := chainOf_length_le _ hb.chain
  obtain ⟨c',hloop,hchain⟩ := @deleteLoop_chain g c.raw [] l _ hb.chain hb.chain (by simp)
    (c.raw.heap.brk+1) (by omega)
  have hdel : deleteVlanConfigEntry c.raw (some g) = some (.ok,c') := by
    have hstart : deleteLoop g c.raw (c.raw.heap.brk+1) none c.raw.gpvlanConfigHead = some c' :=
      hloop
    simp [deleteVlanConfigEntry,hstart]
  have hraw : (c.delete g).2.raw = c' := by simp [ConfigList.delete,hdel]
  refine ⟨_,?_,by rw [ConfigList.entries_eq _ (by rw [hraw]; exact hchain)]⟩
  rw [hraw]
  have hframe := fun a => @deleteLoop_frame g c.raw c' [] l _ hb.chain (by simp) _ hloop a
  have hsub : ∀ a ∈ (l.eraseP (fun x => named g x.2)).map Prod.fst, a ∈ l.map Prod.fst :=
    fun a ha => (List.eraseP_sublist.map Prod.fst).subset ha
  exact hb.change hchain (fun a hout _ => (hframe a).1 hout) (fun a ha => Or.inl (hsub a ha))
    (fun a ha hgone => (hframe a).2 ha hgone)

theorem deleteDecoded_config (E : Env σ) (g : Str) (st : Hal σ) (buf : Str) :
    (deleteDecoded E g st buf).config = st.config := by
  rcases vlanHalDelInterface_cases E g (sscanfPort buf).1 (sscanfPort buf).2 st with hcase | hcase
  · rw [deleteDecoded,hcase]
  · rw [deleteDecoded,hcase,Hal.system_config]

theorem foldl_deleteDecoded_config (E : Env σ) (g : Str) (bufs : List Str) (st : Hal σ) :
    (bufs.foldl (deleteDecoded E g) st).config = st.config := by
  induction bufs generalizing st with
  | nil => rfl
  | cons buf bufs ih => rw [List.foldl_cons,ih,deleteDecoded_config]

theorem vlanHalDeleteAllInterfaces_config (E : Env σ) (g : Str) (st : Hal σ) :
    (vlanHalDeleteAllInterfaces E (some g) st).2.config = st.config := by
  simp only [vlanHalDeleteAllInterfaces]
  split
  · rfl
  · exact foldl_deleteDecoded_config E g _ st

theorem Call.perform_config (E : Env σ) (st : Hal σ) (c : Call) :
    (c.perform E st).2.config = st.config ∨
    (∃ malloc g v, c = .addGroup (some g) (some v) ∧
      (c.perform E st).2.config = (st.config.insert E.limits E.lib malloc g v).2) ∨
    ∃ g, (c.perform E st).2.config = (st.config.delete g).2 := by
  cases c with
  | addGroup g d =>
    cases g with
    | none => exact Or.inl rfl
    | some g =>
      simp only [perform,vlanHalAddGroup]
      split
      · exact Or.inl rfl
      · cases d with
        | none => exact Or.inl rfl
        | some v => exact Or.inr (Or.inl ⟨_,g,v,rfl,rfl⟩)
  | delGroup g =>
    cases g with
    | none => exact Or.inl rfl
    | some g =>
      simp only [perform,vlanHalDelGroup]
      split
      · exact Or.inl rfl
      · refine Or.inr (Or.inr ⟨g,?_⟩)
        simp only [Hal.deleteEntry,Hal.system_config,vlanHalDeleteAllInterfaces_config]
  | addInterface g i v =>
    left
    simp only [perform,vlanHalAddInterface]
    repeat' split
    all_goals rfl
  | delInterface g i v =>
    left
    simp only [perform,vlanHalDelInterface]
    repeat' split
    all_goals rfl
  | printGroup g => cases g <;> exact Or.inl rfl
  | printAllGroup => exact Or.inl rfl
  | deleteAllInterfaces g =>
    cases g with
    | none => exact Or.inl rfl
    | some g => exact Or.inl (vlanHalDeleteAllInterfaces_config E g st)

theorem run_beside (E : Env σ) {frame : Addr → Option (Cell VlanEntry)} {st : Hal σ}
    (h : st.config.Beside frame) (calls : List Call) :
    (run (next (Call.perform E)) st calls).config.Beside frame := by
  induction calls generalizing st with
  | nil => exact h
  | cons c calls ih =>
    apply ih
    show (c.perform E st).2.config.Beside frame
    rcases Call.perform_config E st c with hsame | ⟨malloc,g,v,_,hins⟩ | ⟨g,hdel⟩
    · rwa [hsame]
    · rw [hins]
      exact h.insert E.limits E.lib malloc g v
    · rw [hdel]
      exact h.delete g

/-- No run of calls loses a node or touches the memory of others, whatever the commands print and
wherever `malloc` places the nodes: what is not in the link is as it was when the link was empty. -/
theorem run_keeps_memory (E : Env σ) {st : Hal σ} (hempty : st.config.raw.gpvlanConfigHead = none)
    (calls : List Call) :
    ∃ l, ChainOf (run (next (Call.perform E)) st calls).config.raw.heap
        (run (next (Call.perform E)) st calls).config.raw.gpvlanConfigHead l ∧
      l.map Prod.snd = (run (next (Call.perform E)) st calls).config.entries ∧
      (∀ a ∈ l.map Prod.fst, st.config.raw.heap.cell a = none) ∧
      ∀ a, a ∉ l.map Prod.fst → (run (next (Call.perform E)) st calls).config.raw.heap.cell a =
        st.config.raw.heap.cell a := by
  have hstart : st.config.Beside st.config.raw.heap.cell := by
    have hchain : ChainOf st.config.raw.heap st.config.raw.gpvlanConfigHead [] := hempty
    refine ⟨[],?_,(st.config.entries_eq hchain).symm⟩
    rw [hempty]
    exact Chain.Beside.empty st.config.raw.heap
  obtain ⟨l,hb,hl⟩ := run_beside E hstart calls
  exact ⟨l,hb.chain,hl,hb.apart,hb.outside⟩

def threeCalls : List Call :=
  [.addGroup (some "brlan0".toList) (some "5".toList),
   .addGroup (some "brlan1".toList) (some "7".toList),.delGroup (some "brlan0".toList)]

theorem run_keeps_memory_threeCalls :
    let st := linuxHal BridgeTable.empty
    let c := (run (next (Call.perform (linuxEnv grepExact))) st threeCalls).config
    ∃ l, ChainOf c.raw.heap c.raw.gpvlanConfigHead l ∧ l.map Prod.snd = c.entries ∧
      (∀ a ∈ l.map Prod.fst, st.config.raw.heap.cell a = none) ∧
      ∀ a, a ∉ l.map Prod.fst → c.raw.heap.cell a = st.config.raw.heap.cell a :=
  run_keeps_memory (linuxEnv grepExact) rfl threeCalls

/-! The table of the link -/

def configHeader : Str :=
  ("-----------------------------\n- GroupName\t|\tVLANID -\n" ++
    "-----------------------------\n").toList

def configRow (e : VlanEntry) : Str :=
  "  [".toList ++ e.groupName ++ "]\t|\t[".toList ++ e.vlanID ++ "]\n".toList

/-- The loop over the link. No result: a node that is not live is read, or the fuel is used up. -/
def printRows (h : Heap VlanEntry) : Nat → Ptr → Option Str
  | 0, _ => none
  | _+1, none => some []
  | fuel+1, some temp => do
    let node ← h.cell temp
    let rows ← printRows h fuel node.next
    pure (configRow node.val ++ rows)

def printAllVlanIdConfiguration (c : Config) : Option (Ret × Str) := do
  let rows ← printRows c.heap (c.heap.brk+1) c.gpvlanConfigHead
  pure (.ok,configHeader ++ rows)

theorem printRows_chain {h : Heap VlanEntry} {p : Ptr} {l : List (Addr × VlanEntry)}
    (hl : ChainOf h p l) {fuel : Nat} (hf : l.length < fuel) :
    printRows h fuel p = some ((l.map Prod.snd).flatMap configRow) := by
  induction l generalizing p fuel with
  | nil =>
    obtain rfl : p = none := hl
    obtain ⟨fuel,rfl⟩ : ∃ k, fuel = k+1 := ⟨fuel-1,by simp at hf; omega⟩
    rfl
  | cons x l ih =>
    obtain ⟨a,v⟩ := x
    obtain ⟨rfl,nx,hc,hrest⟩ := hl
    obtain ⟨fuel,rfl⟩ : ∃ k, fuel = k+1 := ⟨fuel-1,by simp at hf; omega⟩
    simp [printRows,hc,ih hrest (by simpa using hf)]

theorem printAllVlanIdConfiguration_eq (c : ConfigList) :
    printAllVlanIdConfiguration c.raw = some (.ok,configHeader ++ c.entries.flatMap configRow) := by
  obtain ⟨l,hl⟩ := c.chained
  have hlen := chainOf_length_le _ hl
  have hrows := @printRows_chain _ _ _ hl (c.raw.heap.brk+1) (by omega)
  rw [printAllVlanIdConfiguration,hrows,c.entries_eq hl]
  rfl

end RdkHal.Vlan
