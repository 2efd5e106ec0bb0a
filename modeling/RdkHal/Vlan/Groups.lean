import RdkHal.Lib.Runs
import RdkHal.Vlan.DelGroup

/-! Runs of group additions and deletions: two stores, the configuration link and the bridge
table, that no transaction keeps together. -/

set_option autoImplicit false

namespace RdkHal.Vlan
open Text BridgeTable Runs

variable {σ : Type} {E : Env σ} {net : σ → BridgeTable}

inductive GroupCall where
  | add (groupName : Str) (defaultVlanID : Option Str)
  | del (groupName : Str)

namespace GroupCall

def name : GroupCall → Str
  | add g _ => g
  | del g => g

def perform (E : Env σ) (st : Hal σ) : GroupCall → Ret × Hal σ
  | add g d => vlanHalAddGroup E (some g) d st
  | del g => vlanHalDelGroup E (some g) st

def step (E : Env σ) (st : Hal σ) (c : GroupCall) : Hal σ := (c.perform E st).2

def Fits (L : Limits) : GroupCall → Prop
  | add g none => g ≠ [] ∧ g.length < L.groupName
  | add g (some v) => (g ≠ [] ∧ g.length < L.groupName) ∧ v.length < L.vlanID
  | del g => g ≠ [] ∧ g.length < L.groupName

instance (L : Limits) (c : GroupCall) : Decidable (c.Fits L) :=
  match c with
  | add _ none => inferInstanceAs (Decidable (_ ∧ _))
  | add _ (some _) => inferInstanceAs (Decidable (_ ∧ _))
  | del _ => inferInstanceAs (Decidable (_ ∧ _))

def Tested (E : Env σ) (net : σ → BridgeTable) (st : Hal σ) (c : GroupCall) : Prop :=
  isThisGroupAvailableInLinuxBridge E (some c.name) st.os = true ↔ (net st.os).Has c.name

instance (E : Env σ) (net : σ → BridgeTable) (st : Hal σ) (c : GroupCall) :
    Decidable (c.Tested E net st) := inferInstanceAs (Decidable (_ ↔ _))

end GroupCall

theorem mem_eraseP_named {es : List VlanEntry} (hes : (es.map VlanEntry.groupName).Nodup)
    (g : Str) (e : VlanEntry) : e ∈ es.eraseP (named g) ↔ e ∈ es ∧ e.groupName ≠ g := by
  induction es with
  | nil => simp
  | cons x es ih =>
    rw [List.map_cons,List.nodup_cons] at hes
    by_cases hx : x.groupName = g
    · have herase : (x :: es).eraseP (named g) = es := by simp [named,hx]
      rw [herase]
      constructor
      · intro he
        refine ⟨List.mem_cons_of_mem _ he,?_⟩
        rintro rfl
        exact hes.1 (hx ▸ List.mem_map_of_mem he)
      · rintro ⟨he,hne⟩
        rcases List.mem_cons.mp he with rfl | he
        · exact absurd hx hne
        · exact he
    · have herase : (x :: es).eraseP (named g) = x :: es.eraseP (named g) := by
        simp [named,hx]
      rw [herase,List.mem_cons,ih hes.2,List.mem_cons]
      constructor
      · rintro (rfl | ⟨he,hne⟩)
        · exact ⟨Or.inl rfl,hx⟩
        · exact ⟨Or.inr he,hne⟩
      · rintro ⟨rfl | he,hne⟩
        · exact Or.inl rfl
        · exact Or.inr ⟨he,hne⟩

theorem find?_eraseP_named {g h : Str} (hne : h ≠ g) (es : List VlanEntry) :
    (es.eraseP (named g)).find? (named h) = es.find? (named h) := by
  induction es with
  | nil => rfl
  | cons x es ih =>
    by_cases hx : x.groupName = g
    · have hxh : x.groupName ≠ h := fun hh => hne (hh.symm.trans hx)
      simp [named,hx,hne.symm]
    · by_cases hxh : x.groupName = h
      · simp [named,hxh,hne]
      · have herase : (x :: es).eraseP (named g) = x :: es.eraseP (named g) := by
          simp [named,hx]
        rw [herase,List.find?_cons,List.find?_cons,ih]

theorem find?_named_none {g : Str} {es : List VlanEntry} :
    es.find? (named g) = none ↔ ∀ e ∈ es, e.groupName ≠ g := by
  simp [List.find?_eq_none,named]

theorem net_addbr_has (hports : PortTools E.host net) (hgroups : GroupTools E.host net) {s : σ}
    {g h : Str} (hh : (net s).Has h) :
    (net (E.host.system (cmdBuff E (addbrLine g)) s)).Has h := by
  rw [cmdBuff_eq]
  by_cases hline : (addbrLine g).length < 128
  · rw [if_pos hline]
    rcases hgroups.addbr s g with hdone | hrefused
    · exact (hdone h).mpr (Or.inl hh)
    · exact (hrefused h).mpr hh
  · rwa [if_neg hline,hports.idle]

def Memory (E : Env σ) (g : Str) (st : Hal σ) : Prop :=
  (E.host.malloc (E.host.system (cmdBuff E (addbrLine g)) st.os) st.config.raw.heap).isSome

instance (E : Env σ) (g : Str) (st : Hal σ) : Decidable (Memory E g st) :=
  inferInstanceAs (Decidable (_ = _))

theorem vlanHalAddGroup_found {g : Str} {d : Option Str} {st : Hal σ}
    (htest : isThisGroupAvailableInLinuxBridge E (some g) st.os = true) :
    vlanHalAddGroup E (some g) d st = (.ok,st) := by
  simp [vlanHalAddGroup,htest]

def newEntries (E : Env σ) (g : Str) (d : Option Str) (st : Hal σ) : List VlanEntry :=
  match d with
  | none => []
  | some v => if Memory E g st then [⟨g,v⟩] else []

theorem vlanHalAddGroup_new {g : Str} {d : Option Str} {st : Hal σ}
    (hfit : (GroupCall.add g d).Fits E.limits)
    (htest : ¬isThisGroupAvailableInLinuxBridge E (some g) st.os = true) :
    (vlanHalAddGroup E (some g) d st).1 = .ok ∧
    (vlanHalAddGroup E (some g) d st).2.os =
      E.host.system (cmdBuff E (addbrLine g)) st.os ∧
    (vlanHalAddGroup E (some g) d st).2.config.entries =
      st.config.entries ++ newEntries E g d st := by
  cases d with
  | none => simp [vlanHalAddGroup,htest,newEntries]
  | some v =>
    obtain ⟨⟨_,hg⟩,hv⟩ := hfit
    simp only [vlanHalAddGroup,htest,Bool.false_eq_true,if_false,true_and]
    refine ⟨rfl,?_⟩
    rw [Hal.insertEntry_entries,E.lib.strcpyS_fits _ _ hg,E.lib.strcpyS_fits _ _ hv]
    rfl

/-! The link and the bridges -/

/-- At most one entry for each group, and a bridge behind every entry. -/
structure LinkInv (net : σ → BridgeTable) (st : Hal σ) : Prop where
  distinct : (st.config.entries.map VlanEntry.groupName).Nodup
  exist : ∀ e ∈ st.config.entries, (net st.os).Has e.groupName

/-- Where the call would add an entry, its bridge exists afterwards. -/
def Carried (E : Env σ) (net : σ → BridgeTable) (st : Hal σ) : GroupCall → Prop
  | .add g (some _) => (net st.os).Has g ∨ ¬Memory E g st ∨
      (net (E.host.system (cmdBuff E (addbrLine g)) st.os)).Has g
  | _ => True

theorem LinkInv.no_entry {st : Hal σ} (h : LinkInv net st) {g : Str} (hg : ¬(net st.os).Has g) :
    ∀ e ∈ st.config.entries, e.groupName ≠ g := by
  rintro e he rfl
  exact hg (h.exist e he)

theorem linkInv_add_iff (hports : PortTools E.host net) (hgroups : GroupTools E.host net)
    {st : Hal σ} {g : Str} {d : Option Str} (h : LinkInv net st)
    (hfit : (GroupCall.add g d).Fits E.limits)
    (htest : (GroupCall.add g d).Tested E net st) (hg : ¬(net st.os).Has g) :
    LinkInv net (GroupCall.step E st (.add g d)) ↔ Carried E net st (.add g d) := by
  obtain ⟨_,hos,hentries⟩ := vlanHalAddGroup_new hfit (fun ht => hg (htest.mp ht))
  have hold : ∀ e ∈ st.config.entries,
      (net (E.host.system (cmdBuff E (addbrLine g)) st.os)).Has e.groupName :=
    fun e he => net_addbr_has hports hgroups (h.exist e he)
  have hsame : (GroupCall.step E st (.add g d)).config.entries = st.config.entries →
      LinkInv net (GroupCall.step E st (.add g d)) := by
    intro heq
    refine ⟨heq ▸ h.distinct,?_⟩
    rw [heq,GroupCall.step,GroupCall.perform,hos]
    exact hold
  cases d with
  | none => simp [Carried,hsame (hentries.trans (List.append_nil _))]
  | some v =>
    by_cases hmem : Memory E g st
    · -- an entry is added, which needs the new bridge behind it
      simp only [newEntries,hmem,if_true] at hentries
      simp only [Carried,hg,hmem,not_true,false_or]
      constructor
      · intro hinv
        have hnew := hinv.exist ⟨g,v⟩ (by simp [GroupCall.step,GroupCall.perform,hentries])
        rwa [GroupCall.step,GroupCall.perform,hos] at hnew
      · intro hnew
        refine ⟨?_,?_⟩
        · rw [GroupCall.step,GroupCall.perform,hentries,List.map_append,List.nodup_append]
          refine ⟨h.distinct,by simp,?_⟩
          intro a ha b hb hab
          obtain ⟨e,he,rfl⟩ := List.mem_map.mp ha
          exact h.no_entry hg e he (by simpa [hab] using hb)
        · rw [GroupCall.step,GroupCall.perform,hentries,hos]
          intro e he
          rcases List.mem_append.mp he with he | he
          · exact hold e he
          · rw [List.mem_singleton.mp he]
            exact hnew
    · simp only [newEntries,hmem,if_false,List.append_nil] at hentries
      simp [Carried,hmem,hsame hentries]

theorem linkInv_del (hshow : ShowTools E.host net) (hports : PortTools E.host net)
    (hgroups : GroupTools E.host net) {st : Hal σ} {g : Str} (h : LinkInv net st)
    (htest : (GroupCall.del g).Tested E net st) :
    LinkInv net (GroupCall.step E st (.del g)) := by
  by_cases ht : isThisGroupAvailableInLinuxBridge E (some g) st.os = true
  · obtain ⟨hhas,hentries⟩ := vlanHalDelGroup_keeps hshow hports hgroups ht (htest.mp ht)
    refine ⟨?_,?_⟩
    · rw [GroupCall.step,GroupCall.perform,hentries]
      exact h.distinct.sublist (List.eraseP_sublist.map _)
    · rw [GroupCall.step,GroupCall.perform,hentries]
      intro e he
      obtain ⟨he,hne⟩ := (mem_eraseP_named h.distinct g e).mp he
      exact (hhas _ hne).mpr (h.exist e he)
  · have hsame : GroupCall.step E st (.del g) = st := by
      simp [GroupCall.step,GroupCall.perform,vlanHalDelGroup,ht]
    rwa [hsame]

theorem linkInv_step_iff (hshow : ShowTools E.host net) (hports : PortTools E.host net)
    (hgroups : GroupTools E.host net) {st : Hal σ} {c : GroupCall} (h : LinkInv net st)
    (hfit : c.Fits E.limits) (htest : c.Tested E net st) :
    LinkInv net (c.step E st) ↔ Carried E net st c := by
  cases c with
  | add g d =>
    by_cases hg : (net st.os).Has g
    · have ht : isThisGroupAvailableInLinuxBridge E (some g) st.os = true := htest.mpr hg
      have hsame : GroupCall.step E st (.add g d) = st := by
        simp [GroupCall.step,GroupCall.perform,vlanHalAddGroup_found ht]
      rw [hsame]
      cases d <;> simp [Carried,hg,h]
    · exact linkInv_add_iff hports hgroups h hfit htest hg
  | del g => simp [Carried,linkInv_del hshow hports hgroups h htest]

/-- In the states of a run the link is in order exactly when every bridge is created for which
an entry is added: the failure of `brctl addbr` goes unnoticed. -/
theorem linkInv_always_iff (hshow : ShowTools E.host net) (hports : PortTools E.host net)
    (hgroups : GroupTools E.host net) {st : Hal σ} (hempty : st.config.entries = [])
    {calls : List GroupCall}
    (hcalls : Along (GroupCall.step E) (fun st c => c.Fits E.limits ∧ c.Tested E net st) st calls) :
    Always (GroupCall.step E) (LinkInv net) st calls ↔
      Along (GroupCall.step E) (Carried E net) st calls :=
  always_iff_along (J := fun _ => True) (fun _ _ _ _ _ => trivial)
    (fun _ _ _ hinv hc => linkInv_step_iff hshow hports hgroups hinv hc.1 hc.2) trivial
    ⟨by simp [hempty],by simp [hempty]⟩ hcalls

def groupCalls : List GroupCall :=
  [.add "brlan0".toList (some "5".toList),.add "brlan1".toList none,
    .add "brlan0".toList (some "7".toList),.del "brlan0".toList,.del "brlan2".toList]

theorem linkInv_always_iff_groupCalls :
    Always (GroupCall.step (linuxEnv grepShow)) (LinkInv id) (linuxHal BridgeTable.empty)
        groupCalls ↔
      Along (GroupCall.step (linuxEnv grepShow)) (Carried (linuxEnv grepShow) id)
        (linuxHal BridgeTable.empty) groupCalls :=
  linkInv_always_iff (E := linuxEnv grepShow) (linuxHost_show grepShow)
    (linuxHost_ports grepShow) (linuxHost_groups grepShow) rfl (by decide +kernel)

theorem linkInv_longName :
    Along (GroupCall.step (linuxEnv grepShow))
      (fun st c => c.Fits Limits.reference ∧ c.Tested (linuxEnv grepShow) id st)
      (linuxHal BridgeTable.empty) [.add "guest-network-vlan100".toList (some "100".toList)] ∧
    ¬Always (GroupCall.step (linuxEnv grepShow)) (LinkInv id) (linuxHal BridgeTable.empty)
      [.add "guest-network-vlan100".toList (some "100".toList)] := by
  refine ⟨by decide +kernel,fun h => ?_⟩
  have hinv := h.2
  have hentry : (⟨"guest-network-vlan100".toList,"100".toList⟩ : VlanEntry) ∈
      (GroupCall.step (linuxEnv grepShow) (linuxHal BridgeTable.empty)
        (.add "guest-network-vlan100".toList (some "100".toList))).config.entries := by
    decide +kernel
  have hnone : ¬(GroupCall.step (linuxEnv grepShow) (linuxHal BridgeTable.empty)
      (.add "guest-network-vlan100".toList (some "100".toList))).os.Has
        "guest-network-vlan100".toList := by
    decide +kernel
  exact hnone (hinv.exist _ hentry)

/-! The default of a group, over a history -/

/-- The default last accepted for each group: what the calls say, whatever the link holds. -/
def expect (c : GroupCall) (r : Ret) (default : Str → Option Str) : Str → Option Str :=
  match c with
  | .add g (some v) => if r = .ok then Function.update default g (some v) else default
  | .add _ none => default
  | .del g => Function.update default g none

def GroupCall.stepHistory (E : Env σ) (s : Hal σ × (Str → Option Str)) (c : GroupCall) :
    Hal σ × (Str → Option Str) :=
  (c.step E s.1,expect c (c.perform E s.1).1 s.2)

/-- In any array of a caller the lookup answers the default of the history, and interface calls
without a VLAN ID use it. -/
def AnswersDefault (E : Env σ) (s : Hal σ × (Str → Option Str)) : Prop :=
  ∀ g, (∀ old : Bytes, E.limits.vlanID ≤ old.length →
      match s.2 g with
      | some v => (s.1.config.get E.limits E.lib g old).1 = .ok ∧
          (s.1.config.get E.limits E.lib g old).2.bind strAt = some v
      | none => (s.1.config.get E.limits E.lib g old).1 = .err) ∧
    tempvlanID E g none s.1.config = s.2 g

def lookup (L : Limits) (config : ConfigList) (g : Str) : Option Str :=
  (config.entries.find? (named g)).map (fun e => e.vlanID.take (L.vlanID-1))

theorem tempvlanID_none (E : Env σ) (g : Str) (config : ConfigList) :
    tempvlanID E g none config = lookup E.limits config g := by
  rw [tempvlanID,ConfigList.get_eq,lookup]
  cases config.entries.find? (named g) with
  | none => rfl
  | some e => exact strAt_cleared E.limits.vlanID_pos e.vlanID

def IDsFit (L : Limits) (config : ConfigList) : Prop :=
  ∀ e ∈ config.entries, e.vlanID.length < L.vlanID

theorem lookup_stored {L : Limits} {config : ConfigList} (hfits : IDsFit L config) (g : Str) :
    lookup L config g = (config.entries.find? (named g)).map VlanEntry.vlanID := by
  rw [lookup]
  cases hfind : config.entries.find? (named g) with
  | none => rfl
  | some e =>
    have hlen := hfits e (List.mem_of_find?_eq_some hfind)
    rw [Option.map_some,Option.map_some,List.take_of_length_le (by omega)]

def Ended (L : Limits) (default : Str → Option Str) : Prop :=
  ∀ g v, default g = some v → v.length < L.vlanID-1

theorem get_stored_iff {L : Limits} (lib : Safec) {config : ConfigList} (hfits : IDsFit L config)
    {g v : Str} (hv : lookup L config g = some v) (old : Bytes) :
    (config.get L lib g old).1 = .ok ∧ ((config.get L lib g old).2.bind strAt = some v ↔
      v.length < L.vlanID-1 ∨ old[L.vlanID-1]? = some none) := by
  rw [lookup_stored hfits,Option.map_eq_some_iff] at hv
  obtain ⟨e,hfind,rfl⟩ := hv
  rw [ConfigList.get_eq,hfind]
  exact ⟨rfl,copyID_iff (hfits e (List.mem_of_find?_eq_some hfind)) old⟩

theorem get_absent {L : Limits} (lib : Safec) {config : ConfigList} (hfits : IDsFit L config)
    {g : Str} (hv : lookup L config g = none) (old : Bytes) :
    (config.get L lib g old).1 = .err := by
  rw [lookup_stored hfits,Option.map_eq_none_iff] at hv
  rw [ConfigList.get_eq,hv]

theorem answersDefault_iff {s : Hal σ × (Str → Option Str)}
    (hfits : IDsFit E.limits s.1.config) :
    AnswersDefault E s ↔ lookup E.limits s.1.config = s.2 ∧ Ended E.limits s.2 := by
  constructor
  · intro h
    have hlookup : lookup E.limits s.1.config = s.2 := by
      funext g
      rw [← tempvlanID_none]
      exact (h g).2
    refine ⟨hlookup,fun g v hv => ?_⟩
    -- an array without a zero byte
    have hread := (h g).1 (List.replicate E.limits.vlanID (some 'x')) (by simp)
    rw [hv] at hread
    rcases (get_stored_iff E.lib hfits (hlookup ▸ hv) _).2.mp hread.2 with hshort | hend
    · exact hshort
    · have hpos := E.limits.vlanID_pos
      rw [List.getElem?_replicate,if_pos (by omega)] at hend
      cases hend
  · rintro ⟨hlookup,hended⟩ g
    refine ⟨fun old _ => ?_,by rw [tempvlanID_none,hlookup]⟩
    cases hv : s.2 g with
    | none => exact get_absent E.lib hfits (hlookup ▸ hv) old
    | some v =>
      obtain ⟨hret,hread⟩ := get_stored_iff E.lib hfits (hlookup ▸ hv) old
      exact ⟨hret,hread.mpr (Or.inl (hended g v hv))⟩

structure HistoryInv (E : Env σ) (net : σ → BridgeTable) (st : Hal σ) : Prop where
  link : LinkInv net st
  fits : IDsFit E.limits st.config

def AddbrDone (E : Env σ) (net : σ → BridgeTable) (st : Hal σ) : GroupCall → Prop
  | .add g _ => (net (E.host.system (cmdBuff E (addbrLine g)) st.os)).Has g
  | .del _ => True

instance (E : Env σ) (net : σ → BridgeTable) (st : Hal σ) (c : GroupCall) :
    Decidable (AddbrDone E net st c) :=
  match c with
  | .add g _ => inferInstanceAs (Decidable (BridgeTable.Has _ g))
  | .del _ => inferInstanceAs (Decidable True)

/-- The default is new, there is memory for it and it leaves room for its end; or it is the one
stored already. -/
def DefaultTaken (E : Env σ) (net : σ → BridgeTable) (st : Hal σ) : GroupCall → Prop
  | .add g (some v) =>
      (¬(net st.os).Has g ∧ Memory E g st ∧ v.length < E.limits.vlanID-1) ∨
      (st.config.entries.find? (named g)).map VlanEntry.vlanID = some v
  | _ => True

theorem lookup_absent {L : Limits} {st : Hal σ} {g : Str} (h : LinkInv net st)
    (hg : ¬(net st.os).Has g) : lookup L st.config g = none := by
  rw [lookup,find?_named_none.mpr (h.no_entry hg)]
  rfl

theorem lookup_append {L : Limits} {config config' : ConfigList} {g v : Str}
    (hentries : config'.entries = config.entries ++ [⟨g,v⟩]) (hv : v.length < L.vlanID)
    (hnone : ∀ e ∈ config.entries, e.groupName ≠ g) :
    lookup L config' = Function.update (lookup L config) g (some v) := by
  funext h
  rw [lookup,hentries,List.find?_append]
  by_cases hh : h = g
  · subst hh
    have htake : v.take (L.vlanID-1) = v := List.take_of_length_le (by omega)
    rw [find?_named_none.mpr hnone,Function.update_self]
    simp [named,htake]
  · have hlast : [(⟨g,v⟩ : VlanEntry)].find? (named h) = none := by
      simp [named,Ne.symm hh]
    rw [Function.update_of_ne hh,hlast,Option.or_none,lookup]

theorem lookup_eraseP {L : Limits} {config config' : ConfigList} {g : Str}
    (hentries : config'.entries = config.entries.eraseP (named g))
    (hdistinct : (config.entries.map VlanEntry.groupName).Nodup) :
    lookup L config' = Function.update (lookup L config) g none := by
  funext h
  rw [lookup,hentries]
  by_cases hh : h = g
  · subst hh
    have hnone : ∀ e ∈ config.entries.eraseP (named h), e.groupName ≠ h :=
      fun e he => ((mem_eraseP_named hdistinct h e).mp he).2
    rw [find?_named_none.mpr hnone,Function.update_self]
    rfl
  · rw [find?_eraseP_named hh,Function.update_of_ne hh,lookup]

theorem update_same_iff {f : Str → Option Str} {g : Str} {d : Option Str} :
    f = Function.update f g d ↔ f g = d := by
  constructor
  · intro h
    rw [h,Function.update_self]
  · rintro rfl
    exact (Function.update_eq_self g f).symm

theorem Ended.update_iff {L : Limits} {default : Str → Option Str} (h : Ended L default)
    (g v : Str) : Ended L (Function.update default g (some v)) ↔ v.length < L.vlanID-1 := by
  constructor
  · intro hnew
    exact hnew g v (Function.update_self g (some v) default)
  · intro hv k w hw
    by_cases hk : k = g
    · rw [hk,Function.update_self,Option.some.injEq] at hw
      rwa [← hw]
    · rw [Function.update_of_ne hk] at hw
      exact h k w hw

theorem Ended.erase {L : Limits} {default : Str → Option Str} (h : Ended L default) (g : Str) :
    Ended L (Function.update default g none) := by
  intro k w hw
  by_cases hk : k = g
  · rw [hk,Function.update_self] at hw
    cases hw
  · rw [Function.update_of_ne hk] at hw
    exact h k w hw

theorem step_entries {st : Hal σ} {c : GroupCall} (hshow : ShowTools E.host net)
    (hports : PortTools E.host net) (hgroups : GroupTools E.host net) (hfit : c.Fits E.limits)
    (htest : c.Tested E net st) : ∀ e ∈ (c.step E st).config.entries,
      e ∈ st.config.entries ∨ ∃ g v, c = .add g (some v) ∧ e = ⟨g,v⟩ := by
  cases c with
  | add g d =>
    by_cases ht : isThisGroupAvailableInLinuxBridge E (some g) st.os = true
    · simp only [GroupCall.step,GroupCall.perform,vlanHalAddGroup_found ht]
      exact fun e he => Or.inl he
    · rw [GroupCall.step,GroupCall.perform,(vlanHalAddGroup_new hfit ht).2.2]
      intro e he
      rcases List.mem_append.mp he with he | he
      · exact Or.inl he
      · cases d with
        | none => simp [newEntries] at he
        | some v =>
          by_cases hmem : Memory E g st
          · exact Or.inr ⟨g,v,rfl,by simpa [newEntries,hmem] using he⟩
          · simp [newEntries,hmem] at he
  | del g =>
    by_cases ht : isThisGroupAvailableInLinuxBridge E (some g) st.os = true
    · obtain ⟨_,hentries⟩ := vlanHalDelGroup_keeps hshow hports hgroups ht (htest.mp ht)
      rw [GroupCall.step,GroupCall.perform,hentries]
      exact fun e he => Or.inl (List.mem_of_mem_eraseP he)
    · simp only [GroupCall.step,GroupCall.perform,vlanHalDelGroup,ht]
      exact fun e he => Or.inl he

theorem idsFit_step {st : Hal σ} {c : GroupCall} (hshow : ShowTools E.host net)
    (hports : PortTools E.host net) (hgroups : GroupTools E.host net)
    (hfits : IDsFit E.limits st.config) (hfit : c.Fits E.limits) (htest : c.Tested E net st) :
    IDsFit E.limits (c.step E st).config := by
  intro e he
  rcases step_entries hshow hports hgroups hfit htest e he with hold | ⟨g,v,rfl,rfl⟩
  · exact hfits e hold
  · exact hfit.2

theorem stepHistory_add_iff {s : Hal σ × (Str → Option Str)} {g v : Str}
    (hinv : HistoryInv E net s.1) (hlookup : lookup E.limits s.1.config = s.2)
    (hended : Ended E.limits s.2) (hfit : (GroupCall.add g (some v)).Fits E.limits)
    (htest : (GroupCall.add g (some v)).Tested E net s.1) :
    (lookup E.limits (GroupCall.stepHistory E s (.add g (some v))).1.config =
        (GroupCall.stepHistory E s (.add g (some v))).2 ∧
      Ended E.limits (GroupCall.stepHistory E s (.add g (some v))).2) ↔
      DefaultTaken E net s.1 (.add g (some v)) := by
  simp only [DefaultTaken,← lookup_stored hinv.fits,hlookup]
  by_cases hg : (net s.1.os).Has g
  · have ht : isThisGroupAvailableInLinuxBridge E (some g) s.1.os = true := htest.mpr hg
    simp only [GroupCall.stepHistory,GroupCall.step,GroupCall.perform,vlanHalAddGroup_found ht,
      expect,if_true,hg,not_true,false_and,false_or,hlookup,update_same_iff]
    constructor
    · exact fun h => h.1
    · intro h
      rw [← update_same_iff.mpr h]
      exact ⟨h,hended⟩
  · obtain ⟨hret,_,hentries⟩ := vlanHalAddGroup_new hfit (fun ht => hg (htest.mp ht))
    have hnone : s.2 g = none := hlookup ▸ lookup_absent hinv.link hg
    simp only [GroupCall.stepHistory,GroupCall.step,GroupCall.perform,expect,hret,if_true,hg,
      not_false_iff,true_and,hnone,hended.update_iff,reduceCtorEq,or_false]
    by_cases hmem : Memory E g s.1
    · simp only [newEntries,hmem,if_true] at hentries
      simp [hmem,lookup_append hentries hfit.2 (hinv.link.no_entry hg),hlookup]
    · simp only [newEntries,hmem,if_false,List.append_nil] at hentries
      have hsame : lookup E.limits (vlanHalAddGroup E (some g) (some v) s.1).2.config = s.2 := by
        rw [← hlookup]
        funext h
        rw [lookup,hentries,lookup]
      simp [hmem,hsame,hnone]

theorem stepHistory_addNone {s : Hal σ × (Str → Option Str)} {g : Str}
    (hlookup : lookup E.limits s.1.config = s.2) (hfit : (GroupCall.add g none).Fits E.limits) :
    lookup E.limits (GroupCall.stepHistory E s (.add g none)).1.config = s.2 := by
  rw [← hlookup]
  funext h
  have hentries : (vlanHalAddGroup E (some g) none s.1).2.config.entries = s.1.config.entries := by
    by_cases ht : isThisGroupAvailableInLinuxBridge E (some g) s.1.os = true
    · rw [vlanHalAddGroup_found ht]
    · exact (vlanHalAddGroup_new hfit ht).2.2.trans (List.append_nil _)
  simp only [GroupCall.stepHistory,GroupCall.step,GroupCall.perform,lookup,hentries]

theorem stepHistory_del (hshow : ShowTools E.host net) (hports : PortTools E.host net)
    (hgroups : GroupTools E.host net) {s : Hal σ × (Str → Option Str)} {g : Str}
    (hinv : HistoryInv E net s.1) (hlookup : lookup E.limits s.1.config = s.2)
    (htest : (GroupCall.del g).Tested E net s.1) :
    lookup E.limits (GroupCall.stepHistory E s (.del g)).1.config =
      (GroupCall.stepHistory E s (.del g)).2 := by
  simp only [GroupCall.stepHistory,GroupCall.step,GroupCall.perform,expect,← hlookup]
  by_cases ht : isThisGroupAvailableInLinuxBridge E (some g) s.1.os = true
  · obtain ⟨_,hentries⟩ := vlanHalDelGroup_keeps hshow hports hgroups ht (htest.mp ht)
    exact lookup_eraseP hentries hinv.link.distinct
  · have hsame : (vlanHalDelGroup E (some g) s.1).2 = s.1 := by simp [vlanHalDelGroup,ht]
    rw [hsame]
    exact update_same_iff.mpr (lookup_absent hinv.link (fun hg => ht (htest.mpr hg)))

theorem stepHistory_iff (hshow : ShowTools E.host net) (hports : PortTools E.host net)
    (hgroups : GroupTools E.host net) {s : Hal σ × (Str → Option Str)} {c : GroupCall}
    (hinv : HistoryInv E net s.1) (hs : AnswersDefault E s) (hfit : c.Fits E.limits)
    (htest : c.Tested E net s.1) :
    AnswersDefault E (c.stepHistory E s) ↔ DefaultTaken E net s.1 c := by
  obtain ⟨hlookup,hended⟩ := (answersDefault_iff hinv.fits).mp hs
  rw [answersDefault_iff (s := c.stepHistory E s)
    (idsFit_step hshow hports hgroups hinv.fits hfit htest)]
  cases c with
  | add g d =>
    cases d with
    | none => exact iff_of_true ⟨stepHistory_addNone hlookup hfit,hended⟩ trivial
    | some v => exact stepHistory_add_iff hinv hlookup hended hfit htest
  | del g =>
    exact iff_of_true ⟨stepHistory_del hshow hports hgroups hinv hlookup htest,hended.erase g⟩
      trivial

theorem historyInv_step (hshow : ShowTools E.host net) (hports : PortTools E.host net)
    (hgroups : GroupTools E.host net) {st : Hal σ} {c : GroupCall} (hinv : HistoryInv E net st)
    (hfit : c.Fits E.limits) (htest : c.Tested E net st) (hdone : AddbrDone E net st c) :
    HistoryInv E net (c.step E st) := by
  have hcarried : Carried E net st c := by
    cases c with
    | add g d =>
      cases d with
      | none => trivial
      | some v => exact Or.inr (Or.inr hdone)
    | del g => trivial
  exact ⟨(linkInv_step_iff hshow hports hgroups hinv.link hfit htest).mpr hcarried,
    idsFit_step hshow hports hgroups hinv.fits hfit htest⟩

/-- Over a run the lookup answers the default last accepted exactly when every default given
is taken: a default for a group that exists is dropped, and success is reported; and one that
takes all of its array but one byte is copied without its end. -/
theorem answersDefault_always_iff (hshow : ShowTools E.host net) (hports : PortTools E.host net)
    (hgroups : GroupTools E.host net) {st : Hal σ} (hempty : st.config.entries = [])
    {calls : List GroupCall}
    (hcalls : Along (GroupCall.stepHistory E)
      (fun s c => c.Fits E.limits ∧ c.Tested E net s.1 ∧ AddbrDone E net s.1 c)
      (st,fun _ => none) calls) :
    Always (GroupCall.stepHistory E) (AnswersDefault E) (st,fun _ => none) calls ↔
      Along (GroupCall.stepHistory E) (fun s c => DefaultTaken E net s.1 c)
        (st,fun _ => none) calls := by
  have hfits : IDsFit E.limits st.config := by simp [IDsFit,hempty]
  have hstart : AnswersDefault E (st,fun _ => none) := by
    refine (answersDefault_iff hfits).mpr ⟨?_,by simp [Ended]⟩
    funext g
    simp [lookup,hempty]
  exact always_iff_along (J := fun s => HistoryInv E net s.1)
    (fun _ _ hj _ hc => historyInv_step hshow hports hgroups hj hc.1 hc.2.1 hc.2.2)
    (fun _ _ hj hs hc => stepHistory_iff hshow hports hgroups hj hs hc.1 hc.2.1)
    ⟨⟨by simp [hempty],by simp [hempty]⟩,hfits⟩ hstart hcalls

theorem answersDefault_always_iff_groupCalls :
    Always (GroupCall.stepHistory (linuxEnv grepShow)) (AnswersDefault (linuxEnv grepShow))
        (linuxHal BridgeTable.empty,fun _ => none) groupCalls ↔
      Along (GroupCall.stepHistory (linuxEnv grepShow))
        (fun s c => DefaultTaken (linuxEnv grepShow) id s.1 c)
        (linuxHal BridgeTable.empty,fun _ => none) groupCalls :=
  answersDefault_always_iff (E := linuxEnv grepShow) (linuxHost_show grepShow)
    (linuxHost_ports grepShow) (linuxHost_groups grepShow) rfl (by decide +kernel)

def secondDefault : List GroupCall :=
  [.add "brlan0".toList (some "5".toList),.add "brlan0".toList (some "7".toList)]

theorem answersDefault_secondDefault :
    Along (GroupCall.stepHistory (linuxEnv grepShow))
      (fun s c => c.Fits Limits.reference ∧ c.Tested (linuxEnv grepShow) id s.1 ∧
        AddbrDone (linuxEnv grepShow) id s.1 c)
      (linuxHal BridgeTable.empty,fun _ => none) secondDefault ∧
    ¬Always (GroupCall.stepHistory (linuxEnv grepShow)) (AnswersDefault (linuxEnv grepShow))
      (linuxHal BridgeTable.empty,fun _ => none) secondDefault := by
  refine ⟨by decide +kernel,fun h => ?_⟩
  have hlast := (h.2.2 "brlan0".toList).2
  have hfirst : tempvlanID (linuxEnv grepShow) "brlan0".toList none
      (run (GroupCall.step (linuxEnv grepShow)) (linuxHal BridgeTable.empty)
        secondDefault).config = some "5".toList := by
    decide +kernel
  have hexpect : (run (GroupCall.stepHistory (linuxEnv grepShow))
      (linuxHal BridgeTable.empty,fun _ => none) secondDefault).2 "brlan0".toList =
      some "7".toList := by
    decide +kernel
  have hsame := hfirst.symm.trans (hlast.trans hexpect)
  exact absurd hsame (by decide)

end RdkHal.Vlan
