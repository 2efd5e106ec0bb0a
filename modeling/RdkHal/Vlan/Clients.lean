import RdkHal.Vlan.Vocabulary

/-! What the table of groups shows of the calls: printing it, repeating them, sharing them among
clients, and undoing them by deleting the group. -/

set_option autoImplicit false

namespace RdkHal.Vlan
open Text BridgeTable Runs

variable {σ : Type} {E : Env σ} {net : σ → BridgeTable}

theorem configRow_eq (e : VlanEntry) (rest : Str) : configRow e ++ rest =
    "  [".toList ++ ((e.groupName ++ [']']) ++ '\t' :: ("|\t[".toList ++
      ((e.vlanID ++ [']']) ++ '\n' :: rest))) := by
  simp [configRow]

theorem configRows_inj {es es' : List VlanEntry}
    (hes : ∀ e ∈ es, NoSpace e.groupName ∧ NoSpace e.vlanID)
    (hes' : ∀ e ∈ es', NoSpace e.groupName ∧ NoSpace e.vlanID)
    (h : es.flatMap configRow = es'.flatMap configRow) : es = es' := by
  have htab : ∀ {s : Str}, NoSpace s → '\t' ∉ s ++ [']'] := by
    intro s hs hmem
    exact hs.not_mem (c := '\t') (by decide) (by simpa using hmem)
  have hend : ∀ {s : Str}, NoSpace s → '\n' ∉ s ++ [']'] := by
    intro s hs hmem
    exact hs.not_mem (c := '\n') (by decide) (by simpa using hmem)
  induction es generalizing es' with
  | nil =>
    cases es' with
    | nil => rfl
    | cons e' es' => simp [configRow] at h
  | cons e es ih =>
    cases es' with
    | nil => simp [configRow] at h
    | cons e' es' =>
      obtain ⟨⟨hg,hv⟩,hrest⟩ := List.forall_mem_cons.mp hes
      obtain ⟨⟨hg',hv'⟩,hrest'⟩ := List.forall_mem_cons.mp hes'
      rw [List.flatMap_cons,List.flatMap_cons,configRow_eq,configRow_eq,
        List.append_cancel_left_eq] at h
      obtain ⟨hname,h⟩ := until_inj (htab hg) (htab hg') h
      obtain ⟨hid,htail⟩ := until_inj (hend hv) (hend hv') (List.append_cancel_left h)
      have hsame : e = e' := by
        obtain ⟨g,v⟩ := e
        obtain ⟨g',v'⟩ := e'
        obtain rfl : g = g' := List.append_cancel_right hname
        obtain rfl : v = v' := List.append_cancel_right hid
        rfl
      rw [hsame,ih hrest hrest' htail]

/-- After every run of sound calls the table that is printed has one row for each group with a
default, and no other, and it can be read back in one way only. -/
theorem printed_defaults (K : KernelTools E net) {m : Manager} {st : Hal σ}
    (h : m.Represents net st) {calls : List Call}
    (hcalls : Along (next (Call.perform E)) (Call.Sound E net) st calls) :
    ∃ es : List VlanEntry,
      printAllVlanIdConfiguration (run (next (Call.perform E)) st calls).config.raw =
        some (.ok,configHeader ++ es.flatMap configRow) ∧
      (es.map VlanEntry.groupName).Nodup ∧
      (∀ g v, ⟨g,v⟩ ∈ es ↔ (run (next Manager.perform) m calls).default g = some (some v)) ∧
      ∀ es', (∀ e ∈ es', NoSpace e.groupName ∧ NoSpace e.vlanID) →
        printAllVlanIdConfiguration (run (next (Call.perform E)) st calls).config.raw =
          some (.ok,configHeader ++ es'.flatMap configRow) → es' = es := by
  obtain ⟨_,hend⟩ := h.run K hcalls
  have hprint := printAllVlanIdConfiguration_eq (run (next (Call.perform E)) st calls).config
  refine ⟨_,hprint,hend.distinct,hend.entries,fun es' hes' hread => ?_⟩
  rw [hprint,Option.some.injEq,Prod.mk.injEq,List.append_cancel_left_eq] at hread
  refine configRows_inj hes' ?_ hread.2.symm
  rintro ⟨g,v⟩ he
  have hd := (hend.entries g v).mp he
  have hhas := (hend.groups g).mpr (by rw [hd]; rfl)
  exact ⟨hhas.word.2,(hend.tags g v hd).1.2⟩

theorem printed_defaults_tenCalls :
    let st := run (next (Call.perform (linuxEnv grepShow))) (linuxHal BridgeTable.empty) tenCalls
    ∃ es : List VlanEntry, printAllVlanIdConfiguration st.config.raw =
        some (.ok,configHeader ++ es.flatMap configRow) ∧
      (es.map VlanEntry.groupName).Nodup ∧
      (∀ g v, ⟨g,v⟩ ∈ es ↔
        (run (next Manager.perform) Manager.empty tenCalls).default g = some (some v)) ∧
      ∀ es', (∀ e ∈ es', NoSpace e.groupName ∧ NoSpace e.vlanID) →
        printAllVlanIdConfiguration st.config.raw =
          some (.ok,configHeader ++ es'.flatMap configRow) → es' = es :=
  printed_defaults (linuxEnv_tools grepShow) linuxHal_empty (grepShow_sound (by decide))

def Call.Retriable : Call → Prop
  | addGroup .. | delGroup .. | addInterface .. | delInterface .. => True
  | printGroup .. | printAllGroup | deleteAllInterfaces .. => False

instance (c : Call) : Decidable c.Retriable :=
  match c with
  | .addGroup .. | .delGroup .. | .addInterface .. | .delInterface .. =>
    inferInstanceAs (Decidable True)
  | .printGroup .. | .printAllGroup | .deleteAllInterfaces .. => inferInstanceAs (Decidable False)

namespace Manager

theorem create_isSome (m : Manager) (g : Str) (d : Option Str) :
    ((m.create g d).default g).isSome := by
  cases hd : m.default g with
  | none => simp [create_new hd]
  | some x => simp [create_found hd,hd]

theorem attach_isSome (m : Manager) (g : Str) (p : Str × Str) :
    ((m.attach g p).owner p).isSome := by
  cases hp : m.owner p with
  | none => simp [attach,hp]
  | some k => simp [attach,hp]

theorem vlan_congr {m m' : Manager} {g : Str} (h : m'.default g = m.default g) (v : Option Str) :
    m'.vlan g v = m.vlan g v := by rw [vlan,vlan,h]

theorem vlan_isSome {m : Manager} {g w : Str} {v : Option Str} (h : m.vlan g v = some w) :
    (m.default g).isSome := by
  rw [vlan,Option.bind_eq_some_iff] at h
  obtain ⟨d,hd,_⟩ := h
  rw [hd]
  rfl

end Manager

namespace Manager.Represents

variable {m : Manager} {st : Hal σ}

theorem addInterface_owned (K : KernelTools E net) (h : m.Represents net st) {g i w : Str}
    {v : Option Str} (hi : DeviceName i) (hv : ∀ u ∈ v, VlanTag u) (hw : m.vlan g v = some w)
    (hown : (m.owner (i,w)).isSome)
    (htest : isThisGroupAvailableInLinuxBridge E (some g) st.os = true ↔ (net st.os).Has g) :
    vlanHalAddInterface E (some g) (some i) v st = (.ok,st) := by
  have hhas := (h.groups g).mpr (vlan_isSome hw)
  have htag := h.vlan_tag hv hw
  have havail := interfaceAvailable_iff K.listing (h.allTagged.fitting K.limits) hi.1.1 hi.2.1
    htag.1.1
  simp only [h.port_iff hi,← Option.isSome_iff_exists] at havail
  simp [vlanHalAddInterface,htest.mpr hhas,h.tempvlanID K.limits hhas hv,hw,havail.mpr hown]

theorem delInterface_foreign (K : KernelTools E net) (h : m.Represents net st) {g i w : Str}
    {v : Option Str} (hg : BridgeName g) (hi : DeviceName i) (hv : ∀ u ∈ v, VlanTag u)
    (hw : m.vlan g v = some w) (hown : m.owner (i,w) ≠ some g)
    (htest : isThisGroupAvailableInLinuxBridge E (some g) st.os = true ↔ (net st.os).Has g) :
    vlanHalDelInterface E (some g) (some i) v st = (.ok,st) := by
  have hhas := (h.groups g).mpr (vlan_isSome hw)
  have htag := h.vlan_tag hv hw
  have hgiven := interfaceInGiven_iff K.listing (h.allTagged.fits K.limits g) hhas
    hg.lines_fit.2.1 hi.1.1 hi.2.1 htag.1.1
  rw [h.port_iff hi] at hgiven
  have hskip : isThisInterfaceAvailableInGivenLinuxBridge E (some i) (some g) (some w) st.os =
      false := Bool.eq_false_iff.mpr (fun hf => hown (hgiven.mp hf))
  simp [vlanHalDelInterface,htest.mpr hhas,h.tempvlanID K.limits hhas hv,hw,hskip]

theorem retry (K : KernelTools E net) (h : m.Represents net st) {c : Call} (hc : c.Retriable)
    (hfirst : c.Sound E net st) (hsecond : c.Sound E net (c.perform E st).2) :
    c.perform E (c.perform E st).2 = c.perform E st := by
  obtain ⟨hret,h'⟩ := h.step K hfirst.admitted hfirst.judged hfirst.granted
  have htest : ∀ g ∈ c.group, (isThisGroupAvailableInLinuxBridge E (some g)
      (c.perform E st).2.os = true ↔ (net (c.perform E st).2.os).Has g) :=
    fun g hg => (hsecond.judged g hg).now
  cases herr : (c.perform E st).1 with
  | err => rw [Call.perform_err herr]
  | ok =>
    rw [herr] at hret
    have hpair : c.perform E st = (.ok,(c.perform E st).2) := by rw [← herr]
    rw [hpair]
    generalize (c.perform E st).2 = st' at *
    cases c with
    | addGroup g d =>
      cases g with
      | none => cases hret
      | some g =>
        have hhas := (h'.groups g).mpr (create_isSome m g d)
        exact vlanHalAddGroup_found ((htest g rfl).mpr hhas)
    | delGroup g =>
      cases g with
      | none => cases hret
      | some g =>
        have hhas : ¬(net st'.os).Has g := by
          rw [h'.groups]
          simp [perform]
        have hnot : ¬isThisGroupAvailableInLinuxBridge E (some g) st'.os = true :=
          fun ht => hhas ((htest g rfl).mp ht)
        simp [Call.perform,vlanHalDelGroup,hnot]
    | addInterface g i v =>
      cases g with
      | none => cases hret
      | some g =>
        cases i with
        | none => cases hret
        | some i =>
          simp only [perform,onInterface] at hret h'
          cases hw : m.vlan g v with
          | none => simp [hw] at hret
          | some w =>
            simp only [hw] at h'
            have hw' := (vlan_congr (congrFun (attach_default m g (i,w)) g) v).trans hw
            exact h'.addInterface_owned K (hfirst.admitted.device i rfl) hfirst.admitted.tag hw'
              (attach_isSome m g (i,w)) (htest g rfl)
    | delInterface g i v =>
      cases g with
      | none => cases hret
      | some g =>
        cases i with
        | none => cases hret
        | some i =>
          simp only [perform,onInterface] at hret h'
          cases hw : m.vlan g v with
          | none => simp [hw] at hret
          | some w =>
            simp only [hw] at h'
            have hw' := (vlan_congr (congrFun (detach_default m g (i,w)) g) v).trans hw
            refine h'.delInterface_foreign K (hfirst.admitted.group g rfl)
              (hfirst.admitted.device i rfl) hfirst.admitted.tag hw' ?_ (htest g rfl)
            exact fun hown => (detach_eq_some.mp hown).2 ⟨rfl,rfl⟩
    | printGroup g => exact hc.elim
    | printAllGroup => exact hc.elim
    | deleteAllInterfaces g => exact hc.elim

end Manager.Represents

namespace Manager

theorem perform_local {m m' : Manager} {c : Call} (hd : ∀ g ∈ c.group, m.default g = m'.default g) :
    (m.perform c).1 = (m'.perform c).1 ∧
    (∀ k, m.default k = m'.default k → (m.perform c).2.default k = (m'.perform c).2.default k) ∧
    ∀ p, m.owner p = m'.owner p → (m.perform c).2.owner p = (m'.perform c).2.owner p := by
  have hvlan : ∀ g ∈ c.group, ∀ v, m.vlan g v = m'.vlan g v := fun g hg v => by
    rw [vlan,vlan,hd g hg]
  cases c with
  | addGroup g d =>
    cases g with
    | none => exact ⟨rfl,fun _ => id,fun _ => id⟩
    | some g =>
      have hg := hd g rfl
      simp only [perform,true_and]
      cases hm : m.default g with
      | some x =>
        rw [create_found hm,create_found (hg ▸ hm)]
        exact ⟨fun _ => id,fun _ => id⟩
      | none =>
        rw [create_new hm,create_new (hg ▸ hm)]
        refine ⟨fun k hk => ?_,fun _ => id⟩
        by_cases hkg : k = g <;> simp [hkg,hk]
  | delGroup g =>
    cases g with
    | none => exact ⟨rfl,fun _ => id,fun _ => id⟩
    | some g =>
      refine ⟨rfl,fun k hk => ?_,fun p hp => ?_⟩
      · by_cases hkg : k = g <;> simp [perform,hkg,hk]
      · simp [perform,release,hp]
  | addInterface g i v =>
    cases g with
    | none => exact ⟨rfl,fun _ => id,fun _ => id⟩
    | some g =>
      cases i with
      | none => exact ⟨rfl,fun _ => id,fun _ => id⟩
      | some i =>
        simp only [perform,onInterface,hvlan g rfl v]
        cases m'.vlan g v with
        | none => exact ⟨rfl,fun _ => id,fun _ => id⟩
        | some w =>
          refine ⟨rfl,fun k hk => by simpa using hk,fun p hp => ?_⟩
          by_cases hpw : p = (i,w)
          · subst hpw
            cases hown : m'.owner (i,w) with
            | none => simp [attach,hp,hown]
            | some k => simp [attach,hp,hown]
          · cases hown : m.owner (i,w) <;> cases hown' : m'.owner (i,w) <;>
              simp [attach,hown,hown',hpw,hp]
  | delInterface g i v =>
    cases g with
    | none => exact ⟨rfl,fun _ => id,fun _ => id⟩
    | some g =>
      cases i with
      | none => exact ⟨rfl,fun _ => id,fun _ => id⟩
      | some i =>
        simp only [perform,onInterface,hvlan g rfl v]
        cases m'.vlan g v with
        | none => exact ⟨rfl,fun _ => id,fun _ => id⟩
        | some w =>
          refine ⟨rfl,fun k hk => by simpa using hk,fun p hp => Option.ext fun k => ?_⟩
          simp only [detach_eq_some,hp]
  | deleteAllInterfaces g =>
    cases g with
    | none => exact ⟨rfl,fun _ => id,fun _ => id⟩
    | some g => exact ⟨rfl,fun _ => id,fun p hp => by simp [perform,release,hp]⟩
  | printGroup g => cases g <;> exact ⟨rfl,fun _ => id,fun _ => id⟩
  | printAllGroup => exact ⟨rfl,fun _ => id,fun _ => id⟩

theorem perform_changes (m : Manager) (c : Call) :
    (∀ k, c.group ≠ some k → (m.perform c).2.default k = m.default k) ∧
    ∀ p, (m.perform c).2.owner p = m.owner p ∨ ∃ g, c.group = some g ∧
      ((m.owner p = some g ∧ (m.perform c).2.owner p = none) ∨
        (m.owner p = none ∧ (m.perform c).2.owner p = some g ∧ c.device = some p.1)) := by
  have heffect := m.perform_effect c
  generalize (m.perform c).2 = m' at heffect ⊢
  cases heffect with
  | unchanged => exact ⟨fun _ _ => rfl,fun _ => Or.inl rfl⟩
  | @created g d _ =>
    refine ⟨fun k hk => ?_,fun _ => Or.inl rfl⟩
    have hne : k ≠ g := fun heq => hk (by rw [heq]; rfl)
    simp [hne]
  | dissolved g =>
    refine ⟨fun k hk => ?_,fun p => (m.release_or g p).imp_right fun hgone => ⟨g,rfl,Or.inl hgone⟩⟩
    have hne : k ≠ g := fun heq => hk (by rw [heq]; rfl)
    simp [hne]
  | @attached g i w v _ hfree =>
    refine ⟨fun _ _ => rfl,fun p => ?_⟩
    by_cases hp : p = (i,w)
    · subst hp
      exact Or.inr ⟨g,rfl,Or.inr ⟨hfree,by simp,rfl⟩⟩
    · exact Or.inl (by simp [hp])
  | @detached g i w v hown =>
    refine ⟨fun _ _ => rfl,fun p => ?_⟩
    by_cases hp : p = (i,w)
    · subst hp
      exact Or.inr ⟨g,rfl,Or.inl ⟨hown,by simp⟩⟩
    · exact Or.inl (by simp [hp])
  | released g =>
    exact ⟨fun _ _ => rfl,fun p => (m.release_or g p).imp_right fun hgone => ⟨g,rfl,Or.inl hgone⟩⟩

end Manager

structure Client where
  group : Str → Bool
  device : Str → Bool

namespace Client

def mine (a : Client) (c : Call) : Bool := c.group.any a.group

/-- The call does not put a device of the client on a group of the others, nor the reverse. -/
def Separate (a : Client) (c : Call) : Prop :=
  ∀ g ∈ c.group, ∀ i ∈ c.device, a.group g = a.device i

instance (a : Client) (c : Call) : Decidable (a.Separate c) :=
  inferInstanceAs (Decidable (∀ g ∈ c.group, ∀ i ∈ c.device, a.group g = a.device i))

def Apart (a : Client) (m : Manager) : Prop :=
  ∀ i v g, m.owner (i,v) = some g → a.group g = a.device i

structure Alike (a : Client) (m m' : Manager) : Prop where
  apart : a.Apart m
  apart' : a.Apart m'
  default : ∀ g, a.group g = true → m.default g = m'.default g
  owner : ∀ i v, a.device i = true → m.owner (i,v) = m'.owner (i,v)

variable {a : Client} {m m' : Manager} {c : Call}

theorem Apart.perform (h : a.Apart m) (hc : a.Separate c) : a.Apart (m.perform c).2 := by
  intro i v k howner
  rcases (m.perform_changes c).2 (i,v) with hsame | ⟨g,hg,⟨_,hgone⟩ | ⟨_,hnew,hi⟩⟩
  · exact h i v k (hsame ▸ howner)
  · rw [hgone] at howner
    cases howner
  · obtain rfl : g = k := Option.some.inj (hnew.symm.trans howner)
    exact hc g hg i hi

theorem Alike.mine (h : a.Alike m m') (hc : a.Separate c) (hm : a.mine c = true) :
    (m.perform c).1 = (m'.perform c).1 ∧ a.Alike (m.perform c).2 (m'.perform c).2 := by
  have hd : ∀ g ∈ c.group, m.default g = m'.default g := by
    rintro g hg
    refine h.default g ?_
    rw [Client.mine,Option.mem_def.mp hg] at hm
    exact hm
  obtain ⟨hret,hdefault,howner⟩ := Manager.perform_local hd
  exact ⟨hret,h.apart.perform hc,h.apart'.perform hc,fun g hg => hdefault g (h.default g hg),
    fun i v hi => howner (i,v) (h.owner i v hi)⟩

theorem Alike.other (h : a.Alike m m') (hc : a.Separate c) (hm : a.mine c = false) :
    a.Alike (m.perform c).2 m' := by
  have hforeign : ∀ g ∈ c.group, a.group g = false := by
    intro g hg
    rw [Client.mine,Option.mem_def.mp hg] at hm
    exact hm
  refine ⟨h.apart.perform hc,h.apart',fun g hg => ?_,fun i v hi => ?_⟩
  · rw [(m.perform_changes c).1 g,h.default g hg]
    intro hgroup
    rw [hforeign g hgroup] at hg
    cases hg
  · rcases (m.perform_changes c).2 (i,v) with hsame | ⟨g,hg,⟨hown,_⟩ | ⟨_,_,hdev⟩⟩
    · rw [hsame,h.owner i v hi]
    · have hdevice := h.apart i v g hown
      rw [hforeign g hg,hi] at hdevice
      cases hdevice
    · have hdevice := hc g hg i hdev
      rw [hforeign g hg,hi] at hdevice
      cases hdevice

end Client

structure SameGroups (a : Client) (L : Limits) (net : σ → BridgeTable) (st st' : Hal σ) : Prop where
  has : ∀ g, a.group g = true → ((net st.os).Has g ↔ (net st'.os).Has g)
  ports : ∀ g p, a.group g = true → (p ∈ (net st.os).ports g ↔ p ∈ (net st'.os).ports g)
  default : ∀ g, a.group g = true → lookup L st.config g = lookup L st'.config g

theorem Client.Alike.sameGroups {L : Limits} (hL : KernelLimits L) {a : Client} {m m' : Manager}
    (halike : a.Alike m m') {st st' : Hal σ} (h : m.Represents net st)
    (h' : m'.Represents net st') : SameGroups a L net st st' := by
  refine ⟨fun g hg => ?_,fun g p hg => ?_,fun g hg => ?_⟩
  · rw [h.groups,h'.groups,halike.default g hg]
  · rw [h.ports,h'.ports]
    constructor
    · rintro ⟨i,v,rfl,howner⟩
      have hi := (halike.apart i v g howner).symm.trans hg
      exact ⟨i,v,rfl,(halike.owner i v hi).symm.trans howner⟩
    · rintro ⟨i,v,rfl,howner⟩
      have hi := (halike.apart' i v g howner).symm.trans hg
      exact ⟨i,v,rfl,(halike.owner i v hi).trans howner⟩
  · rw [h.lookup hL,h'.lookup hL,halike.default g hg]

/-- However the sound calls of clients are interleaved, with groups and devices of its own each
client gets the answers that it gets alone, and its groups end with the ports and defaults that
they have then. -/
theorem client_cannot_tell (K : KernelTools E net) {m : Manager} {st : Hal σ}
    (h : m.Represents net st) {a : Client} (hapart : a.Apart m) {calls : List Call}
    (hsep : ∀ c ∈ calls, a.Separate c)
    (hshared : Along (next (Call.perform E)) (Call.Sound E net) st calls)
    (halone : Along (next (Call.perform E)) (Call.Sound E net) st (calls.filter a.mine)) :
    answersTo a.mine (Call.perform E) st calls =
        answers (Call.perform E) st (calls.filter a.mine) ∧
      SameGroups a E.limits net (run (next (Call.perform E)) st calls)
        (run (next (Call.perform E)) st (calls.filter a.mine)) := by
  obtain ⟨hanswers,hend⟩ := h.run K hshared
  obtain ⟨hanswers',hend'⟩ := h.run K halone
  have hstart : a.Alike m m := ⟨hapart,hapart,fun _ _ => rfl,fun _ _ _ => rfl⟩
  have hmine : ∀ (m m' : Manager) (c : Call), a.Alike m m' → a.Separate c → a.mine c = true →
      (m.perform c).1 = (m'.perform c).1 ∧ a.Alike (m.perform c).2 (m'.perform c).2 :=
    fun _ _ _ h hc hm => h.mine hc hm
  have hother : ∀ (m m' : Manager) (c : Call), a.Alike m m' → a.Separate c → a.mine c = false →
      a.Alike (m.perform c).2 m' := fun _ _ _ h hc hm => h.other hc hm
  obtain ⟨hown,halike⟩ := unwinding hmine hother hstart hsep
  rw [answersTo_eq a.mine hanswers,hown,hanswers']
  exact ⟨rfl,halike.sameGroups K.limits hend hend'⟩

def guest : Client :=
  ⟨fun g => decide (g = "brlan1".toList),fun i => decide (i = "wlan1".toList)⟩

def sharedCalls : List Call :=
  [.addGroup (some "brlan0".toList) (some "5".toList),
   .addGroup (some "brlan1".toList) (some "7".toList),
   .addInterface (some "brlan0".toList) (some "eth0".toList) none,
   .addInterface (some "brlan1".toList) (some "wlan1".toList) none,
   .deleteAllInterfaces (some "brlan0".toList),.delGroup (some "brlan0".toList)]

theorem client_cannot_tell_guest :
    let E := linuxEnv grepShow
    let st := linuxHal BridgeTable.empty
    answersTo guest.mine (Call.perform E) st sharedCalls =
        answers (Call.perform E) st (sharedCalls.filter guest.mine) ∧
      SameGroups guest E.limits id (run (next (Call.perform E)) st sharedCalls)
        (run (next (Call.perform E)) st (sharedCalls.filter guest.mine)) :=
  client_cannot_tell (linuxEnv_tools grepShow) linuxHal_empty (fun _ _ _ howner => by cases howner)
    (by decide) (grepShow_sound (by decide)) (grepShow_sound (by decide))

/-! A group that is created, used and deleted -/

structure Manager.Within (g : Str) (m m' : Manager) : Prop where
  default : ∀ k, k ≠ g → m'.default k = m.default k
  owner : ∀ p, m'.owner p = m.owner p ∨ (m.owner p = none ∧ m'.owner p = some g)

theorem Manager.Within.perform {g : Str} {m m' : Manager} (h : m.Within g m')
    (hfree : ∀ p, m.owner p ≠ some g) {c : Call} (hc : ∀ k ∈ c.group, k = g) :
    m.Within g (m'.perform c).2 := by
  obtain ⟨hdefault,howner⟩ := m'.perform_changes c
  refine ⟨fun k hk => ?_,fun p => ?_⟩
  · rw [hdefault k (fun hgroup => hk (hc k hgroup)),h.default k hk]
  · rcases howner p with hsame | ⟨k,hk,⟨hown,hgone⟩ | ⟨hnone,hnew,_⟩⟩
    · rw [hsame]
      exact h.owner p
    · obtain rfl := hc k hk
      rcases h.owner p with heq | ⟨hnone,_⟩
      · exact absurd (heq.symm.trans hown) (hfree p)
      · exact Or.inl (hgone.trans hnone.symm)
    · obtain rfl := hc k hk
      refine Or.inr ⟨?_,hnew⟩
      rcases h.owner p with heq | ⟨hold,_⟩
      · exact heq.symm.trans hnone
      · exact hold

theorem Manager.Within.dissolve {g : Str} {m m' : Manager} (h : m.Within g m')
    (hnew : m.default g = none) (hfree : ∀ p, m.owner p ≠ some g) : m'.dissolve g = m := by
  have hdefault : (m'.dissolve g).default = m.default := by
    funext k
    by_cases hk : k = g
    · simp [hk,hnew]
    · simp [hk,h.default k hk]
  have howner : (m'.dissolve g).owner = m.owner := by
    funext p
    rcases h.owner p with hsame | ⟨hnone,hown⟩
    · simp [release,hsame,hfree p]
    · simp [release,hown,hnone]
  obtain ⟨default,owner⟩ := m
  exact congrArg₂ Manager.mk hdefault howner

/-- Whatever sound calls are made about a new group, its deletion leaves the bridges, the ports and
the link as they were before the group was created. -/
theorem session_leaves_nothing (K : KernelTools E net) {m : Manager} {st : Hal σ}
    (h : m.Represents net st) {g : Str} {d : Option Str} (hnew : ¬(net st.os).Has g)
    {calls : List Call} (hg : ∀ c ∈ calls, ∀ k ∈ c.group, k = g)
    (hcalls : Along (next (Call.perform E)) (Call.Sound E net) st
      (.addGroup (some g) d :: (calls ++ [.delGroup (some g)]))) :
    let st' := run (next (Call.perform E)) st
      (.addGroup (some g) d :: (calls ++ [.delGroup (some g)]))
    (∀ k, (net st'.os).Has k ↔ (net st.os).Has k) ∧
      (∀ k p, p ∈ (net st'.os).ports k ↔ p ∈ (net st.os).ports k) ∧
      ∀ e, e ∈ st'.config.entries ↔ e ∈ st.config.entries := by
  intro st'
  have hnone : m.default g = none := by
    rwa [h.groups,Option.not_isSome_iff_eq_none] at hnew
  have hfree : ∀ p, m.owner p ≠ some g := by
    rintro ⟨i,v⟩ hp
    exact hnew (Has.of_port ((h.ports g _).mpr ⟨i,v,rfl,hp⟩))
  have hsession : run (next Manager.perform) m
      (.addGroup (some g) d :: (calls ++ [.delGroup (some g)])) = m := by
    have hfirst : m.Within g (m.create g d) :=
      Manager.Within.perform (c := .addGroup (some g) d) ⟨fun _ _ => rfl,fun _ => Or.inl rfl⟩ hfree
        (by simp [Call.group])
    have hwithin : m.Within g (run (next Manager.perform) (m.create g d) calls) :=
      run_invariant (D := fun _ c => ∀ k ∈ c.group, k = g)
        (fun m' c (hm : m.Within g m') hc => hm.perform hfree hc) hfirst ((along_labels _).mpr hg)
    rw [run_cons,run_append]
    exact hwithin.dissolve hnone hfree
  obtain ⟨_,hend⟩ := h.run K hcalls
  rw [hsession] at hend
  refine ⟨fun k => (hend.groups k).trans (h.groups k).symm,
    fun k p => (hend.ports k p).trans (h.ports k p).symm,?_⟩
  rintro ⟨k,v⟩
  exact (hend.entries k v).trans (h.entries k v).symm

theorem session_leaves_nothing_guest :
    let E := linuxEnv grepShow
    let st := run (next (Call.perform E)) (linuxHal BridgeTable.empty) (tenCalls.take 5)
    let g := "brlan2".toList
    let calls : List Call := [.addInterface (some g) (some "wlan1".toList) none,
      .addInterface (some g) (some "eth0".toList) none,.delGroup (some g),.addGroup (some g) none]
    let st' := run (next (Call.perform E)) st
      (.addGroup (some g) (some "9".toList) :: (calls ++ [.delGroup (some g)]))
    (∀ k, st'.os.Has k ↔ st.os.Has k) ∧ (∀ k p, p ∈ st'.os.ports k ↔ p ∈ st.os.ports k) ∧
      ∀ e, e ∈ st'.config.entries ↔ e ∈ st.config.entries := by
  intro E st g calls st'
  have huses : ∀ c ∈ tenCalls.take 5 ++
      .addGroup (some g) (some "9".toList) :: (calls ++ [.delGroup (some g)]),
      homeNames.Uses c := by decide
  obtain ⟨hbefore,hsession⟩ := along_append.mp (grepShow_sound huses)
  have hstart := (linuxHal_empty.run (linuxEnv_tools grepShow) hbefore).2
  exact session_leaves_nothing (linuxEnv_tools grepShow) hstart (by decide +kernel) (by decide)
    hsession

/-! The process that makes the calls is started anew -/

/-- The kernel keeps the bridges; the link was in the memory of the process. -/
def Hal.restart (st : Hal σ) : Hal σ := ⟨st.os,ConfigList.empty,st.issued⟩

namespace Call

/-- An interface call gives its VLAN ID. -/
def Explicit : Call → Prop
  | addInterface _ _ v | delInterface _ _ v => v.isSome
  | _ => True

instance (c : Call) : Decidable c.Explicit :=
  match c with
  | .addInterface _ _ v | .delInterface _ _ v => inferInstanceAs (Decidable (v.isSome = true))
  | .addGroup .. | .delGroup .. | .printGroup .. | .printAllGroup | .deleteAllInterfaces .. =>
    inferInstanceAs (Decidable True)

def GivesDefault : Call → Prop
  | addGroup _ d => d.isSome
  | _ => False

end Call

inductive Event where
  | call (c : Call)
  | restart
  deriving DecidableEq, Repr

namespace Event

def perform (E : Env σ) (st : Hal σ) : Event → Ret × Hal σ
  | call c => c.perform E st
  | restart => (.ok,st.restart)

def isCall : Event → Bool
  | call _ => true
  | restart => false

def Explicit : Event → Prop
  | call c => c.Explicit
  | restart => True

instance (e : Event) : Decidable e.Explicit :=
  match e with
  | .call c => inferInstanceAs (Decidable c.Explicit)
  | .restart => inferInstanceAs (Decidable True)

end Event

structure SameOutside (st st' : Hal σ) : Prop where
  os : st.os = st'.os
  issued : st.issued = st'.issued

namespace SameOutside

variable {st st' : Hal σ}

theorem system (h : SameOutside st st') (E : Env σ) (line : Str) :
    SameOutside (st.system E line) (st'.system E line) := by
  obtain ⟨hos,hissued⟩ := h
  exact ⟨by simp [hos],by simp [hissued]⟩

theorem addGroup (h : SameOutside st st') (E : Env σ) (g : Str) (d : Option Str) :
    (vlanHalAddGroup E (some g) d st).1 = (vlanHalAddGroup E (some g) d st').1 ∧
      SameOutside (vlanHalAddGroup E (some g) d st).2 (vlanHalAddGroup E (some g) d st').2 := by
  have hline := h.system E (cmdBuff E (addbrLine g))
  simp only [vlanHalAddGroup,h.os]
  split_ifs with htest
  · exact ⟨rfl,h⟩
  · cases d with
    | none => exact ⟨rfl,hline⟩
    | some v => exact ⟨rfl,hline.os,hline.issued⟩

theorem addInterface (h : SameOutside st st') (E : Env σ) (g i v : Str) :
    (vlanHalAddInterface E (some g) (some i) (some v) st).1 =
        (vlanHalAddInterface E (some g) (some i) (some v) st').1 ∧
      SameOutside (vlanHalAddInterface E (some g) (some i) (some v) st).2
        (vlanHalAddInterface E (some g) (some i) (some v) st').2 := by
  simp only [vlanHalAddInterface,tempvlanID,h.os]
  split_ifs with htest hport
  · exact ⟨rfl,h⟩
  · exact ⟨rfl,h⟩
  · exact ⟨rfl,h.system E _⟩

theorem delInterface (h : SameOutside st st') (E : Env σ) (g i v : Str) :
    (vlanHalDelInterface E (some g) (some i) (some v) st).1 =
        (vlanHalDelInterface E (some g) (some i) (some v) st').1 ∧
      SameOutside (vlanHalDelInterface E (some g) (some i) (some v) st).2
        (vlanHalDelInterface E (some g) (some i) (some v) st').2 := by
  simp only [vlanHalDelInterface,tempvlanID,h.os]
  split_ifs with htest hport
  · exact ⟨rfl,h⟩
  · exact ⟨rfl,h⟩
  · exact ⟨rfl,h.system E _⟩

theorem deleteDecoded (h : SameOutside st st') (E : Env σ) (g : Str) (bufs : List Str) :
    SameOutside (bufs.foldl (deleteDecoded E g) st) (bufs.foldl (deleteDecoded E g) st') := by
  induction bufs generalizing st st' with
  | nil => exact h
  | cons buf bufs ih => exact ih (h.delInterface E g (sscanfPort buf).1 (sscanfPort buf).2).2

theorem deleteAll (h : SameOutside st st') (E : Env σ) (g : Str) :
    (vlanHalDeleteAllInterfaces E (some g) st).1 = (vlanHalDeleteAllInterfaces E (some g) st').1 ∧
      SameOutside (vlanHalDeleteAllInterfaces E (some g) st).2
        (vlanHalDeleteAllInterfaces E (some g) st').2 := by
  simp only [vlanHalDeleteAllInterfaces,h.os]
  split
  · exact ⟨rfl,h⟩
  · exact ⟨rfl,h.deleteDecoded E g _⟩

theorem delGroup (h : SameOutside st st') (E : Env σ) (g : Str) :
    (vlanHalDelGroup E (some g) st).1 = (vlanHalDelGroup E (some g) st').1 ∧
      SameOutside (vlanHalDelGroup E (some g) st).2 (vlanHalDelGroup E (some g) st').2 := by
  have hlines := (((h.deleteAll E g).2.system E (cmdBuff E (downLine g))).system E
    (cmdBuff E (delbrLine g)))
  simp only [vlanHalDelGroup,h.os]
  split_ifs with htest
  · exact ⟨rfl,h⟩
  · exact ⟨rfl,hlines.os,hlines.issued⟩

/-- A call that gives its VLAN ID reads the link nowhere. -/
theorem perform (h : SameOutside st st') (E : Env σ) {c : Call} (hc : c.Explicit) :
    (c.perform E st).1 = (c.perform E st').1 ∧
      SameOutside (c.perform E st).2 (c.perform E st').2 := by
  cases c with
  | addGroup g d =>
    cases g with
    | none => exact ⟨rfl,h⟩
    | some g => exact h.addGroup E g d
  | delGroup g =>
    cases g with
    | none => exact ⟨rfl,h⟩
    | some g => exact h.delGroup E g
  | addInterface g i v =>
    obtain ⟨v,rfl⟩ := Option.isSome_iff_exists.mp hc
    cases g with
    | none => exact ⟨rfl,h⟩
    | some g =>
      cases i with
      | none => exact ⟨rfl,h⟩
      | some i => exact h.addInterface E g i v
  | delInterface g i v =>
    obtain ⟨v,rfl⟩ := Option.isSome_iff_exists.mp hc
    cases g with
    | none => exact ⟨rfl,h⟩
    | some g =>
      cases i with
      | none => exact ⟨rfl,h⟩
      | some i => exact h.delInterface E g i v
  | printGroup g =>
    cases g with
    | none => exact ⟨rfl,h⟩
    | some g => exact ⟨rfl,h.system E _⟩
  | printAllGroup => exact ⟨rfl,h.system E _⟩
  | deleteAllInterfaces g =>
    cases g with
    | none => exact ⟨rfl,h⟩
    | some g => exact h.deleteAll E g

end SameOutside

theorem Call.perform_empty {E : Env σ} {st : Hal σ} (h : st.config.entries = []) {c : Call}
    (hc : ¬c.GivesDefault) : (c.perform E st).2.config.entries = [] := by
  rcases Call.perform_config E st c with hsame | ⟨malloc,g,v,rfl,_⟩ | ⟨g,hdel⟩
  · rw [hsame,h]
  · exact absurd rfl hc
  · rw [hdel,ConfigList.delete_entries,h]
    rfl

theorem Call.perform_relying {E : Env σ} {st : Hal σ} (h : st.config.entries = []) {c : Call}
    (hc : ¬c.Explicit) : c.perform E st = (.err,st) := by
  have hnone : ∀ g, tempvlanID E g none st.config = none := by
    intro g
    rw [tempvlanID_none,lookup,h]
    rfl
  cases c with
  | addInterface g i v =>
    obtain rfl : v = none := by simpa [Call.Explicit] using hc
    cases g with
    | none => rfl
    | some g => cases i <;> simp [Call.perform,vlanHalAddInterface,hnone]
  | delInterface g i v =>
    obtain rfl : v = none := by simpa [Call.Explicit] using hc
    cases g with
    | none => rfl
    | some g => cases i <;> simp [Call.perform,vlanHalDelInterface,hnone]
  | _ => exact absurd trivial hc

/-- Calls that give their VLAN IDs do not notice where, and how often, the process is started
anew: they get the same answers, and the system is given the same lines. After a new start a call
that relies on a default fails and changes nothing, until a default is given again. -/
theorem restart_loses_defaults (E : Env σ) (st : Hal σ) {events : List Event}
    (hexplicit : ∀ e ∈ events, e.Explicit) :
    let st' := run (next (Event.perform E)) st events
    let kept := run (next (Event.perform E)) st (events.filter Event.isCall)
    answersTo Event.isCall (Event.perform E) st events =
        answers (Event.perform E) st (events.filter Event.isCall) ∧
      st'.os = kept.os ∧ st'.issued = kept.issued ∧
      ∀ calls : List Call, (∀ c ∈ calls, ¬c.GivesDefault) → ∀ c : Call, ¬c.Explicit →
        let now := run (next (Call.perform E)) st'.restart calls
        c.perform E now = (.err,now) := by
  intro st' kept
  have hmine : ∀ (st₁ st₂ : Hal σ) (e : Event), SameOutside st₁ st₂ → e.Explicit →
      e.isCall = true → (e.perform E st₁).1 = (e.perform E st₂).1 ∧
        SameOutside (e.perform E st₁).2 (e.perform E st₂).2 := by
    intro st₁ st₂ e h he hcall
    cases e with
    | call c => exact h.perform E he
    | restart => cases hcall
  have hother : ∀ (st₁ st₂ : Hal σ) (e : Event), SameOutside st₁ st₂ → e.Explicit →
      e.isCall = false → SameOutside (e.perform E st₁).2 st₂ := by
    intro st₁ st₂ e h _ hcall
    cases e with
    | call c => cases hcall
    | restart => exact ⟨h.os,h.issued⟩
  obtain ⟨hanswers,hsame⟩ := unwinding hmine hother (⟨rfl,rfl⟩ : SameOutside st st) hexplicit
  refine ⟨hanswers,hsame.os,hsame.issued,fun calls hcalls c hc => ?_⟩
  have hempty : (run (next (Call.perform E)) st'.restart calls).config.entries = [] :=
    run_invariant (D := fun _ c => ¬c.GivesDefault) (I := fun st : Hal σ => st.config.entries = [])
      (fun _ _ h hc => Call.perform_empty h hc) rfl ((along_labels _).mpr hcalls)
  exact Call.perform_relying hempty hc

def twoStarts : List Event :=
  [.call (.addGroup (some "brlan0".toList) (some "5".toList)),.restart,
   .call (.addInterface (some "brlan0".toList) (some "eth0".toList) (some "5".toList)),.restart,
   .call (.delGroup (some "brlan0".toList))]

theorem restart_loses_defaults_twoStarts :
    let E := linuxEnv grepShow
    let st := linuxHal BridgeTable.empty
    let st' := run (next (Event.perform E)) st twoStarts
    let kept := run (next (Event.perform E)) st (twoStarts.filter Event.isCall)
    answersTo Event.isCall (Event.perform E) st twoStarts =
        answers (Event.perform E) st (twoStarts.filter Event.isCall) ∧
      st'.os = kept.os ∧ st'.issued = kept.issued ∧
      ∀ calls : List Call, (∀ c ∈ calls, ¬c.GivesDefault) → ∀ c : Call, ¬c.Explicit →
        let now := run (next (Call.perform E)) st'.restart calls
        c.perform E now = (.err,now) :=
  restart_loses_defaults (linuxEnv grepShow) (linuxHal BridgeTable.empty) (by decide)

end RdkHal.Vlan
