import RdkHal.Vlan.LinuxHost

/-! What becomes of the strings a caller gives: they pass through buffers of fixed sizes, and
a string that does not fit is dropped without a word. -/

set_option autoImplicit false

namespace RdkHal.Vlan
open Text

variable {σ : Type}

inductive VlanCall where
  | addGroup (groupName defaultVlanID : Option Str)
  | addInterface (groupName ifName vlanID : Option Str)
  | delInterface (groupName ifName vlanID : Option Str)

namespace VlanCall

def perform (E : Env σ) (c : VlanCall) (st : Hal σ) : Ret × Hal σ :=
  match c with
  | addGroup g d => vlanHalAddGroup E g d st
  | addInterface g i v => vlanHalAddInterface E g i v st
  | delInterface g i v => vlanHalDelInterface E g i v st

/-- A line with the strings given, where no VLAN ID is given with any. -/
def LineOf (c : VlanCall) (line : Str) : Prop :=
  match c with
  | addGroup (some g) _ => line = addbrLine g
  | addInterface (some g) (some i) v => ∃ w, (∀ v', v = some v' → w = v') ∧ line = addLine i w g
  | delInterface (some g) (some i) v => ∃ w, (∀ v', v = some v' → w = v') ∧ line = remLine i w g
  | _ => False

def EntryOf (c : VlanCall) (e : VlanEntry) : Prop :=
  match c with
  | addGroup (some g) (some v) => e = ⟨g,v⟩
  | _ => False

end VlanCall

structure ActsExactly (c : VlanCall) (st st' : Hal σ) : Prop where
  lines : ∃ lines, st'.issued = st.issued ++ lines ∧ ∀ line ∈ lines, c.LineOf line
  entries : ∃ es, st'.config.entries = st.config.entries ++ es ∧ ∀ e ∈ es, c.EntryOf e

structure Refuses (st : Hal σ) (r : Ret × Hal σ) : Prop where
  ret : r.1 = .err
  issued : r.2.issued = st.issued
  entries : r.2.config.entries = st.config.entries

def Copied (n : Nat) (s : Str) : Prop := s.length < n ∨ s = []

instance (n : Nat) (s : Str) : Decidable (Copied n s) := inferInstanceAs (Decidable (_ ∨ _))

/-- The lengths that leave the strings intact, in the branch the call takes. -/
def VlanCall.Intact (E : Env σ) (c : VlanCall) (st : Hal σ) : Prop :=
  match c with
  | addGroup (some g) d =>
    isThisGroupAvailableInLinuxBridge E (some g) st.os = true ∨
      ((addbrLine g).length < 128 ∧ ∀ v, d = some v →
        (E.host.malloc (E.host.system (addbrLine g) st.os) st.config.raw.heap).isNone ∨
          (Copied E.limits.groupName g ∧ Copied E.limits.vlanID v))
  | addInterface (some g) (some i) v =>
    isThisGroupAvailableInLinuxBridge E (some g) st.os = false ∨
      ∀ w, tempvlanID E g v st.config = some w →
        isThisInterfaceAvailableInLinuxBridge E (some i) (some w) st.os = true ∨
          ((∀ v', v = some v' → Copied E.limits.vlanID v') ∧ (addLine i w g).length < 128)
  | delInterface (some g) (some i) v =>
    isThisGroupAvailableInLinuxBridge E (some g) st.os = false ∨
      ∀ w, tempvlanID E g v st.config = some w →
        isThisInterfaceAvailableInGivenLinuxBridge E (some i) (some g) (some w) st.os = false ∨
          ((∀ v', v = some v' → Copied E.limits.vlanID v') ∧ (remLine i w g).length < 128)
  | _ => True

theorem appended_iff {α : Type} {xs ys : List α} {P : α → Prop} :
    (∃ zs, xs ++ ys = xs ++ zs ∧ ∀ z ∈ zs, P z) ↔ ∀ y ∈ ys, P y := by
  constructor
  · rintro ⟨zs,heq,h⟩
    rwa [List.append_cancel_left heq]
  · intro h
    exact ⟨ys,rfl,h⟩

theorem actsExactly_same (c : VlanCall) {st st' : Hal σ} (hi : st'.issued = st.issued)
    (he : st'.config.entries = st.config.entries) : ActsExactly c st st' :=
  ⟨⟨[],by simp [hi],by simp⟩,⟨[],by simp [he],by simp⟩⟩

theorem cmdBuff_eq_iff (E : Env σ) {text : Str} (hne : text ≠ []) :
    cmdBuff E text = text ↔ text.length < 128 := by
  simp [cmdBuff,E.lib.sprintfS_eq_iff,hne]

theorem addLine_ne_nil (i v g : Str) : addLine i v g ≠ [] := by simp [addLine_eq]

theorem remLine_ne_nil (i v g : Str) : remLine i v g ≠ [] := by simp [remLine_eq]

theorem exact_or_refuses_issued (E : Env σ) (c : VlanCall) (st : Hal σ) (line : Str) :
    (ActsExactly c st (st.system E line) ∨ Refuses st ((.ok,st.system E line) : Ret × Hal σ)) ↔
      c.LineOf line := by
  constructor
  · rintro (⟨hlines,_⟩ | hrefuse)
    · exact appended_iff.mp hlines line (by simp)
    · cases hrefuse.ret
  · intro h
    exact Or.inl ⟨⟨[line],rfl,by simpa using h⟩,⟨[],by simp,by simp⟩⟩

theorem addLine_inj {i v w g : Str} (h : addLine i v g = addLine i w g) : v = w := by
  have hlen := congrArg List.length h
  simp [addLine_eq] at hlen
  simp only [addLine_eq,List.append_assoc,List.append_cancel_left_eq] at h
  exact (List.append_inj h (by omega)).1

theorem remLine_inj {i v w g : Str} (h : remLine i v g = remLine i w g) : v = w := by
  simp only [remLine_eq,List.append_assoc,List.append_cancel_left_eq] at h
  exact List.append_cancel_right h

theorem lineOf_cmdBuff_iff (E : Env σ) {mk : Str → Str} (hne : ∀ w, mk w ≠ [])
    (hinj : ∀ w w', mk w = mk w' → w = w') {g : Str} {v : Option Str} {config : ConfigList}
    {w : Str} (hw : tempvlanID E g v config = some w) :
    (∃ w', (∀ v', v = some v' → w' = v') ∧ cmdBuff E (mk w) = mk w') ↔
      (∀ v', v = some v' → Copied E.limits.vlanID v') ∧ (mk w).length < 128 := by
  constructor
  · rintro ⟨w',hgiven,hline⟩
    have hshort : (mk w).length < 128 := by
      rw [cmdBuff_eq] at hline
      by_cases h : (mk w).length < 128
      · exact h
      · rw [if_neg h] at hline
        exact absurd hline.symm (hne w')
    rw [cmdBuff_eq,if_pos hshort] at hline
    obtain rfl := hinj w w' hline
    refine ⟨?_,hshort⟩
    rintro v' rfl
    have hcopy := Option.some.inj hw
    rw [hgiven v' rfl] at hcopy
    exact (E.lib.strcpyS_eq_iff _ _).mp hcopy
  · rintro ⟨hcopied,hshort⟩
    refine ⟨w,?_,(cmdBuff_eq_iff E (hne w)).mpr hshort⟩
    rintro v' rfl
    have hcopy := Option.some.inj hw
    rw [← hcopy]
    exact (E.lib.strcpyS_eq_iff _ _).mpr (hcopied v' rfl)

theorem inserted_iff (E : Env σ) (g v : Str) (st : Hal σ) :
    (∃ es, (st.insertEntry E g v).config.entries = st.config.entries ++ es ∧
      ∀ e ∈ es, e = ⟨g,v⟩) ↔
    (E.host.malloc st.os st.config.raw.heap).isNone ∨
      (Copied E.limits.groupName g ∧ Copied E.limits.vlanID v) := by
  rw [Hal.insertEntry_entries,appended_iff]
  cases E.host.malloc st.os st.config.raw.heap with
  | none => simp
  | some temp => simp [VlanEntry.mk.injEq,E.lib.strcpyS_eq_iff,Copied]

theorem lineCall_iff (E : Env σ) (c : VlanCall) (st : Hal σ) {g : Str} {v : Option Str}
    {mk : Str → Str} (hne : ∀ w, mk w ≠ []) (hinj : ∀ w w', mk w = mk w' → w = w')
    (hc : ∀ line, c.LineOf line ↔ ∃ w, (∀ v', v = some v' → w = v') ∧ line = mk w)
    (skip : Str → Prop) [DecidablePred skip] {r : Ret × Hal σ}
    (hr : r = match tempvlanID E g v st.config with
      | none => (.err,st)
      | some w => if skip w then (.ok,st) else (.ok,st.system E (cmdBuff E (mk w)))) :
    (ActsExactly c st r.2 ∨ Refuses st r) ↔
      ∀ w, tempvlanID E g v st.config = some w →
        skip w ∨ ((∀ v', v = some v' → Copied E.limits.vlanID v') ∧ (mk w).length < 128) := by
  have hidle : ActsExactly c st st := actsExactly_same c rfl rfl
  cases hw : tempvlanID E g v st.config with
  | none =>
    rw [hw] at hr
    simp [hr,hidle]
  | some w =>
    rw [hw] at hr
    by_cases hskip : skip w
    · simp [hr,hskip,hidle]
    · have hiff := (exact_or_refuses_issued E c st (cmdBuff E (mk w))).trans (hc _)
      rw [lineOf_cmdBuff_iff E hne hinj hw] at hiff
      simpa [hr,hskip] using hiff

theorem newGroup_iff (E : Env σ) (g : Str) (d : Option Str) (st : Hal σ)
    (htest : ¬isThisGroupAvailableInLinuxBridge E (some g) st.os = true) :
    (ActsExactly (.addGroup (some g) d) st (vlanHalAddGroup E (some g) d st).2 ∨
      Refuses st (vlanHalAddGroup E (some g) d st)) ↔
    (addbrLine g).length < 128 ∧ ∀ v, d = some v →
      (E.host.malloc (E.host.system (addbrLine g) st.os) st.config.raw.heap).isNone ∨
        (Copied E.limits.groupName g ∧ Copied E.limits.vlanID v) := by
  have hline := cmdBuff_eq_iff E (show addbrLine g ≠ [] by simp [addbrLine_eq])
  cases d with
  | none =>
    have hiff := (exact_or_refuses_issued E (.addGroup (some g) none) st
      (cmdBuff E (addbrLine g))).trans hline
    simpa [vlanHalAddGroup,htest] using hiff
  | some v =>
    have hins := inserted_iff E g v (st.system E (cmdBuff E (addbrLine g)))
    simp only [Hal.system_config,Hal.system_os] at hins
    simp only [vlanHalAddGroup,htest,Bool.false_eq_true,if_false,Option.some.injEq,forall_eq']
    constructor
    · rintro (⟨hlines,hentries⟩ | hrefuse)
      · have hsame := hline.mp (appended_iff.mp hlines _ (by simp))
        have hadded := hins.mp hentries
        rw [hline.mpr hsame] at hadded
        exact ⟨hsame,hadded⟩
      · cases hrefuse.ret
    · rintro ⟨hshort,hadded⟩
      rw [hline.mpr hshort] at hins ⊢
      exact Or.inl ⟨⟨[addbrLine g],rfl,by simp [VlanCall.LineOf]⟩,hins.mpr hadded⟩

/-- A call acts with exactly the strings given, or refuses and changes nothing, exactly when
the lengths that matter in its branch are within the buffers. -/
theorem acts_exactly_or_refuses_iff (E : Env σ) (c : VlanCall) (st : Hal σ) :
    (ActsExactly c st (c.perform E st).2 ∨ Refuses st (c.perform E st)) ↔ c.Intact E st := by
  have hidle : ActsExactly c st st := actsExactly_same c rfl rfl
  cases c with
  | addGroup g d =>
    cases g with
    | none => simp [VlanCall.perform,vlanHalAddGroup,VlanCall.Intact,hidle]
    | some g =>
      by_cases htest : isThisGroupAvailableInLinuxBridge E (some g) st.os = true
      · simp [VlanCall.perform,vlanHalAddGroup,VlanCall.Intact,htest,hidle]
      · simp only [VlanCall.perform,VlanCall.Intact,htest,Bool.false_eq_true,false_or]
        exact newGroup_iff E g d st htest
  | addInterface g i v =>
    cases g with
    | none => simp [VlanCall.perform,vlanHalAddInterface,VlanCall.Intact,hidle]
    | some g =>
      cases i with
      | none => simp [VlanCall.perform,vlanHalAddInterface,VlanCall.Intact,hidle]
      | some i =>
        by_cases htest : isThisGroupAvailableInLinuxBridge E (some g) st.os = false
        · simp [VlanCall.perform,vlanHalAddInterface,VlanCall.Intact,htest,hidle]
        · simp only [VlanCall.perform,vlanHalAddInterface,VlanCall.Intact,htest,Bool.true_eq_false,if_false,
            false_or]
          exact lineCall_iff E (.addInterface (some g) (some i) v) st (addLine_ne_nil i · g)
            (fun _ _ => addLine_inj) (fun _ => Iff.rfl)
            (fun w => isThisInterfaceAvailableInLinuxBridge E (some i) (some w) st.os = true) rfl
  | delInterface g i v =>
    cases g with
    | none => simp [VlanCall.perform,vlanHalDelInterface,VlanCall.Intact,hidle]
    | some g =>
      cases i with
      | none => simp [VlanCall.perform,vlanHalDelInterface,VlanCall.Intact,hidle]
      | some i =>
        by_cases htest : isThisGroupAvailableInLinuxBridge E (some g) st.os = false
        · simp [VlanCall.perform,vlanHalDelInterface,VlanCall.Intact,htest,hidle]
        · simp only [VlanCall.perform,vlanHalDelInterface,VlanCall.Intact,htest,Bool.true_eq_false,if_false,
            false_or]
          exact lineCall_iff E (.delInterface (some g) (some i) v) st (remLine_ne_nil i · g)
            (fun _ _ => remLine_inj) (fun _ => Iff.rfl)
            (fun w => isThisInterfaceAvailableInGivenLinuxBridge E (some i) (some g) (some w)
              st.os = false) rfl

theorem addGroup_longDefault :
    ¬(ActsExactly (.addGroup (some "brlan0".toList) (some (List.replicate 40 '1')))
        (linuxHal BridgeTable.empty)
        (vlanHalAddGroup (linuxEnv grepShow) (some "brlan0".toList) (some (List.replicate 40 '1'))
          (linuxHal BridgeTable.empty)).2 ∨
      Refuses (linuxHal BridgeTable.empty)
        (vlanHalAddGroup (linuxEnv grepShow) (some "brlan0".toList) (some (List.replicate 40 '1'))
          (linuxHal BridgeTable.empty))) := by
  have hadded : (vlanHalAddGroup (linuxEnv grepShow) (some "brlan0".toList)
      (some (List.replicate 40 '1')) (linuxHal BridgeTable.empty)).2.config.entries =
      [⟨"brlan0".toList,[]⟩] := by decide +kernel
  have hret : (vlanHalAddGroup (linuxEnv grepShow) (some "brlan0".toList)
      (some (List.replicate 40 '1')) (linuxHal BridgeTable.empty)).1 = .ok := by decide +kernel
  rintro (⟨_,es,hes,hgiven⟩ | hrefuse)
  · rw [hadded] at hes
    have hmem : (⟨"brlan0".toList,[]⟩ : VlanEntry) ∈ es := by
      have hnil : (linuxHal BridgeTable.empty).config.entries = [] := rfl
      rw [hnil,List.nil_append] at hes
      simp [← hes]
    have hsame := (VlanEntry.mk.injEq _ _ _ _).mp (hgiven _ hmem)
    simp at hsame
  · have herr := hrefuse.ret
    rw [hret] at herr
    cases herr

end RdkHal.Vlan
