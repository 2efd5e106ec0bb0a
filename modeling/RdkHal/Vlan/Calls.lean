import RdkHal.Lib.Machines
import RdkHal.Vlan.LinuxHost

/-! The calls of vlan_hal.h as one machine, and what no run of them does, whatever the commands
print and whatever `malloc` answers. -/

set_option autoImplicit false

namespace RdkHal.Vlan
open Text Runs

variable {σ : Type}

def brShowLine (g : Str) : Str := "brctl show ".toList ++ g

def vlanHalPrintGroup (E : Env σ) (groupName : Option Str) (st : Hal σ) : Ret × Hal σ :=
  match groupName with
  | none => (.err,st)
  | some g => (.ok,st.system E (cmdBuff E (brShowLine g)))

def vlanHalPrintAllGroup (E : Env σ) (st : Hal σ) : Ret × Hal σ :=
  (.ok,st.system E (E.lib.strcpyS 128 "brctl show".toList).2)

/-- A call with its arguments; a `char *` is `none` when NULL. -/
inductive Call where
  | addGroup (groupName defaultVlanID : Option Str)
  | delGroup (groupName : Option Str)
  | addInterface (groupName ifName vlanID : Option Str)
  | delInterface (groupName ifName vlanID : Option Str)
  | printGroup (groupName : Option Str)
  | printAllGroup
  | deleteAllInterfaces (groupName : Option Str)
  deriving DecidableEq, Repr

namespace Call

def perform (E : Env σ) (st : Hal σ) : Call → Ret × Hal σ
  | addGroup g d => vlanHalAddGroup E g d st
  | delGroup g => vlanHalDelGroup E g st
  | addInterface g i v => vlanHalAddInterface E g i v st
  | delInterface g i v => vlanHalDelInterface E g i v st
  | printGroup g => vlanHalPrintGroup E g st
  | printAllGroup => vlanHalPrintAllGroup E st
  | deleteAllInterfaces g => vlanHalDeleteAllInterfaces E g st

def group : Call → Option Str
  | addGroup g _ | delGroup g | addInterface g _ _ | delInterface g _ _ | printGroup g
  | deleteAllInterfaces g => g
  | printAllGroup => none

end Call

/-- The lines that a call for group `g` may issue. -/
inductive LineFor (g : Str) : Str → Prop where
  | addbr : LineFor g (addbrLine g)
  | down : LineFor g (downLine g)
  | delbr : LineFor g (delbrLine g)
  | print : LineFor g (brShowLine g)
  | add (i v : Str) : LineFor g (addLine i v g)
  | rem (i v : Str) : LineFor g (remLine i v g)

/-- A line for the group of the call, short enough for the buffer, or one that names no group. -/
def Call.MayIssue (c : Call) (line : Str) : Prop :=
  line = [] ∨ line = "brctl show".toList ∨
    ∃ g, c.group = some g ∧ LineFor g line ∧ line.length < 128

def Host.exec (H : Host σ) (s : σ) (lines : List Str) : σ := lines.foldl (fun s l => H.system l s) s

/-- The state after lines that satisfy `P`: they are all that the system has seen. The link may
have changed. -/
def Issues (E : Env σ) (P : Str → Prop) (st st' : Hal σ) : Prop :=
  ∃ lines, st'.issued = st.issued ++ lines ∧ st'.os = E.host.exec st.os lines ∧ ∀ l ∈ lines, P l

theorem Issues.refl (E : Env σ) (P : Str → Prop) (st : Hal σ) : Issues E P st st :=
  ⟨[],by simp,rfl,by simp⟩

theorem Issues.trans {E : Env σ} {P : Str → Prop} {st st' st'' : Hal σ} (h : Issues E P st st')
    (h' : Issues E P st' st'') : Issues E P st st'' := by
  obtain ⟨lines,hissued,hos,hlines⟩ := h
  obtain ⟨lines',hissued',hos',hlines'⟩ := h'
  refine ⟨lines ++ lines',by rw [hissued',hissued,List.append_assoc],?_,?_⟩
  · rw [hos',hos,Host.exec,Host.exec,Host.exec,List.foldl_append]
  · intro l hl
    exact (List.mem_append.mp hl).elim (hlines l) (hlines' l)

theorem Issues.system {P : Str → Prop} (E : Env σ) (st : Hal σ) {line : Str} (h : P line) :
    Issues E P st (st.system E line) := ⟨[line],rfl,rfl,by simpa using h⟩

theorem Issues.mono {E : Env σ} {P Q : Str → Prop} (hPQ : ∀ l, P l → Q l) {st st' : Hal σ}
    (h : Issues E P st st') : Issues E Q st st' := by
  obtain ⟨lines,hissued,hos,hlines⟩ := h
  exact ⟨lines,hissued,hos,fun l hl => hPQ l (hlines l hl)⟩

theorem Call.mayIssue_cmdBuff (E : Env σ) {c : Call} {g line : Str} (hg : c.group = some g)
    (hline : LineFor g line) : c.MayIssue (cmdBuff E line) := by
  rw [cmdBuff_eq]
  by_cases hfit : line.length < 128
  · rw [if_pos hfit]
    exact Or.inr (Or.inr ⟨g,hg,hline,hfit⟩)
  · rw [if_neg hfit]
    exact Or.inl rfl

theorem Call.issues_line (E : Env σ) {c : Call} {g line : Str} (hg : c.group = some g)
    (hline : LineFor g line) (st : Hal σ) : Issues E c.MayIssue st (st.system E (cmdBuff E line)) :=
  Issues.system E st (mayIssue_cmdBuff E hg hline)

theorem Call.issues_deleteDecoded (E : Env σ) {c : Call} {g : Str} (hg : c.group = some g)
    (bufs : List Str) (st : Hal σ) :
    Issues E c.MayIssue st (bufs.foldl (deleteDecoded E g) st) := by
  induction bufs generalizing st with
  | nil => exact Issues.refl _ _ st
  | cons buf bufs ih =>
    refine Issues.trans ?_ (ih _)
    rcases vlanHalDelInterface_cases E g (sscanfPort buf).1 (sscanfPort buf).2 st with hcase | hcase
    · rw [deleteDecoded,hcase]
      exact Issues.refl _ _ st
    · rw [deleteDecoded,hcase]
      exact issues_line E hg (.rem _ _) st

theorem Call.issues_deleteAll (E : Env σ) {c : Call} {g : Str} (hg : c.group = some g)
    (st : Hal σ) : Issues E c.MayIssue st (vlanHalDeleteAllInterfaces E (some g) st).2 := by
  simp only [vlanHalDeleteAllInterfaces]
  split
  · exact Issues.refl _ _ st
  · exact issues_deleteDecoded E hg _ st

theorem Call.issues_addGroup (E : Env σ) (g : Str) (d : Option Str) (st : Hal σ) :
    Issues E (addGroup (some g) d).MayIssue st (vlanHalAddGroup E (some g) d st).2 := by
  have hline := issues_line E (c := addGroup (some g) d) rfl .addbr st
  simp only [vlanHalAddGroup]
  split
  · exact Issues.refl _ _ st
  · cases d with
    | none => exact hline
    | some v => exact hline

theorem Call.issues_delGroup (E : Env σ) (g : Str) (st : Hal σ) :
    Issues E (delGroup (some g)).MayIssue st (vlanHalDelGroup E (some g) st).2 := by
  simp only [vlanHalDelGroup]
  split
  · exact Issues.refl _ _ st
  · have hall := issues_deleteAll E (c := delGroup (some g)) rfl st
    have hdown := issues_line E (c := delGroup (some g)) rfl .down
      (vlanHalDeleteAllInterfaces E (some g) st).2
    exact (hall.trans hdown).trans (issues_line E rfl .delbr _)

theorem Call.issues_addInterface (E : Env σ) (g i : Str) (v : Option Str) (st : Hal σ) :
    Issues E (addInterface (some g) (some i) v).MayIssue st
      (vlanHalAddInterface E (some g) (some i) v st).2 := by
  simp only [vlanHalAddInterface]
  split
  · exact Issues.refl _ _ st
  · split
    · exact Issues.refl _ _ st
    · split
      · exact Issues.refl _ _ st
      · exact issues_line E rfl (.add _ _) st

theorem Call.issues_delInterface (E : Env σ) (g i : Str) (v : Option Str) (st : Hal σ) :
    Issues E (delInterface (some g) (some i) v).MayIssue st
      (vlanHalDelInterface E (some g) (some i) v st).2 := by
  simp only [vlanHalDelInterface]
  split
  · exact Issues.refl _ _ st
  · split
    · exact Issues.refl _ _ st
    · split
      · exact Issues.refl _ _ st
      · exact issues_line E rfl (.rem _ _) st

theorem Call.issues (E : Env σ) (st : Hal σ) (c : Call) :
    Issues E c.MayIssue st (c.perform E st).2 := by
  cases c with
  | addGroup g d =>
    cases g with
    | none => exact Issues.refl _ _ st
    | some g => exact issues_addGroup E g d st
  | delGroup g =>
    cases g with
    | none => exact Issues.refl _ _ st
    | some g => exact issues_delGroup E g st
  | addInterface g i v =>
    cases g with
    | none => exact Issues.refl _ _ st
    | some g =>
      cases i with
      | none => exact Issues.refl _ _ st
      | some i => exact issues_addInterface E g i v st
  | delInterface g i v =>
    cases g with
    | none => exact Issues.refl _ _ st
    | some g =>
      cases i with
      | none => exact Issues.refl _ _ st
      | some i => exact issues_delInterface E g i v st
  | printGroup g =>
    cases g with
    | none => exact Issues.refl _ _ st
    | some g => exact issues_line E rfl .print st
  | printAllGroup =>
    refine Issues.system E st (Or.inr (Or.inl ?_))
    rw [E.lib.strcpyS_fits _ _ (by decide)]
  | deleteAllInterfaces g =>
    cases g with
    | none => exact Issues.refl _ _ st
    | some g => exact issues_deleteAll E rfl st

/-- A call that fails has done nothing. -/
theorem Call.perform_err {E : Env σ} {st : Hal σ} {c : Call} (h : (c.perform E st).1 = .err) :
    (c.perform E st).2 = st := by
  cases c with
  | addGroup g d =>
    cases g with
    | none => rfl
    | some g =>
      simp only [perform,vlanHalAddGroup] at h
      split at h
      · cases h
      · cases d <;> cases h
  | delGroup g =>
    cases g with
    | none => rfl
    | some g =>
      simp only [perform,vlanHalDelGroup] at h
      split at h <;> cases h
  | addInterface g i v =>
    revert h
    simp only [perform,vlanHalAddInterface]
    split
    · split
      · exact fun _ => rfl
      · split
        · exact fun _ => rfl
        · split
          · exact fun _ => rfl
          · intro h
            cases h
    · exact fun _ => rfl
  | delInterface g i v =>
    revert h
    simp only [perform,vlanHalDelInterface]
    split
    · split
      · exact fun _ => rfl
      · split
        · exact fun _ => rfl
        · split
          · exact fun _ => rfl
          · intro h
            cases h
    · exact fun _ => rfl
  | printGroup g =>
    cases g with
    | none => rfl
    | some g => cases h
  | printAllGroup => cases h
  | deleteAllInterfaces g =>
    cases g with
    | none => rfl
    | some g =>
      simp only [perform,vlanHalDeleteAllInterfaces] at h
      split at h <;> cases h

def succeeded (E : Env σ) (st : Hal σ) : List Call → List Call
  | [] => []
  | c :: calls =>
    match c.perform E st with
    | (.ok,st) => c :: succeeded E st calls
    | (.err,st) => succeeded E st calls

end RdkHal.Vlan
