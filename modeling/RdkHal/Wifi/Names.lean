import RdkHal.Wifi.Essid
import RdkHal.Lib.Search

/-! The name of an access point, and the index that is read off a name. -/

set_option autoImplicit false

namespace RdkHal.Wifi
open Text

def wifiGetApName (lib : Safec) (apIndex : Int32) (outputString : Option Str) : Ret × Option Str :=
  match outputString with
  | none => (.err,none)
  | some _ => (.ok,some (lib.sprintfS 16 (sprintf "%s%d".toList [.s apPrefix,.d apIndex])).2)

/-- The index is -1 until `sscanf` stores one. -/
def wifiGetIndexFromName (inputSsidString : Str) : Ret × Int32 :=
  match strstr apPrefix inputSsidString with
  | none => (.err,-1)
  | some pos => (.ok,(scanInt (pos.drop apPrefix.length)).getD (-1))

theorem apName_length (apIndex : Int32) : (apName apIndex).length < 16 := by
  have hdigits := formatD_length apIndex
  have hpre : apPrefix.length = 3 := by decide
  rw [apName,List.length_append,hpre]
  omega

theorem wifiGetApName_eq (lib : Safec) (apIndex : Int32) (out : Str) :
    wifiGetApName lib apIndex (some out) = (.ok,some (apName apIndex)) := by
  have hname : sprintf "%s%d".toList [.s apPrefix,.d apIndex] = apName apIndex := by
    simp [sprintf,apName,Arg.conversion,Arg.text]
  rw [wifiGetApName,hname,lib.sprintfS_fits 16 _ (apName_length apIndex)]

theorem wifiGetIndexFromName_apName (apIndex : Int32) :
    wifiGetIndexFromName (apName apIndex) = (.ok,apIndex) := by
  have hfound : strstr apPrefix (apName apIndex) = some (apName apIndex) := by
    have hpre : apPrefix <+: 'a' :: ("th".toList ++ formatD apIndex) := ⟨formatD apIndex,rfl⟩
    exact if_pos hpre
  have hscan := @scanInt_formatD apIndex [] (by simp)
  rw [List.append_nil] at hscan
  simp only [wifiGetIndexFromName,hfound]
  rw [apName,List.drop_left,hscan,Option.getD_some]

theorem wifiGetIndexFromName_inverts (lib : Safec) (apIndex : Int32) (out : Str) :
    ∃ name, wifiGetApName lib apIndex (some out) = (.ok,some name) ∧ name.length < 16 ∧
      wifiGetIndexFromName name = (.ok,apIndex) :=
  ⟨apName apIndex,wifiGetApName_eq lib apIndex out,apName_length apIndex,
    wifiGetIndexFromName_apName apIndex⟩

theorem wifiGetIndexFromName_ok {s : Str} (h : apPrefix <:+: s) :
    (wifiGetIndexFromName s).1 = .ok := by
  obtain ⟨pos,hpos⟩ := Option.isSome_iff_exists.mp ((strstr_isSome apPrefix s).mpr h)
  simp only [wifiGetIndexFromName,hpos]

theorem wifiGetIndexFromName_err {s : Str} (h : ¬apPrefix <:+: s) :
    wifiGetIndexFromName s = (.err,-1) := by
  have hnone : strstr apPrefix s = none := by
    rwa [← strstr_isSome,Option.not_isSome_iff_eq_none] at h
  simp only [wifiGetIndexFromName,hnone]

def AcceptsNames (lib : Safec) (s out : Str) : Prop :=
  (∀ i, wifiGetIndexFromName s = (.ok,i) → wifiGetApName lib i (some out) = (.ok,some s)) ∧
  ((∀ i, wifiGetApName lib i (some out) ≠ (.ok,some s)) → wifiGetIndexFromName s = (.err,-1))

/-- A text with the prefix in it is accepted, so it has to be a name: no text before the prefix, no
other numeral than the one that is printed, and none behind it. -/
theorem acceptsNames_iff (lib : Safec) (s out : Str) :
    AcceptsNames lib s out ↔ (∃ i, s = apName i) ∨ ¬apPrefix <:+: s := by
  simp only [AcceptsNames,wifiGetApName_eq,Prod.mk.injEq,true_and,Option.some.injEq,ne_eq]
  constructor
  · rintro ⟨_,hother⟩
    by_contra h
    obtain ⟨hname,hin⟩ := not_or.mp h
    have hret := congrArg Prod.fst (hother fun i heq => hname ⟨i,heq.symm⟩)
    rw [wifiGetIndexFromName_ok (not_not.mp hin)] at hret
    cases hret
  · rintro (⟨i,rfl⟩ | hout)
    · refine ⟨fun j hj => ?_,fun hnone => absurd rfl (hnone i)⟩
      rw [wifiGetIndexFromName_apName] at hj
      rw [(Prod.mk.inj hj).2]
    · refine ⟨fun j hj => ?_,fun _ => wifiGetIndexFromName_err hout⟩
      rw [wifiGetIndexFromName_err hout] at hj
      cases (Prod.mk.inj hj).1

theorem acceptsNames_not :
    wifiGetIndexFromName "xath5 ".toList = (.ok,5) ∧ wifiGetIndexFromName apPrefix = (.ok,-1) ∧
    ¬AcceptsNames Safec.reference "xath5 ".toList [] ∧ ¬AcceptsNames Safec.reference apPrefix [] := by
  have hfive : wifiGetIndexFromName "xath5 ".toList = (.ok,5) := by decide
  have halone : wifiGetIndexFromName apPrefix = (.ok,-1) := by decide
  refine ⟨hfive,halone,fun h => ?_,fun h => ?_⟩
  · have hname := h.1 5 hfive
    exact absurd hname (by decide)
  · have hname := h.1 (-1) halone
    exact absurd hname (by decide)

end RdkHal.Wifi
