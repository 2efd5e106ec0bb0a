import RdkHal.Wifi.Configuration

/-! The calls about one access point leave the others alone, and do not depend on the calls about
them. -/

set_option autoImplicit false

namespace RdkHal.Wifi
open Text Runs

variable {ω : Type}

namespace Call

def target : Call → Int32
  | createAp i _ _ _ | deleteAp i | pushSSID i _ => i
  | fragmentationThreshold i _ | rtsThreshold i _ | readStatus i _ => i
  | pushChannel r _ | transmitPower r _ | readPower r _ => radioAp r

theorem apply_other {c : Call} {i : Int32} (h : c.target ≠ i) (S : Settings) :
    (c.apply S).2 i = S i := by
  have hi : i ≠ c.target := Ne.symm h
  cases c with
  | createAp j r essid hide =>
    cases essid with
    | none => rfl
    | some ssid =>
      have hij : i ≠ j := hi
      have hset (S : Settings) : (((S.put j .essid ssid).put j .mode ()).put j .txqueuelen
          (1000 : Nat)) i = S i :=
        ((Settings.put_other _ hij _ _).trans (Settings.put_other _ hij _ _)).trans
          (S.put_other hij _ _)
      refine (hset _).trans ?_
      split
      · rfl
      · exact ((Settings.put_other _ hij _ _).trans (Settings.put_other _ hij _ _)).trans
          (S.create_other hij)
  | deleteAp j => exact S.delete_other hi
  | pushSSID j ssid => exact S.put_other hi _ _
  | fragmentationThreshold j n => exact S.put_other hi _ _
  | rtsThreshold j n => exact S.put_other hi _ _
  | pushChannel r n => exact S.put_other hi _ _
  | transmitPower r n => exact S.put_other hi _ _
  | readPower r out => cases out <;> rfl
  | readStatus j out => cases out <;> rfl

theorem apply_own {c : Call} {S S' : Settings} (h : S c.target = S' c.target) :
    (c.apply S).1 = (c.apply S').1 ∧ (c.apply S).2 c.target = (c.apply S').2 c.target := by
  cases c with
  | createAp i r essid hide =>
    cases essid with
    | none => exact ⟨rfl,h⟩
    | some ssid =>
      have hi : S i = S' i := h
      refine ⟨rfl,Settings.put_same (Settings.put_same (Settings.put_same ?_ _ _) _ _) _ _⟩
      rw [hi]
      split
      · exact hi
      · exact Settings.put_same (Settings.put_same (Settings.create_same hi) _ _) _ _
  | deleteAp i => exact ⟨rfl,(S.delete_self i).trans (S'.delete_self i).symm⟩
  | pushSSID i ssid => exact ⟨rfl,Settings.put_same h _ _⟩
  | fragmentationThreshold i n => exact ⟨rfl,Settings.put_same h _ _⟩
  | rtsThreshold i n => exact ⟨rfl,Settings.put_same h _ _⟩
  | pushChannel r n => exact ⟨rfl,Settings.put_same h _ _⟩
  | transmitPower r n => exact ⟨rfl,Settings.put_same h _ _⟩
  | readPower r out =>
    cases out with
    | none => exact ⟨rfl,h⟩
    | some old =>
      exact ⟨congrArg (fun ap : Option Ap =>
        (Ret.ok,(ap.bind fun ap => ap .txpower).map Output.power)) h,h⟩
  | readStatus i out =>
    cases out with
    | none => exact ⟨rfl,h⟩
    | some old =>
      exact ⟨congrArg (fun ap : Option Ap =>
        (Ret.ok,some (Output.status (statusText ap.isSome)))) h,h⟩

theorem served_own {accepts : List Str → Prop} {c : Call} {S S' : Settings}
    (h : S c.target = S' c.target) (hc : c.Served accepts S) : c.Served accepts S' := by
  obtain ⟨hprintable,haccepts,hread⟩ := hc
  refine ⟨hprintable,haccepts,fun radioIndex old heq => ?_⟩
  subst heq
  obtain ⟨ap,power,hap,hpower,hfits⟩ := hread radioIndex old rfl
  exact ⟨ap,power,h.symm.trans hap,hpower,hfits⟩

end Call

def mine (i : Int32) (c : Call × Str) : Bool := c.1.target = i

theorem mine_eq {i : Int32} {c : Call × Str} (h : mine i c = true) : c.1.target = i :=
  of_decide_eq_true h

theorem mine_ne {i : Int32} {c : Call × Str} (h : mine i c = false) : c.1.target ≠ i :=
  of_decide_eq_false h

theorem rel_shown {ap : Option Ap} {iface iface' : Option Iface} (h : Option.Rel Shown ap iface)
    (h' : Option.Rel Shown ap iface') (k : Key) :
    iface.map (fun f => f k.word) = iface'.map (fun f => f k.word) := by
  cases h with
  | some hshown =>
    cases h' with
    | some hshown' => exact congrArg some ((hshown k).trans (hshown' k).symm)
  | none =>
    cases h'
    rfl

end RdkHal.Wifi
