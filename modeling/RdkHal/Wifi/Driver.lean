import Mathlib.Data.Option.Basic
import Mathlib.Logic.Function.Basic
import RdkHal.Wifi.Settings

/-! The two levels of the wireless settings: the attributes that the tools give to interfaces by
their names, and the settings of access points by their index. -/

set_option autoImplicit false

namespace RdkHal.Wifi
open Text

abbrev Iface := Str → Option Str

abbrev Driver := Str → Option Iface

namespace Driver

def set (d : Driver) (name key value : Str) : Driver :=
  Function.update d name ((d name).map fun iface => Function.update iface key (some value))

def setAll (d : Driver) (name : Str) : List Str → Driver
  | key :: value :: rest => (d.set name key value).setAll name rest
  | _ => d

def create (d : Driver) (name : Str) : Driver :=
  if (d name).isSome then d else Function.update d name (some fun _ => none)

/-- What a call of one of the tools does. An interface that there is cannot be created again, and
nothing can be set on one that there is not. -/
def tool (d : Driver) : List Str → Driver
  | program :: name :: verb :: more =>
    if program = "iwconfig".toList ∨ program = "ifconfig".toList then d.setAll name (verb :: more)
    else if program = "wlanconfig".toList then
      if verb = "create".toList then
        if (d name).isSome then d else (d.create name).setAll name more
      else if verb = "destroy".toList then Function.update d name none
      else d
    else d
  | _ => d

end Driver

inductive Key where
  | wlandev
  | wlanmode
  | essid
  | mode
  | frag
  | rts
  | freq
  | txpower
  | txqueuelen
  deriving DecidableEq,Repr

namespace Key

def word : Key → Str
  | wlandev => "wlandev".toList
  | wlanmode => "wlanmode".toList
  | essid => "essid".toList
  | mode => "mode".toList
  | frag => "frag".toList
  | rts => "rts".toList
  | freq => "freq".toList
  | txpower => "txpower".toList
  | txqueuelen => "txqueuelen".toList

theorem word_injective {k k' : Key} (h : k.word = k'.word) : k = k' := by
  cases k <;> cases k' <;> first | rfl | exact absurd h (by decide)

def Value : Key → Type
  | wlandev => Int32
  | essid => Str
  | frag | rts | freq => UInt32
  | txpower => UInt64
  | txqueuelen => Nat
  | wlanmode | mode => Unit

def printThreshold (threshold : UInt32) : Str :=
  if threshold = 0 then "off".toList else Nat.toDigits 10 threshold.toNat

def print : (k : Key) → k.Value → Str
  | wlandev, radioIndex => radioPrefix ++ formatD radioIndex
  | wlanmode, _ => "ap".toList
  | essid, ssid => ssid
  | mode, _ => "master".toList
  | frag, threshold | rts, threshold => printThreshold threshold
  | freq, channel => Nat.toDigits 10 channel.toNat
  | txpower, power => Nat.toDigits 10 power.toNat
  | txqueuelen, length => Nat.toDigits 10 length

end Key

abbrev Ap := (k : Key) → Option k.Value

abbrev Settings := Int32 → Option Ap

namespace Settings

def put (S : Settings) (i : Int32) (k : Key) (v : k.Value) : Settings :=
  Function.update S i ((S i).map fun ap => Function.update ap k (some v))

def create (S : Settings) (i : Int32) : Settings :=
  if (S i).isSome then S else Function.update S i (some fun _ => none)

def delete (S : Settings) (i : Int32) : Settings := Function.update S i none

theorem put_other (S : Settings) {i j : Int32} (h : j ≠ i) (k : Key) (v : k.Value) :
    S.put i k v j = S j :=
  Function.update_of_ne h _ _

theorem create_other (S : Settings) {i j : Int32} (h : j ≠ i) : S.create i j = S j := by
  rw [create]
  split
  · rfl
  · exact Function.update_of_ne h _ _

theorem delete_other (S : Settings) {i j : Int32} (h : j ≠ i) : S.delete i j = S j :=
  Function.update_of_ne h _ _

theorem put_same {S S' : Settings} {i : Int32} (h : S i = S' i) (k : Key) (v : k.Value) :
    S.put i k v i = S'.put i k v i := by
  rw [put,put,Function.update_self,Function.update_self,h]

theorem create_same {S S' : Settings} {i : Int32} (h : S i = S' i) :
    S.create i i = S'.create i i := by
  rw [create,create,h]
  split
  · exact h
  · rw [Function.update_self,Function.update_self]

theorem delete_self (S : Settings) (i : Int32) : S.delete i i = none := by
  rw [delete,Function.update_self]

end Settings

def Shown (ap : Ap) (iface : Iface) : Prop := ∀ k : Key, iface k.word = (ap k).map k.print

/-- Each access point is the interface of its name. -/
def Represents (S : Settings) (d : Driver) : Prop := ∀ i, Option.Rel Shown (S i) (d (apName i))

theorem apName_injective {i j : Int32} (h : apName i = apName j) : i = j := by
  have hdigits : formatD i = formatD j := List.append_cancel_left h
  have hi := @scanInt_formatD i [] (by simp)
  rw [hdigits,scanInt_formatD j (by simp)] at hi
  exact (Option.some.inj hi).symm

theorem Shown.set {ap : Ap} {iface : Iface} (h : Shown ap iface) (k : Key) (v : k.Value) :
    Shown (Function.update ap k (some v)) (Function.update iface k.word (some (k.print v))) := by
  intro k'
  by_cases hk : k' = k
  · subst hk
    rw [Function.update_self,Function.update_self,Option.map_some]
  · rw [Function.update_of_ne hk,Function.update_of_ne (fun hword => hk (Key.word_injective hword))]
    exact h k'

namespace Represents

theorem set {S : Settings} {d : Driver} (h : Represents S d) (i : Int32) (k : Key) (v : k.Value) :
    Represents (S.put i k v) (d.set (apName i) k.word (k.print v)) := by
  intro j
  by_cases hj : j = i
  · subst hj
    have hrel := h j
    rw [Settings.put,Driver.set,Function.update_self,Function.update_self]
    revert hrel
    generalize S j = ap,d (apName j) = iface
    rintro (hshown | _)
    · exact Option.Rel.some (hshown.set k v)
    · exact Option.Rel.none
  · rw [S.put_other hj,Driver.set,Function.update_of_ne (fun hname => hj (apName_injective hname))]
    exact h j

theorem isSome {S : Settings} {d : Driver} (h : Represents S d) (i : Int32) :
    (d (apName i)).isSome = (S i).isSome := by
  have hrel := h i
  revert hrel
  generalize S i = ap,d (apName i) = iface
  rintro (_ | _) <;> rfl

theorem create {S : Settings} {d : Driver} (h : Represents S d) (i : Int32) :
    Represents (S.create i) (d.create (apName i)) := by
  rw [Settings.create,Driver.create,h.isSome]
  split
  · exact h
  · intro j
    by_cases hj : j = i
    · subst hj
      rw [Function.update_self,Function.update_self]
      exact Option.Rel.some (fun _ => rfl)
    · rw [Function.update_of_ne hj,Function.update_of_ne (fun hname => hj (apName_injective hname))]
      exact h j

theorem delete {S : Settings} {d : Driver} (h : Represents S d) (i : Int32) :
    Represents (S.delete i) (Function.update d (apName i) none) := by
  intro j
  by_cases hj : j = i
  · subst hj
    rw [Settings.delete,Function.update_self,Function.update_self]
    exact Option.Rel.none
  · rw [S.delete_other hj,Function.update_of_ne (fun hname => hj (apName_injective hname))]
    exact h j

end Represents

end RdkHal.Wifi
