import RdkHal.Wifi.Kick

/-! The getters that are told how much room their caller has, from cm_hal.c, wifi_hal.c,
mta_hal.c and platform_hal.c: the places they write to, and the lengths they report. -/

set_option autoImplicit false

namespace RdkHal
open Text Memory

def clear (i : Int) : Nat → Log Char
  | 0 => []
  | n+1 => (i,'\x00') :: clear (i+1) n

def copy (i : Int) : Str → Log Char
  | [] => []
  | c :: s => (i,c) :: copy (i+1) s

/-- A library may be built to clear the rest of the destination. Of a text that does not fit, the
characters that do are copied before the destination is emptied. -/
def strcpyLog (nullSlack : Bool) (n : Nat) (s : Str) : Log Char :=
  let slack := fun i : Nat => if nullSlack then clear i (n-i) else []
  if s.length < n then store 0 s ++ slack (s.length+1)
  else if n = 0 then []
  else copy 0 (s.take n) ++ (0,'\x00') :: slack 0

def strcpyText (n : Nat) (s old : Str) : Str :=
  if n = 0 then old else if s.length < n then s else []

theorem inside_clear {n i : Int} {k : Nat} (hi : 0 ≤ i) :
    Inside n (clear i k) ↔ k = 0 ∨ i+k ≤ n := by
  induction k generalizing i with
  | zero => simp [clear]
  | succ k ih =>
    simp only [clear,inside_cons,ih (show 0 ≤ i+1 by omega)]
    omega

theorem inside_copy {n i : Int} {s : Str} (hi : 0 ≤ i) (hs : i+s.length ≤ n) :
    Inside n (copy i s) := by
  induction s generalizing i with
  | nil => exact inside_nil n
  | cons c s ih =>
    rw [List.length_cons] at hs
    push_cast at hs
    refine (inside_cons n _ _).mpr ⟨⟨hi,?_⟩,ih (by omega) (by omega)⟩
    change i < n
    omega

theorem strcpyLog_inside (nullSlack : Bool) (n : Nat) (s : Str) :
    Inside n (strcpyLog nullSlack n s) := by
  have hslack (i : Nat) (hi : i ≤ n) :
      Inside (n : Int) (if nullSlack = true then clear i (n-i) else []) := by
    split
    · exact (inside_clear (by omega)).mpr (Or.inr (by omega))
    · exact inside_nil _
  simp only [strcpyLog]
  split
  · rename_i hfits
    rw [inside_append,inside_store (Int.le_refl 0)]
    exact ⟨by omega,hslack _ hfits⟩
  split
  · exact inside_nil _
  · rw [inside_append,inside_cons]
    refine ⟨inside_copy (Int.le_refl 0) ?_,⟨Int.le_refl 0,?_⟩,hslack 0 (Nat.zero_le n)⟩
    · have hle := List.length_take_le n s
      omega
    · change (0 : Int) < n
      omega

theorem clear_from {i : Int} {k : Nat} : ∀ w ∈ clear i k, i ≤ w.1 := by
  induction k generalizing i with
  | zero => simp [clear]
  | succ k ih =>
    intro w hw
    rcases List.mem_cons.mp hw with rfl | hw
    · exact Int.le_refl _
    · have hle := ih w hw
      omega

theorem after_clear {m : Int → Char} {j : Int} (h : m j = '\x00') (i : Int) (k : Nat) :
    after m (clear i k) j = '\x00' := by
  induction k generalizing m i with
  | zero => exact h
  | succ k ih =>
    rw [clear,after]
    apply ih
    split
    · rfl
    · exact h

theorem strcpyLog_holds (nullSlack : Bool) (n : Nat) {s old : Str} (hs : '\x00' ∉ s)
    {m : Int → Char} (h : Holds m 0 old) :
    Holds (after m (strcpyLog nullSlack n s)) 0 (strcpyText n s old) := by
  by_cases hfits : s.length < n
  · have hne : n ≠ 0 := by omega
    have hstored := holds_store m 0 s
    rw [cstr_eq hs] at hstored
    simp only [strcpyLog,strcpyText,hfits,hne,if_true,if_false,after_append]
    split
    · obtain ⟨hchars,_,hend⟩ := hstored
      refine ⟨chars_frame hchars (fun w hw => ?_),hs,after_clear hend _ _⟩
      have hle := clear_from w hw
      push_cast at hle
      omega
    · exact hstored
  · by_cases hzero : n = 0
    · simpa [strcpyLog,strcpyText,hzero,after] using h
    · have hempty (m : Int → Char) : Holds (after m ((0,'\x00') ::
          (if nullSlack = true then clear 0 n else []))) 0 [] := by
        refine ⟨trivial,by simp,?_⟩
        rw [after]
        split
        · exact after_clear (by simp) 0 n
        · simp [after]
      simp only [strcpyLog,strcpyText,hfits,hzero,if_false,after_append]
      exact hempty _

structure EventLogEntry where
  docsDevEvIndex : Nat
  docsDevEvCounts : Nat
  docsDevEvLevel : Nat
  docsDevEvId : Nat
  docsDevEvText : Str
  deriving DecidableEq

/-- The entries written, and the number returned; `len` is not looked at. -/
def docsisGetDocsisEventLogItems (lib : Safec) (_len : Int32) : Log EventLogEntry × Int :=
  let docsisLog : List EventLogEntry :=
    [⟨1,1,1,1,(lib.strcpyS 255 "This is entry 1".toList).2⟩,
      ⟨2,2,2,2,(lib.strcpyS 255 "This is entry 2".toList).2⟩]
  (docsisLog.mapIdx fun i entry => ((i : Int),entry),2)

def wifiGetApDevicesAssociatedLog {ω : Type} (P : Wifi.Platform ω) (apIndex : Int32)
    (bufSize : UInt32) (os : Wifi.Os ω) : Log Char :=
  Wifi.syscmdLog (P.shell (P.command 128 Wifi.assocFormat [.s Wifi.apPrefix,.d apIndex]) os).1
    bufSize.toInt32.toInt

/-- The common body of the getters of the battery's texts: the writes, the text in the
destination afterwards, and the length reported. -/
def batteryText (nullSlack : Bool) (text old : Str) (len : Nat) : Log Char × Str × Nat :=
  (strcpyLog nullSlack len text,strcpyText len text old,(strcpyText len text old).length+1)

def mtaHalBatteryGetPowerStatus (nullSlack : Bool) (old : Str) (len : Nat) : Log Char × Str × Nat :=
  batteryText nullSlack "Battery".toList old len

def mtaHalBatteryGetCondition (nullSlack : Bool) (old : Str) (len : Nat) : Log Char × Str × Nat :=
  batteryText nullSlack "Good".toList old len

def mtaHalBatteryGetStatus (nullSlack : Bool) (old : Str) (len : Nat) : Log Char × Str × Nat :=
  batteryText nullSlack "Discharging".toList old len

def mtaHalBatteryGetLife (nullSlack : Bool) (old : Str) (len : Nat) : Log Char × Str × Nat :=
  batteryText nullSlack "Need Replacement".toList old len

/-- `maxSize` is not looked at. -/
def platformHalGetSoftwareVersion (nullSlack : Bool) (_maxSize : Nat) : Log Char :=
  strcpyLog nullSlack 1024 "Software Version".toList

theorem eventLog_iff (lib : Safec) (len : Int32) :
    (Inside len.toInt (docsisGetDocsisEventLogItems lib len).1 ∧
      (docsisGetDocsisEventLogItems lib len).2 ≤ len.toInt) ↔ 2 ≤ len.toInt := by
  constructor
  · exact fun h => h.2
  · intro h
    refine ⟨?_,h⟩
    simp [docsisGetDocsisEventLogItems]
    omega

theorem toInt32_toInt (n : UInt32) :
    (n.toNat < 2^31 ∧ n.toInt32.toInt = n.toNat) ∨ (2^31 ≤ n.toNat ∧ n.toInt32.toInt < 0) := by
  have hcases := toInt_cases n.toInt32
  have hlt := n.toNat_lt
  rw [UInt32.toUInt32_toInt32] at hcases
  omega

theorem devicesAssociated_holds {ω : Type} {P : Wifi.Platform ω} {apIndex : Int32}
    {bufSize : UInt32} {os : Wifi.Os ω} (hpos : 1 ≤ bufSize.toInt32.toInt) {macArray : Str}
    {m : Int → Char} (h : Holds m 0 macArray) :
    Holds (after m (wifiGetApDevicesAssociatedLog P apIndex bufSize os)) 0
      (Wifi.wifiGetApDevicesAssociated P apIndex macArray bufSize os).2.1 := by
  rcases hout : P.shell (P.command 128 Wifi.assocFormat [.s Wifi.apPrefix,.d apIndex]) os with
    ⟨_ | s,os'⟩
  · simpa only [wifiGetApDevicesAssociatedLog,Wifi.wifiGetApDevicesAssociated,Wifi.syscmd,hout,
      Wifi.syscmdLog,after] using h
  · simp only [wifiGetApDevicesAssociatedLog,Wifi.wifiGetApDevicesAssociated,Wifi.syscmd,hout]
    exact Wifi.syscmdLog_holds s hpos m

theorem devicesAssociated_log {ω : Type} (P : Wifi.Platform ω) (apIndex : Int32)
    (bufSize : UInt32) (os : Wifi.Os ω) : wifiGetApDevicesAssociatedLog P apIndex bufSize os =
      Wifi.syscmdLog (P.popen (Wifi.assocLine apIndex) os.world).1 bufSize.toInt32.toInt := by
  rw [wifiGetApDevicesAssociatedLog,Wifi.assocLine_fits]
  rfl

theorem devicesAssociated_below {ω : Type} (P : Wifi.Platform ω) (apIndex : Int32)
    (bufSize : UInt32) (os : Wifi.Os ω) :
    (∀ w ∈ wifiGetApDevicesAssociatedLog P apIndex bufSize os, w.1 < bufSize.toNat) ↔
      (P.popen (Wifi.assocLine apIndex) os.world).1 = none ∨ 1 ≤ bufSize.toNat := by
  rw [devicesAssociated_log]
  cases hout : (P.popen (Wifi.assocLine apIndex) os.world).1 with
  | none => simp [Wifi.syscmdLog]
  | some s =>
    rcases toInt32_toInt bufSize with ⟨_,hsize⟩ | ⟨hge,hsize⟩
    · by_cases hpos : 1 ≤ bufSize.toNat
      · refine iff_of_true (fun w hw => ?_) (Or.inr hpos)
        have hinside := (Wifi.syscmdLog_inside (some s) bufSize.toInt32.toInt).mpr
          (Or.inr (by omega)) w hw
        omega
      · refine iff_of_false (fun h => ?_) (by simp [hpos])
        have hfirst := h (0,'\x00') (by
          rw [Wifi.syscmdLog,Wifi.syscmdLoop_noRoom _ (by omega)]
          simp)
        change (0 : Int) < bufSize.toNat at hfirst
        omega
    · -- a size of 2^31 or more becomes negative
      refine iff_of_true ?_ (Or.inr (by omega))
      rw [Wifi.syscmdLog,Wifi.syscmdLoop_noRoom _ (by omega)]
      simp
      omega

theorem devicesAssociated_iff {ω : Type} (P : Wifi.Platform ω) (apIndex : Int32) (bufSize : UInt32)
    (os : Wifi.Os ω) : Inside bufSize.toNat (wifiGetApDevicesAssociatedLog P apIndex bufSize os) ↔
      (P.popen (Wifi.assocLine apIndex) os.world).1 = none ∨
        (1 ≤ bufSize.toNat ∧ bufSize.toNat < 2^31) := by
  rw [devicesAssociated_log]
  rcases toInt32_toInt bufSize with ⟨hlt,hsize⟩ | ⟨hge,hsize⟩
  · rw [hsize,Wifi.syscmdLog_inside]
    exact or_congr Iff.rfl (by omega)
  · cases hout : (P.popen (Wifi.assocLine apIndex) os.world).1 with
    | none => simp [Wifi.syscmdLog]
    | some s =>
      refine iff_of_false (fun h => ?_) (by simp; omega)
      have hlast := h (bufSize.toInt32.toInt-1,'\x00') (by simp [Wifi.syscmdLog])
      have hlow : 0 ≤ bufSize.toInt32.toInt-1 := hlast.1
      omega

theorem batteryText_iff (nullSlack : Bool) {text : Str} (old : Str) (len : Nat) :
    (Inside len (batteryText nullSlack text old len).1 ∧
      (batteryText nullSlack text old len).2.2 ≤ len) ↔ 1 ≤ len := by
  constructor
  · rintro ⟨_,hlen⟩
    simp only [batteryText] at hlen
    omega
  · intro hpos
    refine ⟨strcpyLog_inside nullSlack len text,?_⟩
    have hne : len ≠ 0 := by omega
    simp only [batteryText,strcpyText,hne,if_false]
    split
    · omega
    · exact hpos

theorem softwareVersion_iff (nullSlack : Bool) (maxSize : Nat) :
    Inside maxSize (platformHalGetSoftwareVersion nullSlack maxSize) ↔
      (if nullSlack then 1024 else 17) ≤ maxSize := by
  have hlen : "Software Version".toList.length = 16 := by decide
  have hfits : 16 < 1024 := by decide
  simp only [platformHalGetSoftwareVersion,strcpyLog,hlen,hfits,if_true,inside_append,
    inside_store (Int.le_refl 0)]
  cases nullSlack with
  | true =>
    simp only [if_true]
    rw [inside_clear (by omega)]
    omega
  | false =>
    simp only [Bool.false_eq_true,if_false,inside_nil,and_true]
    omega

/-- The capacity that each getter needs. -/
theorem capacity_iff {ω : Type} (lib : Safec) (P : Wifi.Platform ω) (nullSlack : Bool)
    (apIndex : Int32) (os : Wifi.Os ω) (old : Str) (len : Int32) (bufSize : UInt32)
    (room maxSize : Nat) :
    ((Inside len.toInt (docsisGetDocsisEventLogItems lib len).1 ∧
      (docsisGetDocsisEventLogItems lib len).2 ≤ len.toInt) ↔ 2 ≤ len.toInt) ∧
    ((∀ w ∈ wifiGetApDevicesAssociatedLog P apIndex bufSize os, w.1 < bufSize.toNat) ↔
      (P.popen (Wifi.assocLine apIndex) os.world).1 = none ∨ 1 ≤ bufSize.toNat) ∧
    (Inside bufSize.toNat (wifiGetApDevicesAssociatedLog P apIndex bufSize os) ↔
      (P.popen (Wifi.assocLine apIndex) os.world).1 = none ∨
        (1 ≤ bufSize.toNat ∧ bufSize.toNat < 2^31)) ∧
    ((Inside room (mtaHalBatteryGetPowerStatus nullSlack old room).1 ∧
      (mtaHalBatteryGetPowerStatus nullSlack old room).2.2 ≤ room) ↔ 1 ≤ room) ∧
    (Inside maxSize (platformHalGetSoftwareVersion nullSlack maxSize) ↔
      (if nullSlack then 1024 else 17) ≤ maxSize) :=
  ⟨eventLog_iff lib len,devicesAssociated_below P apIndex bufSize os,
    devicesAssociated_iff P apIndex bufSize os,batteryText_iff nullSlack old room,
    softwareVersion_iff nullSlack maxSize⟩

theorem capacity_exceeded :
    ¬(Inside 1 (docsisGetDocsisEventLogItems Safec.reference 1).1 ∧
      (docsisGetDocsisEventLogItems Safec.reference 1).2 ≤ 1) ∧
    (¬∀ w ∈ wifiGetApDevicesAssociatedLog Wifi.crowdPlatform 0 0 ⟨(),[]⟩, w.1 < 0) ∧
    ¬(Inside 0 (mtaHalBatteryGetPowerStatus false [] 0).1 ∧
      (mtaHalBatteryGetPowerStatus false [] 0).2.2 ≤ 0) ∧
    ¬Inside 8 (platformHalGetSoftwareVersion false 8) := by
  have hout : (Wifi.crowdPlatform.popen (Wifi.assocLine 0) ()).1 ≠ none := by
    exact Option.some_ne_none _
  refine ⟨fun h => ?_,fun h => ?_,fun h => ?_,fun h => ?_⟩
  · exact absurd ((eventLog_iff Safec.reference 1).mp h) (by decide)
  · have hroom := ((devicesAssociated_below Wifi.crowdPlatform 0 0 ⟨(),[]⟩).mp h).resolve_left hout
    exact absurd hroom (by decide)
  · exact absurd ((batteryText_iff false [] 0).mp h) (by decide)
  · exact absurd ((softwareVersion_iff false 8).mp h) (by decide)

end RdkHal
