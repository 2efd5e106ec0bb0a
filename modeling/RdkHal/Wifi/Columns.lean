import RdkHal.Wifi.Stations

/-! The columns of a station line: which fields of an entry each of them decides, and which pointers
the parser hands on. -/

set_option autoImplicit false

namespace RdkHal.Wifi
open Text

variable {ω : Type}

def stationEntry (P : Platform ω) (dev : AssociatedDev) (mac rssi : Option Str)
    (downlink uplink : UInt32) : AssociatedDev where
  cliAddresses := clearIPAddress (match mac with
    | none => dev.cliAddresses
    | some mac => scanMac (List.finRange 6) mac dev.cliAddresses)
  cliAuthenticationState := P.boolOf (match rssi with
    | none => 0
    | some rssi => atoi rssi-100)
  cliLastDataDownlinkRate := downlink
  cliLastDataUplinkRate := uplink
  cliSignalStrength := -100
  cliRetransmissions := 0
  cliActive := 1
  cliOperatingStandard := (P.lib.strcpyS 64 []).2
  cliOperatingChannelBandwidth := (P.lib.strcpyS 64 "20MHz".toList).2
  cliSNR := 20
  cliInterferenceSources := (P.lib.strcpyS 64 []).2
  cliDataFramesSentAck := 0
  cliDataFramesSentNoAck := 0
  cliBytesSent := 0
  cliBytesReceived := 0
  cliRSSI := 30

theorem parseStation_some {P : Platform ω} {line : Str} {dev e : AssociatedDev}
    (h : parseStation P line dev = some e) :
    ∃ downlink uplink, rateOf (tokens [' '] line)[3]? = some downlink ∧
      rateOf (tokens [' '] line)[4]? = some uplink ∧
      e = stationEntry P dev (tokens [' '] line)[0]? (tokens [' '] line)[5]? downlink uplink := by
  simp only [parseStation] at h
  cases hdown : rateOf (tokens [' '] line)[3]? with
  | none => simp [hdown] at h
  | some downlink =>
    cases hup : rateOf (tokens [' '] line)[4]? with
    | none => simp [hdown,hup] at h
    | some uplink =>
      rw [hdown,hup] at h
      exact ⟨downlink,uplink,rfl,rfl,(Option.some.inj h).symm⟩

def DifferOnly (k : Nat) (line line' : Str) : Prop :=
  ∀ j, j ≠ k → (tokens [' '] line)[j]? = (tokens [' '] line')[j]?

structure Separate (line line' : Str) (e e' : AssociatedDev) : Prop where
  rssi : DifferOnly 5 line line' →
    e' = { e with cliSignalStrength := e'.cliSignalStrength, cliRSSI := e'.cliRSSI } ∧
      e.cliAuthenticationState = 1 ∧ e'.cliAuthenticationState = 1
  txrate : DifferOnly 3 line line' →
    e' = { e with cliLastDataDownlinkRate := e'.cliLastDataDownlinkRate }
  rxrate : DifferOnly 4 line line' →
    e' = { e with cliLastDataUplinkRate := e'.cliLastDataUplinkRate }
  mac : DifferOnly 0 line line' →
    e' = { e with cliAddresses := e'.cliAddresses } ∧
      ∀ i (h : i < 70), 6 ≤ i → e'.cliAddresses[i] = e.cliAddresses[i]

theorem clearIPAddress_behind (bytes : Vector UInt8 70) (i : Nat) (h : i < 70) (hi : 6 ≤ i) :
    (clearIPAddress bytes)[i] = 0 := by
  simp [clearIPAddress,Nat.not_lt.mpr hi]

/-- The columns are separate exactly where, of two lines that differ only in the strength of the
signal, both have one that is converted to 1: the state of the authentication is made of it. -/
theorem parseStation_separate_iff {P : Platform ω} {line line' : Str} {dev e e' : AssociatedDev}
    {rssi rssi' : Str} (hrssi : (tokens [' '] line)[5]? = some rssi)
    (hrssi' : (tokens [' '] line')[5]? = some rssi') (h : parseStation P line dev = some e)
    (h' : parseStation P line' dev = some e') :
    Separate line line' e e' ↔
      (DifferOnly 5 line line' → P.boolOf (atoi rssi-100) = 1 ∧ P.boolOf (atoi rssi'-100) = 1) := by
  obtain ⟨downlink,uplink,hdown,hup,he⟩ := parseStation_some h
  obtain ⟨downlink',uplink',hdown',hup',he'⟩ := parseStation_some h'
  have hauth : e.cliAuthenticationState = P.boolOf (atoi rssi-100) := by
    rw [he,hrssi]
    rfl
  have hauth' : e'.cliAuthenticationState = P.boolOf (atoi rssi'-100) := by
    rw [he',hrssi']
    rfl
  constructor
  · intro hseparate honly
    obtain ⟨_,hone,hone'⟩ := hseparate.rssi honly
    exact ⟨hauth.symm.trans hone,hauth'.symm.trans hone'⟩
  · intro hone
    have hdownlink (honly : (tokens [' '] line)[3]? = (tokens [' '] line')[3]?) :
        downlink' = downlink := by
      rw [← honly,hdown] at hdown'
      exact (Option.some.inj hdown').symm
    have huplink (honly : (tokens [' '] line)[4]? = (tokens [' '] line')[4]?) :
        uplink' = uplink := by
      rw [← honly,hup] at hup'
      exact (Option.some.inj hup').symm
    refine ⟨fun honly => ?_,fun honly => ?_,fun honly => ?_,fun honly => ?_⟩
    · obtain ⟨hfirst,hsecond⟩ := hone honly
      refine ⟨?_,hauth.trans hfirst,hauth'.trans hsecond⟩
      have hstate : P.boolOf (atoi rssi'-100) = P.boolOf (atoi rssi-100) := hsecond.trans hfirst.symm
      rw [he,he',hdownlink (honly 3 (by decide)),huplink (honly 4 (by decide)),hrssi,hrssi',
        ← honly 0 (by decide)]
      simp only [stationEntry,hstate]
    · rw [he,he',huplink (honly 4 (by decide)),← honly 0 (by decide),← honly 5 (by decide)]
      rfl
    · rw [he,he',hdownlink (honly 3 (by decide)),← honly 0 (by decide),← honly 5 (by decide)]
      rfl
    · refine ⟨?_,fun i hi hbehind => ?_⟩
      · rw [he,he',hdownlink (honly 3 (by decide)),huplink (honly 4 (by decide)),
          ← honly 5 (by decide)]
        rfl
      · rw [he,he']
        exact (clearIPAddress_behind _ i hi hbehind).trans (clearIPAddress_behind _ i hi hbehind).symm

def columnPlatform : Platform Unit := Platform.answering none

def weakLine : Str := "11:22:33:44:55:66 1 6 54M 11M 40\n".toList

def strongLine : Str := "11:22:33:44:55:66 1 6 54M 11M 50\n".toList

def sharedColumns : List Str :=
  ["11:22:33:44:55:66".toList,"1".toList,"6".toList,"54M".toList,"11M".toList]

theorem weakLine_columns : tokens [' '] weakLine = sharedColumns ++ ["40\n".toList] := by
  decide +kernel

theorem strongLine_columns : tokens [' '] strongLine = sharedColumns ++ ["50\n".toList] := by
  decide +kernel

theorem weak_strong : DifferOnly 5 weakLine strongLine := by
  intro j hj
  rw [weakLine_columns,strongLine_columns]
  have hlen : sharedColumns.length = 5 := rfl
  by_cases hlow : j < 5
  · rw [List.getElem?_append_left (by omega),List.getElem?_append_left (by omega)]
  · rw [List.getElem?_eq_none (by simp [hlen]; omega),List.getElem?_eq_none (by simp [hlen]; omega)]

theorem weak_strong_states : ∃ e e', parseStation columnPlatform weakLine .zero = some e ∧
    parseStation columnPlatform strongLine .zero = some e' ∧ e.cliAuthenticationState = -60 ∧
    e'.cliAuthenticationState = -50 := by
  have hweak : (parseStation columnPlatform weakLine .zero).map
      (fun e => e.cliAuthenticationState) = some (-60) := by decide +kernel
  have hstrong : (parseStation columnPlatform strongLine .zero).map
      (fun e => e.cliAuthenticationState) = some (-50) := by decide +kernel
  obtain ⟨e,he,hstate⟩ := Option.map_eq_some_iff.mp hweak
  obtain ⟨e',he',hstate'⟩ := Option.map_eq_some_iff.mp hstrong
  exact ⟨e,e',he,he',hstate,hstate'⟩

theorem parseStation_separate_iff_weak : ∃ e e',
    parseStation columnPlatform weakLine .zero = some e ∧
    parseStation columnPlatform strongLine .zero = some e' ∧
    (Separate weakLine strongLine e e' ↔ (DifferOnly 5 weakLine strongLine →
      columnPlatform.boolOf (atoi "40\n".toList-100) = 1 ∧
        columnPlatform.boolOf (atoi "50\n".toList-100) = 1)) := by
  obtain ⟨e,e',he,he',_⟩ := weak_strong_states
  refine ⟨e,e',he,he',parseStation_separate_iff ?_ ?_ he he'⟩
  · rw [weakLine_columns]
    rfl
  · rw [strongLine_columns]
    rfl

theorem parseStation_weak : ∃ e e', parseStation columnPlatform weakLine .zero = some e ∧
    parseStation columnPlatform strongLine .zero = some e' ∧ ¬Separate weakLine strongLine e e' := by
  obtain ⟨e,e',he,he',hstate,_⟩ := weak_strong_states
  refine ⟨e,e',he,he',fun h => ?_⟩
  have hone := (h.rssi weak_strong).2.1
  rw [hstate] at hone
  exact absurd hone (by decide)

/-! The pointers -/

def ratePointers : Option Str → List (Option Str)
  | none => []
  | some column => [some column,strtok ['M'] column]

/-- What `sscanf`, `atoi` and `strtok` are given of a line, in this order of the columns: the
address, the strength of the signal, and the two rates. -/
def pointers (line : Str) : List (Option Str) :=
  let columns := tokens [' '] line
  (columns[0]?.map some).toList ++ (columns[5]?.map some).toList ++ ratePointers columns[3]? ++
    ratePointers columns[4]?

def PointsInto (line : Str) (p : Option Str) : Prop := ∃ t, p = some t ∧ t ≠ [] ∧ t <:+: line

theorem pointsInto_column {line t : Str} {k : Nat} (h : (tokens [' '] line)[k]? = some t) :
    PointsInto line (some t) :=
  ⟨t,rfl,tokens_within (List.mem_of_getElem? h)⟩

theorem ratePointers_iff {line : Str} {k : Nat} :
    (∀ p ∈ ratePointers (tokens [' '] line)[k]?, PointsInto line p) ↔
      ∀ column, (tokens [' '] line)[k]? = some column → ∃ c ∈ column, c ≠ 'M' := by
  cases hcolumn : (tokens [' '] line)[k]? with
  | none => simp [ratePointers]
  | some column =>
    have hright := pointsInto_column hcolumn
    have hnone := @strtok_none ['M'] column
    simp only [List.mem_singleton] at hnone
    simp only [ratePointers,List.forall_mem_cons,List.not_mem_nil,false_imp_iff,implies_true,and_true,
      hright,true_and,Option.some.injEq,forall_eq']
    cases htoken : strtok ['M'] column with
    | none =>
      have hall := hnone.mp htoken
      apply iff_of_false
      · rintro ⟨_,hpointer,_⟩
        cases hpointer
      · rintro ⟨c,hc,hne⟩
        exact hne (hall c hc)
    | some t =>
      obtain ⟨hne,hin⟩ := strtok_within htoken
      have hline := (tokens_within (List.mem_of_getElem? hcolumn)).2
      refine iff_of_true ⟨t,rfl,hne,hin.trans hline⟩ ?_
      by_contra hall
      have hblank := hnone.mpr (fun c hc => not_not.mp (fun h => hall ⟨c,hc,h⟩))
      rw [htoken] at hblank
      cases hblank

theorem rateOf_none (column : Option Str) : rateOf column = none ↔ none ∈ ratePointers column := by
  cases column with
  | none => simp [rateOf,ratePointers]
  | some column =>
    rw [rateOf,ratePointers]
    cases strtok ['M'] column <;> simp

theorem parseStation_none (P : Platform ω) (line : Str) (dev : AssociatedDev) :
    parseStation P line dev = none ↔ none ∈ pointers line := by
  have hcolumn (column : Option Str) : none ∉ (column.map some).toList := by
    cases column <;> simp
  simp only [pointers,List.mem_append,hcolumn,false_or,← rateOf_none,parseStation]
  cases rateOf (tokens [' '] line)[3]? with
  | none => simp
  | some downlink =>
    cases rateOf (tokens [' '] line)[4]? with
    | none => simp
    | some uplink => simp

/-- All pointers are right exactly where neither rate is made of the letter `M` alone; and the
parser fails exactly on a pointer that is NULL. -/
theorem pointers_iff (P : Platform ω) (line : Str) (dev : AssociatedDev) :
    ((∀ p ∈ pointers line, PointsInto line p) ↔
      ∀ k ∈ [3,4], ∀ column, (tokens [' '] line)[k]? = some column → ∃ c ∈ column, c ≠ 'M') ∧
    (parseStation P line dev = none ↔ none ∈ pointers line) := by
  refine ⟨?_,parseStation_none P line dev⟩
  have hcolumn (k : Nat) : ∀ p ∈ ((tokens [' '] line)[k]?.map some).toList, PointsInto line p := by
    cases hk : (tokens [' '] line)[k]? with
    | none => simp
    | some t => simpa using pointsInto_column hk
  simp only [pointers,List.forall_mem_append,ratePointers_iff,List.forall_mem_cons,List.not_mem_nil,
    false_imp_iff,implies_true,and_true]
  constructor
  · rintro ⟨⟨_,hdownlink⟩,huplink⟩
    exact ⟨hdownlink,huplink⟩
  · rintro ⟨hdownlink,huplink⟩
    exact ⟨⟨⟨hcolumn 0,hcolumn 5⟩,hdownlink⟩,huplink⟩

def emptyRate : Str := "11:22:33:44:55:66 1 6 M 11M 40\n".toList

theorem pointers_emptyRate :
    none ∈ pointers emptyRate ∧ parseStation columnPlatform emptyRate .zero = none := by
  decide +kernel

end RdkHal.Wifi
