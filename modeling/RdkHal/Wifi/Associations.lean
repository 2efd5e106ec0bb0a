import Mathlib.Data.List.Forall2
import RdkHal.Lib.Machines
import RdkHal.Wifi.Columns
import RdkHal.Wifi.Counters
import RdkHal.Wifi.StationTable

/-! The stations that are associated, as the wireless tools list them and as three functions report
them: how many there are, the statistics that count them, and the table of what they are. -/

set_option autoImplicit false

namespace RdkHal.Wifi
open Text Inet Runs

variable {ω : Type}

/-- What `outputUlong` points to is kept where nothing can be read. -/
def wifiGetApNumDevicesAssociated (P : Platform ω) (apIndex : Int32) (outputUlong : UInt64)
    (os : Os ω) : Ret × UInt64 × Os ω :=
  let cmd := P.command 128 "wlanconfig %s%d list sta | grep -v HTCAP | wc -l"
    [.s apPrefix,.d apIndex]
  let (_,buf,os) := syscmd P cmd [] 128 os
  match scanUnsigned 10 buf with
  | none => (.ok,outputUlong,os)
  | some (n,_) => (.ok,n,os)

/-- A station as the driver knows it; `more` are the columns that nothing reads. -/
structure Station where
  mac : Fin 6 → UInt8
  aid : Nat
  chan : Nat
  txrate : Nat
  rxrate : Nat
  rssi : Nat
  more : Str
  txrate_lt : txrate < 2^31
  rxrate_lt : rxrate < 2^31
  rssi_lt : rssi < 2^31
  more_newline : '\n' ∉ more
  more_nul : '\x00' ∉ more

def hexPair (b : UInt8) : Char × Char := ((b.toNat/16).digitChar,(b.toNat%16).digitChar)

theorem octet_hexPair (b : UInt8) : HexDigits (hexPair b) ∧ octet (hexPair b) = b := by
  have hall : ∀ n < 256, HexDigits (hexPair (UInt8.ofNat n)) ∧
      octet (hexPair (UInt8.ofNat n)) = UInt8.ofNat n := by decide +kernel
  have hb := hall b.toNat b.toNat_lt
  rwa [UInt8.ofNat_toNat] at hb

def Visible (c : Char) : Prop := c ∉ [' ','\n','\x00']

instance (c : Char) : Decidable (Visible c) := inferInstanceAs (Decidable (c ∉ _))

theorem visible_of_digit {c : Char} (hc : c.isDigit = true) : Visible c := by
  intro hmem
  have hnone : ∀ d ∈ [' ','\n','\x00'], d.isDigit = false := by decide
  rw [hnone c hmem] at hc
  cases hc

theorem hexPair_visible (b : UInt8) : Visible (hexPair b).1 ∧ Visible (hexPair b).2 := by
  have hall : ∀ n < 16, Visible n.digitChar := by decide
  have hb := b.toNat_lt
  exact ⟨hall _ (by omega),hall _ (by omega)⟩

theorem macText_visible {ds : List (Char × Char)} (hds : ∀ d ∈ ds, Visible d.1 ∧ Visible d.2) :
    ∀ c ∈ macText ds, Visible c := by
  have hcolon : Visible ':' := by decide
  fun_induction macText ds with
  | case1 => exact fun c hc => absurd hc List.not_mem_nil
  | case2 d =>
    obtain ⟨hfirst,hsecond⟩ := hds d List.mem_cons_self
    simpa using ⟨hfirst,hsecond⟩
  | case3 d ds _ ih =>
    obtain ⟨⟨hfirst,hsecond⟩,hds⟩ := List.forall_mem_cons.mp hds
    simpa using ⟨hfirst,hsecond,hcolon,ih hds⟩

namespace Station

def columns (s : Station) : List Str :=
  [macText ((List.finRange 6).map fun k => hexPair (s.mac k)),Nat.toDigits 10 s.aid,
    Nat.toDigits 10 s.chan,Nat.toDigits 10 s.txrate ++ ['M'],Nat.toDigits 10 s.rxrate ++ ['M'],
    Nat.toDigits 10 s.rssi]

def padded (width : Nat → Nat) (s : Station) : List (Nat × Str) :=
  s.columns.mapIdx fun k text => (width k-text.length,text)

def line (width : Nat → Nat) (s : Station) : Str := (s.padded width).flatMap (column ' ') ++ s.more

theorem columns_visible (s : Station) : ∀ t ∈ s.columns, t ≠ [] ∧ ∀ c ∈ t, Visible c := by
  have hdigits (n : Nat) : Nat.toDigits 10 n ≠ [] ∧ ∀ c ∈ Nat.toDigits 10 n, Visible c :=
    ⟨Nat.toDigits_ne_nil,fun c hc => visible_of_digit ((numeral_toDigits n).digits c hc)⟩
  have hrate (n : Nat) : Nat.toDigits 10 n ++ ['M'] ≠ [] ∧
      ∀ c ∈ Nat.toDigits 10 n ++ ['M'], Visible c := by
    have hM : Visible 'M' := by decide
    exact ⟨List.append_ne_nil_of_right_ne_nil _ (List.cons_ne_nil _ _),
      List.forall_mem_append.mpr ⟨(hdigits n).2,List.forall_mem_singleton.mpr hM⟩⟩
  have hmac : ∀ c ∈ macText ((List.finRange 6).map fun k => hexPair (s.mac k)), Visible c := by
    refine macText_visible fun d hd => ?_
    obtain ⟨k,_,rfl⟩ := List.mem_map.mp hd
    exact hexPair_visible (s.mac k)
  simp only [columns,List.forall_mem_cons]
  exact ⟨⟨List.cons_ne_nil _ _,hmac⟩,hdigits _,hdigits _,hrate _,hrate _,hdigits _,
    List.forall_mem_nil _⟩

theorem padded_texts (width : Nat → Nat) (s : Station) :
    (s.padded width).map Prod.snd = s.columns := rfl

theorem padded_visible (width : Nat → Nat) (s : Station) :
    ∀ c ∈ s.padded width, c.2 ≠ [] ∧ ∀ x ∈ c.2, Visible x :=
  fun c hc => s.columns_visible c.2 (s.padded_texts width ▸ List.mem_map_of_mem hc)

theorem line_columns (width : Nat → Nat) (s : Station) :
    tokens [' '] (s.line width ++ ['\n']) = s.columns ++ tokens [' '] (s.more ++ ['\n']) := by
  rw [line,List.append_assoc,tokens_columns (List.mem_singleton_self ' '),padded_texts]
  intro c hc
  obtain ⟨hne,hvisible⟩ := s.padded_visible width c hc
  refine ⟨hne,fun x hx hmem => hvisible x hx ?_⟩
  exact List.mem_cons.mpr (Or.inl (List.mem_singleton.mp hmem))

theorem not_mem_line (width : Nat → Nat) (s : Station) {c : Char} (hc : c ∈ ['\n','\x00'])
    (hmore : c ∉ s.more) : c ∉ s.line width := by
  have hblank : c ≠ ' ' := by
    rintro rfl
    revert hc
    decide
  rw [line,List.mem_append,not_or]
  refine ⟨fun hmem => ?_,hmore⟩
  obtain ⟨x,hx,hmem⟩ := List.mem_flatMap.mp hmem
  rw [column,List.mem_append,List.mem_append,List.mem_singleton] at hmem
  rcases hmem with hmem | hmem | hmem
  · exact hblank (List.eq_of_mem_replicate hmem)
  · exact (s.padded_visible width x hx).2 c hmem (List.mem_cons_of_mem _ hc)
  · exact hblank hmem

def entry (P : Platform ω) (s : Station) : AssociatedDev where
  cliAddresses := Vector.ofFn fun k : Fin 70 => if h : k.val < 6 then s.mac ⟨k.val,h⟩ else 0
  cliAuthenticationState := P.boolOf (Int32.ofNat s.rssi-100)
  cliLastDataDownlinkRate := UInt32.ofNat s.txrate
  cliLastDataUplinkRate := UInt32.ofNat s.rxrate
  cliSignalStrength := -100
  cliRetransmissions := 0
  cliActive := 1
  cliOperatingStandard := []
  cliOperatingChannelBandwidth := "20MHz".toList
  cliSNR := 20
  cliInterferenceSources := []
  cliDataFramesSentAck := 0
  cliDataFramesSentNoAck := 0
  cliBytesSent := 0
  cliBytesReceived := 0
  cliRSSI := 30

end Station

theorem atoi_digits {n : Nat} (hn : n < 2^31) : atoi (Nat.toDigits 10 n) = Int32.ofNat n := by
  have hmin : (min n (2^63-1) : Nat) = n := by omega
  rw [atoi,(numeral_toDigits n).strtol,hmin]
  rfl

theorem rateOf_printed {n : Nat} (hn : n < 2^31) :
    rateOf (some (Nat.toDigits 10 n ++ ['M'])) = some (UInt32.ofNat n) := by
  have htoken := (numeral_toDigits n).strtok ['M'] (by decide) (List.mem_singleton_self 'M') []
  have hvalue := (numeral_toDigits n).atoi hn
  rw [rateOf,htoken,Option.map_some]
  refine congrArg some (UInt32.toNat_inj.mp ?_)
  rw [hvalue,UInt32.toNat_ofNat_of_lt' (by rw [UInt32.size]; omega)]

theorem scanMac_hexPair (mac : Fin 6 → UInt8) (bytes : Vector UInt8 70) (k : Fin 6) :
    (scanMac (List.finRange 6) (macText ((List.finRange 6).map fun k => hexPair (mac k))) bytes).get
      (place k) = mac k := by
  have hfst : ((List.finRange 6).map fun k => (k,hexPair (mac k))).map Prod.fst =
      List.finRange 6 := by
    rw [List.map_map]
    exact List.map_id _
  have hsnd : ((List.finRange 6).map fun k => (k,hexPair (mac k))).map Prod.snd =
      (List.finRange 6).map fun k => hexPair (mac k) := by
    rw [List.map_map]
    rfl
  have hend : ∀ c ∈ ([] : Str).head?, digitOf 16 c = none := by simp
  have hplaces := (scanMac_octets ((List.finRange 6).map fun k => (k,hexPair (mac k)))
    (by rw [hfst]; decide) (by simp [octet_hexPair]) hend bytes).1
  rw [hfst,hsnd,List.append_nil] at hplaces
  exact (hplaces (k,hexPair (mac k)) (List.mem_map_of_mem (List.mem_finRange k))).trans
    (octet_hexPair (mac k)).2

theorem Station.parse_line (P : Platform ω) (width : Nat → Nat) (s : Station) :
    parseStation P (s.line width ++ ['\n']) AssociatedDev.zero = some (s.entry P) := by
  have hcolumns := s.line_columns width
  have haddresses : clearIPAddress (scanMac (List.finRange 6) (macText
      ((List.finRange 6).map fun k => hexPair (s.mac k))) AssociatedDev.zero.cliAddresses) =
        (s.entry P).cliAddresses := by
    refine Vector.ext fun i hi => ?_
    simp only [clearIPAddress,entry,Vector.getElem_ofFn]
    split
    · rename_i hlt
      exact scanMac_hexPair s.mac _ ⟨i,hlt⟩
    · rfl
  rw [columns] at hcolumns
  have hlen : "20MHz".toList.length < 64 := by decide
  simp only [parseStation,hcolumns,List.cons_append,List.getElem?_cons_succ,List.getElem?_cons_zero,
    rateOf_printed s.txrate_lt,rateOf_printed s.rxrate_lt,haddresses,atoi_digits s.rssi_lt,
    P.lib.strcpyS_nil,P.lib.strcpyS_fits 64 _ hlen]
  rfl

theorem stationLoop_fills (P : Platform ω) {chunks : List Str} {entries : List AssociatedDev}
    (h : List.Forall₂ (fun chunk e => cstr chunk ≠ [] ∧
      parseStation P (cstr chunk) AssociatedDev.zero = some e) chunks entries)
    (filled : List AssociatedDev) :
    stationLoop P (filled.length+chunks.length) chunks filled.length
      (some (filled ++ List.replicate chunks.length AssociatedDev.zero)) =
        some (some (filled ++ entries)) := by
  induction h generalizing filled with
  | nil => simp [stationLoop]
  | @cons chunk e chunks entries hchunk _ ih =>
    obtain ⟨hne,hparse⟩ := hchunk
    have hgo : ¬(cstr chunk = [] ∨ filled.length+(chunk :: chunks).length ≤ filled.length) :=
      not_or.mpr ⟨hne,by rw [List.length_cons]; omega⟩
    have hrest := ih (filled ++ [e])
    rw [List.length_append,List.length_singleton,List.append_assoc,List.append_assoc,
      Nat.add_assoc,Nat.add_comm 1] at hrest
    rw [stationLoop,if_neg hgo,List.length_cons,List.replicate_succ]
    simpa [hparse] using hrest

/-! The system -/

def numberLine (apIndex : Int32) : Str :=
  sprintf "wlanconfig %s%d list sta | grep -v HTCAP | wc -l".toList [.s apPrefix,.d apIndex]

theorem numberCommand_fits (P : Platform ω) (apIndex : Int32) :
    P.command 128 "wlanconfig %s%d list sta | grep -v HTCAP | wc -l" [.s apPrefix,.d apIndex] =
      numberLine apIndex :=
  P.command_ap (by decide +kernel) apIndex

def counted (stations : List Station) : Str := Nat.toDigits 10 stations.length ++ ['\n']

/-- The tools list the stations that there are then, and `wc` counts them. Stations come and go
with every step; only the file is written by nobody else. -/
structure Listing (P : Platform ω) (stations : ω → Int32 → List Station)
    (file : ω → Int32 → Str) (width : Nat → Nat) (room : Nat) : Prop where
  room_lt : room < 2^31
  few : ∀ w i, (stations w i).length ≤ room
  short : ∀ w i, ∀ s ∈ stations w i, (s.line width).length+1 < 200
  number : ∀ i w, (P.popen (numberLine i) w).1 = some (counted (stations w i))
  count : ∀ i w, (P.popen (countLine i) w).1 = some (counted (stations w i))
  saves : ∀ i w, file (P.popen (countLine i) w).2 i =
    unlines ((stations w i).map (Station.line width))
  shows : ∀ i w, (P.popen (fileLine i) w).1 = some (file w i)
  allocates : ∀ k ≤ room, ∀ w, (P.calloc k w).1 = true ∧ file (P.calloc k w).2 = file w
  reports : ∀ i w, ∃ r : Report, '\x00' ∉ r.text ∧ FitsUpToNewline 1280 r.text ∧
    (P.popen (ifconfigLine i) w).1 = some r.text

theorem syscmd_counted {P : Platform ω} {cmd : Str} {os : Os ω} {n : Nat} (hn : n < 2^31)
    (h : (P.popen cmd os.world).1 = some (Nat.toDigits 10 n ++ ['\n'])) {size : Int}
    (hsize : 128 ≤ size) (buf : Str) :
    syscmd P cmd buf size os = (.ok,Nat.toDigits 10 n ++ ['\n'],(P.shell cmd os).2) := by
  have hdigits : (Nat.toDigits 10 n).length ≤ 10 :=
    (Nat.length_toDigits_le_iff (by decide) (by decide)).mpr (by omega)
  have hnumeral := numeral_toDigits n
  have hroom : ((Nat.toDigits 10 n).length : Int)+1 < bufbytes size := by
    rw [bufbytes]
    split <;> omega
  have hread := @syscmdText_line ((Nat.toDigits 10 n ++ ['\n']).length) size _
    (hnumeral.not_mem (by decide)) (hnumeral.not_mem (by decide)) hroom []
  rw [syscmdText_nil] at hread
  rw [syscmd_reads h,hread]

theorem scanned_count {n : Nat} (hn : n < 2^31) :
    scanUnsigned 10 (Nat.toDigits 10 n ++ ['\n']) = some (UInt64.ofNat n,['\n']) :=
  scanUnsigned_numeral (numeral_toDigits n) (by omega) (by simp; decide)

namespace Listing

variable {P : Platform ω} {stations : ω → Int32 → List Station} {file : ω → Int32 → Str}
  {width : Nat → Nat} {room : Nat}

theorem few_lt (L : Listing P stations file width room) (w : ω) (apIndex : Int32) :
    (stations w apIndex).length < 2^31 :=
  Nat.lt_of_le_of_lt (L.few w apIndex) L.room_lt

theorem number_told (L : Listing P stations file width room) (apIndex : Int32) (out : UInt64)
    (os : Os ω) :
    (wifiGetApNumDevicesAssociated P apIndex out os).1 = .ok ∧
      (wifiGetApNumDevicesAssociated P apIndex out os).2.1.toNat =
        (stations os.world apIndex).length := by
  have hlt := L.few_lt os.world apIndex
  have hread := syscmd_counted hlt (L.number apIndex os.world) (Int.le_refl 128) []
  simp only [wifiGetApNumDevicesAssociated,numberCommand_fits,hread,scanned_count hlt]
  exact ⟨trivial,UInt64.toNat_ofNat_of_lt' (by rw [UInt64.size]; omega)⟩

theorem traffic_told (L : Listing P stations file width room) (apIndex : Int32)
    (out : BasicTrafficStats) (buf : Str) (os : Os ω) :
    ∃ stats, (wifiGetBasicTrafficStats P apIndex (some out) buf os).1 = .ok ∧
      (wifiGetBasicTrafficStats P apIndex (some out) buf os).2.1 = some stats ∧
      stats.wifiAssociations.toNat =
        (stations (P.popen (ifconfigLine apIndex) os.world).2 apIndex).length := by
  obtain ⟨r,hnul,hfits,hout⟩ := L.reports apIndex os.world
  have hcounters := readCounters_fits r hnul hfits
  rw [statsHeld] at hcounters
  have hlt := L.few_lt (P.popen (ifconfigLine apIndex) os.world).2 apIndex
  have hread := @syscmd_counted _ P (numberLine apIndex) (P.shell (ifconfigLine apIndex) os).2 _ hlt
    (L.number apIndex _) 1280 (by decide) (syscmdText (r.text.length+1) 1280 r.text)
  simp only [wifiGetBasicTrafficStats,ifconfigCommand_fits,syscmd_reads hout,hcounters,
    numberCommand_fits,hread,scanned_count hlt]
  exact ⟨_,trivial,rfl,UInt64.toNat_ofNat_of_lt' (by rw [UInt64.size]; omega)⟩

theorem reads (L : Listing P stations file width room) (w : ω) (apIndex : Int32) :
    List.Forall₂ (fun chunk e => cstr chunk ≠ [] ∧
        parseStation P (cstr chunk) AssociatedDev.zero = some e)
      (fgetsAll 200 (unlines ((stations w apIndex).map (Station.line width))))
      ((stations w apIndex).map (Station.entry P)) := by
  have hshort := L.short w apIndex
  generalize stations w apIndex = l at hshort
  have hclean (s : Station) : cstr (s.line width ++ ['\n']) = s.line width ++ ['\n'] := by
    have hnul : '\x00' ∉ s.line width := s.not_mem_line width (by decide) s.more_nul
    exact cstr_eq (by simp [hnul])
  rw [fgetsAll_unlines,List.map_map,List.forall₂_map_left_iff,List.forall₂_map_right_iff]
  · refine List.forall₂_same.mpr fun s _ => ?_
    have hparse := s.parse_line P width
    rw [← hclean s] at hparse
    have hne : cstr (s.line width ++ ['\n']) ≠ [] := by
      rw [hclean]
      simp
    exact ⟨hne,hparse⟩
  · intro t ht
    obtain ⟨s,hs,rfl⟩ := List.mem_map.mp ht
    have hline : '\n' ∉ s.line width := s.not_mem_line width (by decide) s.more_newline
    exact ⟨hline,hshort s hs⟩

theorem table_told (L : Listing P stations file width room) {apIndex : Int32} (hap : 0 ≤ apIndex)
    (buf : Str) (os : Os ω) :
    ∃ d os', wifiGetApAssociatedDeviceDiagnosticResult P apIndex buf os = some (d,os') ∧
      d.ret = .ok ∧ d.outputArraySize.toNat = (stations os.world apIndex).length ∧
      d.associatedDevArray.getD [] = (stations os.world apIndex).map (Station.entry P) := by
  have hlt := L.few_lt os.world apIndex
  have hread := syscmd_counted hlt (L.count apIndex os.world) (by decide : (128 : Int) ≤ 2048) buf
  have hloop := L.reads os.world apIndex
  have hsize : (atoi (Nat.toDigits 10 (stations os.world apIndex).length ++
      ['\n'])).toUInt32.toNat = (stations os.world apIndex).length := by
    rw [(numeral_toDigits _).atoi_append (by decide)]
    exact (numeral_toDigits _).atoi hlt
  obtain ⟨hmemory,hkept⟩ := L.allocates _ (L.few os.world apIndex)
    (P.popen (countLine apIndex) os.world).2
  have hfile := L.shows apIndex (P.calloc (stations os.world apIndex).length
    (P.popen (countLine apIndex) os.world).2).2
  rw [hkept,L.saves] at hfile
  rw [wifiGetApAssociatedDeviceDiagnosticResult,if_neg (Int32.not_lt.mpr hap),countCommand_fits]
  simp only [hread]
  generalize (atoi _).toUInt32 = size at hsize
  generalize stations os.world apIndex = l at *
  by_cases hnone : size ≤ 0
  · have hzero : size.toNat ≤ 0 := UInt32.le_iff_toNat_le.mp hnone
    obtain rfl : l = [] := List.eq_nil_of_length_eq_zero (by omega)
    rw [if_pos hnone]
    exact ⟨_,_,rfl,rfl,rfl,rfl⟩
  · have hfilled := stationLoop_fills P hloop []
    rw [hloop.length_eq,List.length_map,List.length_nil,Nat.zero_add] at hfilled
    rw [if_neg hnone]
    simp only [fillStations,fileCommand_fits,Platform.shell,hsize,hmemory,hfile,if_true]
    rw [List.nil_append,List.nil_append] at hfilled
    rw [hfilled]
    exact ⟨_,_,rfl,rfl,hsize,rfl⟩

end Listing

inductive Question where
  | number (apIndex : Int32) (outputUlong : UInt64)
  | traffic (apIndex : Int32) (outputStruct : BasicTrafficStats)
  | table (apIndex : Int32)

inductive Reply where
  | number (ret : Ret) (outputUlong : UInt64)
  | traffic (ret : Ret) (outputStruct : Option BasicTrafficStats)
  | table (d : Diagnostic)

def ask (P : Platform ω) (os : Os ω) (q : Question × Str) : Option Reply × Os ω :=
  match q with
  | (.number i out,_) =>
    let (ret,out,os) := wifiGetApNumDevicesAssociated P i out os
    (some (.number ret out),os)
  | (.traffic i out,buf) =>
    let (ret,out,os) := wifiGetBasicTrafficStats P i (some out) buf os
    (some (.traffic ret out),os)
  | (.table i,buf) =>
    match wifiGetApAssociatedDeviceDiagnosticResult P i buf os with
    | some (d,os) => (some (.table d),os)
    | none => (none,os)

/-- The reply is about the stations that there are in this state, or for the statistics once the
counters have been listed. -/
def Tells (P : Platform ω) (stations : ω → Int32 → List Station) (w : ω) :
    Question → Reply → Prop
  | .number i _, .number ret n => ret = .ok ∧ n.toNat = (stations w i).length
  | .traffic i _, .traffic ret stats => ret = .ok ∧ ∃ s, stats = some s ∧
      s.wifiAssociations.toNat = (stations (P.popen (ifconfigLine i) w).2 i).length
  | .table i, .table d => d.ret = .ok ∧ d.outputArraySize.toNat = (stations w i).length ∧
      d.associatedDevArray.getD [] = (stations w i).map (Station.entry P)
  | _, _ => False

def Question.Proper : Question → Prop
  | table i => 0 ≤ i
  | _ => True

theorem Listing.told {P : Platform ω} {stations : ω → Int32 → List Station}
    {file : ω → Int32 → Str} {width : Nat → Nat} {room : Nat}
    (L : Listing P stations file width room) {q : Question × Str} (hq : q.1.Proper) (os : Os ω) :
    ∃ r, (ask P os q).1 = some r ∧ Tells P stations os.world q.1 r := by
  obtain ⟨q,buf⟩ := q
  cases q with
  | number i out => exact ⟨_,rfl,L.number_told i out os⟩
  | traffic i out =>
    obtain ⟨stats,hret,hstats,hcount⟩ := L.traffic_told i out buf os
    exact ⟨_,rfl,hret,stats,hstats,hcount⟩
  | table i =>
    obtain ⟨d,os',hrun,htable⟩ := L.table_told hq buf os
    exact ⟨.table d,by rw [ask,hrun],htable⟩

/-- While stations come and go, each question of a run is answered by those that there are: how
many they are, and in the table the address and the rates of each in its order. -/
theorem run_tells {P : Platform ω} {stations : ω → Int32 → List Station}
    {file : ω → Int32 → Str} {width : Nat → Nat} {room : Nat}
    (L : Listing P stations file width room) {qs : List (Question × Str)}
    (hqs : ∀ q ∈ qs, q.1.Proper) (os : Os ω) {k : Nat} {q : Question × Str} (hq : qs[k]? = some q) :
    ∃ r, (answers (ask P) os qs)[k]? = some (some r) ∧
      Tells P stations (run (next (ask P)) os (qs.take k)).world q.1 r := by
  obtain ⟨r,hr,htells⟩ := L.told (hqs q (List.mem_of_getElem? hq))
    (run (next (ask P)) os (qs.take k))
  refine ⟨r,?_,htells⟩
  rw [answers_getElem?,hq,Option.map_some,hr]

def laptop : Station where
  mac := fun k => #[0x00,0x1c,0x26,0x5b,0x5e,0x5f][k]
  aid := 1
  chan := 6
  txrate := 54
  rxrate := 11
  rssi := 40
  more := "0 12 345 EPs 0 1 MODE".toList
  txrate_lt := by decide
  rxrate_lt := by decide
  rssi_lt := by decide
  more_newline := by decide
  more_nul := by decide

def tablet : Station :=
  { laptop with
    mac := fun k => #[0x02,0xaa,0xbb,0xcc,0xdd,0xee][k]
    aid := 2
    rxrate := 300
    rxrate_lt := by decide }

def roamingStations (w : Bool × Bool) (_apIndex : Int32) : List Station :=
  if w.1 then [laptop,tablet] else [laptop]

def roamingFile (w : Bool × Bool) (_apIndex : Int32) : Str :=
  unlines ((roamingStations (w.2,w.2) _apIndex).map (Station.line fun _ => 4))

def roamingPlatform : Platform (Bool × Bool) where
  lib := Safec.reference
  popen line w :=
    match line.head? with
    | some 'c' => (some (roamingFile w 0),(!w.1,w.2))
    | some 'i' => (some busyReport.text,(!w.1,w.2))
    | _ => (some (counted (roamingStations w 0)),(!w.1,w.1))
  calloc _ w := (true,(!w.1,w.2))
  boolOf n := n.toInt

theorem roamingPlatform_listing :
    Listing roamingPlatform roamingStations roamingFile (fun _ => 4) 2 where
  room_lt := by decide
  few w i := by
    rw [roamingStations]
    split <;> decide
  short w i s hs := by
    have hall : ∀ s ∈ [laptop,tablet], (s.line fun _ => 4).length+1 < 200 := by decide +kernel
    rw [roamingStations] at hs
    refine hall s ?_
    split at hs
    · exact hs
    · exact List.mem_cons.mpr (Or.inl (List.mem_singleton.mp hs))
  number i w := rfl
  count i w := rfl
  saves i w := rfl
  shows i w := rfl
  allocates k _ w := ⟨rfl,rfl⟩
  reports i w := ⟨busyReport,by decide +kernel,by decide +kernel,rfl⟩

def twoQuestions : List (Question × Str) := [(.table 0,[]),(.number 0 7,[])]

theorem run_tells_twoQuestions : ∃ r,
    (answers (ask roamingPlatform) ⟨(true,false),[]⟩ twoQuestions)[1]? = some (some r) ∧
      Tells roamingPlatform roamingStations
        (run (next (ask roamingPlatform)) ⟨(true,false),[]⟩ (twoQuestions.take 1)).world
        (.number 0 7) r :=
  run_tells roamingPlatform_listing (by simp [twoQuestions,Question.Proper]) _
    (k := 1) (q := (.number 0 7,[])) rfl

end RdkHal.Wifi
