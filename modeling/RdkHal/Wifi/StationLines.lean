import RdkHal.Wifi.Stations
import RdkHal.Lib.Lines

/-! The count of the stations and the reads of their file: which entries of the table come from
their own lines. -/

set_option autoImplicit false

namespace RdkHal.Wifi
open Text

variable {ω : Type}

theorem stationLoop_cons {P : Platform ω} {size k : Nat} {chunk : Str} {chunks : List Str}
    {devs : List AssociatedDev} {result : Option (List AssociatedDev)}
    (h : stationLoop P size (chunk :: chunks) k (some devs) = some result) :
    ((cstr chunk = [] ∨ size ≤ k) ∧ result = some devs) ∨
    (cstr chunk ≠ [] ∧ k < size ∧ ∃ dev dev', devs[k]? = some dev ∧
      parseStation P (cstr chunk) dev = some dev' ∧
      stationLoop P size chunks (k+1) (some (devs.set k dev')) = some result) := by
  by_cases hstop : cstr chunk = [] ∨ size ≤ k
  · rw [stationLoop,if_pos hstop] at h
    exact Or.inl ⟨hstop,(Option.some.inj h).symm⟩
  · rw [stationLoop,if_neg hstop] at h
    obtain ⟨hne,hk⟩ := not_or.mp hstop
    refine Or.inr ⟨hne,by omega,?_⟩
    cases hdev : devs[k]? with
    | none => simp [hdev] at h
    | some dev =>
      cases hparse : parseStation P (cstr chunk) dev with
      | none => simp [hdev,hparse] at h
      | some dev' => exact ⟨dev,dev',rfl,hparse,by simpa [hdev,hparse] using h⟩

theorem stationLoop_frame {P : Platform ω} {size k : Nat} {chunks : List Str}
    {devs : List AssociatedDev} {result : Option (List AssociatedDev)}
    (h : stationLoop P size chunks k (some devs) = some result) :
    ∃ final, result = some final ∧ final.length = devs.length ∧ ∀ j < k, final[j]? = devs[j]? := by
  induction chunks generalizing k devs with
  | nil => exact ⟨devs,(Option.some.inj h).symm,rfl,fun _ _ => rfl⟩
  | cons chunk chunks ih =>
    rcases stationLoop_cons h with ⟨_,rfl⟩ | ⟨_,_,dev,dev',_,_,hrest⟩
    · exact ⟨devs,rfl,rfl,fun _ _ => rfl⟩
    · obtain ⟨final,hfinal,hlen,hsame⟩ := ih hrest
      refine ⟨final,hfinal,by rw [hlen,List.length_set],fun j hj => ?_⟩
      rw [hsame j (by omega),List.getElem?_set_ne (by omega)]

theorem stationLoop_entry {P : Platform ω} {size k j : Nat} {chunks : List Str} {chunk : Str}
    {devs final : List AssociatedDev} (h : stationLoop P size chunks k (some devs) = some (some final))
    (hlive : ∀ i ≤ j, ∀ c, chunks[i]? = some c → cstr c ≠ []) (hchunk : chunks[j]? = some chunk)
    (hroom : k+j < size) :
    ∃ dev, devs[k+j]? = some dev ∧ parseStation P (cstr chunk) dev = final[k+j]? := by
  induction chunks generalizing k j devs with
  | nil => cases hchunk
  | cons c chunks ih =>
    have hc := hlive 0 (by omega) c rfl
    rcases stationLoop_cons h with ⟨hstop,_⟩ | ⟨_,_,dev,dev',hdev,hparse,hrest⟩
    · rcases hstop with hnil | hfull
      · exact absurd hnil hc
      · omega
    · cases j with
      | zero =>
        obtain rfl : c = chunk := Option.some.inj hchunk
        obtain ⟨_,heq,_,hsame⟩ := stationLoop_frame hrest
        obtain rfl := Option.some.inj heq
        have hk : k < devs.length := (List.getElem?_eq_some_iff.mp hdev).1
        refine ⟨dev,hdev,?_⟩
        rw [hparse,Nat.add_zero,hsame k (by omega),List.getElem?_set_self hk]
      | succ j =>
        obtain ⟨dev,hdev,hparse⟩ := ih (j := j) hrest
          (fun i hi c hc => hlive (i+1) (by omega) c (by simpa using hc)) (by simpa using hchunk)
          (by omega)
        rw [List.getElem?_set_ne (by omega)] at hdev
        have hnext : k+1+j = k+(j+1) := by omega
        rw [hnext] at hdev hparse
        exact ⟨dev,hdev,hparse⟩

def countFormat : String :=
  "wlanconfig %s%d list sta  2>/dev/null | grep -v HTCAP >/tmp/ap_%d_cli.txt; cat /tmp/ap_%d_cli.txt | wc -l"

def countLine (apIndex : Int32) : Str :=
  sprintf countFormat.toList [.s apPrefix,.d apIndex,.d apIndex,.d apIndex]

def fileLine (apIndex : Int32) : Str := sprintf "cat /tmp/ap_%d_cli.txt".toList [.d apIndex]

theorem countCommand_fits (P : Platform ω) (apIndex : Int32) :
    countCommand P apIndex = countLine apIndex := by
  apply P.command_fits
  have hdigits := formatD_length apIndex
  have hformat : countFormat.toList.length = 105 := by decide +kernel
  have hpre : apPrefix.length = 3 := by decide
  change countFormat.toList.length+_ < 256
  simp only [hformat,List.map_cons,List.map_nil,List.sum_cons,List.sum_nil,Arg.text,hpre]
  omega

theorem fileCommand_fits (P : Platform ω) (apIndex : Int32) :
    P.command 256 "cat /tmp/ap_%d_cli.txt" [.d apIndex] = fileLine apIndex := by
  apply P.command_fits
  have hdigits := formatD_length apIndex
  have hformat : "cat /tmp/ap_%d_cli.txt".toList.length = 22 := by decide
  rw [hformat,List.map_singleton,List.sum_singleton,Arg.text]
  omega

def SameColumns (s t : Str) : Prop :=
  ∀ k ∈ [0,3,4], (tokens [' '] s)[k]? = (tokens [' '] t)[k]?

instance (s t : Str) : Decidable (SameColumns s t) := inferInstanceAs (Decidable (∀ k ∈ [0,3,4], _))

/-- The entry is parsed from a read that begins where line `i` does and has its columns. -/
def FromLine (P : Platform ω) (ls : List Str) (i : Nat) (dev : AssociatedDev) : Prop :=
  ((fgetsAll 200 (unlines ls)).drop i).flatten = unlines (ls.drop i) ∧
  ∃ chunk l, (fgetsAll 200 (unlines ls))[i]? = some chunk ∧ ls[i]? = some l ∧
    parseStation P (cstr chunk) AssociatedDev.zero = some dev ∧
    SameColumns (cstr chunk) (l ++ ['\n'])

def Tabulates (P : Platform ω) (ls : List Str) (d : Diagnostic) : Prop :=
  d.outputArraySize.toNat = ls.length ∧ ∃ devs, d.associatedDevArray = some devs ∧
    devs.length = ls.length ∧ ∀ i dev, devs[i]? = some dev → FromLine P ls i dev

theorem SameColumns.ne_nil {s l : Str} (h : SameColumns s (l ++ ['\n'])) : s ≠ [] := by
  rintro rfl
  have hfirst := h 0 (by simp)
  cases htokens : tokens [' '] (l ++ ['\n']) with
  | nil => exact tokens_ne_nil ⟨'\n',by simp,by decide⟩ htokens
  | cons t ts =>
    rw [htokens] at hfirst
    cases hfirst

/-- All lines but the last fit a read, and those that are cut keep their columns. -/
structure LinesRead (ls : List Str) : Prop where
  count : ls.length < 2^32
  fit : ∀ l ∈ ls.dropLast, l.length ≤ 198
  columns : ∀ l ∈ ls, SameColumns (cstr ((l ++ ['\n']).take 199)) (l ++ ['\n'])

theorem Tabulates.linesRead {P : Platform ω} {ls : List Str} (hls : ∀ l ∈ ls, '\n' ∉ l)
    {d : Diagnostic} (h : Tabulates P ls d) : LinesRead ls := by
  obtain ⟨hsize,devs,_,hlen,hentries⟩ := h
  have hline (i : Nat) (hi : i < ls.length) : ∃ dev, FromLine P ls i dev :=
    ⟨devs[i],hentries i _ (List.getElem?_eq_getElem (hlen.symm ▸ hi))⟩
  have hfit : ∀ l ∈ ls.dropLast, l.length+1 < 200 := by
    refine (fgetsAll_starts_iff (by decide) hls).mp (fun i hi => ?_)
    obtain ⟨_,hstart,_⟩ := hline i hi
    exact hstart
  refine ⟨hsize ▸ d.outputArraySize.toNat_lt,fun l hl => ?_,fun l hl => ?_⟩
  · have hlt := hfit l hl
    omega
  · obtain ⟨i,hi⟩ := List.getElem?_of_mem hl
    obtain ⟨dev,_,chunk,l',hchunk,hl',_,hcolumns⟩ := hline i (List.getElem?_eq_some_iff.mp hi).1
    obtain rfl := Option.some.inj (hi.symm.trans hl')
    obtain rfl := Option.some.inj ((fgetsAll_get (by decide) hls hfit hi).symm.trans hchunk)
    exact hcolumns

theorem LinesRead.short {ls : List Str} (h : LinesRead ls) : ∀ l ∈ ls.dropLast, l.length+1 < 200 := by
  intro l hl
  have hfit := h.fit l hl
  omega

theorem LinesRead.get {ls : List Str} (hls : ∀ l ∈ ls, '\n' ∉ l) (h : LinesRead ls) {i : Nat}
    {l : Str} (hl : ls[i]? = some l) :
    (fgetsAll 200 (unlines ls))[i]? = some ((l ++ ['\n']).take 199) :=
  fgetsAll_get (by decide) hls h.short hl

theorem LinesRead.tabulates {P : Platform ω} {ls : List Str} (hls : ∀ l ∈ ls, '\n' ∉ l)
    (hne : ls ≠ []) (h : LinesRead ls) {size : UInt32} (hsize : size.toNat = ls.length)
    {allocated : Bool} {result : Option (List AssociatedDev)}
    (hloop : stationLoop P size.toNat (fgetsAll 200 (unlines ls)) 0
      (if allocated then some (List.replicate size.toNat AssociatedDev.zero) else none) =
        some result) :
    Tabulates P ls ⟨.ok,result,size⟩ := by
  have hlive : ∀ i c, (fgetsAll 200 (unlines ls))[i]? = some c → i < ls.length → cstr c ≠ [] := by
    intro i c hc hi
    rw [h.get hls (List.getElem?_eq_getElem hi)] at hc
    obtain rfl := Option.some.inj hc
    exact (h.columns _ (List.getElem_mem hi)).ne_nil
  have hpos := List.length_pos_iff.mpr hne
  cases allocated with
  | false =>
    -- the first line is parsed into an array that is not there
    obtain ⟨l,ls,rfl⟩ := List.exists_cons_of_ne_nil hne
    have hfirst := h.get (i := 0) hls rfl
    have hchunk := hlive 0 _ hfirst hpos
    cases hchunks : fgetsAll 200 (unlines (l :: ls)) with
    | nil =>
      rw [hchunks] at hfirst
      cases hfirst
    | cons c chunks =>
      rw [hchunks] at hfirst hloop
      obtain rfl := Option.some.inj hfirst
      have hgo : ¬(cstr ((l ++ ['\n']).take 199) = [] ∨ size.toNat ≤ 0) :=
        not_or.mpr ⟨hchunk,by omega⟩
      simp only [stationLoop,hgo,if_false,Bool.false_eq_true] at hloop
      cases hloop
  | true =>
    rw [if_pos rfl] at hloop
    obtain ⟨final,rfl,hlen,_⟩ := stationLoop_frame hloop
    rw [List.length_replicate,hsize] at hlen
    refine ⟨hsize,final,rfl,hlen,fun i dev hdev => ?_⟩
    have hi : i < ls.length := hlen ▸ (List.getElem?_eq_some_iff.mp hdev).1
    have hl := List.getElem?_eq_getElem hi
    have hchunk := h.get hls hl
    obtain ⟨dev',hdev',hparse⟩ := stationLoop_entry hloop
      (fun j hj c hc => hlive j c hc (by omega)) hchunk (by omega)
    rw [Nat.zero_add] at hdev' hparse
    obtain rfl := (List.mem_replicate.mp (List.mem_of_getElem? hdev')).2
    have hstart := (fgetsAll_starts_iff (by decide) hls).mpr h.short i hi
    exact ⟨hstart,_,_,hchunk,hl,hparse.trans hdev,h.columns _ (List.getElem_mem hi)⟩

structure StationFile (P : Platform ω) (apIndex : Int32) (os : Os ω) (ls : List Str) : Prop where
  lines : ∀ l ∈ ls, '\n' ∉ l
  some : ls ≠ []
  count : (P.popen (countLine apIndex) os.world).1 =
    Option.some (Nat.toDigits 10 ls.length ++ ['\n'])
  file : ∀ k, (P.popen (fileLine apIndex)
    (P.calloc k (P.popen (countLine apIndex) os.world).2).2).1 = Option.some (unlines ls)

theorem StationFile.size {P : Platform ω} {apIndex : Int32} {os : Os ω} {ls : List Str}
    (h : StationFile P apIndex os ls) (hcount : ls.length < 2^32) (buf : Str) :
    (atoi (syscmd P (countLine apIndex) buf 2048 os).2.1).toUInt32.toNat = ls.length := by
  have hdigits : (Nat.toDigits 10 ls.length).length ≤ 10 :=
    (Nat.length_toDigits_le_iff (by decide) (by decide)).mpr (by omega)
  have hnumeral := numeral_toDigits ls.length
  have hroom : ((Nat.toDigits 10 ls.length).length : Int)+1 < bufbytes 2048 := by
    rw [bufbytes,if_pos (by decide)]
    omega
  have hread := @syscmdText_line ((Nat.toDigits 10 ls.length ++ ['\n']).length) 2048 _
    (hnumeral.not_mem (by decide)) (hnumeral.not_mem (by decide)) hroom []
  rw [syscmdText_nil] at hread
  rw [syscmd_reads h.count,hread,hnumeral.atoi_append (by decide),hnumeral.atoi_mod]
  omega

/-- A call that succeeds has tabulated the file exactly where there are fewer than 2^32 lines, all
but the last fit a read of 199 characters, and no line is cut within these columns. -/
theorem diagnostic_tabulates_iff {P : Platform ω} {apIndex : Int32} {ls : List Str} {buf : Str}
    {os os' : Os ω} {d : Diagnostic} (hfile : StationFile P apIndex os ls)
    (h : wifiGetApAssociatedDeviceDiagnosticResult P apIndex buf os = some (d,os'))
    (hok : d.ret = .ok) : Tabulates P ls d ↔ LinesRead ls := by
  refine ⟨Tabulates.linesRead hfile.lines,fun hlines => ?_⟩
  have hsize := hfile.size hlines.count buf
  have hpos := List.length_pos_iff.mpr hfile.some
  rw [wifiGetApAssociatedDeviceDiagnosticResult,countCommand_fits] at h
  split at h
  · cases h
    cases hok
  · simp only [syscmd_reads hfile.count] at h hsize
    generalize (atoi _).toUInt32 = size at h hsize
    have hsome : ¬size ≤ 0 := by
      intro hle
      have hnat := UInt32.le_iff_toNat_le.mp hle
      simp at hnat
      omega
    rw [if_neg hsome] at h
    simp only [fillStations,fileCommand_fits,Platform.shell,hfile.file] at h
    obtain ⟨result,hloop,hd⟩ := Option.map_eq_some_iff.mp h
    obtain ⟨rfl,_⟩ := Prod.mk.inj hd
    exact hlines.tabulates hfile.lines hfile.some hsize hloop

def longLines : List Str :=
  [List.replicate 199 'x',"11:22:33:44:55:66 1 6 54M 11M 40".toList]

def longPlatform : Platform Unit :=
  { Platform.answering none with
    popen cmd w :=
      (some (if cmd.head? = some 'c' then unlines longLines else Nat.toDigits 10 2 ++ ['\n']),w) }

theorem longPlatform_file : StationFile longPlatform 0 ⟨(),[]⟩ longLines where
  lines := by decide +kernel
  some := by decide +kernel
  count := by decide +kernel
  file _ := by
    have hcat : (longPlatform.popen (fileLine 0) ()).1 = some (unlines longLines) := by
      decide +kernel
    exact hcat

theorem longPlatform_ok : ∃ d os', d.ret = .ok ∧
    wifiGetApAssociatedDeviceDiagnosticResult longPlatform 0 [] ⟨(),[]⟩ = some (d,os') := by
  have hrun : (wifiGetApAssociatedDeviceDiagnosticResult longPlatform 0 [] ⟨(),[]⟩).map
      (fun r => r.1.ret) = some .ok := by decide +kernel
  obtain ⟨⟨d,os'⟩,hresult,hret⟩ := Option.map_eq_some_iff.mp hrun
  exact ⟨d,os',hret,hresult⟩

theorem diagnostic_tabulates_iff_long : ∃ d os',
    wifiGetApAssociatedDeviceDiagnosticResult longPlatform 0 [] ⟨(),[]⟩ = some (d,os') ∧
      (Tabulates longPlatform longLines d ↔ LinesRead longLines) := by
  obtain ⟨d,os',hok,hresult⟩ := longPlatform_ok
  exact ⟨d,os',hresult,diagnostic_tabulates_iff longPlatform_file hresult hok⟩

theorem diagnostic_long : ∃ d os',
    wifiGetApAssociatedDeviceDiagnosticResult longPlatform 0 [] ⟨(),[]⟩ = some (d,os') ∧
      d.ret = .ok ∧ ¬Tabulates longPlatform longLines d := by
  obtain ⟨d,os',hok,hresult⟩ := longPlatform_ok
  refine ⟨d,os',hresult,hok,fun h => ?_⟩
  have hfit := (h.linesRead longPlatform_file.lines).fit (List.replicate 199 'x') (by simp [longLines])
  rw [List.length_replicate] at hfit
  omega

end RdkHal.Wifi
