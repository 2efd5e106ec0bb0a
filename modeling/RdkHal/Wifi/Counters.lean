import RdkHal.Wifi.Stats
import RdkHal.Lib.Search

/-! The traffic counters of an access point: which values are read back as they were printed, and
what is left of a text in which a counter is missing. -/

set_option autoImplicit false

namespace RdkHal.Wifi
open Text

variable {ω : Type}

def counterMarkers : List Str :=
  ["RX packets:".toList,"TX packets:".toList,"RX bytes:".toList,"TX bytes:".toList]

structure Counter where
  numeral : Str
  value : Nat
  behind : Str
  digits : Numeral numeral value
  fits64 : value < 2^64
  ends : ∀ c ∈ behind.head?, c.isDigit = false
  unmarked : ∀ m ∈ counterMarkers, ¬m <:+: behind

/-- What `ifconfig` prints of an interface, with the four counters in their order. -/
structure Report where
  before : Str
  unmarked : ∀ m ∈ counterMarkers, ¬m <:+: before
  packetsReceived : Counter
  packetsSent : Counter
  bytesReceived : Counter
  bytesSent : Counter

def Counter.print (x : Counter) (marker rest : Str) : Str :=
  marker ++ (x.numeral ++ (x.behind ++ rest))

def Report.text (r : Report) : Str :=
  r.before ++ r.packetsReceived.print "RX packets:".toList
    (r.packetsSent.print "TX packets:".toList
      (r.bytesReceived.print "RX bytes:".toList (r.bytesSent.print "TX bytes:".toList [])))

def Counter.read (x : Counter) : UInt64 := (atoi x.numeral).toInt64.toUInt64

theorem toNat_widened (n : Int32) : (n.toInt64.toUInt64.toNat : Int) = n.toInt % 2^64 := by
  have hbits : n.toInt64.toUInt64.toNat = (BitVec.ofInt 64 n.toInt).toNat := rfl
  rw [hbits,BitVec.toNat_ofInt]
  omega

/-- The signed 32-bit conversion keeps the values below 2^31; what is out of the range of `long` is
read as -1, which is the greatest value when it is widened. -/
theorem Counter.read_iff (x : Counter) :
    x.read.toNat = x.value ↔ x.value < 2^31 ∨ x.value = 2^64-1 := by
  have hfits := x.fits64
  have hlow := x.digits.atoi_mod
  have hwide := toNat_widened (atoi x.numeral)
  rw [read]
  rcases toInt_cases (atoi x.numeral) with ⟨hpos,hint⟩ | ⟨hneg,hlt,hint⟩
  · rw [hint] at hwide
    omega
  · rw [hint] at hwide
    omega

theorem counterMarkers_digits : ∀ m ∈ counterMarkers, ∀ c ∈ m, c.isDigit = false := by decide

theorem Counter.ends_before (x : Counter) {rest : Str} (hrest : ∀ c ∈ rest.head?, c.isDigit = false) :
    ∀ c ∈ (x.behind ++ rest).head?, c.isDigit = false := by
  have hends := x.ends
  cases hx : x.behind with
  | nil => simpa using hrest
  | cons d behind =>
    rw [hx] at hends
    exact hends

theorem counterAt_print (x : Counter) (marker : String) {rest : Str}
    (hrest : ∀ c ∈ rest.head?, c.isDigit = false) :
    counterAt marker (x.print marker.toList rest) = x.read := by
  rw [counterAt,Counter.print,List.drop_left,x.digits.atoi_append (x.ends_before hrest),Counter.read]

theorem Counter.print_head (x : Counter) {m : Str} (hm : m ∈ counterMarkers) (rest : Str) :
    ∀ c ∈ (x.print m rest).head?, c.isDigit = false := by
  intro c hc
  have hdigits := counterMarkers_digits m hm
  have hne : ∀ m ∈ counterMarkers, m ≠ [] := by decide
  cases m with
  | nil => exact absurd rfl (hne [] hm)
  | cons d m =>
    obtain rfl : d = c := Option.some.inj hc
    exact hdigits d (by simp)

theorem strstr_print {pre n : Str} {c : Char} (hhead : n.head? = some c) (hc : c ∉ n.tail)
    (hpre : ¬n <:+: pre) (y : Counter) (rest : Str) :
    strstr n (pre ++ y.print n rest) = some (y.print n rest) :=
  strstr_marker hhead hc hpre _

theorem strstr_print_next {m n : Str} {c : Char} (hn : n ∈ counterMarkers) (hhead : n.head? = some c)
    (hc : c ∉ n.tail) (hm : ¬n <:+: m) (x y : Counter) (rest : Str) :
    strstr n (x.print m (y.print n rest)) = some (y.print n rest) := by
  have hne : n ≠ [] := by
    rintro rfl
    cases hhead
  have hdigits : ∀ d ∈ x.numeral, d ∉ n := by
    intro d hd hmem
    exact x.digits.not_mem (counterMarkers_digits n hn d hmem) hd
  have hpre : ¬n <:+: m ++ (x.numeral ++ x.behind) := by
    rw [infix_separated hne x.digits.ne_nil hdigits]
    rintro (hin | hin)
    · exact hm hin
    · exact x.unmarked n hn hin
  have hfound := strstr_print hhead hc hpre y rest
  rwa [List.append_assoc,List.append_assoc] at hfound

theorem readCounters_text (r : Report) :
    readCounters BasicTrafficStats.zero r.text =
      (.ok,⟨r.bytesSent.read,r.bytesReceived.read,r.packetsSent.read,r.packetsReceived.read,0⟩) := by
  obtain ⟨before,hbefore,a,b,c,d⟩ := r
  have hrx := strstr_print (n := "RX packets:".toList) (c := 'R') (by decide) (by decide)
    (hbefore _ (by decide)) a
  have htx := strstr_print_next (m := "RX packets:".toList) (n := "TX packets:".toList) (c := 'T')
    (by decide) (by decide) (by decide) (by decide) a b
  have hrxBytes := strstr_print_next (m := "TX packets:".toList) (n := "RX bytes:".toList) (c := 'R')
    (by decide) (by decide) (by decide) (by decide) b c
  have htxBytes := strstr_print_next (m := "RX bytes:".toList) (n := "TX bytes:".toList) (c := 'T')
    (by decide) (by decide) (by decide) (by decide) c d
  have ha (rest : Str) := counterAt_print a "RX packets:"
    (b.print_head (m := "TX packets:".toList) (by decide) rest)
  have hb (rest : Str) := counterAt_print b "TX packets:"
    (c.print_head (m := "RX bytes:".toList) (by decide) rest)
  have hc (rest : Str) := counterAt_print c "RX bytes:"
    (d.print_head (m := "TX bytes:".toList) (by decide) rest)
  have hd := @counterAt_print d "TX bytes:" [] (by simp)
  simp only [readCounters,Report.text,hrx,htx,hrxBytes,htxBytes,ha,hb,hc,hd]
  rfl

theorem Report.text_last (r : Report) :
    ∃ pre, ∀ d, Report.text { r with bytesSent := d } = pre ++ (d.numeral ++ d.behind) := by
  refine ⟨r.before ++ r.packetsReceived.print "RX packets:".toList
    (r.packetsSent.print "TX packets:".toList
      (r.bytesReceived.print "RX bytes:".toList "TX bytes:".toList)),fun d => ?_⟩
  simp only [Report.text,Counter.print,List.append_assoc,List.append_nil]

theorem Report.cut (r : Report) {s : Str} (h : r.text = s ++ ['\n']) :
    ∃ d, Report.text { r with bytesSent := d } = s ∧ d.numeral = r.bytesSent.numeral := by
  obtain ⟨pre,htext⟩ := r.text_last
  have hlast := (htext r.bytesSent).symm.trans h
  have hdigits := r.bytesSent.digits
  rcases List.eq_nil_or_concat r.bytesSent.behind with hnil | ⟨behind,x,hconcat⟩
  · -- the last character would be a digit
    rw [hnil,List.append_nil] at hlast
    have hend := congrArg List.getLast? hlast
    rw [List.getLast?_append_of_ne_nil _ hdigits.ne_nil,List.getLast?_concat] at hend
    exact absurd (hdigits.digits _ (List.mem_of_getLast? hend)) (by decide)
  · rw [hconcat,List.concat_eq_append,← List.append_assoc,← List.append_assoc] at hlast
    obtain ⟨hs,_⟩ := List.append_inj' hlast rfl
    have hbehind : behind <+: r.bytesSent.behind := ⟨[x],by rw [hconcat,List.concat_eq_append]⟩
    have hends : ∀ c ∈ behind.head?, c.isDigit = false := by
      intro c hc
      refine r.bytesSent.ends c ?_
      rw [hconcat,List.concat_eq_append]
      cases behind with
      | nil => cases hc
      | cons c behind => exact hc
    have hunmarked : ∀ m ∈ counterMarkers, ¬m <:+: behind :=
      fun m hm hin => r.bytesSent.unmarked m hm (hin.trans hbehind.isInfix)
    refine ⟨⟨r.bytesSent.numeral,r.bytesSent.value,behind,hdigits,r.bytesSent.fits64,hends,
      hunmarked⟩,(htext _).trans ?_,rfl⟩
    rw [← hs,List.append_assoc]

def ifconfigLine (apIndex : Int32) : Str :=
  sprintf "ifconfig %s%d".toList [.s apPrefix,.d apIndex]

theorem ifconfigCommand_fits (P : Platform ω) (apIndex : Int32) :
    ifconfigCommand P apIndex = ifconfigLine apIndex :=
  P.command_ap (by decide) apIndex

def statsHeld (text : Str) : Str := syscmdText (text.length+1) 1280 text

/-- The status is the one of the parser. The count of the stations, which is read at last, leaves
the counters as they are. -/
theorem wifiGetBasicTrafficStats_reads (P : Platform ω) {apIndex : Int32} {text : Str} (buf : Str)
    (out : BasicTrafficStats) (os : Os ω)
    (hout : (P.popen (ifconfigLine apIndex) os.world).1 = some text) :
    let stats := readCounters BasicTrafficStats.zero (statsHeld text)
    (wifiGetBasicTrafficStats P apIndex (some out) buf os).1 = stats.1 ∧
      ∃ n, (wifiGetBasicTrafficStats P apIndex (some out) buf os).2.1 =
        some { stats.2 with wifiAssociations := n } ∧ (stats.1 = .err → n = stats.2.wifiAssociations) := by
  intro stats
  have hread : readCounters BasicTrafficStats.zero (syscmdText (text.length+1) 1280 text) = stats :=
    rfl
  obtain ⟨ret,stats⟩ := stats
  simp only [wifiGetBasicTrafficStats,ifconfigCommand_fits,syscmd_reads hout,hread]
  cases ret with
  | err => exact ⟨rfl,_,rfl,fun _ => rfl⟩
  | ok =>
    simp only
    split
    · exact ⟨rfl,_,rfl,fun _ => rfl⟩
    · exact ⟨rfl,_,rfl,fun h => by cases h⟩

def Shows (stats : Option BasicTrafficStats) (r : Report) : Prop :=
  ∃ s, stats = some s ∧ s.wifiPacketsReceived.toNat = r.packetsReceived.value ∧
    s.wifiPacketsSent.toNat = r.packetsSent.value ∧
    s.wifiBytesReceived.toNat = r.bytesReceived.value ∧
    s.wifiBytesSent.toNat = r.bytesSent.value

def Report.counters (r : Report) : List Counter :=
  [r.packetsReceived,r.packetsSent,r.bytesReceived,r.bytesSent]

theorem readCounters_fits (r : Report) (hnul : '\x00' ∉ r.text)
    (hfits : FitsUpToNewline 1280 r.text) :
    readCounters BasicTrafficStats.zero (statsHeld r.text) =
      (.ok,⟨r.bytesSent.read,r.bytesReceived.read,r.packetsSent.read,r.packetsReceived.read,0⟩) := by
  have hread : statsHeld r.text = r.text ∨ r.text = statsHeld r.text ++ ['\n'] :=
    syscmdText_fits hnul hfits
  rcases hread with hall | hcut
  · rw [hall,readCounters_text]
  · obtain ⟨d,htext,hnumeral⟩ := r.cut hcut
    rw [← htext,readCounters_text]
    have hsame : d.read = r.bytesSent.read := by rw [Counter.read,hnumeral,Counter.read]
    simp only [hsame]

/-- The counters are right exactly where each of them is below 2^31 or the greatest value. -/
theorem wifiGetBasicTrafficStats_iff (P : Platform ω) (apIndex : Int32) (r : Report)
    (out : BasicTrafficStats) (buf : Str) (os : Os ω) (hnul : '\x00' ∉ r.text)
    (hfits : FitsUpToNewline 1280 r.text)
    (hout : (P.popen (ifconfigLine apIndex) os.world).1 = some r.text) :
    Shows (wifiGetBasicTrafficStats P apIndex (some out) buf os).2.1 r ↔
      ∀ x ∈ r.counters, x.value < 2^31 ∨ x.value = 2^64-1 := by
  obtain ⟨_,n,hstats,_⟩ := wifiGetBasicTrafficStats_reads P buf out os hout
  rw [readCounters_fits r hnul hfits] at hstats
  simp only [Shows,hstats,Option.some.injEq,exists_eq_left',Counter.read_iff,Report.counters,
    List.forall_mem_cons,List.not_mem_nil,false_imp_iff,implies_true,and_true]

def smallCounter : Counter where
  numeral := "7".toList
  value := 7
  behind := " errors:0\n".toList
  digits := ⟨by decide,by decide,by decide⟩
  fits64 := by decide
  ends := by decide
  unmarked := by decide

def largeCounter : Counter where
  numeral := "3000000000".toList
  value := 3000000000
  behind := " (2.7 GiB)\n".toList
  digits := ⟨by decide,by decide,by decide⟩
  fits64 := by decide
  ends := by decide
  unmarked := by decide

def busyReport : Report where
  before := "ath0      Link encap:Ethernet\n".toList
  unmarked := by decide
  packetsReceived := smallCounter
  packetsSent := smallCounter
  bytesReceived := largeCounter
  bytesSent := smallCounter

def busyPlatform : Platform Unit := Platform.answering (some busyReport.text)

theorem wifiGetBasicTrafficStats_iff_busy :
    Shows (wifiGetBasicTrafficStats busyPlatform 0 (some .zero) [] ⟨(),[]⟩).2.1 busyReport ↔
      ∀ x ∈ busyReport.counters, x.value < 2^31 ∨ x.value = 2^64-1 :=
  wifiGetBasicTrafficStats_iff busyPlatform 0 busyReport .zero [] ⟨(),[]⟩
    (by decide +kernel) (by decide +kernel) rfl

theorem wifiGetBasicTrafficStats_busy :
    ¬Shows (wifiGetBasicTrafficStats busyPlatform 0 (some .zero) [] ⟨(),[]⟩).2.1 busyReport := by
  rintro ⟨s,hstats,_,_,hbytes,_⟩
  have hread : (wifiGetBasicTrafficStats busyPlatform 0 (some .zero) [] ⟨(),[]⟩).2.1 =
      some ⟨7,18446744072414584320,7,7,0⟩ := by decide +kernel
  rw [hread] at hstats
  obtain rfl := Option.some.inj hstats
  exact absurd hbytes (by decide)

/-! A text in which a marker is missing -/

def foundCounters : List Str → Str → List UInt64
  | [], _ => []
  | m :: ms, s =>
    match strstr m s with
    | none => []
    | some pos => (atoi (pos.drop m.length)).toInt64.toUInt64 :: foundCounters ms pos

theorem foundCounters_length {ms : List Str} (hne : ∀ m ∈ ms, m ≠ [])
    (hms : ms.IsChain fun m n => ∀ c ∈ n.head?, c ∉ m) (s : Str) :
    (foundCounters ms s).length = ms.length ↔ InOrder ms s := by
  induction ms generalizing s with
  | nil => simp [foundCounters,InOrder]
  | cons m ms ih =>
    rw [foundCounters]
    cases hm : strstr m s with
    | none => exact iff_of_false (by simp) (not_inOrder hm ms)
    | some pos =>
      have hrest := ih (fun n hn => hne n (List.mem_cons_of_mem _ hn)) hms.of_cons pos
      simp only [List.length_cons,Nat.add_right_cancel_iff,hrest]
      cases ms with
      | nil =>
        obtain ⟨_,rest,rfl,_⟩ := strstr_found hm
        exact iff_of_true trivial ((inOrder_behind hm []).mpr trivial)
      | cons n ms =>
        obtain ⟨c,hc⟩ := Option.ne_none_iff_exists'.mp
          (fun h => hne n (by simp) (List.head?_eq_none_iff.mp h))
        exact (inOrder_from hm hc ((List.isChain_cons_cons.mp hms).1 c hc) ms).symm

theorem counterMarkers_inOrder (s : Str) :
    (foundCounters counterMarkers s).length = 4 ↔ InOrder counterMarkers s :=
  foundCounters_length (by decide) (by decide) s

def storeCounters (stats : BasicTrafficStats) : List UInt64 → Ret × BasicTrafficStats
  | [] => (.err,stats)
  | [a] => (.err,{ stats with wifiPacketsReceived := a })
  | [a,b] => (.err,{ stats with wifiPacketsReceived := a, wifiPacketsSent := b })
  | [a,b,c] =>
    (.err,{ stats with wifiPacketsReceived := a, wifiPacketsSent := b, wifiBytesReceived := c })
  | a :: b :: c :: d :: _ => (.ok,⟨d,c,b,a,stats.wifiAssociations⟩)

theorem readCounters_found (stats : BasicTrafficStats) (s : Str) :
    readCounters stats s = storeCounters stats (foundCounters counterMarkers s) := by
  unfold readCounters counterMarkers
  cases hrx : strstr "RX packets:".toList s with
  | none => simp only [foundCounters,hrx,storeCounters]
  | some first =>
    cases htx : strstr "TX packets:".toList first with
    | none =>
      simp only [foundCounters,hrx,htx,storeCounters]
      rfl
    | some second =>
      cases hrxBytes : strstr "RX bytes:".toList second with
      | none =>
        simp only [foundCounters,hrx,htx,hrxBytes,storeCounters]
        rfl
      | some third =>
        cases htxBytes : strstr "TX bytes:".toList third with
        | none =>
          simp only [foundCounters,hrx,htx,hrxBytes,htxBytes,storeCounters]
          rfl
        | some fourth =>
          simp only [foundCounters,hrx,htx,hrxBytes,htxBytes,storeCounters]
          rfl

theorem foundCounters_le (ms : List Str) (s : Str) : (foundCounters ms s).length ≤ ms.length := by
  induction ms generalizing s with
  | nil => simp [foundCounters]
  | cons m ms ih =>
    rw [foundCounters]
    split
    · simp
    · simpa using ih _

theorem storeCounters_zero {l : List UInt64} (hl : l.length ≤ 4) :
    ((storeCounters BasicTrafficStats.zero l).1 = .ok ↔ l.length = 4) ∧
    ((storeCounters BasicTrafficStats.zero l).1 = .err →
      ((storeCounters BasicTrafficStats.zero l).2 = BasicTrafficStats.zero ↔ ∀ n ∈ l, n = 0)) := by
  match l with
  | [] => simp [storeCounters]
  | [a] => simp [storeCounters,BasicTrafficStats.zero]
  | [a,b] => simp [storeCounters,BasicTrafficStats.zero,and_comm]
  | [a,b,c] => simp [storeCounters,BasicTrafficStats.zero,and_comm,and_assoc]
  | [a,b,c,d] => simp [storeCounters]
  | _ :: _ :: _ :: _ :: _ :: l =>
    simp only [List.length_cons] at hl
    omega

/-- The status tells whether the text holds the markers in order exactly where the part of it that
is read does; and a failure leaves nothing exactly where the counters before the missing marker
are 0. -/
theorem wifiGetBasicTrafficStats_missing_iff (P : Platform ω) (apIndex : Int32) (text : Str)
    (out : BasicTrafficStats) (buf : Str) (os : Os ω)
    (hout : (P.popen (ifconfigLine apIndex) os.world).1 = some text) :
    (((wifiGetBasicTrafficStats P apIndex (some out) buf os).1 = .ok ↔ InOrder counterMarkers text) ∧
      ((wifiGetBasicTrafficStats P apIndex (some out) buf os).1 = .err →
        (wifiGetBasicTrafficStats P apIndex (some out) buf os).2.1 = some .zero)) ↔
    (InOrder counterMarkers (statsHeld text) ↔ InOrder counterMarkers text) ∧
      (¬InOrder counterMarkers (statsHeld text) →
        ∀ n ∈ foundCounters counterMarkers (statsHeld text), n = 0) := by
  obtain ⟨hret,n,hstats,hsame⟩ := wifiGetBasicTrafficStats_reads P buf out os hout
  generalize statsHeld text = held at hret hstats hsame ⊢
  obtain ⟨hok,herr⟩ := storeCounters_zero (foundCounters_le counterMarkers held)
  rw [counterMarkers_inOrder] at hok
  rw [readCounters_found] at hret hstats hsame
  rw [hret,hstats,hok]
  refine and_congr_right (fun _ => ?_)
  cases hcase : (storeCounters BasicTrafficStats.zero (foundCounters counterMarkers held)).1 with
  | ok => simp [hok.mp hcase]
  | err =>
    have hmissing : ¬InOrder counterMarkers held := by
      rw [← hok,hcase]
      decide
    simp only [hsame hcase,Option.some.injEq,hmissing,not_false_iff,true_imp_iff]
    exact herr hcase

def cutText : Str := "RX packets:5".toList

def cutPlatform : Platform Unit := Platform.answering (some cutText)

theorem wifiGetBasicTrafficStats_missing_iff_cut :
    (((wifiGetBasicTrafficStats cutPlatform 0 (some .zero) [] ⟨(),[]⟩).1 = .ok ↔
        InOrder counterMarkers cutText) ∧
      ((wifiGetBasicTrafficStats cutPlatform 0 (some .zero) [] ⟨(),[]⟩).1 = .err →
        (wifiGetBasicTrafficStats cutPlatform 0 (some .zero) [] ⟨(),[]⟩).2.1 = some .zero)) ↔
    (InOrder counterMarkers (statsHeld cutText) ↔ InOrder counterMarkers cutText) ∧
      (¬InOrder counterMarkers (statsHeld cutText) →
        ∀ n ∈ foundCounters counterMarkers (statsHeld cutText), n = 0) :=
  wifiGetBasicTrafficStats_missing_iff cutPlatform 0 cutText .zero [] ⟨(),[]⟩ rfl

theorem wifiGetBasicTrafficStats_cut :
    (wifiGetBasicTrafficStats cutPlatform 0 (some .zero) [] ⟨(),[]⟩).1 = .err ∧
    (wifiGetBasicTrafficStats cutPlatform 0 (some .zero) [] ⟨(),[]⟩).2.1 = some ⟨0,0,0,5,0⟩ := by
  decide +kernel

end RdkHal.Wifi
