import RdkHal.Wifi.StationLines
import RdkHal.Wifi.Columns
import RdkHal.Capacity

/-! The table of the stations in memory: the bytes that a round of the loop stores, and what the
caller holds when the function returns. -/

set_option autoImplicit false

namespace RdkHal.Wifi
open Text Inet Memory

variable {ω : Type}

inductive NumberField where
  | authenticationState
  | lastDataDownlinkRate
  | lastDataUplinkRate
  | signalStrength
  | retransmissions
  | active
  | snr
  | dataFramesSentAck
  | dataFramesSentNoAck
  | bytesSent
  | bytesReceived
  | rssi

inductive TextField where
  | operatingStandard
  | operatingChannelBandwidth
  | interferenceSources

/-- Where the fields of an entry lie, and the widths of its numbers: `cli_MACAddress` is 6 bytes from
`addresses` on, with the 64 bytes of `cli_IPAddress` behind it. -/
structure Layout where
  size : Nat
  addresses : Nat
  number : NumberField → Nat
  width : NumberField → Nat
  text : TextField → Nat
  addresses_inside : addresses+70 ≤ size
  number_inside : ∀ f, number f+width f ≤ size
  number_apart : ∀ f, number f+width f ≤ addresses ∨ addresses+70 ≤ number f
  text_inside : ∀ f, text f+64 ≤ size
  text_apart : ∀ f, text f+64 ≤ addresses ∨ addresses+70 ≤ text f

def littleEndian (width : Nat) (n : Int) : List UInt8 :=
  (List.range width).map fun k => UInt8.ofInt (n/256^k)

def storeNumber (L : Layout) (base : Int) (f : NumberField) (n : Int) : Log UInt8 :=
  put (base+L.number f) (littleEndian (L.width f) n)

def storeText (L : Layout) (nullSlack : Bool) (base : Int) (f : TextField) (s : Str) : Log UInt8 :=
  (strcpyLog nullSlack 64 s).map fun w => (base+L.text f+w.1,UInt8.ofNat w.2.toNat)

def macLog (i : Int) : List (Fin 6) → Str → Log UInt8
  | [], _ => []
  | k :: ks, s =>
    match scanUnsigned 16 s with
    | none => []
    | some (n,rest) =>
      match rest with
      | ':' :: rest => put (i+k.val) (memory n.toUInt32) ++ macLog i ks rest
      | _ => put (i+k.val) (memory n.toUInt32)

def fieldsLog (P : Platform ω) (L : Layout) (nullSlack : Bool) (base : Int) (rssi : Option Str)
    (downlink uplink : UInt32) : Log UInt8 :=
  storeNumber L base .authenticationState 1 ++
  storeNumber L base .authenticationState (P.boolOf (match rssi with
    | none => 0
    | some rssi => atoi rssi-100)) ++
  storeNumber L base .lastDataDownlinkRate downlink.toNat ++
  storeNumber L base .lastDataUplinkRate uplink.toNat ++
  storeNumber L base .signalStrength (-100) ++
  storeNumber L base .retransmissions 0 ++
  storeNumber L base .active 1 ++
  storeText L nullSlack base .operatingStandard [] ++
  storeText L nullSlack base .operatingChannelBandwidth "20MHz".toList ++
  storeNumber L base .snr 20 ++
  storeText L nullSlack base .interferenceSources [] ++
  storeNumber L base .dataFramesSentAck 0 ++
  storeNumber L base .dataFramesSentNoAck 0 ++
  storeNumber L base .bytesSent 0 ++
  storeNumber L base .bytesReceived 0 ++
  storeNumber L base .rssi 30

/-- The stores of a round of the loop, in an array of entries that begins at 0; `none` is a NULL
pointer in `atoi`. -/
def stationLog (P : Platform ω) (L : Layout) (nullSlack : Bool) (assocCnt : Nat) (line : Str) :
    Option (Log UInt8) :=
  let columns := tokens [' '] line
  let base : Int := (assocCnt*L.size : Nat)
  match rateOf columns[3]?, rateOf columns[4]? with
  | some downlink, some uplink =>
    some ((match columns[0]? with
      | none => []
      | some mac => macLog (base+L.addresses) (List.finRange 6) mac) ++
      put (base+L.addresses+6) (List.replicate 64 0) ++
      fieldsLog P L nullSlack base columns[5]? downlink uplink)
  | _, _ => none

def Bytes (m : Int → UInt8) (i : Int) (bytes : Vector UInt8 70) : Prop :=
  ∀ (k : Nat) (h : k < 70), m (i+k) = bytes[k]

theorem bytes_storeUnsigned {m : Int → UInt8} {i : Int} {bytes : Vector UInt8 70}
    (h : Bytes m i bytes) (k : Fin 6) (n : UInt32) :
    Bytes (after m (put (i+k.val) (memory n))) i (storeUnsigned bytes k n) := by
  intro j hj
  have hindex (d : Int) (e : Nat) (hd : d = e) : i+j = i+k.val+d ↔ k.val+e = j := by omega
  have hfirst := hindex 0 0 rfl
  have hsecond := hindex 1 1 rfl
  have hthird := hindex (1+1) 2 rfl
  have hlast := hindex (1+1+1) 3 rfl
  rw [Int.add_zero,Nat.add_zero] at hfirst
  simp only [← Int.add_assoc] at hthird hlast
  simp only [memory,put,after,storeUnsigned,Vector.getElem_set,hfirst,hsecond,hthird,hlast,h j hj]

theorem macLog_last {s rest : Str} {n : UInt64} (hscan : scanUnsigned 16 s = some (n,rest))
    (hcolon : ∀ more, rest ≠ ':' :: more) (i : Int) (k : Fin 6) (ks : List (Fin 6)) :
    macLog i (k :: ks) s = put (i+k.val) (memory n.toUInt32) := by
  simp only [macLog,hscan]

theorem scanMac_last {s rest : Str} {n : UInt64} (hscan : scanUnsigned 16 s = some (n,rest))
    (hcolon : ∀ more, rest ≠ ':' :: more) (k : Fin 6) (ks : List (Fin 6))
    (bytes : Vector UInt8 70) :
    scanMac (k :: ks) s bytes = storeUnsigned bytes k n.toUInt32 := by
  simp only [scanMac,hscan]

theorem bytes_scanMac {m : Int → UInt8} {i : Int} {bytes : Vector UInt8 70} (h : Bytes m i bytes)
    (ks : List (Fin 6)) (s : Str) : Bytes (after m (macLog i ks s)) i (scanMac ks s bytes) := by
  induction ks generalizing s bytes m with
  | nil => exact h
  | cons k ks ih =>
    cases hscan : scanUnsigned 16 s with
    | none =>
      rw [macLog,scanMac,hscan]
      exact h
    | some read =>
      obtain ⟨n,rest⟩ := read
      have hstored := bytes_storeUnsigned h k n.toUInt32
      by_cases hcolon : ∃ more, rest = ':' :: more
      · obtain ⟨more,rfl⟩ := hcolon
        rw [macLog,scanMac,hscan]
        simp only [after_append]
        exact ih hstored more
      · rw [not_exists] at hcolon
        rw [macLog_last hscan hcolon,scanMac_last hscan hcolon]
        exact hstored

theorem bytes_clearIPAddress {m : Int → UInt8} {i : Int} {bytes : Vector UInt8 70}
    (h : Bytes m i bytes) :
    Bytes (after m (put (i+6) (List.replicate 64 0))) i (clearIPAddress bytes) := by
  intro j hj
  rw [clearIPAddress,Vector.getElem_ofFn]
  by_cases hlow : j < 6
  · have hbefore : ∀ w ∈ put (i+6) (List.replicate 64 (0 : UInt8)), w.1 ≠ i+j := by
      intro w hw
      have hwithin := put_within w hw
      omega
    rw [after_frame hbefore,h j hj]
    exact (if_pos hlow).symm
  · have hstored := after_put m (i+6) (List.replicate 64 (0 : UInt8)) (k := j-6)
      (by rw [List.length_replicate]; omega)
    have hindex : i+6+((j-6 : Nat) : Int) = i+j := by omega
    rw [hindex,List.getElem_replicate] at hstored
    rw [if_neg hlow,hstored]

def Apart (L : Layout) (base : Int) (log : Log UInt8) : Prop :=
  ∀ w ∈ log, (base ≤ w.1 ∧ w.1 < base+L.size) ∧
    (w.1 < base+L.addresses ∨ base+L.addresses+70 ≤ w.1)

@[simp] theorem apart_append (L : Layout) (base : Int) (log log' : Log UInt8) :
    Apart L base (log ++ log') ↔ Apart L base log ∧ Apart L base log' :=
  List.forall_mem_append

@[simp] theorem storeNumber_apart (L : Layout) (base : Int) (f : NumberField) (n : Int) :
    Apart L base (storeNumber L base f n) := by
  intro w hw
  have hwithin := put_within w hw
  have hinside := L.number_inside f
  have hapart := L.number_apart f
  rw [littleEndian,List.length_map,List.length_range] at hwithin
  omega

@[simp] theorem storeText_apart (L : Layout) (nullSlack : Bool) (base : Int) (f : TextField)
    (s : Str) : Apart L base (storeText L nullSlack base f s) := by
  intro w hw
  obtain ⟨x,hx,rfl⟩ := List.mem_map.mp hw
  have hwithin := strcpyLog_inside nullSlack 64 s x hx
  have hinside := L.text_inside f
  have hapart := L.text_apart f
  push_cast at hwithin
  simp only
  omega

theorem fieldsLog_apart (P : Platform ω) (L : Layout) (nullSlack : Bool) (base : Int)
    (rssi : Option Str) (downlink uplink : UInt32) :
    Apart L base (fieldsLog P L nullSlack base rssi downlink uplink) := by
  simp only [fieldsLog,apart_append,storeNumber_apart,storeText_apart,and_self]

theorem macLog_within {i : Int} (ks : List (Fin 6)) (s : Str) :
    ∀ w ∈ macLog i ks s, i ≤ w.1 ∧ w.1 < i+70 := by
  induction ks generalizing s with
  | nil => simp [macLog]
  | cons k ks ih =>
    have hstore (n : UInt32) : ∀ w ∈ put (i+k.val) (memory n), i ≤ w.1 ∧ w.1 < i+70 := by
      intro w hw
      have hwithin := put_within w hw
      have hk := k.isLt
      have hfour : (memory n).length = 4 := rfl
      omega
    rw [macLog]
    split
    · simp
    · split
      · exact List.forall_mem_append.mpr ⟨hstore _,ih _⟩
      · exact hstore _

theorem stationLog_parts {P : Platform ω} {L : Layout} {nullSlack : Bool} {assocCnt : Nat}
    {line : Str} {log : Log UInt8} (h : stationLog P L nullSlack assocCnt line = some log) :
    ∃ scanned fields, log = scanned ++ put ((assocCnt*L.size : Nat)+L.addresses+6)
        (List.replicate 64 0) ++ fields ∧
      scanned = (match (tokens [' '] line)[0]? with
        | none => []
        | some mac => macLog ((assocCnt*L.size : Nat)+L.addresses) (List.finRange 6) mac) ∧
      Apart L (assocCnt*L.size : Nat) fields := by
  simp only [stationLog] at h
  split at h
  · obtain rfl := Option.some.inj h
    exact ⟨_,_,rfl,rfl,fieldsLog_apart P L nullSlack _ _ _ _⟩
  · cases h

theorem stationLog_bytes {P : Platform ω} {L : Layout} {nullSlack : Bool} {assocCnt : Nat}
    {line : Str} {log : Log UInt8} (h : stationLog P L nullSlack assocCnt line = some log)
    {m : Int → UInt8} {bytes : Vector UInt8 70}
    (hbytes : Bytes m ((assocCnt*L.size : Nat)+L.addresses) bytes) :
    Bytes (after m log) ((assocCnt*L.size : Nat)+L.addresses) (clearIPAddress
      (match (tokens [' '] line)[0]? with
        | none => bytes
        | some mac => scanMac (List.finRange 6) mac bytes)) := by
  obtain ⟨scanned,fields,rfl,hscanned,hfields⟩ := stationLog_parts h
  have hscan : Bytes (after m scanned) ((assocCnt*L.size : Nat)+L.addresses)
      (match (tokens [' '] line)[0]? with
        | none => bytes
        | some mac => scanMac (List.finRange 6) mac bytes) := by
    rw [hscanned]
    split
    · exact hbytes
    · exact bytes_scanMac hbytes _ _
  have hclear := bytes_clearIPAddress hscan
  intro k hk
  have hspared : ∀ w ∈ fields, w.1 ≠ (assocCnt*L.size : Nat)+L.addresses+k := by
    intro w hw
    have hapart := (hfields w hw).2
    omega
  rw [after_append,after_append,after_frame hspared]
  exact hclear k hk

theorem stationLog_parses {P : Platform ω} {L : Layout} {nullSlack : Bool} {assocCnt : Nat}
    {line : Str} {log : Log UInt8} (h : stationLog P L nullSlack assocCnt line = some log)
    {m : Int → UInt8} {dev dev' : AssociatedDev} (hparse : parseStation P line dev = some dev')
    (hdev : Bytes m ((assocCnt*L.size : Nat)+L.addresses) dev.cliAddresses) :
    Bytes (after m log) ((assocCnt*L.size : Nat)+L.addresses) dev'.cliAddresses := by
  obtain ⟨_,_,_,_,rfl⟩ := parseStation_some hparse
  exact stationLog_bytes h hdev

theorem entry_outside {j assocCnt : Nat} (hj : j ≠ assocCnt) {size k : Nat} (hk : k < size) :
    ((j*size : Nat) : Int)+k < (assocCnt*size : Nat) ∨
      ((assocCnt+1)*size : Nat) ≤ ((j*size : Nat) : Int)+k := by
  rcases Nat.lt_or_gt_of_ne hj with hj | hj
  · left
    have hnext := Nat.mul_le_mul_right size (Nat.succ_le_of_lt hj)
    rw [Nat.succ_mul] at hnext
    omega
  · right
    have hnext : (assocCnt+1)*size ≤ j*size := Nat.mul_le_mul_right size (Nat.succ_le_of_lt hj)
    omega

theorem stationLog_frame {P : Platform ω} {L : Layout} {nullSlack : Bool} {assocCnt : Nat}
    {line : Str} {log : Log UInt8} (h : stationLog P L nullSlack assocCnt line = some log)
    (m : Int → UInt8) {a : Int} (ha : a < (assocCnt*L.size : Nat) ∨
      ((assocCnt+1)*L.size : Nat) ≤ a) : after m log a = m a := by
  obtain ⟨scanned,fields,rfl,hscanned,hfields⟩ := stationLog_parts h
  have hinside := L.addresses_inside
  rw [Nat.succ_mul] at ha
  apply after_frame
  intro w hw
  rw [List.mem_append,List.mem_append] at hw
  rcases hw with (hw | hw) | hw
  · rw [hscanned] at hw
    split at hw
    · cases hw
    · have hwithin := macLog_within _ _ w hw
      omega
  · have hwithin := put_within w hw
    rw [List.length_replicate] at hwithin
    omega
  · have hwithin := (hfields w hw).1
    omega

def stationsLog (P : Platform ω) (L : Layout) (nullSlack : Bool) (size : Nat) :
    List Str → Nat → Option (Log UInt8)
  | [], _ => some []
  | chunk :: chunks, assocCnt =>
    if cstr chunk = [] ∨ size ≤ assocCnt then some []
    else
      match stationLog P L nullSlack assocCnt (cstr chunk),
        stationsLog P L nullSlack size chunks (assocCnt+1) with
      | some log, some log' => some (log ++ log')
      | _, _ => none

def TableHolds (L : Layout) (m : Int → UInt8) (devs : List AssociatedDev) : Prop :=
  ∀ j (h : j < devs.length), Bytes m ((j*L.size : Nat)+L.addresses) devs[j].cliAddresses

theorem stationLog_table {P : Platform ω} {L : Layout} {nullSlack : Bool} {assocCnt : Nat}
    {line : Str} {log : Log UInt8} (h : stationLog P L nullSlack assocCnt line = some log)
    {m : Int → UInt8} {devs : List AssociatedDev} (hdevs : TableHolds L m devs)
    {dev dev' : AssociatedDev} (hdev : devs[assocCnt]? = some dev)
    (hparse : parseStation P line dev = some dev') :
    TableHolds L (after m log) (devs.set assocCnt dev') := by
  intro j hset
  have hj := hset
  rw [List.length_set] at hj
  by_cases hentry : j = assocCnt
  · subst hentry
    obtain ⟨_,rfl⟩ := List.getElem?_eq_some_iff.mp hdev
    rw [List.getElem_set_self]
    exact stationLog_parses h hparse (hdevs j hj)
  · rw [List.getElem_set_ne (Ne.symm hentry)]
    intro k hk
    have hinside := L.addresses_inside
    have houtside := entry_outside hentry (show L.addresses+k < L.size by omega)
    push_cast [← Int.add_assoc] at houtside
    rw [stationLog_frame h m (by push_cast; exact houtside)]
    exact hdevs j hj k hk

theorem stationLog_isSome {P : Platform ω} (L : Layout) (nullSlack : Bool) (assocCnt : Nat)
    {line : Str} {dev dev' : AssociatedDev} (h : parseStation P line dev = some dev') :
    ∃ log, stationLog P L nullSlack assocCnt line = some log := by
  obtain ⟨downlink,uplink,hdown,hup,_⟩ := parseStation_some h
  simp only [stationLog,hdown,hup]
  exact ⟨_,rfl⟩

/-- The table that the loop returns is the one that its stores leave in the memory. -/
theorem stationLoop_stores {P : Platform ω} (L : Layout) (nullSlack : Bool) {size : Nat}
    {chunks : List Str} {assocCnt : Nat} {devs devs' : List AssociatedDev}
    (h : stationLoop P size chunks assocCnt (some devs) = some (some devs')) {m : Int → UInt8}
    (hdevs : TableHolds L m devs) :
    ∃ log, stationsLog P L nullSlack size chunks assocCnt = some log ∧
      TableHolds L (after m log) devs' := by
  induction chunks generalizing assocCnt devs m with
  | nil =>
    cases h
    exact ⟨[],rfl,hdevs⟩
  | cons chunk chunks ih =>
    rw [stationsLog]
    rcases stationLoop_cons h with ⟨hstop,hresult⟩ | ⟨hne,hk,dev,dev',hdev,hparse,hrest⟩
    · cases hresult
      rw [if_pos hstop]
      exact ⟨[],rfl,hdevs⟩
    · obtain ⟨log,hlog⟩ := stationLog_isSome L nullSlack assocCnt hparse
      obtain ⟨logs,hlogs,hheld⟩ := ih hrest (stationLog_table hlog hdevs hdev hparse)
      rw [if_neg (not_or.mpr ⟨hne,Nat.not_le.mpr hk⟩),hlog,hlogs]
      refine ⟨log ++ logs,rfl,?_⟩
      rw [after_append]
      exact hheld

/-! An address -/

def macText : List (Char × Char) → Str
  | [] => []
  | [d] => [d.1,d.2]
  | d :: ds => d.1 :: d.2 :: ':' :: macText ds

def HexDigits (d : Char × Char) : Prop :=
  (digitOf 16 d.1).isSome = true ∧ (digitOf 16 d.2).isSome = true

instance (d : Char × Char) : Decidable (HexDigits d) :=
  inferInstanceAs (Decidable (_ ∧ _))

def octet (d : Char × Char) : UInt8 :=
  UInt8.ofNat (16*(digitOf 16 d.1).getD 0+(digitOf 16 d.2).getD 0)

theorem scanUnsigned_octet {d : Char × Char} (hd : HexDigits d) (rest : Str)
    (hrest : ∀ c ∈ rest.head?, digitOf 16 c = none) :
    ∃ n, scanUnsigned 16 (d.1 :: d.2 :: rest) = some (n,rest) ∧ n.toUInt32.toUInt8 = octet d := by
  obtain ⟨high,hhigh⟩ := Option.isSome_iff_exists.mp hd.1
  obtain ⟨low,hlow⟩ := Option.isSome_iff_exists.mp hd.2
  refine ⟨_,scanUnsigned_two hhigh hlow hrest,?_⟩
  rw [octet,hhigh,hlow,Option.getD_some,Option.getD_some]
  simp

def place (k : Fin 6) : Fin 70 := k.castLE (by decide)

theorem storeUnsigned_get (bytes : Vector UInt8 70) {j k : Fin 6} (hj : j ≤ k) (n : UInt32) :
    (storeUnsigned bytes k n)[place j] = if j = k then n.toUInt8 else bytes[place j] := by
  have hthird : ¬k.val+3 = j.val := by omega
  have hsecond : ¬k.val+2 = j.val := by omega
  have hfirst : ¬k.val+1 = j.val := by omega
  simp only [storeUnsigned,place,Fin.getElem_fin,Fin.val_castLE,Vector.getElem_set,hthird,hsecond,
    hfirst,if_false,Fin.ext_iff,eq_comm]

theorem scanMac_cons (k : Fin 6) (kds : List (Fin 6 × Char × Char)) {d : Char × Char}
    (hd : HexDigits d) {tail : Str} (htail : ∀ c ∈ tail.head?, digitOf 16 c = none)
    (bytes : Vector UInt8 70) :
    ∃ n : UInt32, n.toUInt8 = octet d ∧
      scanMac (k :: kds.map Prod.fst) (macText (d :: kds.map Prod.snd) ++ tail) bytes =
        scanMac (kds.map Prod.fst) (macText (kds.map Prod.snd) ++ tail)
          (storeUnsigned bytes k n) := by
  cases kds with
  | nil =>
    obtain ⟨n,hscan,hn⟩ := scanUnsigned_octet hd tail htail
    refine ⟨n.toUInt32,hn,?_⟩
    change scanMac [k] (d.1 :: d.2 :: tail) bytes = storeUnsigned bytes k n.toUInt32
    rw [scanMac,hscan]
    -- no place is left, whether or not a colon follows
    simp only
    split <;> rfl
  | cons q kds =>
    obtain ⟨n,hscan,hn⟩ := scanUnsigned_octet hd
      (':' :: (macText ((q :: kds).map Prod.snd) ++ tail)) (by simp; decide)
    refine ⟨n.toUInt32,hn,?_⟩
    change scanMac (k :: _) (d.1 :: d.2 :: ':' :: (macText ((q :: kds).map Prod.snd) ++ tail)) bytes
      = _
    rw [scanMac,hscan]
    rfl

theorem scanMac_octets (kds : List (Fin 6 × Char × Char))
    (horder : (kds.map Prod.fst).Pairwise (· < ·)) (hhex : ∀ p ∈ kds, HexDigits p.2) {tail : Str}
    (htail : ∀ c ∈ tail.head?, digitOf 16 c = none) (bytes : Vector UInt8 70) :
    (∀ p ∈ kds, (scanMac (kds.map Prod.fst) (macText (kds.map Prod.snd) ++ tail) bytes)[place p.1] =
      octet p.2) ∧
    ∀ j : Fin 6, (∀ p ∈ kds, j < p.1) →
      (scanMac (kds.map Prod.fst) (macText (kds.map Prod.snd) ++ tail) bytes)[place j] =
        bytes[place j] := by
  induction kds generalizing bytes with
  | nil => simp [scanMac]
  | cons p kds ih =>
    obtain ⟨hfirst,horder⟩ := List.pairwise_cons.mp horder
    obtain ⟨hp,hhex⟩ := List.forall_mem_cons.mp hhex
    obtain ⟨n,hn,hscan⟩ := scanMac_cons p.1 kds hp htail bytes
    obtain ⟨hplaces,hspared⟩ := ih horder hhex (storeUnsigned bytes p.1 n)
    simp only [List.map_cons,hscan]
    constructor
    · intro q hq
      rcases List.mem_cons.mp hq with rfl | hq
      · have hbehind : ∀ r ∈ kds, q.1 < r.1 := fun r hr => hfirst r.1 (List.mem_map_of_mem hr)
        rw [hspared q.1 hbehind,storeUnsigned_get bytes (Fin.le_refl q.1) n,if_pos rfl,hn]
      · exact hplaces q hq
    · intro j hj
      have hbefore : j < p.1 := hj p List.mem_cons_self
      rw [hspared j fun q hq => hj q (List.mem_cons_of_mem _ hq),
        storeUnsigned_get bytes (Fin.le_of_lt hbefore) n,if_neg (Fin.ne_of_lt hbefore)]

/-- After a round with an address in the first column the entry has its octets and no IP address,
and the other entries are as they were. -/
theorem stationLog_address {P : Platform ω} (L : Layout) {nullSlack : Bool} {assocCnt : Nat}
    {line : Str} {octets : Fin 6 → Char × Char} (hhex : ∀ k, HexDigits (octets k)) (tail : Str)
    (htail : ∀ c ∈ tail.head?, digitOf 16 c = none)
    (hcolumn : (tokens [' '] line)[0]? = some (macText ((List.finRange 6).map octets) ++ tail))
    {log : Log UInt8} (h : stationLog P L nullSlack assocCnt line = some log)
    (m : Int → UInt8) :
    (∀ k : Fin 6, after m log ((assocCnt*L.size : Nat)+L.addresses+k.val) = octet (octets k)) ∧
    (∀ k : Nat, k < 64 → after m log ((assocCnt*L.size : Nat)+L.addresses+6+k) = 0) ∧
    ∀ j k : Nat, j ≠ assocCnt → k < L.size →
      after m log ((j*L.size : Nat)+k) = m ((j*L.size : Nat)+k) := by
  -- whatever the entry held before
  have hbytes : Bytes m ((assocCnt*L.size : Nat)+L.addresses)
      (Vector.ofFn fun k : Fin 70 => m ((assocCnt*L.size : Nat)+L.addresses+k.val)) := by
    intro k hk
    rw [Vector.getElem_ofFn]
  have hround := stationLog_bytes h hbytes
  rw [hcolumn] at hround
  have hfst : ((List.finRange 6).map fun k => (k,octets k)).map Prod.fst = List.finRange 6 := by
    rw [List.map_map]
    exact List.map_id _
  have hsnd : ((List.finRange 6).map fun k => (k,octets k)).map Prod.snd =
      (List.finRange 6).map octets := by
    rw [List.map_map]
    rfl
  have hplaces := (scanMac_octets ((List.finRange 6).map fun k => (k,octets k))
    (by rw [hfst]; decide) (by simp [hhex]) htail
    (Vector.ofFn fun k : Fin 70 => m ((assocCnt*L.size : Nat)+L.addresses+k.val))).1
  rw [hfst,hsnd] at hplaces
  refine ⟨fun k => ?_,fun k hk => ?_,fun j k hj hk => ?_⟩
  · have hk := k.isLt
    rw [hround k.val (by omega),clearIPAddress,Vector.getElem_ofFn,if_pos hk]
    exact hplaces (k,octets k) (List.mem_map_of_mem (List.mem_finRange k))
  · have hindex : ((assocCnt*L.size : Nat) : Int)+L.addresses+6+k =
        (assocCnt*L.size : Nat)+L.addresses+(6+k : Nat) := by
      omega
    rw [hindex,hround (6+k) (by omega),clearIPAddress_behind _ _ _ (by omega)]
  · exact stationLog_frame h m (entry_outside hj hk)

def packed : Layout where
  size := 320
  addresses := 0
  number
    | .authenticationState => 70
    | .lastDataDownlinkRate => 72
    | .lastDataUplinkRate => 76
    | .signalStrength => 80
    | .retransmissions => 84
    | .active => 88
    | .snr => 92
    | .dataFramesSentAck => 96
    | .dataFramesSentNoAck => 104
    | .bytesSent => 112
    | .bytesReceived => 120
    | .rssi => 316
  width
    | .authenticationState | .active => 1
    | .dataFramesSentAck | .dataFramesSentNoAck | .bytesSent | .bytesReceived => 8
    | _ => 4
  text
    | .operatingStandard => 124
    | .operatingChannelBandwidth => 188
    | .interferenceSources => 252
  addresses_inside := by decide
  number_inside f := by cases f <;> decide
  number_apart f := by cases f <;> decide
  text_inside f := by cases f <;> decide
  text_apart f := by cases f <;> decide

def sixOctets : Fin 6 → Char × Char
  | 0 => ('0','0')
  | 1 => ('1','a')
  | 2 => ('2','B')
  | 3 => ('3','c')
  | 4 => ('4','D')
  | 5 => ('f','f')

theorem stationLog_address_second : ∃ log,
    stationLog (Platform.answering none) packed false 1 "00:1a:2B:3c:4D:ff 1 6 54M 11M 40".toList =
      some log ∧
    after (fun _ => 255) log 325 = 255 ∧ after (fun _ => 255) log 324 = 77 ∧
    after (fun _ => 255) log 326 = 0 ∧ after (fun _ => 255) log 3 = 255 := by
  obtain ⟨log,hlog⟩ := Option.isSome_iff_exists.mp (show (stationLog (Platform.answering none)
    packed false 1 "00:1a:2B:3c:4D:ff 1 6 54M 11M 40".toList).isSome = true by decide)
  obtain ⟨hoctets,haddress,hothers⟩ := stationLog_address packed
    (show ∀ k, HexDigits (sixOctets k) by decide) [] (by simp) (by decide) hlog (fun _ => 255)
  exact ⟨log,hlog,hoctets 5,hoctets 4,haddress 0 (by decide),hothers 0 3 (by decide) (by decide)⟩

/-! What the caller holds -/

/-- A failure leaves no table; one that is reported to have entries is there, with all of them. -/
structure Published (d : Diagnostic) : Prop where
  failed : d.ret ≠ .ok → d.outputArraySize = 0 ∧ d.associatedDevArray = none
  returned : d.ret = .ok → 0 < d.outputArraySize →
    ∃ devs, d.associatedDevArray = some devs ∧ devs.length = d.outputArraySize.toNat

theorem published_empty (ret : Ret) : Published ⟨ret,none,0⟩ where
  failed _ := ⟨rfl,rfl⟩
  returned _ hsize := absurd hsize (UInt32.lt_irrefl 0)

def stationCount (P : Platform ω) (apIndex : Int32) (buf : Str) (os : Os ω) : UInt32 × Os ω :=
  let (_,buf,os) := syscmd P (countCommand P apIndex) buf 2048 os
  ((atoi buf).toUInt32,os)

theorem stationLoop_unallocated {P : Platform ω} {size : Nat} (hsize : 0 < size) {file : Str}
    {result : Option (List AssociatedDev)} :
    stationLoop P size (fgetsAll 200 file) 0 none = some result ↔ cstr file = [] ∧ result = none := by
  by_cases hfile : file = []
  · subst hfile
    simp [fgetsAll_nil,stationLoop,cstr,eq_comm]
  · obtain ⟨chunk,chunks,hreads,hfirst⟩ := fgetsAll_first (n := 200) (by decide) hfile
    rw [hreads,stationLoop,← hfirst]
    by_cases hchunk : cstr chunk = []
    · simp [hchunk,eq_comm]
    · have hgo : ¬(cstr chunk = [] ∨ size ≤ 0) := not_or.mpr ⟨hchunk,by omega⟩
      rw [if_neg hgo]
      simp [hchunk]

/-- With entries to fill, the caller is given what it is told of where the file is opened and, of a
file that holds something, where there is memory. -/
theorem fillStations_published_iff (P : Platform ω) (apIndex : Int32) {size : UInt32}
    (hsize : 0 < size) (os : Os ω) :
    (∀ d os', fillStations P apIndex size os = some (d,os') → Published d) ↔
      ∃ file, (P.popen (fileLine apIndex) (P.calloc size.toNat os.world).2).1 = some file ∧
        ((P.calloc size.toNat os.world).1 = true ∨ cstr file ≠ []) := by
  have hpos : 0 < size.toNat := UInt32.lt_iff_toNat_lt.mp hsize
  simp only [fillStations,fileCommand_fits,Platform.shell]
  cases hfile : (P.popen (fileLine apIndex) (P.calloc size.toNat os.world).2).1 with
  | none =>
    simp only [reduceCtorEq,false_and,exists_false,iff_false]
    intro h
    have hnone : size = 0 := ((h _ _ rfl).failed Ret.noConfusion).1
    exact absurd hsize (hnone ▸ UInt32.lt_irrefl 0)
  | some file =>
    simp only [Option.some.injEq,exists_eq_left']
    cases hcalloc : (P.calloc size.toNat os.world).1 with
    | true =>
      simp only [if_true,true_or,iff_true]
      intro d os' h
      obtain ⟨result,hloop,hd⟩ := Option.map_eq_some_iff.mp h
      obtain ⟨rfl,_⟩ := Prod.mk.inj hd
      obtain ⟨final,rfl,hlen,_⟩ := stationLoop_frame hloop
      exact ⟨fun hfail => absurd rfl hfail,
        fun _ _ => ⟨final,rfl,hlen.trans List.length_replicate⟩⟩
    | false =>
      simp only [Bool.false_eq_true,if_false,false_or]
      constructor
      · intro h hempty
        have hloop := (stationLoop_unallocated (P := P) hpos).mpr ⟨hempty,rfl⟩
        obtain ⟨_,hnone,_⟩ := (h _ _ (by rw [hloop]; rfl)).returned rfl hsize
        cases hnone
      · intro hsome d os' h
        obtain ⟨result,hloop,_⟩ := Option.map_eq_some_iff.mp h
        exact absurd ((stationLoop_unallocated hpos).mp hloop).1 hsome

/-- The table is published before it can be filled. -/
theorem diagnosticResult_published_iff (P : Platform ω) (apIndex : Int32) (buf : Str) (os : Os ω) :
    (∀ d os', wifiGetApAssociatedDeviceDiagnosticResult P apIndex buf os = some (d,os') →
      Published d) ↔
    apIndex < 0 ∨ (stationCount P apIndex buf os).1 = 0 ∨
      ∃ file, (P.popen (fileLine apIndex) (P.calloc (stationCount P apIndex buf os).1.toNat
          (stationCount P apIndex buf os).2.world).2).1 = some file ∧
        ((P.calloc (stationCount P apIndex buf os).1.toNat
          (stationCount P apIndex buf os).2.world).1 = true ∨ cstr file ≠ []) := by
  rw [wifiGetApAssociatedDeviceDiagnosticResult]
  by_cases hneg : apIndex < 0
  · rw [if_pos hneg]
    refine iff_of_true ?_ (Or.inl hneg)
    intro d os' h
    cases h
    exact published_empty .err
  · rw [if_neg hneg,or_iff_right hneg]
    change (∀ d os', (if (stationCount P apIndex buf os).1 ≤ 0 then _ else
      fillStations P apIndex (stationCount P apIndex buf os).1
        (stationCount P apIndex buf os).2) = _ → _) ↔ _
    by_cases hzero : (stationCount P apIndex buf os).1 = 0
    · rw [if_pos (by rw [hzero]; exact UInt32.le_refl 0)]
      refine iff_of_true ?_ (Or.inl hzero)
      intro d os' h
      cases h
      exact published_empty .ok
    · have hpos : 0 < (stationCount P apIndex buf os).1 := UInt32.pos_iff_ne_zero.mpr hzero
      rw [if_neg (UInt32.not_le.mpr hpos),or_iff_right hzero]
      exact fillStations_published_iff P apIndex hpos _

def unopenedPlatform : Platform Unit :=
  { Platform.answering none with
    popen cmd w := (if cmd.head? = some 'c' then none else some "2\n".toList,w) }

theorem diagnosticResult_unopened : ∃ d os',
    wifiGetApAssociatedDeviceDiagnosticResult unopenedPlatform 0 [] ⟨(),[]⟩ = some (d,os') ∧
      d.ret = .err ∧ d.outputArraySize = 2 ∧
      d.associatedDevArray = some [AssociatedDev.zero,AssociatedDev.zero] ∧ ¬Published d := by
  have hrun : (wifiGetApAssociatedDeviceDiagnosticResult unopenedPlatform 0 [] ⟨(),[]⟩).map
      Prod.fst = some ⟨.err,some [AssociatedDev.zero,AssociatedDev.zero],2⟩ := by
    decide +kernel
  obtain ⟨⟨d,os'⟩,hresult,hd⟩ := Option.map_eq_some_iff.mp hrun
  cases hd
  exact ⟨_,os',hresult,rfl,rfl,rfl,fun h => absurd (h.failed Ret.noConfusion).1 (by decide)⟩

end RdkHal.Wifi
