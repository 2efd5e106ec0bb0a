import RdkHal.Lib.Numeral

/-! Internet addresses of the C library on a little-endian machine: byte order, netmasks, and
`inet_aton`, which reads one to four numbers to base ten, eight or sixteen; and the `sscanf`
conversions of unsigned numbers. -/

set_option autoImplicit false

namespace Inet
open Text

def memory (x : UInt32) : List UInt8 :=
  [x.toUInt8,(x >>> 8).toUInt8,(x >>> 16).toUInt8,(x >>> 24).toUInt8]

def htonl (x : UInt32) : UInt32 :=
  (x.toUInt8.toUInt32 <<< 24) ||| ((x >>> 8).toUInt8.toUInt32 <<< 16) |||
    ((x >>> 16).toUInt8.toUInt32 <<< 8) ||| (x >>> 24).toUInt8.toUInt32

theorem memory_htonl (x : UInt32) : memory (htonl x) = (memory x).reverse := by
  simp only [memory,htonl,List.reverse_cons,List.reverse_nil,List.nil_append,List.cons_append,
    List.cons.injEq,and_true]
  refine ⟨?_,?_,?_,?_⟩ <;> apply UInt8.toBitVec_inj.mp <;> ext i hi <;>
    simp [-UInt32.toUInt32_toUInt8] <;> grind

def LeadingOnes (mask : UInt32) (n : Nat) : Prop :=
  ∀ i < 32, mask.toBitVec.getMsbD i = decide (i < n)

/-- The shift of C, which leaves `n ≥ 32` undefined. -/
def shiftLeft (x n : UInt32) : Option UInt32 := if n < 32 then some (x <<< n) else none

theorem shiftLeft_leadingOnes {n : UInt32} (hpos : 0 < n) (hle : n ≤ 32) :
    ∃ mask, shiftLeft 0xFFFFFFFF (32-n) = some mask ∧ LeadingOnes mask n.toNat := by
  have hpos' : 0 < n.toNat := hpos
  have hle' : n.toNat ≤ 32 := hle
  have hdiff : (32-n).toNat = 32-n.toNat := by
    rw [UInt32.toNat_sub_of_le _ _ hle]
    rfl
  have hlt : 32-n < 32 := by
    rw [UInt32.lt_iff_toNat_lt,hdiff]
    change _ < 32
    omega
  have hones : ∀ j, (0xFFFFFFFF#32).getLsbD j = decide (j < 32) :=
    fun j => BitVec.getLsbD_allOnes
  refine ⟨0xFFFFFFFF <<< (32-n),by simp [shiftLeft,hlt],?_⟩
  intro i hi
  have hamount : ((32-n).toBitVec % 32).toNat = 32-n.toNat := by
    change (32-n).toNat % 32 = 32-n.toNat
    omega
  rw [BitVec.getMsbD,UInt32.toBitVec_shiftLeft,BitVec.shiftLeft_eq',hamount,
    BitVec.getLsbD_shiftLeft]
  simp only [UInt32.toBitVec_ofNat,hones,← Bool.decide_and,← decide_not,decide_eq_decide]
  omega

theorem shiftLeft_undefined {n : UInt32} (h : n = 0 ∨ 32 < n) :
    shiftLeft 0xFFFFFFFF (32-n) = none := by
  have hge : ¬32-n < 32 := by
    rw [UInt32.lt_iff_toNat_lt,UInt32.toNat_sub]
    change ¬(2^32-n.toNat+32) % 2^32 < 32
    rcases h with rfl | h
    · decide
    · have hgt : 32 < n.toNat := h
      have hlt := n.toNat_lt
      omega
  simp [shiftLeft,hge]

def digitOf (base : Nat) (c : Char) : Option Nat :=
  let d :=
    if c.isDigit then c.toNat - '0'.toNat
    else if 'a' ≤ c ∧ c ≤ 'z' then c.toNat - 'a'.toNat+10
    else if 'A' ≤ c ∧ c ≤ 'Z' then c.toNat - 'A'.toNat+10
    else base
  if d < base then some d else none

def number (base : Nat) : Nat → Str → Nat × Str
  | n, [] => (n,[])
  | n, c :: s =>
    match digitOf base c with
    | some d => number base (base*n+d) s
    | none => (n,c :: s)

/-- The conversions `%lu` and `%x`, with `long` of 64 bits: white space, an optional sign, and at
least one digit; before hexadecimal digits `0x` may stand. A number beyond the range is read as
its end. -/
def scanUnsigned (base : Nat) (s : Str) : Option (UInt64 × Str) :=
  let (minus,s) := match s.dropWhile isSpace with
    | '-' :: rest => (true,rest)
    | '+' :: rest => (false,rest)
    | rest => (false,rest)
  let digits := match s with
    | '0' :: x :: rest => if base = 16 ∧ (x = 'x' ∨ x = 'X') then some rest else some s
    | c :: _ => if (digitOf base c).isSome then some s else none
    | [] => none
  digits.map fun s =>
    let (n,rest) := number base 0 s
    (if 2^64 ≤ n then UInt64.ofNat (2^64-1) else if minus then -UInt64.ofNat n else UInt64.ofNat n,rest)

theorem digitOf_space {base : Nat} {c : Char} (hc : isSpace c = true) : digitOf base c = none := by
  have hcode : c.toNat ≤ 32 := by
    simp only [isSpace,Bool.or_eq_true,Bool.and_eq_true,beq_iff_eq,decide_eq_true_eq] at hc
    omega
  have hdigit : ¬c.isDigit = true := by
    intro h
    rw [isDigit_not_space h] at hc
    cases hc
  have hlower : ¬('a' ≤ c ∧ c ≤ 'z') := by
    intro h
    have hlow : 97 ≤ c.toNat := h.1
    omega
  have hupper : ¬('A' ≤ c ∧ c ≤ 'Z') := by
    intro h
    have hlow : 65 ≤ c.toNat := h.1
    omega
  simp [digitOf,hdigit,hlower,hupper]

theorem digitOf_lt {base d : Nat} {c : Char} (h : digitOf base c = some d) : d < base := by
  obtain ⟨hlt,heq⟩ := Option.ite_none_right_eq_some.mp h
  exact Option.some.inj heq ▸ hlt

theorem digitOf_ne {base n : Nat} {c x : Char} (hc : digitOf base c = some n)
    (hx : digitOf base x = none) : c ≠ x := by
  rintro rfl
  rw [hx] at hc
  cases hc

theorem number_end {base : Nat} {rest : Str} (hrest : ∀ x ∈ rest.head?, digitOf base x = none)
    (n : Nat) : number base n rest = (n,rest) := by
  cases rest with
  | nil => rfl
  | cons x rest => simp only [number,hrest x rfl]

theorem digitOf_digit {c : Char} (hc : c.isDigit = true) :
    digitOf 10 c = some (c.toNat - '0'.toNat) := by
  have hrange : 48 ≤ c.toNat ∧ c.toNat ≤ 57 := by
    simpa [Char.isDigit,UInt32.le_iff_toNat_le] using hc
  have hlt : c.toNat - '0'.toNat < 10 := by
    change c.toNat-48 < 10
    omega
  simp only [digitOf,hc,if_true,hlt]

theorem number_append {s : Str} (hs : ∀ c ∈ s, c.isDigit = true) (n : Nat) (t : Str) :
    number 10 n (s ++ t) = number 10 (s.foldl (fun n c => 10*n+(c.toNat - '0'.toNat)) n) t := by
  induction s generalizing n with
  | nil => rfl
  | cons c s ih =>
    obtain ⟨hc,hs⟩ := List.forall_mem_cons.mp hs
    simp only [List.cons_append,number,digitOf_digit hc,List.foldl_cons]
    exact ih hs _

theorem number_numeral {s t : Str} {n : Nat} (h : Numeral s n)
    (ht : ∀ x ∈ t.head?, digitOf 10 x = none) : number 10 0 (s ++ t) = (n,t) := by
  rw [number_append h.digits,number_end ht]
  exact congrArg (·,t) h.value

theorem scanUnsigned_numeral {s t : Str} {n : Nat} (h : Numeral s n) (hn : n < 2^64)
    (ht : ∀ x ∈ t.head?, digitOf 10 x = none) :
    scanUnsigned 10 (s ++ t) = some (UInt64.ofNat n,t) := by
  have hnumber := number_numeral h ht
  have hfit : ¬2^64 ≤ n := Nat.not_le.mpr hn
  obtain ⟨c,rest,rfl⟩ := List.exists_cons_of_ne_nil h.ne_nil
  have hc : c.isDigit = true := h.digits c List.mem_cons_self
  have hskip : ((c :: rest) ++ t).dropWhile isSpace = (c :: rest) ++ t :=
    List.dropWhile_cons_of_neg (by simp [isDigit_not_space hc])
  have hminus : c ≠ '-' := digitOf_ne (digitOf_digit hc) (by decide)
  have hplus : c ≠ '+' := digitOf_ne (digitOf_digit hc) (by decide)
  rw [scanUnsigned,hskip]
  split
  rename_i minus s heq
  split at heq
  · rename_i hcons
    exact absurd (List.cons.inj hcons).1 hminus
  · rename_i hcons
    exact absurd (List.cons.inj hcons).1 hplus
  · obtain ⟨rfl,rfl⟩ := Prod.mk.inj heq
    refine (congrArg (Option.map _) ?_).trans (?_ : Option.map _ (some ((c :: rest) ++ t)) = _)
    · -- no `0x` is looked for
      split
      · rename_i hcons
        rw [if_neg (by simp),hcons]
      · rename_i hcons
        obtain ⟨rfl,_⟩ := List.cons.inj hcons
        rw [digitOf_digit hc,Option.isSome_some,if_pos rfl]
      · rename_i hcons
        cases hcons
    · simp only [Option.map_some,hnumber,hfit,if_false,Bool.false_eq_true]

theorem scanUnsigned_two {c d : Char} {high low : Nat} (hc : digitOf 16 c = some high)
    (hd : digitOf 16 d = some low) {rest : Str} (hrest : ∀ x ∈ rest.head?, digitOf 16 x = none) :
    scanUnsigned 16 (c :: d :: rest) = some (UInt64.ofNat (16*high+low),rest) := by
  have hspace : ¬isSpace c = true := by
    intro h
    rw [digitOf_space h] at hc
    cases hc
  have hskip : (c :: d :: rest).dropWhile isSpace = c :: d :: rest :=
    List.dropWhile_cons_of_neg hspace
  have hnumber : number 16 0 (c :: d :: rest) = (16*high+low,rest) := by
    simp only [number,hc,hd,Nat.mul_zero,Nat.zero_add,number_end hrest]
  have hsmall : ¬2^64 ≤ 16*high+low := by
    have hhigh := digitOf_lt hc
    have hlow := digitOf_lt hd
    omega
  have hminus : c ≠ '-' := digitOf_ne hc (by decide)
  have hplus : c ≠ '+' := digitOf_ne hc (by decide)
  have hx : d ≠ 'x' := digitOf_ne hd (by decide)
  have hX : d ≠ 'X' := digitOf_ne hd (by decide)
  have hprefix : ¬(16 = 16 ∧ (d = 'x' ∨ d = 'X')) := by simp [hx,hX]
  rw [scanUnsigned,hskip]
  split
  rename_i minus s heq
  split at heq
  · rename_i hcons
    exact absurd (List.cons.inj hcons).1 hminus
  · rename_i hcons
    exact absurd (List.cons.inj hcons).1 hplus
  · obtain ⟨rfl,rfl⟩ := Prod.mk.inj heq
    refine (congrArg (Option.map _) ?_).trans (?_ : Option.map _ (some (c :: d :: rest)) = _)
    · -- no `0x` stands before the digits
      split
      · rename_i hcons
        obtain ⟨rfl,rfl⟩ := List.cons.inj (List.cons.inj hcons).2
        rw [if_neg hprefix]
      · rename_i hcons
        obtain ⟨rfl,_⟩ := List.cons.inj hcons
        rw [hc,Option.isSome_some,if_pos rfl]
      · rename_i hcons
        cases hcons
    · simp only [Option.map_some,hnumber,hsmall,if_false,Bool.false_eq_true]

/-- `strtoul` to base zero, at a digit: a leading `0x` or `0` chooses the base. -/
def strtoul (s : Str) : Nat × Str :=
  match s with
  | '0' :: x :: c :: rest =>
    if (x = 'x' ∨ x = 'X') ∧ (digitOf 16 c).isSome then number 16 0 (c :: rest)
    else number 8 0 s
  | '0' :: _ => number 8 0 s
  | _ => number 10 0 s

/-- The parts between the dots, and what follows the last one. At most `dots` dots are left,
and a part before a dot is a byte. -/
def inetParts (dots : Nat) (s : Str) : Option (List Nat × Str) :=
  if (s.head?.any Char.isDigit) = false ∨ 0xffffffff < (strtoul s).1 then none
  else
    match dots, (strtoul s).2 with
    | 0, '.' :: _ => none
    | dots+1, '.' :: rest =>
      if 0xff < (strtoul s).1 then none
      else (inetParts dots rest).map (fun q => ((strtoul s).1 :: q.1,q.2))
    | _, rest => some ([(strtoul s).1],rest)

def inetValue : Nat → List Nat → Option Nat
  | _, [] => none
  | bits, [last] => if last < 2^bits then some last else none
  | bits, p :: parts => (inetValue (bits-8) parts).map (p*2^(bits-8)+·)

def inetAddr (s : Str) : Option UInt32 :=
  match inetParts 3 s with
  | none => none
  | some (parts,rest) =>
    if rest.head?.all isSpace then (inetValue 32 parts).map (fun n => htonl (UInt32.ofNat n))
    else none

/-- A text that is rejected leaves the address as it is. -/
def inetAton (s : Str) (addr : UInt32) : Int × UInt32 :=
  match inetAddr s with
  | some a => (1,a)
  | none => (0,addr)

end Inet
