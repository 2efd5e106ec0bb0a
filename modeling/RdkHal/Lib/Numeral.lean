import RdkHal.Lib.Text

/-! Decimal numerals as the C library reads them: `strtok`, `strtol` to base ten and `atoi`,
with `long` of 64 and `int` of 32 bits. -/

set_option autoImplicit false

namespace Text

def decimal (s : Str) : Nat := s.foldl (fun n c => 10*n+(c.toNat - '0'.toNat)) 0

/-- The text is a numeral for `n`; leading zeros are allowed. -/
structure Numeral (s : Str) (n : Nat) : Prop where
  ne_nil : s ≠ []
  digits : ∀ c ∈ s, c.isDigit = true
  value : decimal s = n

def clampLong (z : Int) : Int := max (-2^63) (min z (2^63-1))

/-- White space, an optional sign, and as many digits as there are. -/
def strtol (s : Str) : Int :=
  match s.dropWhile isSpace with
  | '-' :: rest => clampLong (-(decimal (rest.takeWhile Char.isDigit) : Int))
  | '+' :: rest => clampLong (decimal (rest.takeWhile Char.isDigit))
  | rest => clampLong (decimal (rest.takeWhile Char.isDigit))

def atoi (s : Str) : Int32 := Int32.ofInt (strtol s)

/-- The first token of a text; there is none where all characters are delimiters. -/
def strtok (delims : List Char) (s : Str) : Option Str :=
  match (s.dropWhile (· ∈ delims)).takeWhile (· ∉ delims) with
  | [] => none
  | token => some token

theorem strtok_none {delims : List Char} {s : Str} : strtok delims s = none ↔ ∀ c ∈ s, c ∈ delims := by
  rw [strtok]
  cases hdrop : s.dropWhile (· ∈ delims) with
  | nil => simpa using List.dropWhile_eq_nil_iff.mp hdrop
  | cons c rest =>
    have hc : c ∉ delims := by
      have hhead := List.head?_dropWhile_not (· ∈ delims) s
      rw [hdrop] at hhead
      simpa using hhead
    have hmem : c ∈ s := (List.dropWhile_suffix _).subset (hdrop ▸ List.mem_cons_self)
    refine iff_of_false ?_ (fun h => hc (h c hmem))
    simp [hc]

theorem strtok_within {delims : List Char} {s t : Str} (h : strtok delims s = some t) :
    t ≠ [] ∧ t <:+: s := by
  rw [strtok] at h
  split at h
  · cases h
  · rename_i hne
    obtain rfl := Option.some.inj h
    exact ⟨hne,(List.takeWhile_prefix _).isInfix.trans (List.dropWhile_suffix _).isInfix⟩

theorem Numeral.not_mem {s : Str} {n : Nat} (h : Numeral s n) {c : Char} (hc : c.isDigit = false) :
    c ∉ s := by
  intro hmem
  rw [h.digits c hmem] at hc
  cases hc

theorem Numeral.takeWhile_append {s : Str} {n : Nat} (h : Numeral s n) {t : Str}
    (ht : ∀ c ∈ t.head?, c.isDigit = false) : (s ++ t).takeWhile Char.isDigit = s := by
  rw [List.takeWhile_append_of_pos h.digits]
  cases t with
  | nil => simp
  | cons d t => simp [ht d rfl]

theorem isDigit_not_space {c : Char} (hc : c.isDigit = true) : isSpace c = false := by
  simp only [Char.isDigit,Bool.and_eq_true,decide_eq_true_eq] at hc
  simp only [isSpace,Bool.or_eq_false_iff,Bool.and_eq_false_iff,beq_eq_false_iff_ne,
    decide_eq_false_iff_not]
  have hlow : 48 ≤ c.toNat := hc.1
  omega

/-- A number beyond the range of `long` is read as its end; what follows the digits is not read. -/
theorem Numeral.strtol_append {s : Str} {n : Nat} (h : Numeral s n) {t : Str}
    (ht : ∀ c ∈ t.head?, c.isDigit = false) : strtol (s ++ t) = (min n (2^63-1) : Nat) := by
  have hall := h.takeWhile_append ht
  obtain ⟨hne,hdigits,rfl⟩ := h
  cases s with
  | nil => exact absurd rfl hne
  | cons c s =>
    have hc := hdigits c (by simp)
    have hskip : (c :: (s ++ t)).dropWhile isSpace = c :: (s ++ t) := by
      rw [List.dropWhile_cons_of_neg (by simp [isDigit_not_space hc])]
    have hminus : c ≠ '-' := by
      rintro rfl
      exact absurd hc (by decide)
    have hplus : c ≠ '+' := by
      rintro rfl
      exact absurd hc (by decide)
    have hvalue : Text.strtol (c :: (s ++ t)) = clampLong (decimal (c :: s)) := by
      rw [Text.strtol,hskip]
      split
      · rename_i heq
        exact absurd (List.cons.inj heq).1 hminus
      · rename_i heq
        exact absurd (List.cons.inj heq).1 hplus
      · rw [← List.cons_append,hall]
    rw [List.cons_append,hvalue,clampLong]
    omega

theorem Numeral.strtol_minus {s : Str} {n : Nat} (h : Numeral s n) {t : Str}
    (ht : ∀ c ∈ t.head?, c.isDigit = false) : Text.strtol ('-' :: (s ++ t)) = clampLong (-n) := by
  have hskip : ('-' :: (s ++ t)).dropWhile isSpace = '-' :: (s ++ t) := by
    rw [List.dropWhile_cons_of_neg (by decide)]
  simp only [Text.strtol,hskip,h.takeWhile_append ht,h.value]

theorem Numeral.strtol {s : Str} {n : Nat} (h : Numeral s n) :
    strtol s = (min n (2^63-1) : Nat) := by
  have hall := h.strtol_append (t := []) (by simp)
  rwa [List.append_nil] at hall

theorem Numeral.atoi_append {s : Str} {n : Nat} (h : Numeral s n) {t : Str}
    (ht : ∀ c ∈ t.head?, c.isDigit = false) : atoi (s ++ t) = atoi s := by
  rw [Text.atoi,h.strtol_append ht,Text.atoi,h.strtol]

theorem Numeral.atoi_mod {s : Str} {n : Nat} (h : Numeral s n) :
    (atoi s).toUInt32.toNat = min n (2^63-1) % 2^32 := by
  rw [Text.atoi,h.strtol]
  have hbits (k : Nat) : (Int32.ofInt (k : Int)).toUInt32.toNat = (BitVec.ofInt 32 (k : Int)).toNat := rfl
  rw [hbits,BitVec.toNat_ofInt]
  omega

theorem Numeral.atoi {s : Str} {n : Nat} (h : Numeral s n) (hn : n < 2^31) :
    (atoi s).toUInt32.toNat = n := by
  rw [h.atoi_mod]
  omega

theorem numeral_toDigits (n : Nat) : Numeral (Nat.toDigits 10 n) n where
  ne_nil := Nat.toDigits_ne_nil
  digits _ hc := Nat.isDigit_of_mem_toDigits (by decide) (by decide) hc
  value := Nat.ofDigitChars_toDigits (by decide) (by decide)

theorem toInt_cases (n : Int32) :
    (n.toUInt32.toNat < 2^31 ∧ n.toInt = n.toUInt32.toNat) ∨
    (2^31 ≤ n.toUInt32.toNat ∧ n.toUInt32.toNat < 2^32 ∧
      n.toInt = (n.toUInt32.toNat : Int)-2^32) := by
  have hlt : n.toUInt32.toNat < 2^32 := n.toUInt32.toNat_lt
  have hcond : n.toInt = if 2*n.toUInt32.toNat < 2^32 then (n.toUInt32.toNat : Int)
      else (n.toUInt32.toNat : Int)-2^32 := BitVec.toInt_eq_toNat_cond n.toUInt32.toBitVec
  by_cases h : 2*n.toUInt32.toNat < 2^32
  · rw [if_pos h] at hcond
    exact Or.inl ⟨by omega,hcond⟩
  · rw [if_neg h] at hcond
    exact Or.inr ⟨by omega,hlt,hcond⟩

def formatD (n : Int32) : Str :=
  if n.toInt < 0 then '-' :: Nat.toDigits 10 n.toInt.natAbs else Nat.toDigits 10 n.toInt.natAbs

theorem formatD_length (n : Int32) : (formatD n).length ≤ 11 := by
  have hlow := n.le_toInt
  have hhigh := n.toInt_lt
  have hdigits : (Nat.toDigits 10 n.toInt.natAbs).length ≤ 10 :=
    (Nat.length_toDigits_le_iff (by decide) (by decide)).mpr (by omega)
  rw [formatD]
  split
  · rw [List.length_cons]
    omega
  · omega

theorem formatD_length_le_iff {n : Int32} {k : Nat} (hk : 0 < k) :
    (formatD n).length ≤ k+1 ↔ -10^k < n.toInt ∧ n.toInt < 10^(k+1) := by
  have hpow : (10 : Int)^k = (10^k : Nat) := by push_cast; rfl
  have hpow' : (10 : Int)^(k+1) = (10^(k+1) : Nat) := by push_cast; rfl
  have hle : 10^k ≤ 10^(k+1) := Nat.pow_le_pow_right (by decide) (by omega)
  rw [formatD,hpow,hpow']
  split
  · rw [List.length_cons,Nat.add_le_add_iff_right,
      Nat.length_toDigits_le_iff (by decide) hk]
    omega
  · rw [Nat.length_toDigits_le_iff (by decide) (by omega)]
    omega

theorem formatD_chars (n : Int32) : ∀ c ∈ formatD n, c = '-' ∨ c.isDigit = true := by
  intro c hc
  rw [formatD] at hc
  split at hc
  · rcases List.mem_cons.mp hc with rfl | hc
    · exact Or.inl rfl
    · exact Or.inr (Nat.isDigit_of_mem_toDigits (by decide) (by decide) hc)
  · exact Or.inr (Nat.isDigit_of_mem_toDigits (by decide) (by decide) hc)

/-- The conversion `%d`: it fails where no digit follows the sign, and reads as `strtol` else. -/
def scanInt (s : Str) : Option Int32 :=
  let unsigned := match s.dropWhile isSpace with
    | '-' :: rest => rest
    | '+' :: rest => rest
    | rest => rest
  if unsigned.head?.any Char.isDigit then some (atoi s) else none

theorem scanInt_minus {c : Char} (hc : c.isDigit = true) (s : Str) :
    scanInt ('-' :: c :: s) = some (atoi ('-' :: c :: s)) := by
  have hskip : ('-' :: c :: s).dropWhile isSpace = '-' :: c :: s := by
    rw [List.dropWhile_cons_of_neg (by decide)]
  simp only [scanInt,hskip,List.head?_cons,Option.any_some,hc,if_true]

theorem scanInt_digit {c : Char} (hc : c.isDigit = true) (s : Str) :
    scanInt (c :: s) = some (atoi (c :: s)) := by
  have hskip : (c :: s).dropWhile isSpace = c :: s := by
    rw [List.dropWhile_cons_of_neg (by simp [isDigit_not_space hc])]
  simp only [scanInt,hskip]
  split
  · rename_i heq
    obtain ⟨rfl,_⟩ := List.cons.inj heq
    exact absurd hc (by decide)
  · rename_i heq
    obtain ⟨rfl,_⟩ := List.cons.inj heq
    exact absurd hc (by decide)
  · simp [hc]

theorem scanInt_formatD (n : Int32) {t : Str} (ht : ∀ c ∈ t.head?, c.isDigit = false) :
    scanInt (formatD n ++ t) = some n := by
  have hlow := n.le_toInt
  have hhigh := n.toInt_lt
  have hnumeral := numeral_toDigits n.toInt.natAbs
  obtain ⟨d,ds,hdigits⟩ := List.exists_cons_of_ne_nil hnumeral.ne_nil
  have hd : d.isDigit = true := hnumeral.digits d (by simp [hdigits])
  have hminus := hnumeral.strtol_minus ht
  have hplain := hnumeral.strtol_append ht
  rw [formatD]
  rw [hdigits,List.cons_append] at hminus hplain
  split
  · have hclamp : clampLong (-(n.toInt.natAbs : Int)) = n.toInt := by
      rw [clampLong]
      omega
    rw [hdigits,List.cons_append,List.cons_append,scanInt_minus hd,atoi,hminus,hclamp,
      Int32.ofInt_toInt]
  · have hmin : (min n.toInt.natAbs (2^63-1) : Nat) = n.toInt := by omega
    rw [hdigits,List.cons_append,scanInt_digit hd,atoi,hplain,hmin,Int32.ofInt_toInt]

theorem Numeral.strtok {s : Str} {n : Nat} (h : Numeral s n) (delims : List Char)
    (hdelims : ∀ c ∈ delims, c.isDigit = false) {d : Char} (hd : d ∈ delims) (rest : Str) :
    strtok delims (s ++ d :: rest) = some s := by
  have hall : ∀ c ∈ s, decide (c ∉ delims) = true := fun c hc =>
    decide_eq_true fun hmem => h.not_mem (hdelims c hmem) hc
  cases s with
  | nil => exact absurd rfl h.ne_nil
  | cons c s =>
    have hc := hall c (by simp)
    have hskip : ((c :: s) ++ d :: rest).dropWhile (· ∈ delims) = (c :: s) ++ d :: rest := by
      rw [List.cons_append,List.dropWhile_cons_of_neg (by simpa using hc)]
    rw [Text.strtok,hskip,takeWhile_until hall (by simpa using hd)]

end Text
