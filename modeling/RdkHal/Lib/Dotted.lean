import RdkHal.Lib.Inet

/-! Addresses of four bytes in the usual notation, to base ten with dots between: what
`inet_aton` makes of a text that was printed so. -/

set_option autoImplicit false

namespace Inet
open Text

/-- A positive number is printed without leading zeros, so that no other base is chosen. -/
theorem toDigits_head {n : Nat} (hn : 0 < n) : (Nat.toDigits 10 n).head? ≠ some '0' := by
  induction n using Nat.strong_induction_on with
  | _ n ih =>
    by_cases hlt : n < 10
    · have hdigit : ∀ k < 10, 0 < k → [k.digitChar].head? ≠ some '0' := by decide
      rw [Nat.toDigits_of_lt_base hlt]
      exact hdigit n hlt hn
    · rw [Nat.toDigits_of_base_le (by decide) (by omega),
        List.head?_append_of_ne_nil _ Nat.toDigits_ne_nil]
      exact ih (n/10) (by omega) (by omega)

theorem strtoul_toDigits (n : Nat) {t : Str} (ht : ∀ x ∈ t.head?, x = '.') :
    strtoul (Nat.toDigits 10 n ++ t) = (n,t) := by
  have hnone : ∀ base, ∀ x ∈ t.head?, digitOf base x = none := by
    intro base x hx
    rw [ht x hx]
    simp [digitOf]
  by_cases hn : n = 0
  · subst hn
    rw [Nat.toDigits_zero]
    cases t with
    | nil => rfl
    | cons x t =>
      obtain rfl := ht x rfl
      cases t <;> simp [strtoul,number,digitOf]
  · have hhead := toDigits_head (Nat.pos_of_ne_zero hn)
    have hnumber := number_numeral (numeral_toDigits n) (hnone 10)
    obtain ⟨c,s,hs⟩ := List.exists_cons_of_ne_nil (Nat.toDigits_ne_nil (n := n) (b := 10))
    rw [hs] at hhead hnumber ⊢
    have hc : c ≠ '0' := by simpa using hhead
    rw [List.cons_append,strtoul]
    · exact hnumber
    · intro x d rest heq
      exact hc (List.cons.inj heq).1
    · intro rest heq
      exact hc (List.cons.inj heq).1

theorem toDigits_starts (n : Nat) (t : Str) :
    (Nat.toDigits 10 n ++ t).head?.any Char.isDigit = true := by
  obtain ⟨c,s,hs⟩ := List.exists_cons_of_ne_nil (Nat.toDigits_ne_nil (n := n) (b := 10))
  have hc := (numeral_toDigits n).digits c (by simp [hs])
  simp [hs,hc]

theorem inetParts_dot {n : Nat} (hn : n ≤ 255) (dots : Nat) (rest : Str) :
    inetParts (dots+1) (Nat.toDigits 10 n ++ '.' :: rest) =
      (inetParts dots rest).map (fun q => (n :: q.1,q.2)) := by
  have hvalue := strtoul_toDigits n (t := '.' :: rest) (by simp)
  have hnumber : ¬((Nat.toDigits 10 n ++ '.' :: rest).head?.any Char.isDigit = false ∨
      0xffffffff < n) := by
    rw [toDigits_starts]
    simp
    omega
  have hbyte : ¬0xff < n := by omega
  rw [inetParts.eq_def,hvalue,if_neg hnumber]
  simp only [hbyte,if_false]

theorem inetParts_last {n : Nat} (hn : n ≤ 255) (dots : Nat) :
    inetParts dots (Nat.toDigits 10 n) = some ([n],[]) := by
  have hvalue := strtoul_toDigits n (t := []) (by simp)
  have hstarts := toDigits_starts n []
  rw [List.append_nil] at hvalue hstarts
  have hnumber : ¬((Nat.toDigits 10 n).head?.any Char.isDigit = false ∨ 0xffffffff < n) := by
    rw [hstarts]
    simp
    omega
  rw [inetParts.eq_def,hvalue,if_neg hnumber]
  cases dots <;> rfl

structure Quad where
  a : UInt8
  b : UInt8
  c : UInt8
  d : UInt8
  deriving DecidableEq,Repr

namespace Quad

def dotted (q : Quad) : Str :=
  Nat.toDigits 10 q.a.toNat ++ '.' :: (Nat.toDigits 10 q.b.toNat ++
    '.' :: (Nat.toDigits 10 q.c.toNat ++ '.' :: Nat.toDigits 10 q.d.toNat))

def toNat (q : Quad) : Nat :=
  q.a.toNat*2^24+(q.b.toNat*2^16+(q.c.toNat*2^8+q.d.toNat))

/-- The number whose bytes in memory are these. -/
def address (q : Quad) : UInt32 := htonl (UInt32.ofNat q.toNat)

example : memory (Quad.mk 192 168 0 1).address = [192,168,0,1] := by decide

theorem inetAddr_dotted (q : Quad) : inetAddr q.dotted = some q.address := by
  have ha := q.a.toNat_lt
  have hb := q.b.toNat_lt
  have hc := q.c.toNat_lt
  have hd := q.d.toNat_lt
  have hparts : inetParts 3 q.dotted =
      some ([q.a.toNat,q.b.toNat,q.c.toNat,q.d.toNat],[]) := by
    rw [dotted,inetParts_dot (by omega),inetParts_dot (by omega),inetParts_dot (by omega),
      inetParts_last (by omega)]
    rfl
  have hlast : q.d.toNat < 2^8 := hd
  simp only [inetAddr,hparts,List.head?_nil,Option.all_none,if_true,inetValue,Nat.reduceSub,hlast,
    Option.map_some]
  rfl

theorem dotted_ne_nil (q : Quad) : q.dotted ≠ [] := by simp [dotted]

theorem dotted_length (q : Quad) : q.dotted.length ≤ 15 := by
  have hbyte : ∀ x : UInt8, (Nat.toDigits 10 x.toNat).length ≤ 3 := by
    intro x
    have hx := x.toNat_lt
    exact (Nat.length_toDigits_le_iff (by decide) (by decide)).mpr (by omega)
  have ha := hbyte q.a
  have hb := hbyte q.b
  have hc := hbyte q.c
  have hd := hbyte q.d
  simp only [dotted,List.length_append,List.length_cons]
  omega

end Quad

end Inet
