import RdkHal.Lib.Text

/-! Character arrays byte by byte, and the strings that they hold. -/

set_option autoImplicit false

namespace Text

/-- The bytes of an array; `none` is the zero byte, which ends a string. -/
abbrev Bytes := List (Option Char)

/-- An array of `n` bytes, cleared before the string was stored. -/
def arrayOf (n : Nat) (s : Str) : Bytes := s.map some ++ List.replicate (n-s.length) none

def strAt : Bytes → Option Str
  | [] => none
  | none :: _ => some []
  | some c :: b => (strAt b).map (c :: ·)

theorem strAt_append (s : Str) (b : Bytes) :
    strAt (s.map some ++ b) = (strAt b).map (s ++ ·) := by
  induction s with
  | nil => simp
  | cons c s ih =>
    rw [List.map_cons,List.cons_append,strAt,ih,Option.map_map]
    rfl

theorem strAt_eq_nil {b : Bytes} : strAt b = some [] ↔ b[0]? = some none := by
  cases b with
  | nil => simp [strAt]
  | cons x b => cases x <;> simp [strAt]

theorem arrayOf_take (n k : Nat) (s : Str) : (arrayOf n s).take k =
    (s.take k).map some ++ List.replicate (min (k-s.length) (n-s.length)) none := by
  rw [arrayOf,List.take_append,List.map_take,List.length_map,List.take_replicate]

/-- All bytes of a string but the last of its array, copied over the start of another one. -/
theorem strAt_copied {n : Nat} {s : Str} (hs : s.length < n) (b : Bytes) :
    strAt ((arrayOf n s).take (n-1) ++ b.drop (n-1)) = some s ↔
      s.length < n-1 ∨ b[n-1]? = some none := by
  have htake : s.take (n-1) = s := List.take_of_length_le (by omega)
  rw [arrayOf_take,htake,List.append_assoc,strAt_append]
  by_cases hlt : s.length < n-1
  · obtain ⟨k,hk⟩ : ∃ k, min (n-1-s.length) (n-s.length) = k+1 :=
      ⟨min (n-1-s.length) (n-s.length) - 1,by omega⟩
    rw [hk,List.replicate_succ,List.cons_append,strAt]
    simp [hlt]
  · have hk : min (n-1-s.length) (n-s.length) = 0 := by omega
    have hnil : ∀ t : Option Str, t.map (s ++ ·) = some s ↔ t = some [] := by
      intro t
      cases t <;> simp
    rw [hk,List.replicate_zero,List.nil_append,hnil,strAt_eq_nil,List.getElem?_drop,Nat.add_zero]
    simp [hlt]

theorem strAt_cleared {n : Nat} (hn : 0 < n) (s : Str) :
    strAt ((arrayOf n s).take (n-1) ++ (arrayOf n []).drop (n-1)) = some (s.take (n-1)) := by
  have hrest : (arrayOf n []).drop (n-1) = [none] := by
    rw [arrayOf,List.map_nil,List.nil_append,List.length_nil,Nat.sub_zero,List.drop_replicate,
      Nat.sub_sub_self hn]
    rfl
  have hend : ∀ k : Nat, strAt (List.replicate k none ++ [none]) = some [] := by
    intro k
    cases k <;> rfl
  rw [hrest,arrayOf_take,List.append_assoc,strAt_append,hend,Option.map_some,List.append_nil]

end Text
