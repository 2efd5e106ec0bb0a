import RdkHal.Lib.Bytes

/-! What the HAL uses of code outside its repository: the bounded string functions of
safec and the shell behind `system` and `popen`. Both stay parameters; the fields that are
equations state the documented behaviour the HAL relies on. -/

set_option autoImplicit false

namespace RdkHal
open Text

inductive Ret where
  | ok
  | err
  deriving DecidableEq, Repr

/-- Each function yields its `errno_t` and the text its destination holds afterwards.
The first argument is the size of the destination. A result that does not fit is reported
and leaves the empty text; `ERR_CHK` only logs the report. Only `memcpyS` is about bytes: it
is given those of the destination, and yields them. -/
structure Safec where
  strcpyS : Nat → Str → Int × Str
  sprintfS : Nat → Str → Int × Str
  strcatS : Nat → Str → Str → Int × Str
  strncpyS : Nat → Str → Nat → Int × Str
  memcpyS : Nat → Bytes → Bytes → Nat → Int × Bytes
  strcpyS_fits : ∀ n s, s.length < n → strcpyS n s = (0,s)
  strcpyS_over : ∀ n s, n ≤ s.length → (strcpyS n s).1 ≠ 0 ∧ (strcpyS n s).2 = []
  sprintfS_fits : ∀ n s, s.length < n → sprintfS n s = (Int.ofNat s.length,s)
  sprintfS_over : ∀ n s, n ≤ s.length → (sprintfS n s).1 < 0 ∧ (sprintfS n s).2 = []
  strcatS_fits : ∀ n d s, d.length + s.length < n → strcatS n d s = (0,d ++ s)
  strcatS_over : ∀ n d s, n ≤ d.length + s.length → (strcatS n d s).1 ≠ 0 ∧ (strcatS n d s).2 = []
  strncpyS_fits : ∀ n s k, k < n → strncpyS n s k = (0,s.take k)
  memcpyS_fits : ∀ n d s k, k ≤ n → memcpyS n d s k = (0,s.take k ++ d.drop k)

def Safec.reference : Safec where
  strcpyS n s := if s.length < n then (0,s) else (406,[])
  sprintfS n s := if s.length < n then (Int.ofNat s.length,s) else (-406,[])
  strcatS n d s := if d.length + s.length < n then (0,d ++ s) else (406,[])
  strncpyS n s k := if k < n then (0,s.take k) else (406,[])
  memcpyS n d s k := if k ≤ n then (0,s.take k ++ d.drop k) else (403,d)
  strcpyS_fits n s h := by simp [h]
  strcpyS_over n s h := by simp [Nat.not_lt.mpr h]
  sprintfS_fits n s h := by simp [h]
  sprintfS_over n s h := by simp [Nat.not_lt.mpr h]
  strcatS_fits n d s h := by simp [h]
  strcatS_over n d s h := by simp [Nat.not_lt.mpr h]
  strncpyS_fits n s k h := by simp [h]
  memcpyS_fits n d s k h := by simp [h]

variable (lib : Safec)

theorem Safec.strcpyS_text (n : Nat) (s : Str) :
    (lib.strcpyS n s).2 = if s.length < n then s else [] := by
  by_cases h : s.length < n
  · simp [h,lib.strcpyS_fits n s h]
  · simp [h,(lib.strcpyS_over n s (Nat.not_lt.mp h)).2]

theorem Safec.sprintfS_text (n : Nat) (s : Str) :
    (lib.sprintfS n s).2 = if s.length < n then s else [] := by
  by_cases h : s.length < n
  · simp [h,lib.sprintfS_fits n s h]
  · simp [h,(lib.sprintfS_over n s (Nat.not_lt.mp h)).2]

theorem Safec.strcatS_text (n : Nat) (d s : Str) :
    (lib.strcatS n d s).2 = if d.length + s.length < n then d ++ s else [] := by
  by_cases h : d.length + s.length < n
  · simp [h,lib.strcatS_fits n d s h]
  · simp [h,(lib.strcatS_over n d s (Nat.not_lt.mp h)).2]

@[simp] theorem Safec.strcpyS_nil (n : Nat) : (lib.strcpyS n []).2 = [] := by
  simp [lib.strcpyS_text]

theorem Safec.strcpyS_eq_iff (n : Nat) (s : Str) :
    (lib.strcpyS n s).2 = s ↔ s.length < n ∨ s = [] := by
  rw [lib.strcpyS_text]
  by_cases h : s.length < n
  · simp [h]
  · simp [h,eq_comm]

theorem Safec.sprintfS_eq_iff (n : Nat) (s : Str) :
    (lib.sprintfS n s).2 = s ↔ s.length < n ∨ s = [] := by
  rw [lib.sprintfS_text]
  by_cases h : s.length < n
  · simp [h]
  · simp [h,eq_comm]

/-- The operating system as the HAL sees it. The state `σ` is whatever decides the answers;
`popen` yields the text the command prints, or `none` when it returns NULL. -/
structure Shell (σ : Type) where
  system : Str → σ → σ
  popen : Str → σ → Option Str

end RdkHal
