import RdkHal.Lib.Text

/-! Writes to the memory around an array. Indices are relative to its start, so
those outside the array are negative or at least its size. -/

set_option autoImplicit false

namespace Memory
open Text

variable {α : Type}

abbrev Log (α : Type) := List (Int × α)

def Inside (n : Int) (log : Log α) : Prop := ∀ w ∈ log, 0 ≤ w.1 ∧ w.1 < n

def after (m : Int → α) : Log α → Int → α
  | [] => m
  | w :: log => after (fun j => if j = w.1 then w.2 else m j) log

/-- A text stored with its terminator. -/
def store (i : Int) : Str → Log Char
  | [] => [(i,'\x00')]
  | c :: s => (i,c) :: store (i+1) s

def Chars (m : Int → Char) (i : Int) : Str → Prop
  | [] => True
  | c :: s => m i = c ∧ Chars m (i+1) s

/-- The array holds this C string from the index `i` on. -/
def Holds (m : Int → Char) (i : Int) (s : Str) : Prop :=
  Chars m i s ∧ '\x00' ∉ s ∧ m (i+s.length) = '\x00'

@[simp] theorem inside_nil (n : Int) : Inside n ([] : Log α) := by simp [Inside]

@[simp] theorem inside_cons (n : Int) (w : Int × α) (log : Log α) :
    Inside n (w :: log) ↔ (0 ≤ w.1 ∧ w.1 < n) ∧ Inside n log :=
  List.forall_mem_cons

@[simp] theorem inside_append (n : Int) (log log' : Log α) :
    Inside n (log ++ log') ↔ Inside n log ∧ Inside n log' :=
  List.forall_mem_append

theorem inside_store {n i : Int} {s : Str} (hi : 0 ≤ i) :
    Inside n (store i s) ↔ i+s.length < n := by
  induction s generalizing i with
  | nil =>
    simp [store,hi]
  | cons c s ih =>
    rw [store,inside_cons,ih (by omega),List.length_cons]
    push_cast
    omega

theorem after_append (m : Int → α) (log log' : Log α) :
    after m (log ++ log') = after (after m log) log' := by
  induction log generalizing m with
  | nil => rfl
  | cons w log ih => exact ih _

theorem after_frame {m : Int → α} {log : Log α} {j : Int} (h : ∀ w ∈ log, w.1 ≠ j) :
    after m log j = m j := by
  induction log generalizing m with
  | nil => rfl
  | cons w log ih =>
    obtain ⟨hw,hlog⟩ := List.forall_mem_cons.mp h
    rw [after,ih hlog,if_neg (fun heq => hw heq.symm)]

theorem store_from {i : Int} {s : Str} : ∀ w ∈ store i s, i ≤ w.1 := by
  induction s generalizing i with
  | nil => simp [store]
  | cons c s ih =>
    intro w hw
    rcases List.mem_cons.mp hw with rfl | hw
    · exact Int.le_refl _
    · have hle := ih w hw
      omega

theorem chars_append (m : Int → Char) (i : Int) (s t : Str) :
    Chars m i (s ++ t) ↔ Chars m i s ∧ Chars m (i+s.length) t := by
  induction s generalizing i with
  | nil => simp [Chars]
  | cons c s ih =>
    have hindex : i+1+s.length = i+(c :: s).length := by
      rw [List.length_cons]
      push_cast
      omega
    rw [List.cons_append,Chars,Chars,ih,hindex,and_assoc]

theorem chars_frame {m : Int → Char} {log : Log Char} {i : Int} {s : Str} (h : Chars m i s)
    (hlog : ∀ w ∈ log, i+s.length ≤ w.1) : Chars (after m log) i s := by
  induction s generalizing i with
  | nil => trivial
  | cons c s ih =>
    rw [List.length_cons] at hlog
    push_cast at hlog
    refine ⟨?_,ih h.2 (fun w hw => ?_)⟩
    · rw [after_frame (fun w hw => ?_),h.1]
      have hle := hlog w hw
      omega
    · have hle := hlog w hw
      omega

theorem after_store (m : Int → Char) (i : Int) (s : Str) :
    Chars (after m (store i s)) i s ∧ after m (store i s) (i+s.length) = '\x00' := by
  induction s generalizing m i with
  | nil => simp [store,after,Chars]
  | cons c s ih =>
    obtain ⟨hchars,hend⟩ := ih (fun j => if j = i then c else m j) (i+1)
    have hindex : i+(c :: s).length = i+1+s.length := by
      rw [List.length_cons]
      push_cast
      omega
    refine ⟨⟨?_,hchars⟩,?_⟩
    · rw [store,after,after_frame (fun w hw => ?_),if_pos rfl]
      have hle := store_from w hw
      omega
    · rw [hindex]
      exact hend

theorem holds_store (m : Int → Char) (i : Int) (s : Str) :
    Holds (after m (store i s)) i (cstr s) := by
  obtain ⟨hchars,hend⟩ := after_store m i s
  have happ : cstr s ++ s.dropWhile (· != '\x00') = s := List.takeWhile_append_dropWhile
  have hpre := (chars_append (after m (store i s)) i (cstr s) (s.dropWhile (· != '\x00'))).mp
    (by rw [happ]; exact hchars)
  refine ⟨hpre.1,cstr_not_mem s,?_⟩
  cases hrest : s.dropWhile (· != '\x00') with
  | nil =>
    rw [hrest,List.append_nil] at happ
    rw [happ]
    exact hend
  | cons c rest =>
    have hc : c = '\x00' := by
      have hhead := List.head_dropWhile_not (p := (· != '\x00')) (l := s) (by simp [hrest])
      simpa [hrest] using hhead
    rw [hrest] at hpre
    rw [hpre.2.1,hc]

theorem holds_append {m : Int → Char} {i : Int} {s t : Str} (hs : Chars m i s) (hnul : '\x00' ∉ s)
    (ht : Holds m (i+s.length) t) : Holds m i (s ++ t) := by
  obtain ⟨hchars,htnul,hend⟩ := ht
  refine ⟨(chars_append m i s t).mpr ⟨hs,hchars⟩,?_,?_⟩
  · rw [List.mem_append]
    exact not_or.mpr ⟨hnul,htnul⟩
  · rw [List.length_append]
    push_cast
    rw [← Int.add_assoc]
    exact hend

def put (i : Int) : List α → Log α
  | [] => []
  | x :: s => (i,x) :: put (i+1) s

theorem put_within {i : Int} {s : List α} : ∀ w ∈ put i s, i ≤ w.1 ∧ w.1 < i+s.length := by
  induction s generalizing i with
  | nil => simp [put]
  | cons x s ih =>
    intro w hw
    rw [List.length_cons]
    rcases List.mem_cons.mp hw with rfl | hw
    · constructor
      · exact Int.le_refl i
      · push_cast
        omega
    · have hrest := ih w hw
      push_cast
      omega

theorem after_put (m : Int → α) (i : Int) (s : List α) {k : Nat} (hk : k < s.length) :
    after m (put i s) (i+k) = s[k] := by
  induction s generalizing m i k with
  | nil => simp at hk
  | cons x s ih =>
    rw [put,after]
    cases k with
    | zero =>
      have hfirst : ∀ w ∈ put (i+1) s, w.1 ≠ i := by
        intro w hw
        have hle := put_within w hw
        omega
      simp only [Nat.cast_zero,add_zero,List.getElem_cons_zero]
      rw [after_frame hfirst,if_pos rfl]
    | succ k =>
      have hindex : i+(k+1 : Nat) = i+1+k := by
        push_cast
        omega
      rw [hindex,ih _ _ (Nat.lt_of_succ_lt_succ hk),List.getElem_cons_succ]

end Memory
