import Mathlib.Algebra.Ring.Nat
import Mathlib.Algebra.Ring.Int.Defs
import Mathlib.Data.List.Infix
import Mathlib.Data.List.DropRight
import Mathlib.Data.List.TakeWhile

/-! C strings as lists of characters, with the readers of the C library (`fgets`, the
`sscanf` conversions `%[^c]` and `%s`, `strstr`) and the line tools of a shell pipeline
(`awk '{ print $NF }'`, `tail +2`, `grep -w`). -/

set_option autoImplicit false

namespace Text

abbrev Str := List Char

/-- What C takes for the string in an array with these characters. -/
def cstr (s : Str) : Str := s.takeWhile (· != '\x00')

theorem cstr_length (s : Str) : (cstr s).length ≤ s.length :=
  (List.takeWhile_prefix _).length_le

theorem cstr_not_mem (s : Str) : '\x00' ∉ cstr s := by
  intro h
  simpa using List.mem_takeWhile_imp h

theorem cstr_append_nil {s : Str} (hs : s ≠ []) (t : Str) : cstr (s ++ t) = [] ↔ cstr s = [] := by
  obtain ⟨c,s,rfl⟩ := List.exists_cons_of_ne_nil hs
  by_cases hc : c = '\x00'
  · simp [cstr,hc]
  · simp [cstr,hc]

theorem cstr_eq {s : Str} (hs : '\x00' ∉ s) : cstr s = s := by
  rw [cstr,List.takeWhile_eq_self_iff]
  intro c hc
  have hne : c ≠ '\x00' := fun h => hs (h ▸ hc)
  simp [hne]

/-- The white space of the C locale: blank, and the codes 9 to 13. -/
def isSpace (c : Char) : Bool := c.toNat == 32 || (9 ≤ c.toNat && c.toNat ≤ 13)

/-- The characters of a text are tried one by one, not all that there are. -/
instance (p : Char → Prop) [DecidablePred p] (s : Str) : Decidable (∀ c ∈ s, p c) :=
  List.decidableBAll p s

instance decidableForallOption (p : Char → Prop) [DecidablePred p] (o : Option Char) :
    Decidable (∀ c ∈ o, p c) :=
  decidable_of_iff (∀ c ∈ o.toList, p c) (by simp)

def NoSpace (s : Str) : Prop := ∀ c ∈ s, isSpace c = false

def Word (s : Str) : Prop := s ≠ [] ∧ NoSpace s

instance (s : Str) : Decidable (NoSpace s) := inferInstanceAs (Decidable (∀ c ∈ s, isSpace c = false))

instance (s : Str) : Decidable (Word s) := inferInstanceAs (Decidable (s ≠ [] ∧ NoSpace s))

@[simp] theorem noSpace_nil : NoSpace [] := by simp [NoSpace]

@[simp] theorem noSpace_append (s t : Str) : NoSpace (s ++ t) ↔ NoSpace s ∧ NoSpace t := by
  simp only [NoSpace,List.mem_append]
  constructor
  · intro h
    exact ⟨fun c hc => h c (Or.inl hc),fun c hc => h c (Or.inr hc)⟩
  · rintro ⟨hs,ht⟩ c (hc | hc)
    · exact hs c hc
    · exact ht c hc

@[simp] theorem noSpace_cons (c : Char) (s : Str) :
    NoSpace (c :: s) ↔ isSpace c = false ∧ NoSpace s := by
  simp [NoSpace]

theorem NoSpace.not_mem {s : Str} (h : NoSpace s) {c : Char} (hc : isSpace c = true) : c ∉ s := by
  intro hmem
  have hfalse := h c hmem
  simp [hc] at hfalse

theorem Word.not_mem {s : Str} (h : Word s) {c : Char} (hc : isSpace c = true) : c ∉ s :=
  h.2.not_mem hc

/-! Lines -/

def unlines (ls : List Str) : Str := ls.flatMap (· ++ ['\n'])

@[simp] theorem unlines_nil : unlines [] = [] := rfl

@[simp] theorem unlines_cons (l : Str) (ls : List Str) :
    unlines (l :: ls) = l ++ '\n' :: unlines ls := by
  simp [unlines]

/-- At most `k` characters, up to and including the first newline; and what is left. -/
def takeLine : Nat → Str → Str × Str
  | 0, s => ([],s)
  | _+1, [] => ([],[])
  | k+1, c :: s => if c = '\n' then ([c],s) else (c :: (takeLine k s).1,(takeLine k s).2)

theorem takeLine_append (k : Nat) (s : Str) : (takeLine k s).1 ++ (takeLine k s).2 = s := by
  induction k generalizing s with
  | zero => rfl
  | succ k ih =>
    cases s with
    | nil => rfl
    | cons c s =>
      by_cases hc : c = '\n'
      · simp [takeLine,hc]
      · simp [takeLine,hc,ih s]

theorem takeLine_ne_nil (k : Nat) {s : Str} (hs : s ≠ []) : (takeLine (k+1) s).1 ≠ [] := by
  cases s with
  | nil => exact absurd rfl hs
  | cons c s =>
    by_cases hc : c = '\n'
    · simp [takeLine,hc]
    · simp [takeLine,hc]

theorem takeLine_line {k : Nat} {l : Str} (hl : '\n' ∉ l) (hk : l.length < k) (rest : Str) :
    takeLine k (l ++ '\n' :: rest) = (l ++ ['\n'],rest) := by
  induction l generalizing k with
  | nil =>
    obtain ⟨k,rfl⟩ : ∃ j, k = j+1 := ⟨k-1,by simp at hk; omega⟩
    simp [takeLine]
  | cons c l ih =>
    obtain ⟨k,rfl⟩ : ∃ j, k = j+1 := ⟨k-1,by simp at hk; omega⟩
    simp only [List.mem_cons,not_or] at hl
    have hc : c ≠ '\n' := fun h => hl.1 h.symm
    have hrest := ih hl.2 (by simpa using hk)
    simp [takeLine,hc,hrest]

theorem takeLine_short {k : Nat} {l : Str} (hl : '\n' ∉ l) (hk : k ≤ l.length) (rest : Str) :
    takeLine k (l ++ rest) = (l.take k,l.drop k ++ rest) := by
  induction k generalizing l with
  | zero => simp [takeLine]
  | succ k ih =>
    cases l with
    | nil => simp at hk
    | cons c l =>
      simp only [List.mem_cons,not_or] at hl
      have hc : c ≠ '\n' := fun h => hl.1 h.symm
      have hrest := ih hl.2 (by simpa using hk)
      simp [takeLine,hc,hrest]

theorem takeLine_start {k : Nat} {w : Str} (hw : '\n' ∉ w) (hk : w.length < k) {d : Char}
    (hd : d ≠ '\n') (rest : Str) : ∃ rest', (takeLine k (w ++ d :: rest)).1 = w ++ d :: rest' := by
  induction w generalizing k with
  | nil =>
    obtain ⟨k,rfl⟩ : ∃ j, k = j+1 := ⟨k-1,by simp at hk; omega⟩
    exact ⟨(takeLine k rest).1,by simp [takeLine,hd]⟩
  | cons c w ih =>
    obtain ⟨k,rfl⟩ : ∃ j, k = j+1 := ⟨k-1,by simp at hk; omega⟩
    simp only [List.mem_cons,not_or] at hw
    have hc : c ≠ '\n' := fun h => hw.1 h.symm
    obtain ⟨rest',hrest⟩ := ih (k := k) hw.2 (by simpa using hk)
    exact ⟨rest',by simp [takeLine,hc,hrest]⟩

theorem takeLine_length (k : Nat) (s : Str) : (takeLine k s).1.length ≤ k := by
  induction k generalizing s with
  | zero => simp [takeLine]
  | succ k ih =>
    cases s with
    | nil => simp [takeLine]
    | cons c s =>
      by_cases hc : c = '\n'
      · simp [takeLine,hc]
      · simpa [takeLine,hc] using ih s

/-- One call of `fgets` with room for `n` characters: what it stores, and what is left of the
stream. It stores nothing without room, and at the end of the stream. -/
def fgets (n : Int) (s : Str) : Option Str × Str :=
  if n ≤ 0 then (none,s)
  else if n = 1 then (some [],s)
  else if s = [] then (none,[])
  else (some (takeLine (n-1).toNat s).1,(takeLine (n-1).toNat s).2)

theorem fgets_some {n : Int} {s chunk rest : Str} (h : fgets n s = (some chunk,rest)) :
    chunk ++ rest = s ∧ (chunk.length : Int)+1 ≤ n := by
  by_cases hlow : n ≤ 0
  · simp [fgets,hlow] at h
  by_cases hone : n = 1
  · obtain ⟨rfl,rfl⟩ : [] = chunk ∧ s = rest := by simpa [fgets,hone] using h
    simp [hone]
  by_cases hs : s = []
  · simp [fgets,hlow,hone,hs] at h
  · have hlen := takeLine_length (n-1).toNat s
    obtain ⟨rfl,rfl⟩ : (takeLine (n-1).toNat s).1 = chunk ∧ (takeLine (n-1).toNat s).2 = rest := by
      simpa [fgets,hlow,hone,hs] using h
    exact ⟨takeLine_append _ _,by omega⟩

theorem fgets_line {n : Int} {l : Str} (hl : '\n' ∉ l) (hn : (l.length : Int)+1 < n) (rest : Str) :
    fgets n (l ++ '\n' :: rest) = (some (l ++ ['\n']),rest) := by
  have hlow : ¬n ≤ 0 := by omega
  have hone : ¬n = 1 := by omega
  have hne : l ++ '\n' :: rest ≠ [] := by simp
  simp only [fgets,hlow,hone,hne,if_false,takeLine_line (k := (n-1).toNat) hl (by omega) rest]

/-- The call has met the end of the stream: there was room left, and no newline. -/
def fgetsEof (n : Int) (s : Str) : Bool :=
  decide (2 ≤ n) && (takeLine (n-1).toNat s).2.isEmpty &&
    decide ((takeLine (n-1).toNat s).1.length < (n-1).toNat) &&
    (takeLine (n-1).toNat s).1.getLast? != some '\n'

theorem fgetsEof_line {n : Int} {l : Str} (hl : '\n' ∉ l) (hn : (l.length : Int)+1 < n)
    (rest : Str) : fgetsEof n (l ++ '\n' :: rest) = false := by
  have hline := takeLine_line (k := (n-1).toNat) hl (by omega) rest
  rw [fgetsEof,hline]
  simp

theorem fgets_nothing {n : Int} {s rest : Str} (h : fgets n s = (none,rest)) : n ≤ 0 ∨ s = [] := by
  by_cases hlow : n ≤ 0
  · exact Or.inl hlow
  by_cases hone : n = 1
  · simp [fgets,hone] at h
  by_cases hs : s = []
  · exact Or.inr hs
  · simp [fgets,hlow,hone,hs] at h

theorem fgets_empty {n : Int} {s rest : Str} (h : fgets n s = (some [],rest)) : n = 1 := by
  by_cases hlow : n ≤ 0
  · simp [fgets,hlow] at h
  by_cases hone : n = 1
  · exact hone
  by_cases hs : s = []
  · simp [fgets,hlow,hone,hs] at h
  · obtain ⟨k,hk⟩ : ∃ k, (n-1).toNat = k+1 := ⟨(n-1).toNat-1,by omega⟩
    have hchunk : (takeLine (n-1).toNat s).1 = [] := by
      simpa [fgets,hlow,hone,hs] using congrArg Prod.fst h
    exact absurd (hk ▸ hchunk) (takeLine_ne_nil k hs)

theorem fgetsEof_rest {n : Int} {s chunk rest : Str} (h : fgets n s = (some chunk,rest))
    (heof : fgetsEof n s = true) : rest = [] := by
  simp only [fgetsEof,Bool.and_eq_true,decide_eq_true_eq,List.isEmpty_iff] at heof
  obtain ⟨⟨⟨htwo,hrest⟩,_⟩,_⟩ := heof
  have hlow : ¬n ≤ 0 := by omega
  have hone : ¬n = 1 := by omega
  by_cases hs : s = []
  · simp [fgets,hlow,hone,hs] at h
  · have heq : (takeLine (n-1).toNat s).2 = rest := by
      simpa [fgets,hlow,hone,hs] using congrArg Prod.snd h
    rw [← heq,hrest]

/-- The buffers that `while (fgets(buf, n, fp) != NULL)` sees on a stream of text; with
`n` at least 2 each call consumes a character, so the length of the text bounds the calls. -/
def fgetsFuel (n : Nat) : Nat → Str → List Str
  | 0, _ => []
  | fuel+1, s =>
    if s = [] then [] else (takeLine (n-1) s).1 :: fgetsFuel n fuel (takeLine (n-1) s).2

def fgetsAll (n : Nat) (s : Str) : List Str := fgetsFuel n s.length s

theorem fgetsFuel_flatten {n fuel : Nat} (hn : 2 ≤ n) {s : Str} (hf : s.length ≤ fuel) :
    (fgetsFuel n fuel s).flatten = s := by
  induction fuel generalizing s with
  | zero =>
    have hs : s = [] := List.length_eq_zero_iff.mp (by omega)
    simp [hs,fgetsFuel]
  | succ fuel ih =>
    by_cases hs : s = []
    · simp [hs,fgetsFuel]
    · obtain ⟨k,rfl⟩ : ∃ k, n = k+2 := ⟨n-2,by omega⟩
      have happ := takeLine_append (k+1) s
      have hpos := List.length_pos_iff.mpr (takeLine_ne_nil k hs)
      have hlen := congrArg List.length happ
      simp only [List.length_append] at hlen
      have hrest := ih (s := (takeLine (k+1) s).2) (by omega)
      simp only [fgetsFuel,hs,if_false,List.flatten_cons]
      rw [show k+2-1 = k+1 from rfl,hrest,happ]

theorem fgetsAll_flatten {n : Nat} (hn : 2 ≤ n) (s : Str) : (fgetsAll n s).flatten = s :=
  fgetsFuel_flatten hn (Nat.le_refl _)

theorem fgetsFuel_unlines {n fuel : Nat} {ls : List Str}
    (hls : ∀ l ∈ ls, '\n' ∉ l ∧ l.length+1 < n) (hf : (unlines ls).length ≤ fuel) :
    fgetsFuel n fuel (unlines ls) = ls.map (· ++ ['\n']) := by
  induction ls generalizing fuel with
  | nil => cases fuel <;> simp [fgetsFuel]
  | cons l ls ih =>
    obtain ⟨hnl,hlen⟩ := hls l (by simp)
    rw [unlines_cons] at hf ⊢
    have hpos : (l ++ '\n' :: unlines ls).length ≠ 0 := by simp
    obtain ⟨fuel,rfl⟩ : ∃ k, fuel = k+1 := ⟨fuel-1,by omega⟩
    have hne : l ++ '\n' :: unlines ls ≠ [] := by simp
    have hline := takeLine_line (k := n-1) hnl (by omega) (unlines ls)
    have hfuel : (unlines ls).length ≤ fuel := by
      simp at hf
      omega
    have hrest := ih (fun m hm => hls m (List.mem_cons_of_mem _ hm)) hfuel
    simp only [fgetsFuel,hne,if_false,hline,hrest,List.map_cons]

theorem fgetsAll_unlines {n : Nat} {ls : List Str}
    (hls : ∀ l ∈ ls, '\n' ∉ l ∧ l.length+1 < n) :
    fgetsAll n (unlines ls) = ls.map (· ++ ['\n']) :=
  fgetsFuel_unlines hls (Nat.le_refl _)

def Chunk (buf : Str) : Prop := ∃ w, NoSpace w ∧ (buf = w ∨ buf = w ++ ['\n'])

theorem takeLine_chunk (k : Nat) {s : Str} (hs : ∀ c ∈ s, isSpace c = true → c = '\n') :
    Chunk (takeLine k s).1 := by
  induction k generalizing s with
  | zero => exact ⟨[],by simp [takeLine]⟩
  | succ k ih =>
    cases s with
    | nil => exact ⟨[],by simp [takeLine]⟩
    | cons c s =>
      by_cases hc : c = '\n'
      · exact ⟨[],by simp [takeLine,hc]⟩
      · have hspace : isSpace c = false :=
          Bool.eq_false_iff.mpr (fun h => hc (hs c (by simp) h))
        obtain ⟨w,hw,hbuf⟩ := ih (fun d hd => hs d (List.mem_cons_of_mem _ hd))
        refine ⟨c :: w,by simp [hspace,hw],?_⟩
        simpa [takeLine,hc] using hbuf

theorem fgetsFuel_chunk {n fuel : Nat} {s : Str} (hs : ∀ c ∈ s, isSpace c = true → c = '\n') :
    ∀ buf ∈ fgetsFuel n fuel s, Chunk buf := by
  induction fuel generalizing s with
  | zero => simp [fgetsFuel]
  | succ fuel ih =>
    intro buf hbuf
    by_cases hnil : s = []
    · simp [fgetsFuel,hnil] at hbuf
    · simp only [fgetsFuel,hnil,if_false,List.mem_cons] at hbuf
      rcases hbuf with rfl | hrest
      · exact takeLine_chunk _ hs
      · refine ih (fun c hc => hs c ?_) buf hrest
        rw [← takeLine_append (n-1) s]
        exact List.mem_append_right _ hc

theorem fgetsAll_chunk (n : Nat) {ls : List Str} (hls : ∀ l ∈ ls, NoSpace l) :
    ∀ buf ∈ fgetsAll n (unlines ls), Chunk buf := by
  apply fgetsFuel_chunk
  intro c hc hspace
  obtain ⟨l,hl,hcl⟩ := List.mem_flatMap.mp hc
  rcases List.mem_append.mp hcl with hin | hnl
  · exact absurd hin ((hls l hl).not_mem hspace)
  · exact List.mem_singleton.mp hnl

/-! Conversions -/

/-- The conversion `%[^stop]`: the longest non-empty run without `stop`. -/
def scanSet (stop : Char) (s : Str) : Option (Str × Str) :=
  match s.takeWhile (· != stop) with
  | [] => none
  | w => some (w,s.dropWhile (· != stop))

/-- The conversion `%s`: white space is skipped, then the longest non-empty run without white space. -/
def scanWord (s : Str) : Option (Str × Str) :=
  match (s.dropWhile isSpace).takeWhile (!isSpace ·) with
  | [] => none
  | w => some (w,(s.dropWhile isSpace).dropWhile (!isSpace ·))

theorem takeWhile_until {p : Char → Bool} {w : Str} (hw : ∀ c ∈ w, p c = true) {d : Char}
    (hd : p d = false) (rest : Str) : (w ++ d :: rest).takeWhile p = w := by
  rw [List.takeWhile_append_of_pos hw,List.takeWhile_cons_of_neg (by simp [hd])]
  simp

theorem takeWhile_ne {s : Str} {d : Char} (hd : d ∉ s) : s.takeWhile (· != d) = s := by
  rw [List.takeWhile_eq_self_iff]
  intro c hc
  have hcd : c ≠ d := fun h => hd (h ▸ hc)
  simp [hcd]

theorem takeWhile_ne_until {s : Str} {d : Char} (hd : d ∉ s) (rest : Str) :
    (s ++ d :: rest).takeWhile (· != d) = s := by
  apply takeWhile_until _ (by simp)
  intro c hc
  have hcd : c ≠ d := fun h => hd (h ▸ hc)
  simp [hcd]

theorem until_inj {d : Char} {s t rest rest' : Str} (hs : d ∉ s) (ht : d ∉ t)
    (h : s ++ d :: rest = t ++ d :: rest') : s = t ∧ rest = rest' := by
  have hsame : s = t := by rw [← takeWhile_ne_until hs rest,h,takeWhile_ne_until ht rest']
  subst hsame
  exact ⟨rfl,(List.cons.inj (List.append_cancel_left h)).2⟩

theorem dropWhile_until {p : Char → Bool} {w : Str} (hw : ∀ c ∈ w, p c = true) {d : Char}
    (hd : p d = false) (rest : Str) : (w ++ d :: rest).dropWhile p = d :: rest := by
  rw [List.dropWhile_append_of_pos hw,List.dropWhile_cons_of_neg (by simp [hd])]

theorem scanSet_stop {stop : Char} {w : Str} (hne : w ≠ []) (hw : stop ∉ w) (rest : Str) :
    scanSet stop (w ++ stop :: rest) = some (w,stop :: rest) := by
  have hall : ∀ c ∈ w, (c != stop) = true := by
    intro c hc
    have hcs : c ≠ stop := fun h => hw (h ▸ hc)
    simp [hcs]
  have hstop : (stop != stop) = false := by simp
  cases w with
  | nil => exact absurd rfl hne
  | cons c w =>
    simp only [scanSet,takeWhile_until hall hstop,dropWhile_until hall hstop]

theorem scanSet_all {stop : Char} {w : Str} (hne : w ≠ []) (hw : stop ∉ w) :
    scanSet stop w = some (w,[]) := by
  have hall : ∀ c ∈ w, (c != stop) = true := by
    intro c hc
    have hcs : c ≠ stop := fun h => hw (h ▸ hc)
    simp [hcs]
  have htake : w.takeWhile (· != stop) = w := List.takeWhile_eq_self_iff.mpr hall
  have hdrop : w.dropWhile (· != stop) = [] := List.dropWhile_eq_nil_iff.mpr hall
  cases w with
  | nil => exact absurd rfl hne
  | cons c w => simp only [scanSet,htake,hdrop]

theorem scanSet_head (stop : Char) (rest : Str) : scanSet stop (stop :: rest) = none := by
  simp [scanSet]

theorem scanWord_line {w : Str} (hw : Word w) {d : Char} (hd : isSpace d = true) (rest : Str) :
    scanWord (w ++ d :: rest) = some (w,d :: rest) := by
  obtain ⟨hne,hns⟩ := hw
  cases w with
  | nil => exact absurd rfl hne
  | cons c w =>
    have hc : isSpace c = false := hns c (by simp)
    have hskip : ((c :: w) ++ d :: rest).dropWhile isSpace = (c :: w) ++ d :: rest := by
      rw [List.cons_append,List.dropWhile_cons_of_neg (by simp [hc])]
    have hall : ∀ x ∈ c :: w, (!isSpace x) = true := by
      intro x hx
      simp [hns x hx]
    have hstop : (!isSpace d) = false := by simp [hd]
    simp only [scanWord,hskip,takeWhile_until hall hstop,dropWhile_until hall hstop]

theorem scanWord_blank {s : Str} (hs : ∀ c ∈ s, isSpace c = true) : scanWord s = none := by
  have hdrop : s.dropWhile isSpace = [] := List.dropWhile_eq_nil_iff.mpr hs
  simp [scanWord,hdrop]

theorem scanWord_noSpace {s w rest : Str} (h : scanWord s = some (w,rest)) : NoSpace w := by
  unfold scanWord at h
  split at h
  · cases h
  · rename_i hw
    obtain ⟨rfl,_⟩ := Prod.mk.inj (Option.some.inj h)
    intro c hc
    have htake := List.mem_takeWhile_imp hc
    simpa using htake

/-! Searching -/

def strstr (needle : Str) : Str → Option Str
  | [] => if needle = [] then some [] else none
  | c :: s => if needle <+: c :: s then some (c :: s) else strstr needle s

theorem strstr_isSome (needle s : Str) : (strstr needle s).isSome ↔ needle <:+: s := by
  induction s with
  | nil => by_cases h : needle = [] <;> simp [strstr,h]
  | cons c s ih =>
    by_cases h : needle <+: c :: s
    · simp [strstr,h,h.isInfix]
    · simp [strstr,h,ih,List.infix_cons_iff]

def isWordChar (c : Char) : Bool := c.isAlphanum || c == '_'

/-- No word constituent stands on this side of a match; `none` is the end of the line. -/
def boundary : Option Char → Bool
  | none => true
  | some c => !isWordChar c

/-- The word `n` occurs in the line with a boundary on both sides; `prev` stands before the line. -/
def hasWord (n : Str) : Option Char → Str → Bool
  | _, [] => false
  | prev, c :: s =>
    (boundary prev && decide (n <+: c :: s) && boundary ((c :: s).drop n.length).head?) ||
      hasWord n (some c) s

def grepWord (n : Str) (lines : List Str) : List Str := lines.filter (hasWord n none)

theorem infix_of_hasWord {n : Str} {prev : Option Char} {s : Str} (h : hasWord n prev s = true) :
    n <:+: s := by
  induction s generalizing prev with
  | nil => simp [hasWord] at h
  | cons c s ih =>
    simp only [hasWord,Bool.or_eq_true,Bool.and_eq_true,decide_eq_true_eq] at h
    rcases h with ⟨⟨_,hpre⟩,_⟩ | hrest
    · exact hpre.isInfix
    · exact (ih hrest).trans (List.suffix_cons c s).isInfix

theorem hasWord_start {n : Str} (hne : n ≠ []) {rest : Str} (hrest : boundary rest.head? = true) :
    hasWord n none (n ++ rest) = true := by
  cases n with
  | nil => exact absurd rfl hne
  | cons c n =>
    have hpre : c :: n <+: c :: (n ++ rest) := ⟨rest,rfl⟩
    have hstart : boundary none = true := rfl
    simp [hasWord,hpre,hstart,hrest]

/-- What `awk '{ print $NF }'` prints of a line that has a field. -/
def lastField (line : Str) : Str :=
  (line.rdropWhile isSpace).rtakeWhile (!isSpace ·)

theorem lastField_tail (pre : Str) {w : Str} (blanks : Str) {d : Char} (hd : isSpace d = true)
    (hw : Word w) (hb : ∀ c ∈ blanks, isSpace c = true) :
    lastField (pre ++ d :: (w ++ blanks)) = w := by
  obtain ⟨hne,hns⟩ := hw
  have hrev : (pre ++ d :: (w ++ blanks)).reverse =
      blanks.reverse ++ (w.reverse ++ d :: pre.reverse) := by simp
  have hall : ∀ x ∈ w.reverse, (!isSpace x) = true := by
    intro x hx
    simp [hns x (List.mem_reverse.mp hx)]
  have hdrop : (w.reverse ++ d :: pre.reverse).dropWhile isSpace = w.reverse ++ d :: pre.reverse := by
    cases hr : w.reverse with
    | nil => exact absurd (List.reverse_eq_nil_iff.mp hr) hne
    | cons x xs =>
      have hx : isSpace x = false := hns x (List.mem_reverse.mp (by simp [hr]))
      rw [List.cons_append,List.dropWhile_cons_of_neg (by simp [hx])]
  rw [lastField,List.rtakeWhile,List.rdropWhile,List.reverse_reverse,hrev,
    List.dropWhile_append_of_pos (fun c hc => hb c (List.mem_reverse.mp hc)),hdrop,
    takeWhile_until hall (by simp [hd]),List.reverse_reverse]

end Text
