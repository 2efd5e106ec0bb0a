import RdkHal.Lib.Text

/-! How a POSIX shell divides a line into words: blanks, quotes and backslashes. Only lines
whose words depend on nothing else are read; an operator, an expansion, a comment or a pattern
for file names ends the reading without a result. The first word may still be a reserved one. -/

set_option autoImplicit false

namespace Posix
open Text

inductive Mode where
  | plain
  | escaped
  | double
  | doubleEscaped
  | single
  deriving DecidableEq, Repr

/-- The characters of a word; those that no quote takes the meaning from are marked. -/
abbrev Word := List (Char × Bool)

def Word.text (w : Word) : Str := w.map (·.1)

def bare (s : Str) : Word := s.map fun c => (c,true)

theorem bare_text (s : Str) : (bare s).text = s := by
  simp [bare,Word.text,Function.comp_def]

/-- What follows an open bracket closes it: at least one character stands in between, after an
exclamation mark if there is one, and none of them is a slash. -/
def closesBracket (w : Word) : Bool :=
  match (if w.head? = some ('!',true) then w.tail else w) with
  | [] => false
  | (c,_) :: w => c != '/' && (w.takeWhile (·.1 != '/')).contains (']',true)

/-- The word stands for the names of files that match: it has a star, a question mark, or
a bracket that is closed. -/
def isPattern : Word → Bool
  | [] => false
  | (c,marked) :: w =>
    (marked && (c == '*' || c == '?' || (c == '[' && closesBracket w))) || isPattern w

structure Lexer where
  mode : Mode
  words : List Word
  current : Option Word
  deriving DecidableEq

def Lexer.push (st : Lexer) (mode : Mode) (w : Word) : Lexer :=
  { st with mode := mode, current := some (st.current.getD [] ++ w) }

def Lexer.close (st : Lexer) : Option Lexer :=
  match st.current with
  | none => some st
  | some w => if isPattern w then none else some { st with words := st.words ++ [w], current := none }

def isBlank (c : Char) : Bool := c == ' ' || c == '\t'

/-- The operators, the end of the line, and what begins an expansion. -/
def operators : List Char := ['|','&',';','<','>','(',')','\n','$','\x60']

def Lexer.step (st : Lexer) (c : Char) : Option Lexer :=
  match st.mode with
  | .plain =>
    if isBlank c then st.close
    else if c = '\\' then some { st with mode := .escaped }
    else if c = '\x22' then some (st.push .double [])
    else if c = '\x27' then some (st.push .single [])
    else if c ∈ operators then none
    else if st.current = none ∧ (c = '#' ∨ c = '~') then none
    else some (st.push .plain [(c,true)])
  | .escaped =>
    if c = '\n' then some { st with mode := .plain } else some (st.push .plain [(c,false)])
  | .double =>
    if c = '\x22' then some { st with mode := .plain }
    else if c = '\\' then some { st with mode := .doubleEscaped }
    else if c = '$' ∨ c = '\x60' then none
    else some (st.push .double [(c,false)])
  | .doubleEscaped =>
    if c = '\n' then some { st with mode := .double }
    else if c ∈ ['$','\x60','\x22','\\'] then some (st.push .double [(c,false)])
    else some (st.push .double [('\\',false),(c,false)])
  | .single =>
    if c = '\x27' then some { st with mode := .plain } else some (st.push .single [(c,false)])

def Lexer.scan (st : Lexer) : Str → Option Lexer
  | [] => some st
  | c :: s => (st.step c).bind (·.scan s)

def Lexer.finish (st : Lexer) : Option (List Word) :=
  match st.mode with
  | .plain => st.close.map (·.words)
  | _ => none

def words (line : Str) : Option (List Str) :=
  (((⟨.plain,[],none⟩ : Lexer).scan line).bind Lexer.finish).map (·.map Word.text)

theorem scan_append (st : Lexer) (s t : Str) : st.scan (s ++ t) = (st.scan s).bind (·.scan t) := by
  induction s generalizing st with
  | nil => rfl
  | cons c s ih =>
    rw [List.cons_append,Lexer.scan,Lexer.scan]
    cases st.step c with
    | none => rfl
    | some st' => exact ih st'

def Literal (c : Char) : Prop :=
  isBlank c = false ∧ c ≠ '\\' ∧ c ≠ '\x22' ∧ c ≠ '\x27' ∧ c ∉ operators

instance (c : Char) : Decidable (Literal c) :=
  inferInstanceAs (Decidable (isBlank c = false ∧ c ≠ '\\' ∧ c ≠ '\x22' ∧ c ≠ '\x27' ∧ c ∉ operators))

def Opens (s : Str) : Prop := s.head? ≠ some '#' ∧ s.head? ≠ some '~'

/-- A text that the shell reads as itself. -/
structure PlainWord (s : Str) : Prop where
  ne_nil : s ≠ []
  literal : ∀ c ∈ s, Literal c
  opens : Opens s
  not_pattern : isPattern (bare s) = false

theorem not_pattern_of {s : Str} (hs : ∀ c ∈ s, c ≠ '*' ∧ c ≠ '?' ∧ c ≠ '[') :
    isPattern (bare s) = false := by
  induction s with
  | nil => rfl
  | cons c s ih =>
    obtain ⟨⟨hstar,hmark,hbracket⟩,hs⟩ := List.forall_mem_cons.mp hs
    have hrest : isPattern (s.map fun c => (c,true)) = false := ih hs
    simp [bare,isPattern,hstar,hmark,hbracket,hrest]

theorem plainWord_iff (s : Str) :
    PlainWord s ↔ s ≠ [] ∧ (∀ c ∈ s, Literal c) ∧ Opens s ∧ isPattern (bare s) = false :=
  ⟨fun h => ⟨h.ne_nil,h.literal,h.opens,h.not_pattern⟩,fun h => ⟨h.1,h.2.1,h.2.2.1,h.2.2.2⟩⟩

instance (s : Str) : Decidable (Opens s) :=
  inferInstanceAs (Decidable (s.head? ≠ some '#' ∧ s.head? ≠ some '~'))

instance (s : Str) : Decidable (PlainWord s) := decidable_of_iff _ (plainWord_iff s).symm

theorem step_literal {words : List Word} {current : Option Word} {c : Char} (hc : Literal c)
    (hstart : current = none → c ≠ '#' ∧ c ≠ '~') :
    (⟨.plain,words,current⟩ : Lexer).step c =
      some ⟨.plain,words,some (current.getD [] ++ [(c,true)])⟩ := by
  obtain ⟨hblank,hback,hdouble,hsingle,hop⟩ := hc
  have hword : ¬(current = none ∧ (c = '#' ∨ c = '~')) := by
    rintro ⟨hnone,hor⟩
    obtain ⟨hhash,htilde⟩ := hstart hnone
    exact hor.elim hhash htilde
  simp only [Lexer.step,hblank,hback,hdouble,hsingle,hop,hword,if_false,Bool.false_eq_true,Lexer.push]

theorem scan_literal {words : List Word} {w : Word} {s : Str} (hs : ∀ c ∈ s, Literal c) :
    (⟨.plain,words,some w⟩ : Lexer).scan s = some ⟨.plain,words,some (w ++ bare s)⟩ := by
  induction s generalizing w with
  | nil => simp [Lexer.scan,bare]
  | cons c s ih =>
    obtain ⟨hc,hs⟩ := List.forall_mem_cons.mp hs
    rw [Lexer.scan,step_literal hc (by simp),Option.bind_some,Option.getD_some,ih hs]
    simp [bare]

theorem scan_begin {words : List Word} {s : Str} (hne : s ≠ []) (hs : ∀ c ∈ s, Literal c)
    (hopens : Opens s) :
    (⟨.plain,words,none⟩ : Lexer).scan s = some ⟨.plain,words,some (bare s)⟩ := by
  cases s with
  | nil => exact absurd rfl hne
  | cons c s =>
    obtain ⟨hc,hs⟩ := List.forall_mem_cons.mp hs
    have hstart : c ≠ '#' ∧ c ≠ '~' := by simpa [Opens] using hopens
    rw [Lexer.scan,step_literal hc (fun _ => hstart),Option.bind_some,Option.getD_none,
      List.nil_append,scan_literal hs]
    rfl

theorem scan_blank (words : List Word) (w : Word) (s : Str) :
    (⟨.plain,words,some w⟩ : Lexer).scan (' ' :: s) =
      if isPattern w then none else (⟨.plain,words ++ [w],none⟩ : Lexer).scan s := by
  cases h : isPattern w <;> simp [Lexer.scan,Lexer.step,isBlank,Lexer.close,h]

theorem scan_word {words : List Word} {s : Str} (hs : PlainWord s) (rest : Str) :
    (⟨.plain,words,none⟩ : Lexer).scan (s ++ ' ' :: rest) =
      (⟨.plain,words ++ [bare s],none⟩ : Lexer).scan rest := by
  rw [scan_append,scan_begin hs.ne_nil hs.literal hs.opens,Option.bind_some,scan_blank,
    hs.not_pattern,if_neg (by decide)]

theorem scan_last {words : List Word} {s : Str} (hs : PlainWord s) :
    ((⟨.plain,words,none⟩ : Lexer).scan s).bind Lexer.finish = some (words ++ [bare s]) := by
  rw [scan_begin hs.ne_nil hs.literal hs.opens,Option.bind_some]
  simp [Lexer.finish,Lexer.close,hs.not_pattern]

def spaced : List Str → Str
  | [] => []
  | [w] => w
  | w :: v :: ws => w ++ ' ' :: spaced (v :: ws)

theorem scan_spaced {words : List Word} {ws : List Str} (hws : ∀ w ∈ ws, PlainWord w) :
    ((⟨.plain,words,none⟩ : Lexer).scan (spaced ws)).bind Lexer.finish =
      some (words ++ ws.map bare) := by
  induction ws generalizing words with
  | nil => simp [spaced,Lexer.scan,Lexer.finish,Lexer.close]
  | cons w ws ih =>
    obtain ⟨hw,hws⟩ := List.forall_mem_cons.mp hws
    cases ws with
    | nil => exact scan_last hw
    | cons v ws =>
      rw [spaced,scan_word hw,ih hws]
      simp

theorem words_spaced {ws : List Str} (hws : ∀ w ∈ ws, PlainWord w) : words (spaced ws) = some ws := by
  rw [words,scan_spaced hws,Option.map_some]
  simp [bare_text,Function.comp_def]

def quoted (s : Str) : Word := s.map fun c => (c,false)

theorem quoted_text (s : Str) : (quoted s).text = s := by
  simp [quoted,Word.text,Function.comp_def]

theorem scan_quoted {words : List Word} {w : Word} {s : Str}
    (hs : ∀ c ∈ s, c ≠ '\x22' ∧ c ≠ '\\' ∧ c ≠ '$' ∧ c ≠ '\x60') :
    (⟨.double,words,some w⟩ : Lexer).scan s = some ⟨.double,words,some (w ++ quoted s)⟩ := by
  induction s generalizing w with
  | nil => simp [Lexer.scan,quoted]
  | cons c s ih =>
    obtain ⟨⟨hdouble,hback,hdollar,hgrave⟩,hs⟩ := List.forall_mem_cons.mp hs
    have hstep : (⟨.double,words,some w⟩ : Lexer).step c =
        some ⟨.double,words,some (w ++ [(c,false)])⟩ := by
      simp [Lexer.step,hdouble,hback,hdollar,hgrave,Lexer.push]
    rw [Lexer.scan,hstep,Option.bind_some,ih hs]
    simp [quoted]

theorem quoted_not_pattern (s : Str) : isPattern (quoted s) = false := by
  induction s with
  | nil => rfl
  | cons c s ih => simpa [quoted,isPattern] using ih

theorem scan_doubleQuotes {words : List Word} {s : Str}
    (hs : ∀ c ∈ s, c ≠ '\x22' ∧ c ≠ '\\' ∧ c ≠ '$' ∧ c ≠ '\x60') :
    ((⟨.plain,words,none⟩ : Lexer).scan ('\x22' :: (s ++ ['\x22']))).bind Lexer.finish =
      some (words ++ [quoted s]) := by
  have hopen : (⟨.plain,words,none⟩ : Lexer).scan ('\x22' :: (s ++ ['\x22'])) =
      (⟨.double,words,some []⟩ : Lexer).scan (s ++ ['\x22']) := rfl
  have hclose : (⟨.double,words,some (quoted s)⟩ : Lexer).scan ['\x22'] =
      some ⟨.plain,words,some (quoted s)⟩ := rfl
  rw [hopen,scan_append,scan_quoted hs,Option.bind_some,List.nil_append,hclose,Option.bind_some]
  simp [Lexer.finish,Lexer.close,quoted_not_pattern]

/-! What becomes of the characters -/

def Mode.pending : Mode → Nat
  | .doubleEscaped => 1
  | _ => 0

def Lexer.weight (st : Lexer) : Nat :=
  (st.words.map List.length).sum+(st.current.getD []).length+st.mode.pending

theorem close_weight {st st' : Lexer} (h : st.close = some st') : st'.weight = st.weight := by
  unfold Lexer.close at h
  split at h
  · cases h
    rfl
  · rename_i w hw
    split at h
    · cases h
    · cases h
      simp [Lexer.weight,hw]

theorem push_weight (st : Lexer) (mode : Mode) (w : Word) :
    (st.push mode w).weight+st.mode.pending = st.weight+w.length+mode.pending := by
  simp only [Lexer.weight,Lexer.push,Option.getD_some,List.length_append]
  omega

theorem mode_weight (st : Lexer) (mode : Mode) :
    ({ st with mode := mode } : Lexer).weight+st.mode.pending = st.weight+mode.pending := by
  simp only [Lexer.weight]
  omega

/-- A literal character is added to the word; any other outside quotes adds nothing, and within
quotes at most one character is added. -/
theorem step_cases {st st' : Lexer} {c : Char} (h : st.step c = some st') :
    (st.mode = .plain ∧ Literal c ∧ (st.current = none → c ≠ '#' ∧ c ≠ '~') ∧
      st' = st.push .plain [(c,true)]) ∨
    (st.mode = .plain ∧ st'.weight = st.weight) ∨
    (st.mode ≠ .plain ∧ st'.weight ≤ st.weight+1) := by
  have hpush (mode : Mode) (w : Word) := push_weight st mode w
  have hset (mode : Mode) := mode_weight st mode
  cases hmode : st.mode with
  | plain =>
    simp only [hmode,Mode.pending] at hpush hset
    simp only [Lexer.step,hmode] at h
    split_ifs at h with hblank hback hdouble hsingle hop hword
    · exact Or.inr (Or.inl ⟨rfl,close_weight h⟩)
    · cases h
      exact Or.inr (Or.inl ⟨rfl,hset .escaped⟩)
    · cases h
      exact Or.inr (Or.inl ⟨rfl,hpush .double []⟩)
    · cases h
      exact Or.inr (Or.inl ⟨rfl,hpush .single []⟩)
    · cases h
      have hstart : st.current = none → c ≠ '#' ∧ c ≠ '~' := by
        intro hnone
        exact not_or.mp fun hor => hword ⟨hnone,hor⟩
      exact Or.inl ⟨rfl,⟨by simpa using hblank,hback,hdouble,hsingle,hop⟩,hstart,rfl⟩
  | escaped =>
    simp only [hmode,Mode.pending] at hpush hset
    simp only [Lexer.step,hmode] at h
    refine Or.inr (Or.inr ⟨by simp,?_⟩)
    split_ifs at h <;> cases h
    · exact (hset .plain).le.trans (Nat.le_succ _)
    · exact (hpush .plain [(c,false)]).le
  | double =>
    simp only [hmode,Mode.pending] at hpush hset
    simp only [Lexer.step,hmode] at h
    refine Or.inr (Or.inr ⟨by simp,?_⟩)
    split_ifs at h <;> cases h
    · exact (hset .plain).le.trans (Nat.le_succ _)
    · exact (hset .doubleEscaped).le
    · exact (hpush .double [(c,false)]).le
  | doubleEscaped =>
    simp only [hmode,Mode.pending] at hpush hset
    simp only [Lexer.step,hmode] at h
    refine Or.inr (Or.inr ⟨by simp,?_⟩)
    split_ifs at h <;> cases h
    · have hweight : _+1 = st.weight+0 := hset .double
      omega
    · have hweight : _+1 = st.weight+1+0 := hpush .double [(c,false)]
      omega
    · have hweight : _+1 = st.weight+2+0 := hpush .double [('\\',false),(c,false)]
      omega
  | single =>
    simp only [hmode,Mode.pending] at hpush hset
    simp only [Lexer.step,hmode] at h
    refine Or.inr (Or.inr ⟨by simp,?_⟩)
    split_ifs at h <;> cases h
    · exact (hset .plain).le.trans (Nat.le_succ _)
    · exact (hpush .single [(c,false)]).le

theorem scan_weight {st st' : Lexer} {s : Str} (h : st.scan s = some st') :
    st'.weight ≤ st.weight+s.length := by
  induction s generalizing st with
  | nil =>
    cases h
    exact Nat.le_refl _
  | cons c s ih =>
    obtain ⟨st₁,hstep,hscan⟩ := Option.bind_eq_some_iff.mp h
    have hrest := ih hscan
    rw [List.length_cons]
    rcases step_cases hstep with ⟨hmode,_,_,rfl⟩ | ⟨_,hweight⟩ | ⟨_,hweight⟩
    · have hpush := push_weight st .plain [(c,true)]
      simp only [hmode,Mode.pending,List.length_singleton] at hpush
      omega
    · omega
    · omega

/-- Where each character has added one, all of them are literal. -/
theorem scan_tight {st st' : Lexer} {s : Str} (hmode : st.mode = .plain) (h : st.scan s = some st')
    (hweight : st'.weight = st.weight+s.length) :
    (∀ c ∈ s, Literal c) ∧ (st.current = none → Opens s) := by
  induction s generalizing st with
  | nil => exact ⟨by simp,fun _ => by simp [Opens]⟩
  | cons c s ih =>
    obtain ⟨st₁,hstep,hscan⟩ := Option.bind_eq_some_iff.mp h
    have hrest := scan_weight hscan
    rw [List.length_cons] at hweight
    rcases step_cases hstep with ⟨_,hc,hstart,rfl⟩ | ⟨_,hnone⟩ | ⟨hother,_⟩
    · have hpush := push_weight st .plain [(c,true)]
      simp only [hmode,Mode.pending,List.length_singleton] at hpush
      obtain ⟨hs,_⟩ := ih rfl hscan (by omega)
      exact ⟨List.forall_mem_cons.mpr ⟨hc,hs⟩,fun hcurrent => by simpa [Opens] using hstart hcurrent⟩
    · omega
    · exact absurd hmode hother

theorem close_words {st st' : Lexer} (h : st.close = some st') : st.words <+: st'.words := by
  unfold Lexer.close at h
  split at h
  · cases h
    exact List.prefix_rfl
  · split at h
    · cases h
    · cases h
      exact List.prefix_append _ _

theorem step_words {st st' : Lexer} {c : Char} (h : st.step c = some st') :
    st.words <+: st'.words := by
  unfold Lexer.step at h
  split at h
  · split_ifs at h
    · exact close_words h
    all_goals cases h
    all_goals exact List.prefix_rfl
  all_goals split_ifs at h
  all_goals cases h
  all_goals exact List.prefix_rfl

theorem scan_words {st st' : Lexer} {s : Str} (h : st.scan s = some st') :
    st.words <+: st'.words := by
  induction s generalizing st with
  | nil =>
    cases h
    exact List.prefix_rfl
  | cons c s ih =>
    obtain ⟨st₁,hstep,hscan⟩ := Option.bind_eq_some_iff.mp h
    exact (step_words hstep).trans (ih hscan)

theorem finish_words {st : Lexer} {argv : List Word} (h : st.finish = some argv) :
    st.words <+: argv := by
  unfold Lexer.finish at h
  split at h
  · obtain ⟨st',hclose,rfl⟩ := Option.map_eq_some_iff.mp h
    exact close_words hclose
  · cases h

theorem close_mode {st st' : Lexer} (h : st.close = some st') : st'.mode = st.mode := by
  unfold Lexer.close at h
  split at h
  · cases h
    rfl
  · split at h
    · cases h
    · cases h
      rfl

theorem step_escaped {st st' : Lexer} {c : Char} (h : st.step c = some st')
    (hmode : st'.mode = .escaped) : c = '\\' := by
  unfold Lexer.step at h
  split at h
  · rename_i hplain
    split_ifs at h with hblank hback
    · rw [close_mode h,hplain] at hmode
      cases hmode
    · exact hback
    all_goals cases h
    all_goals cases hmode
  all_goals split_ifs at h
  all_goals cases h
  all_goals cases hmode

theorem scan_escaped {st st' : Lexer} {s : Str} {c : Char} (h : st.scan (s ++ [c]) = some st')
    (hmode : st'.mode = .escaped) : c = '\\' := by
  rw [scan_append] at h
  obtain ⟨st₁,_,hlast⟩ := Option.bind_eq_some_iff.mp h
  obtain ⟨st₂,hstep,hnil⟩ := Option.bind_eq_some_iff.mp hlast
  cases hnil
  exact step_escaped hstep hmode

theorem scan_open {st st' : Lexer} {s : Str} (hmode : st.mode = .double ∨ st.mode = .single)
    (hs : ∀ c ∈ s, c ≠ '\\' ∧ c ≠ '\x22' ∧ c ≠ '\x27') (h : st.scan s = some st') :
    st'.finish = none := by
  induction s generalizing st with
  | nil =>
    cases h
    rcases hmode with hmode | hmode <;> simp [Lexer.finish,hmode]
  | cons c s ih =>
    obtain ⟨⟨hback,hdouble,hsingle⟩,hs⟩ := List.forall_mem_cons.mp hs
    obtain ⟨st₁,hstep,hscan⟩ := Option.bind_eq_some_iff.mp h
    refine ih ?_ hs hscan
    rcases hmode with hmode | hmode
    · simp only [Lexer.step,hmode,hback,hdouble,if_false] at hstep
      split at hstep
      · cases hstep
      · cases hstep
        exact Or.inl rfl
    · simp only [Lexer.step,hmode,hsingle,if_false] at hstep
      cases hstep
      exact Or.inr rfl

theorem scan_two (words : List Word) (current : Word) {w w' : Str} (hw : ∀ c ∈ w, Literal c)
    (hw' : PlainWord w') : ((⟨.plain,words,some current⟩ : Lexer).scan (w ++ ' ' :: w')).bind
      Lexer.finish = if isPattern (current ++ bare w) then none
        else some (words ++ [current ++ bare w,bare w']) := by
  rw [scan_append,scan_literal hw,Option.bind_some,scan_blank]
  split
  · rfl
  · rw [scan_last hw',List.append_assoc]
    rfl

theorem scan_start {ws : List Word} {s : Str} {st : Lexer}
    (hscan : (⟨.plain,ws,none⟩ : Lexer).scan s = some st)
    (hweight : (ws.map List.length).sum+s.length ≤ st.weight) : (∀ c ∈ s, Literal c) ∧ Opens s := by
  have hle := scan_weight hscan
  have hstart : (⟨.plain,ws,none⟩ : Lexer).weight = (ws.map List.length).sum := by
    simp [Lexer.weight,Mode.pending]
  obtain ⟨hliteral,hopens⟩ := scan_tight rfl hscan (by omega)
  exact ⟨hliteral,hopens rfl⟩

theorem scan_start_eq {ws : List Word} {s : Str} {st : Lexer} (hne : s ≠ [])
    (hscan : (⟨.plain,ws,none⟩ : Lexer).scan s = some st)
    (hweight : (ws.map List.length).sum+s.length ≤ st.weight) :
    st = ⟨.plain,ws,some (bare s)⟩ := by
  obtain ⟨hliteral,hopens⟩ := scan_start hscan hweight
  exact Option.some.inj (hscan.symm.trans (scan_begin hne hliteral hopens))

theorem scan_start_words {ws argv : List Word} {s rest : Str} {st : Lexer}
    (hscan : (⟨.plain,ws,none⟩ : Lexer).scan s = some st)
    (hrest : (st.scan rest).bind Lexer.finish = some argv)
    (hs : (argv[ws.length]?).map Word.text = some s) : st.words = ws := by
  obtain ⟨st',htail,hfinish⟩ := Option.bind_eq_some_iff.mp hrest
  obtain ⟨ended,hended⟩ := scan_words hscan
  cases ended with
  | nil => rw [← hended,List.append_nil]
  | cons x ended =>
    -- the word that has ended is the text, and then its characters are all in one word
    obtain ⟨more,hargv⟩ := (scan_words htail).trans (finish_words hfinish)
    have hx : x.text = s := by
      rw [← hargv,← hended] at hs
      simpa using hs
    have hlen : x.length = s.length := by
      rw [← hx]
      simp [Word.text]
    have hweight : (ws.map List.length).sum+s.length ≤ st.weight := by
      rw [Lexer.weight,← hended]
      simp [hlen]
      omega
    by_cases hnil : s = []
    · subst hnil
      rw [← Option.some.inj hscan]
    · rw [scan_start_eq hnil hscan hweight]

theorem plainWord_of_current {words argv : List Word} {x : Word} {s w w' : Str} (hw : PlainWord w)
    (hw' : PlainWord w')
    (hscan : (⟨.plain,words,none⟩ : Lexer).scan s = some ⟨.plain,words,some x⟩)
    (hrest : ((⟨.plain,words,some x⟩ : Lexer).scan (' ' :: (w ++ ' ' :: w'))).bind Lexer.finish =
      some argv)
    (hs : (argv[words.length]?).map Word.text = some s) : PlainWord s := by
  rw [scan_blank] at hrest
  split at hrest
  · cases hrest
  · rename_i hpattern
    rw [scan_word hw,scan_last hw'] at hrest
    cases hrest
    have hx : x.text = s := by simpa using hs
    have hlen : x.length = s.length := by
      rw [← hx]
      simp [Word.text]
    have hweight : (words.map List.length).sum+s.length ≤
        (⟨.plain,words,some x⟩ : Lexer).weight := by
      simp [Lexer.weight,Mode.pending,hlen]
    have hne : s ≠ [] := by
      rintro rfl
      cases hscan
    obtain ⟨hchars,hopens⟩ := scan_start hscan hweight
    have hbare : x = bare s := by simpa using scan_start_eq hne hscan hweight
    exact ⟨hne,hchars,hopens,by simpa [hbare] using hpattern⟩

theorem not_escaped_of_word {words argv : List Word} {current : Option Word} {s w w' : Str}
    (hw : PlainWord w) (hw' : PlainWord w')
    (hscan : (⟨.plain,words,none⟩ : Lexer).scan s = some ⟨.escaped,words,current⟩)
    (hrest : ((⟨.escaped,words,current⟩ : Lexer).scan (' ' :: (w ++ ' ' :: w'))).bind Lexer.finish =
      some argv) :
    (argv[words.length]?).map Word.text ≠ some s := by
  intro hs
  have hnext : (⟨.escaped,words,current⟩ : Lexer).scan (' ' :: (w ++ ' ' :: w')) =
      (⟨.plain,words,some (current.getD [] ++ [(' ',false)])⟩ : Lexer).scan (w ++ ' ' :: w') := rfl
  rw [hnext,scan_two _ _ hw.literal hw'] at hrest
  split at hrest
  · cases hrest
  · cases hrest
    have hword : (current.getD [] ++ [(' ',false)] ++ bare w).text = s := by simpa using hs
    obtain ⟨v,c,hv⟩ := List.eq_nil_or_concat w |>.resolve_left hw.ne_nil
    have hc : Literal c := hw.literal c (by simp [hv])
    have hlast : s = (current.getD [] ++ [(' ',false)] ++ bare v).text ++ [c] := by
      rw [← hword,hv]
      simp [bare,Word.text]
    rw [hlast] at hscan
    exact hc.2.1 (scan_escaped hscan rfl)

/-- Where two words follow it, a text that is read as the next word is a plain one: only then
does none of its characters go into a quote, a blank or the word behind it. -/
theorem plainWord_of_word {ws argv : List Word} {s w w' : Str} (hw : PlainWord w)
    (hw' : PlainWord w')
    (h : ((⟨.plain,ws,none⟩ : Lexer).scan (s ++ ' ' :: (w ++ ' ' :: w'))).bind Lexer.finish = some argv)
    (hs : (argv[ws.length]?).map Word.text = some s) : PlainWord s := by
  rw [scan_append] at h
  obtain ⟨st₂,hscan₂,hfinish⟩ := Option.bind_eq_some_iff.mp h
  obtain ⟨st,hscan,htail⟩ := Option.bind_eq_some_iff.mp hscan₂
  have hrest : (st.scan (' ' :: (w ++ ' ' :: w'))).bind Lexer.finish = some argv := by
    rw [htail,Option.bind_some,hfinish]
  have hliteral : ∀ c ∈ w ++ ' ' :: w', c ≠ '\\' ∧ c ≠ '\x22' ∧ c ≠ '\x27' := by
    intro c hc
    rw [List.mem_append,List.mem_cons] at hc
    rcases hc with hc | rfl | hc
    · exact ⟨(hw.literal c hc).2.1,(hw.literal c hc).2.2.1,(hw.literal c hc).2.2.2.1⟩
    · decide
    · exact ⟨(hw'.literal c hc).2.1,(hw'.literal c hc).2.2.1,(hw'.literal c hc).2.2.2.1⟩
  have hblank : ∀ c ∈ ' ' :: (w ++ ' ' :: w'), c ≠ '\\' ∧ c ≠ '\x22' ∧ c ≠ '\x27' :=
    List.forall_mem_cons.mpr ⟨by decide,hliteral⟩
  have hwords := scan_start_words hscan hrest hs
  obtain ⟨mode,words,current⟩ := st
  obtain rfl : words = ws := hwords
  cases mode with
  | plain =>
    cases current with
    | none =>
      -- nothing has been read yet, and the next word is the one behind the text
      have hnext : (⟨.plain,words,none⟩ : Lexer).scan (' ' :: (w ++ ' ' :: w')) =
          (⟨.plain,words,none⟩ : Lexer).scan (w ++ ' ' :: w') := rfl
      rw [hnext,scan_word hw,scan_last hw'] at hrest
      cases hrest
      have hword : w = s := by simpa [bare_text] using hs
      exact hword ▸ hw
    | some x => exact plainWord_of_current hw hw' hscan hrest hs
  | escaped => exact absurd hs (not_escaped_of_word hw hw' hscan hrest)
  | double =>
    rw [scan_open (Or.inl rfl) hblank htail] at hfinish
    cases hfinish
  | doubleEscaped =>
    have hnext : (⟨.doubleEscaped,words,current⟩ : Lexer).scan (' ' :: (w ++ ' ' :: w')) =
        (⟨.double,words,some (current.getD [] ++ [('\\',false),(' ',false)])⟩ : Lexer).scan
          (w ++ ' ' :: w') := rfl
    rw [hnext] at htail
    rw [scan_open (Or.inl rfl) hliteral htail] at hfinish
    cases hfinish
  | single =>
    rw [scan_open (Or.inr rfl) hblank htail] at hfinish
    cases hfinish

def begun (ws : List Str) : Str := ws.flatMap (· ++ [' '])

theorem scan_begun {words : List Word} {ws : List Str} (hws : ∀ w ∈ ws, PlainWord w) (rest : Str) :
    (⟨.plain,words,none⟩ : Lexer).scan (begun ws ++ rest) =
      (⟨.plain,words ++ ws.map bare,none⟩ : Lexer).scan rest := by
  induction ws generalizing words with
  | nil => simp [begun]
  | cons w ws ih =>
    obtain ⟨hw,hws⟩ := List.forall_mem_cons.mp hws
    have hsplit : begun (w :: ws) ++ rest = w ++ ' ' :: (begun ws ++ rest) := by simp [begun]
    rw [hsplit,scan_word hw,ih hws,List.map_cons,List.append_assoc,List.singleton_append]

theorem words_begun {ws argv : List Str} {rest : Str} (hws : ∀ w ∈ ws, PlainWord w)
    (h : words (begun ws ++ rest) = some argv) : ws <+: argv := by
  obtain ⟨raw,hraw,rfl⟩ := Option.map_eq_some_iff.mp h
  obtain ⟨st,hscan,hfinish⟩ := Option.bind_eq_some_iff.mp hraw
  rw [scan_begun hws] at hscan
  obtain ⟨more,hmore⟩ := (scan_words hscan).trans (finish_words hfinish)
  refine ⟨more.map Word.text,?_⟩
  rw [← hmore]
  simp [bare_text,Function.comp_def]

theorem plainWord_of_words {ws argv : List Str} {s w w' : Str} (hws : ∀ w ∈ ws, PlainWord w)
    (hw : PlainWord w) (hw' : PlainWord w')
    (h : words (begun ws ++ (s ++ ' ' :: (w ++ ' ' :: w'))) = some argv)
    (hs : argv[ws.length]? = some s) : PlainWord s := by
  obtain ⟨raw,hraw,rfl⟩ := Option.map_eq_some_iff.mp h
  rw [scan_begun hws,List.nil_append] at hraw
  apply plainWord_of_word hw hw' hraw
  rw [List.length_map,← List.getElem?_map]
  exact hs

end Posix
