import RdkHal.Lib.Numeral

/-! What `sprintf` prints for a format with the conversions `%s` and `%d`. -/

set_option autoImplicit false

namespace Text

inductive Arg where
  | s (text : Str)
  | d (n : Int32)
  deriving DecidableEq

def Arg.text : Arg → Str
  | .s text => text
  | .d n => formatD n

def Arg.conversion : Arg → Char
  | .s _ => 's'
  | .d _ => 'd'

/-- A `%` that does not begin the conversion of the next argument is printed. -/
def sprintf : Str → List Arg → Str
  | [], _ => []
  | [c], _ => [c]
  | c :: k :: f, [] => c :: sprintf (k :: f) []
  | c :: k :: f, a :: args =>
    if c = '%' ∧ k = a.conversion then a.text ++ sprintf f args else c :: sprintf (k :: f) (a :: args)

theorem sprintf_length (f : Str) (args : List Arg) :
    (sprintf f args).length ≤ f.length+(args.map (fun a => a.text.length)).sum := by
  induction f, args using sprintf.induct with
  | case1 => simp [sprintf]
  | case2 => simp [sprintf]
  | case3 c k f ih =>
    simp only [sprintf,List.length_cons] at ih ⊢
    omega
  | case4 c k f a args h ih =>
    simp only [sprintf,h,and_self,if_true,List.length_append,List.length_cons,List.map_cons,
      List.sum_cons] at ih ⊢
    omega
  | case5 c k f a args h ih =>
    simp only [sprintf,h,if_false,List.length_cons,List.map_cons,List.sum_cons] at ih ⊢
    omega

end Text
