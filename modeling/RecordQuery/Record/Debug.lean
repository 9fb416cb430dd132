import RecordQuery.Registry
import RecordQuery.Text.Quoted

/-!
# Text that shows a value

Every value is shown with its shape; of a record only the name of its type is shown.
-/

namespace RecordQuery.Registry

variable {ι : Type} [DecidableEq ι] (R : Registry ι)

mutual

def debugText : Value ι → String
  | .null => "Null"
  | .bool b => "Bool(" ++ (if b then "true" else "false") ++ ")"
  | .number n => "Number(" ++ n.debugText ++ ")"
  | .string s => "String(" ++ Text.quoted s ++ ")"
  | .list items => "List([" ++ ", ".intercalate (itemTexts items) ++ "])"
  | .map pairs => "\x7b" ++ ", ".intercalate (pairTexts pairs) ++ "\x7d"
  | .record t _ => "Record(" ++ R.nameOf t ++ ")"

def itemTexts : List (Value ι) → List String
  | [] => []
  | v :: vs => debugText v :: itemTexts vs

def pairTexts : List (Value ι × Value ι) → List String
  | [] => []
  | (k, v) :: pairs => (debugText k ++ ": " ++ debugText v) :: pairTexts pairs

end

end RecordQuery.Registry
