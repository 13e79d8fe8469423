import StepCatalog.Entries
import StepCatalog.Text.Basic

/-!
# JSON values

Objects keep their keys in the order of first writing; writing a key again replaces its value where it stands. Numbers with a
fraction or an exponent are kept as they were written.
-/

namespace StepCatalog

/-- A JSON value. -/
inductive Json where
  | null
  | bool (b : Bool)
  | int (n : Int)
  | decimal (written : Text)
  | string (s : Text)
  | array (items : List Json)
  | object (fields : List (Text × Json))
  deriving Inhabited, Repr

namespace Json

/-- The value of a field. -/
def field? (key : Text) : Json → Option Json
  | .object fields => Entries.get? key fields
  | _ => none

/-- Whether a value counts as set: neither null, nor false, nor zero, nor empty. -/
def isSet : Json → Bool
  | .null => false
  | .bool b => b
  | .int n => n != 0
  | .decimal written => written.takeWhile (fun c => c != 'e' && c != 'E') |>.any fun c => !(Text.of "-.0").contains c
  | .string s => !s.isEmpty
  | .array items => !items.isEmpty
  | .object fields => !fields.isEmpty

end Json
end StepCatalog
