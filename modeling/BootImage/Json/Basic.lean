import BootImage.Text.Wide

/-!
# JSON values

A JSON document as a value. A number is kept as the text that writes it, since no document this
library reads gives a meaning to a number. A string or a key is a sequence of code units, since an
escape may write a surrogate without its partner; keys are the same if their code units are. An
object is the list of its members in their order; the reader never leaves two members of one key in
it (see `BootImage.Json.Members`).
-/

namespace BootImage

inductive Json where
  | null
  | bool (value : Bool)
  | number (literal : String)
  | string (text : WideText)
  | array (items : List Json)
  | object (members : List (WideText × Json))
  deriving Repr, Inhabited

namespace Json

inductive Kind where
  | null
  | boolean
  | number
  | string
  | array
  | object
  deriving DecidableEq, Repr

def Kind.name : Kind → String
  | .null => "null"
  | .boolean => "boolean"
  | .number => "number"
  | .string => "string"
  | .array => "array"
  | .object => "object"

def kind : Json → Kind
  | .null => .null
  | .bool _ => .boolean
  | .number _ => .number
  | .string _ => .string
  | .array _ => .array
  | .object _ => .object

def text? : Json → Option WideText
  | .string s => some s
  | _ => none

def bool? : Json → Option Bool
  | .bool b => some b
  | _ => none

def members : Json → List (WideText × Json)
  | .object ms => ms
  | _ => []

def member? (key : WideText) (d : Json) : Option Json := d.members.lookup key

theorem kind_eq_string_iff {d : Json} : d.kind = .string ↔ ∃ s, d = .string s := by
  cases d <;> simp [kind]

theorem kind_eq_boolean_iff {d : Json} : d.kind = .boolean ↔ ∃ b, d = .bool b := by
  cases d <;> simp [kind]

theorem kind_eq_object_iff {d : Json} : d.kind = .object ↔ ∃ ms, d = .object ms := by
  cases d <;> simp [kind]

theorem kind_eq_array_iff {d : Json} : d.kind = .array ↔ ∃ items, d = .array items := by
  cases d <;> simp [kind]

end Json

end BootImage
