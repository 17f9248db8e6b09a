import BootImage.Json.Members
import BootImage.Json.Token

/-!
# From tokens to a value

`ofTokens?` builds the value that a sequence of tokens writes. It works one token at a time, with
the arrays and objects that are still open kept in a list, innermost first. No depth of nesting
needs more than a longer list, and the number of tokens bounds the work.
-/

namespace BootImage.Json

/-- An open array or object: what it holds so far, latest first. For an object the key whose value
is due comes with it. -/
inductive Open where
  | array (read : List Json)
  | object (read : List (WideText × Json)) (key : WideText)
  deriving Repr, Inhabited

/-- What the tokens read so far leave to be done. The list holds the arrays and objects around. -/
inductive Assembly where
  /-- A value is due. -/
  | value (around : List Open)
  /-- An array was opened: its first item is due, or its end. -/
  | firstItem (around : List Open)
  /-- An item was read: a comma is due, or the end of the array. -/
  | afterItem (read : List Json) (around : List Open)
  /-- An object was opened: its first key is due, or its end. -/
  | firstKey (around : List Open)
  /-- A comma between members was read: a key is due. -/
  | nextKey (read : List (WideText × Json)) (around : List Open)
  /-- A key was read: a colon is due. -/
  | afterKey (read : List (WideText × Json)) (key : WideText) (around : List Open)
  /-- A member was read: a comma is due, or the end of the object. -/
  | afterMember (read : List (WideText × Json)) (around : List Open)
  /-- The whole value was read: nothing is due. -/
  | complete (value : Json)
  deriving Repr, Inhabited

namespace Assembly

def deliver (v : Json) : List Open → Assembly
  | [] => complete v
  | .array read :: around => afterItem (v :: read) around
  | .object read key :: around => afterMember ((key, v) :: read) around

def begin (around : List Open) : Token → Option Assembly
  | .openArray => some (firstItem around)
  | .openObject => some (firstKey around)
  | .null => some (deliver .null around)
  | .true => some (deliver (.bool Bool.true) around)
  | .false => some (deliver (.bool Bool.false) around)
  | .number literal => some (deliver (.number literal) around)
  | .string text => some (deliver (.string text) around)
  | _ => none

def step : Assembly → Token → Option Assembly
  | value around, t => begin around t
  | firstItem around, .closeArray => some (deliver (.array []) around)
  | firstItem around, t => begin (.array [] :: around) t
  | afterItem read around, .comma => some (value (.array read :: around))
  | afterItem read around, .closeArray => some (deliver (.array read.reverse) around)
  | firstKey around, .closeObject => some (deliver (.object []) around)
  | firstKey around, .string key => some (afterKey [] key around)
  | nextKey read around, .string key => some (afterKey read key around)
  | afterKey read key around, .colon => some (value (.object read key :: around))
  | afterMember read around, .comma => some (nextKey read around)
  | afterMember read around, .closeObject =>
    some (deliver (.object (Members.ofList read.reverse)) around)
  | _, _ => none

def run : Assembly → List Token → Option Assembly
  | a, [] => some a
  | a, t :: ts => match a.step t with
    | some a' => run a' ts
    | none => none

@[simp] theorem run_nil (a : Assembly) : a.run [] = some a := rfl

theorem run_cons (a : Assembly) (t : Token) (ts : List Token) :
    a.run (t :: ts) = (a.step t).bind (·.run ts) := by
  rw [run]; cases a.step t <;> rfl

def result? : Assembly → Option Json
  | complete v => some v
  | _ => none

end Assembly

def ofTokens? (ts : List Token) : Option Json :=
  ((Assembly.value []).run ts).bind Assembly.result?

/-- The value of a JSON text; `none` if the text is not JSON. -/
def parse? (text : String) : Option Json := (tokens? text.toList).bind ofTokens?

end BootImage.Json
