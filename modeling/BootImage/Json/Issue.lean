import BootImage.Json.Basic

/-!
# Where a document does not fit

A document that is read as something definite may fail to fit at some position. An `Issue` is such
a position, given by the keys and indices that lead to it, with what is wrong there. The readers
below take a document apart and give the first issue they meet.
-/

namespace BootImage.Json

inductive Step where
  | key (name : String)
  | index (n : Nat)
  deriving DecidableEq, Repr

def Step.text : Step → String
  | .key name => name
  | .index n => toString n

inductive Fault where
  /-- a member that must be there is not -/
  | required
  /-- a value of another type -/
  | mistyped (expected actual : Kind)
  /-- an empty string where one must say something -/
  | empty
  /-- members with keys that mean nothing -/
  | unrecognized (keys : List WideText)
  deriving DecidableEq, Repr

def Fault.message : Fault → WideText
  | .required => "Required"
  | .mistyped expected actual => "Expected " ++ expected.name ++ ", received " ++ actual.name
  | .empty => "String must contain at least 1 character(s)"
  | .unrecognized keys =>
    "Unrecognized key(s) in object: " ++ .intercalate ", " (keys.map fun k => "'" ++ k ++ "'")

structure Issue where
  path : List Step
  fault : Fault
  deriving DecidableEq, Repr

namespace Issue

def position (i : Issue) : String := ".".intercalate (i.path.map Step.text)

def under (s : Step) (i : Issue) : Issue := { i with path := s :: i.path }

end Issue

def readString : Json → Except Issue WideText
  | .string s => .ok s
  | d => .error ⟨[], .mistyped .string d.kind⟩

/-- Reads null as nothing and every other value with `read`. -/
def readNullable {α : Type} (read : Json → Except Issue α) : Json → Except Issue (Option α)
  | .null => .ok none
  | d => (read d).map some

def readObject : Json → Except Issue (List (WideText × Json))
  | .object ms => .ok ms
  | d => .error ⟨[], .mistyped .object d.kind⟩

def readItems {α : Type} (read : Json → Except Issue α) (n : Nat) :
    List Json → Except Issue (List α)
  | [] => .ok []
  | d :: ds => do
    let a ← (read d).mapError (Issue.under (.index n))
    let as ← readItems read (n + 1) ds
    return a :: as

def readArray {α : Type} (read : Json → Except Issue α) : Json → Except Issue (List α)
  | .array ds => readItems read 0 ds
  | d => .error ⟨[], .mistyped .array d.kind⟩

def readMember {α : Type} (ms : List (WideText × Json)) (key : String)
    (read : Json → Except Issue α) : Except Issue α :=
  match ms.lookup (key : WideText) with
  | some d => (read d).mapError (Issue.under (.key key))
  | none => .error ⟨[.key key], .required⟩

/-- Reads the member `key`; where it is absent the result is `default`. -/
def readMemberD {α : Type} (ms : List (WideText × Json)) (key : String)
    (read : Json → Except Issue α) (default : α) : Except Issue α :=
  match ms.lookup (key : WideText) with
  | some d => (read d).mapError (Issue.under (.key key))
  | none => .ok default

end BootImage.Json
