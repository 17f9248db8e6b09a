import BootImage.Json.Basic

/-!
# The members of an object

Of several members with one key the last one counts, at the place of the first. Keys that are array
indices, the numbers from 0 to 4294967294 written without leading zeros, come before all others and
in ascending order; the others keep the order in which they first appear. `Members.put` keeps this
order, and `Members.ofList` builds it from the members as written.
-/

namespace BootImage.Json.Members

variable {α : Type}

def indexOf? (text : String) : Option Nat :=
  match text.toList with
  | ['0'] => some 0
  | c :: cs =>
    if c ≠ '0' ∧ (c :: cs).all Char.isDigit then
      let n := (c :: cs).foldl (fun n d => n * 10 + (d.toNat - 48)) 0
      if n < 4294967295 then some n else none
    else none
  | [] => none

/-- The number that a key is, if it is an array index. -/
def index? (key : WideText) : Option Nat := key.string?.bind indexOf?

/-- Whether the key `a` stands before the key `b` wherever it was written: it is an index, and `b`
is a larger index or none. -/
def precedes (a b : WideText) : Bool :=
  match index? a, index? b with
  | some i, some j => i < j
  | some _, none => true
  | none, _ => false

/-- Adds a member, or gives the member of that key a new value. -/
def put (key : WideText) (value : α) : List (WideText × α) → List (WideText × α)
  | [] => [(key, value)]
  | (k, v) :: ms =>
    if k = key then (key, value) :: ms
    else if precedes key k then (key, value) :: (k, v) :: ms
    else (k, v) :: put key value ms

def ofList (written : List (WideText × α)) : List (WideText × α) :=
  written.foldl (fun ms m => put m.1 m.2 ms) []

@[simp] theorem ofList_nil : ofList ([] : List (WideText × α)) = [] := rfl

theorem ofList_concat (ms : List (WideText × α)) (key : WideText) (value : α) :
    ofList (ms ++ [(key, value)]) = put key value (ofList ms) := by
  simp [ofList]

theorem lookup_put_self (key : WideText) (value : α) (ms : List (WideText × α)) :
    (put key value ms).lookup key = some value := by
  induction ms with
  | nil => simp [put]
  | cons m ms ih =>
    obtain ⟨k, v⟩ := m
    rw [put]
    split
    · simp
    · next h =>
      split
      · simp
      · rw [List.lookup_cons]
        have : (key == k) = false := by simpa using Ne.symm h
        simp [this, ih]

theorem lookup_put_of_ne {key other : WideText} (h : other ≠ key) (value : α)
    (ms : List (WideText × α)) : (put key value ms).lookup other = ms.lookup other := by
  have hk : (other == key) = false := by simpa using h
  induction ms with
  | nil => simp [put, List.lookup_cons, hk]
  | cons m ms ih =>
    obtain ⟨k, v⟩ := m
    rw [put]
    split
    · next e => subst e; simp [List.lookup_cons, hk]
    · split
      · simp [List.lookup_cons, hk]
      · simp [List.lookup_cons, ih]

end BootImage.Json.Members
