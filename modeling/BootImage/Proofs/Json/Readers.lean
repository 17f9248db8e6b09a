import BootImage.Json.Issue
import Mathlib.Data.List.Forall2

/-!
# What readers accept

A reader accepts a document exactly if the document has the shape the reader is for, and then it
gives what the document holds. Each of the lemmas below says so of one reader in terms of the
readers it is built from.
-/

namespace BootImage.Json

variable {α β : Type} {ms : List (WideText × Json)} {key : String} {read : Json → Except Issue α}

/-- Reading in two steps gives a result exactly if both steps do. -/
theorem bind_eq_ok_iff {ε : Type} {x : Except ε α} {f : α → Except ε β} {b : β} :
    x >>= f = .ok b ↔ ∃ a, x = .ok a ∧ f a = .ok b := by
  constructor
  · intro h
    cases x with
    | error e => cases h
    | ok a => exact ⟨a, rfl, h⟩
  · rintro ⟨a, rfl, h⟩
    exact h

theorem mapError_eq_ok_iff {ε ε' : Type} {x : Except ε α} {f : ε → ε'} {a : α} :
    x.mapError f = .ok a ↔ x = .ok a := by
  cases x <;> simp [Except.mapError]

/-- Reading in two steps fails in the first step, or in the second after the first. -/
theorem bind_eq_error_iff {ε : Type} {x : Except ε α} {f : α → Except ε β} {e : ε} :
    x >>= f = .error e ↔ x = .error e ∨ ∃ a, x = .ok a ∧ f a = .error e := by
  cases x <;> simp [bind, Except.bind]

theorem mapError_eq_error_iff {ε ε' : Type} {x : Except ε α} {f : ε → ε'} {e : ε'} :
    x.mapError f = .error e ↔ ∃ e', x = .error e' ∧ e = f e' := by
  cases x <;> simp [Except.mapError, eq_comm]

theorem readString_eq_ok_iff {d : Json} {s : WideText} : readString d = .ok s ↔ d = .string s := by
  cases d <;> simp [readString]

theorem readObject_eq_ok_iff {d : Json} {ms : List (WideText × Json)} :
    readObject d = .ok ms ↔ d = .object ms := by
  cases d <;> simp [readObject]

theorem readNullable_readString_eq_ok_iff {d : Json} {o : Option WideText} :
    readNullable readString d = .ok o ↔ d = o.elim .null .string := by
  cases d <;> cases o <;> simp [readNullable, readString, Except.map]

theorem readItems_eq_ok_iff {n : Nat} {ds : List Json} {as : List α} :
    readItems read n ds = .ok as ↔ List.Forall₂ (fun d a => read d = .ok a) ds as := by
  induction ds generalizing n as with
  | nil => cases as <;> simp [readItems]
  | cons d ds ih =>
      rw [readItems, bind_eq_ok_iff]
      simp only [bind_eq_ok_iff, mapError_eq_ok_iff, ih, pure, Except.pure, Except.ok.injEq]
      constructor
      · rintro ⟨a, ha, as, has, rfl⟩
        exact .cons ha has
      · intro h
        cases h with
        | cons ha has => exact ⟨_, ha, _, has, rfl⟩

theorem readArray_eq_ok_iff {d : Json} {as : List α} :
    readArray read d = .ok as ↔
      ∃ ds, d = .array ds ∧ List.Forall₂ (fun d a => read d = .ok a) ds as := by
  cases d <;> simp [readArray, readItems_eq_ok_iff]

theorem readMember_eq_ok_iff {a : α} :
    readMember ms key read = .ok a ↔ ∃ d, ms.lookup (key : WideText) = some d ∧ read d = .ok a := by
  rw [readMember]
  cases ms.lookup (key : WideText) with
  | none => simp
  | some d => simp [mapError_eq_ok_iff]

theorem readMemberD_eq_ok_iff {default a : α} :
    readMemberD ms key read default = .ok a ↔
      (ms.lookup (key : WideText) = none ∧ a = default) ∨
        ∃ d, ms.lookup (key : WideText) = some d ∧ read d = .ok a := by
  rw [readMemberD]
  cases ms.lookup (key : WideText) with
  | none => simp [eq_comm]
  | some d => simp [mapError_eq_ok_iff]

theorem member?_eq_some_iff {d v : Json} :
    d.member? key = some v ↔ ∃ ms, d = .object ms ∧ ms.lookup (key : WideText) = some v := by
  cases d <;> simp [member?, members]

end BootImage.Json
