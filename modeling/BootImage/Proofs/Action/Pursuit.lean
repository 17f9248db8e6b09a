import BootImage.Proofs.Action.Course

/-!
# Calls made in turn until one fails

A plan is a list of calls to be made in their order, each only if all calls before it returned 0.
`Pursuit plan xs` says that the exchanges `xs` are what comes of a plan. Then the calls of `xs`
begin the plan, a call of the plan is made exactly if those before it returned 0, and the status of
the last call tells whether the whole plan was carried out.
-/

namespace BootImage

/-- What comes of a plan: its calls are made in turn until one does not return 0. -/
inductive Pursuit : List Call → List Exchange → Prop
  | nil : Pursuit [] []
  | stop {x : Exchange} {plan : List Call} (h : x.status ≠ .ok 0) : Pursuit (x.call :: plan) [x]
  | next {x : Exchange} {plan : List Call} {xs : List Exchange} (h : x.status = .ok 0)
      (rest : Pursuit plan xs) : Pursuit (x.call :: plan) (x :: xs)

/-- The status of the last of some exchanges; 0 if there is none. -/
def lastStatus (xs : List Exchange) : Except Failure Int :=
  (xs.getLast?.map Exchange.status).getD (.ok 0)

@[simp] theorem lastStatus_nil : lastStatus [] = .ok 0 := rfl

@[simp] theorem lastStatus_singleton (x : Exchange) : lastStatus [x] = x.status := rfl

theorem lastStatus_cons {x : Exchange} (h : x.status = .ok 0) (xs : List Exchange) :
    lastStatus (x :: xs) = lastStatus xs := by
  cases xs with
  | nil => exact h
  | cons y ys => simp [lastStatus, List.getLast?_cons_cons]

theorem lastStatus_of_ne_nil {xs : List Exchange} (h : xs ≠ []) :
    ∃ x, xs.getLast? = some x ∧ lastStatus xs = x.status := by
  refine ⟨xs.getLast h, List.getLast?_eq_some_getLast h, ?_⟩
  simp [lastStatus, List.getLast?_eq_some_getLast h]

/-- The calls of a plan that is not empty were made in turn as long as they returned 0, with the
outcome of the last of them. -/
structure CarriedOut (plan : List Call) (xs : List Exchange) (outcome : Except Failure Int) :
    Prop where
  ne_nil : xs ≠ []
  isPrefix : xs.map Exchange.call <+: plan
  lt_length_iff (i : Nat) :
    i < xs.length ↔ i < plan.length ∧ ∀ x ∈ xs.take i, x.status = .ok 0
  last : ∃ x, xs.getLast? = some x ∧ outcome = x.status
  eq_ok_zero_iff : outcome = .ok 0 ↔ xs.map Exchange.call = plan ∧ ∀ x ∈ xs, x.status = .ok 0

namespace Pursuit

variable {plan : List Call} {xs : List Exchange}

/-- The first call of a plan is made, and those after it exactly if it returned 0. -/
theorem exists_cons {c : Call} (h : Pursuit (c :: plan) xs) :
    ∃ x ys, x.call = c ∧ xs = x :: ys ∧ (x.status = .ok 0 → Pursuit plan ys) ∧
      (x.status ≠ .ok 0 → ys = []) := by
  cases h with
  | stop h => exact ⟨_, [], rfl, rfl, fun zero => absurd zero h, fun _ => rfl⟩
  | next h rest => exact ⟨_, _, rfl, rfl, fun _ => rest, fun nonzero => absurd h nonzero⟩

theorem single (x : Exchange) : Pursuit [x.call] [x] := by
  by_cases h : x.status = .ok 0
  · exact .next h .nil
  · exact .stop h

theorem isPrefix (h : Pursuit plan xs) : xs.map Exchange.call <+: plan := by
  induction h with
  | nil => exact List.prefix_rfl
  | stop _ => simp
  | next _ _ ih => simpa using ih

theorem ne_nil (h : Pursuit plan xs) (hp : plan ≠ []) : xs ≠ [] := by
  cases h with
  | nil => exact absurd rfl hp
  | stop _ => exact List.cons_ne_nil _ _
  | next _ _ => exact List.cons_ne_nil _ _

/-- The call at a place of the plan is made exactly if all calls before it returned 0. -/
theorem lt_length_iff (h : Pursuit plan xs) (i : Nat) :
    i < xs.length ↔ i < plan.length ∧ ∀ x ∈ xs.take i, x.status = .ok 0 := by
  induction h generalizing i with
  | nil => simp
  | stop h =>
      cases i with
      | zero => simp
      | succ i => simp [h]
  | next h _ ih =>
      cases i with
      | zero => simp
      | succ i => simp [h, ih]

/-- The status of the last call is 0 exactly if all calls were made and each returned 0. -/
theorem lastStatus_eq_ok_zero_iff (h : Pursuit plan xs) :
    lastStatus xs = .ok 0 ↔ xs.map Exchange.call = plan ∧ ∀ x ∈ xs, x.status = .ok 0 := by
  induction h with
  | nil => simp
  | stop h => simp [h]
  | next h _ ih => simp [lastStatus_cons h, h, ih]

theorem carriedOut (h : Pursuit plan xs) (hp : plan ≠ []) :
    CarriedOut plan xs (lastStatus xs) where
  ne_nil := h.ne_nil hp
  isPrefix := h.isPrefix
  lt_length_iff := h.lt_length_iff
  last := lastStatus_of_ne_nil (h.ne_nil hp)
  eq_ok_zero_iff := h.lastStatus_eq_ok_zero_iff

end Pursuit

end BootImage
