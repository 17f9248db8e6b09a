import BootImage.Report.Event

/-!
# Supervising a started program

Once a program is started, its supervisor hears of output, of a failure to start, and of its end.
The first failure or end settles the call, and what comes later changes nothing. The collected
output is decoded as a whole, so it does not matter how it was cut into pieces on the way.
-/

namespace BootImage

/-- Something the supervisor of a started program hears of. -/
inductive ChildEvent where
  /-- the program wrote some bytes that are collected -/
  | output (bytes : List UInt8)
  /-- the program could not be started -/
  | failed (e : SpawnError)
  /-- the program ended, with an exit code or by a signal -/
  | closed (code : Option Int) (signal : Option String)
  deriving DecidableEq, Repr

def ChildEvent.isEnd : ChildEvent → Bool
  | output _ => false
  | failed _ | closed .. => true

def CallResult.ofEnd (code : Option Int) : Option String → CallResult
  | some signal => { exitCode := 1, signal := some signal }
  | none => { exitCode := code.getD 1 }

/-- What a supervisor has come to: the pieces of output it has collected, whether its call is
settled, and the results it gave and the details it told since the start, in order. -/
structure Supervision where
  pieces : List (List UInt8) := []
  settled : Bool := false
  results : List CallResult := []
  told : List Detail := []
  deriving DecidableEq, Repr

namespace Supervision

/-- Settles a call with a result, to which the collected output is added, unless it is settled. -/
def finish (c : Call) (s : Supervision) (r : CallResult) : Supervision :=
  if s.settled then s
  else
    { s with
      settled := true
      results := s.results ++ [{ r with stdout := Text.decode s.pieces.flatten }]
      told := s.told ++ [.exited c.command r.exitCode] }

def hear (c : Call) (s : Supervision) : ChildEvent → Supervision
  | .output bytes => { s with pieces := s.pieces ++ [bytes] }
  | .failed e => s.finish c { exitCode := 1, spawnError := some e }
  | .closed code signal => s.finish c (.ofEnd code signal)

def hearAll (c : Call) (s : Supervision) (heard : List ChildEvent) : Supervision :=
  heard.foldl (hear c) s

/-- The first result that a supervisor gave is that of the call. The events of the call are its
start, what happened meanwhile, and what its supervisor told of it. -/
def answer? (c : Call) (meanwhile : List Event) (s : Supervision) :
    Option (CallResult × List Event) :=
  s.results.head?.map fun r =>
    (r, .line (.detail (.spawning c)) :: meanwhile ++ s.told.map fun d => .line (.detail d))

@[simp] theorem hearAll_nil (c : Call) (s : Supervision) : s.hearAll c [] = s := rfl

@[simp] theorem hearAll_cons (c : Call) (s : Supervision) (e : ChildEvent)
    (heard : List ChildEvent) : s.hearAll c (e :: heard) = (s.hear c e).hearAll c heard := rfl

theorem component_of_mem_hearAll {c : Call} {s : Supervision} {heard : List ChildEvent}
    (h : ∀ d ∈ s.told, d.component = .exec) :
    ∀ d ∈ (s.hearAll c heard).told, d.component = .exec := by
  have finish {s : Supervision} {r : CallResult} (h : ∀ d ∈ s.told, d.component = .exec) :
      ∀ d ∈ (s.finish c r).told, d.component = .exec := by
    intro d hd
    rw [Supervision.finish] at hd
    split at hd
    · exact h d hd
    · rcases List.mem_append.1 hd with hd | hd
      · exact h d hd
      · rw [List.mem_singleton.1 hd]
        rfl
  induction heard generalizing s with
  | nil => exact h
  | cons e heard ih =>
    cases e with
    | output bytes => exact ih h
    | failed e => exact ih (finish h)
    | closed code signal => exact ih (finish h)

/-- What is told of a supervised call is nothing but what may happen meanwhile. -/
theorem isMeanwhile_of_answer? {c : Call} {meanwhile events : List Event}
    {heard : List ChildEvent} {r : CallResult} (hm : ∀ e ∈ meanwhile, e.isForeign)
    (h : (hearAll c {} heard).answer? c meanwhile = some (r, events)) :
    ∀ e ∈ events, e.isMeanwhile := by
  obtain ⟨r', -, hr⟩ := Option.map_eq_some_iff.1 h
  obtain ⟨rfl, rfl⟩ := Prod.mk.inj hr
  intro e he
  rcases List.mem_append.1 he with he | he
  · rcases List.mem_cons.1 he with rfl | he
    · rfl
    · exact Event.isMeanwhile_of_isForeign (hm e he)
  · obtain ⟨d, hd, rfl⟩ := List.mem_map.1 he
    have exec := component_of_mem_hearAll (by simp) d hd
    simp [Event.isMeanwhile, exec]

end Supervision

end BootImage
