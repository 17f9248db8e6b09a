import BootImage.Build.Action

/-!
# The course of an action

A run prints texts, adds lines to its report, makes directories and calls other programs. These are
its acts. A course is a list of acts in their order, each with the answer it got; from a state it
leads to the state `after runner s as`, and `Course runner s as` says that the answers are those
that are given on the way. Unlike the trace a course holds the answers, and it holds nothing that
other programs did.

`Takes runner m s as o` says that the action `m` started in `s` takes the course `as` and ends with
the outcome `o`. The course of two actions one after the other is the one course followed by the
other.
-/

namespace BootImage

theorem Event.call?_of_isMeanwhile {e : Event} (h : e.isMeanwhile = true) : e.call? = none := by
  cases e with
  | call c => cases h
  | _ => rfl

/-- Something that a run itself does, with the answer it gets. -/
inductive Act where
  | print (text : String)
  | line (l : Line)
  | makeDirectories (path : String) (made : Except FileError Unit)
  | call (c : Call) (outcome : Except Failure CallResult)

structure Exchange where
  call : Call
  outcome : Except Failure CallResult

def Exchange.status (x : Exchange) : Except Failure Int := x.outcome.map CallResult.exitCode

namespace Act

def exchange? : Act → Option Exchange
  | call c outcome => some ⟨c, outcome⟩
  | print _ | line _ | makeDirectories .. => none

def directory? : Act → Option (String × Except FileError Unit)
  | makeDirectories path made => some (path, made)
  | print _ | line _ | call .. => none

def line? : Act → Option Line
  | line l => some l
  | print _ | makeDirectories .. | call .. => none

def after (runner : Runner) (s : RunState) : Act → RunState
  | print text => { s with trace := s.trace ++ [.print text] }
  | line l => { s with trace := s.trace ++ [.line l] }
  | makeDirectories path _ => { s with tree := (s.tree.makeDirectories path).2 }
  | call c _ =>
    { tree := (runner s.trace s.tree c).tree
      trace := s.trace ++ .call c :: (runner s.trace s.tree c).events }

def written (runner : Runner) (s : RunState) : Act → List Event
  | print text => [.print text]
  | line l => [.line l]
  | makeDirectories .. => []
  | call c _ => .call c :: (runner s.trace s.tree c).events

theorem trace_after (runner : Runner) (s : RunState) (a : Act) :
    (a.after runner s).trace = s.trace ++ a.written runner s := by
  cases a with
  | makeDirectories path made => exact (List.append_nil _).symm
  | _ => rfl

/-- Whether an act got the answer that is given in a state. -/
def Answered (runner : Runner) (s : RunState) : Act → Prop
  | print _ | line _ => True
  | makeDirectories path made => made = (s.tree.makeDirectories path).1
  | call c outcome => outcome = (runner s.trace s.tree c).outcome

end Act

def exchanges (as : List Act) : List Exchange := as.filterMap Act.exchange?

def directories (as : List Act) : List (String × Except FileError Unit) :=
  as.filterMap Act.directory?

section Parts

variable (as bs : List Act) (ls : List Line) (l : Line) (path : String)
  (made : Except FileError Unit) (c : Call) (outcome : Except Failure CallResult)

@[simp] theorem exchanges_nil : exchanges [] = [] := rfl

@[simp] theorem exchanges_print_cons (text : String) :
    exchanges (.print text :: as) = exchanges as := rfl

@[simp] theorem exchanges_line_cons : exchanges (.line l :: as) = exchanges as := rfl

@[simp] theorem exchanges_makeDirectories_cons :
    exchanges (.makeDirectories path made :: as) = exchanges as := rfl

@[simp] theorem exchanges_call_cons :
    exchanges (.call c outcome :: as) = ⟨c, outcome⟩ :: exchanges as := rfl

@[simp] theorem exchanges_append : exchanges (as ++ bs) = exchanges as ++ exchanges bs :=
  List.filterMap_append

@[simp] theorem exchanges_map_line : exchanges (ls.map .line) = [] := by
  induction ls with
  | nil => rfl
  | cons l ls ih => exact ih

@[simp] theorem directories_nil : directories [] = [] := rfl

@[simp] theorem directories_line_cons : directories (.line l :: as) = directories as := rfl

@[simp] theorem directories_makeDirectories_cons :
    directories (.makeDirectories path made :: as) = (path, made) :: directories as := rfl

@[simp] theorem directories_call_cons : directories (.call c outcome :: as) = directories as := rfl

@[simp] theorem directories_append : directories (as ++ bs) = directories as ++ directories bs :=
  List.filterMap_append

@[simp] theorem directories_map_line : directories (ls.map .line) = [] := by
  induction ls with
  | nil => rfl
  | cons l ls ih => exact ih

end Parts

theorem exists_append_of_mem_exchanges {as : List Act} {x : Exchange} (h : x ∈ exchanges as) :
    ∃ before rest, as = before ++ .call x.call x.outcome :: rest := by
  obtain ⟨a, ha, exchange⟩ := List.mem_filterMap.1 h
  cases a with
  | call c outcome =>
      cases exchange
      exact List.append_of_mem ha
  | _ => cases exchange

/-- An act that is not among the first acts of a course is found behind them. -/
theorem exists_append_of_not_mem {as bs before rest : List Act} {a : Act}
    (h : as ++ bs = before ++ a :: rest) (ha : a ∉ as) :
    ∃ before', before = as ++ before' ∧ bs = before' ++ a :: rest := by
  rcases List.append_eq_append_iff.1 h with ⟨before', rfl, hbs⟩ | ⟨cs, rfl, hrest⟩
  · exact ⟨before', rfl, hbs⟩
  · cases cs with
    | nil => exact ⟨[], by simp, hrest.symm⟩
    | cons c cs =>
        obtain ⟨rfl, -⟩ := List.cons.inj hrest
        exact absurd (by simp) ha

/-- An act that is not among the last acts of a course is found before them. -/
theorem exists_append_of_not_mem_right {as bs before rest : List Act} {a : Act}
    (h : as ++ bs = before ++ a :: rest) (ha : a ∉ bs) :
    ∃ rest', as = before ++ a :: rest' ∧ rest = rest' ++ bs := by
  rcases List.append_eq_append_iff.1 h with ⟨cs, rfl, hbs⟩ | ⟨cs, rfl, hrest⟩
  · exact absurd (by simp [hbs]) ha
  · cases cs with
    | nil => exact absurd (by simp [← show a :: rest = bs from hrest]) ha
    | cons c cs =>
        obtain ⟨rfl, rfl⟩ := List.cons.inj hrest
        exact ⟨cs, rfl, rfl⟩

def after (runner : Runner) (s : RunState) (as : List Act) : RunState :=
  as.foldl (Act.after runner) s

/-- Whether each of some acts in turn got the answer that is given in the state it met. -/
def Course (runner : Runner) : RunState → List Act → Prop
  | _, [] => True
  | s, a :: as => a.Answered runner s ∧ Course runner (a.after runner s) as

section After

variable (runner : Runner) (s : RunState) (as bs : List Act)

@[simp] theorem after_nil : after runner s [] = s := rfl

@[simp] theorem after_cons (a : Act) :
    after runner s (a :: as) = after runner (a.after runner s) as := rfl

theorem after_append : after runner s (as ++ bs) = after runner (after runner s as) bs :=
  List.foldl_append

@[simp] theorem after_map_line (ls : List Line) :
    after runner s (ls.map .line) = { s with trace := s.trace ++ ls.map .line } := by
  induction ls generalizing s with
  | nil => simp
  | cons l ls ih => simp [ih, Act.after]

def written (runner : Runner) : RunState → List Act → List Event
  | _, [] => []
  | s, a :: as => a.written runner s ++ written runner (a.after runner s) as

theorem trace_after : (after runner s as).trace = s.trace ++ written runner s as := by
  induction as generalizing s with
  | nil => exact (List.append_nil _).symm
  | cons a as ih => rw [after_cons, ih, a.trace_after, List.append_assoc, written]

theorem written_append :
    written runner s (as ++ bs) = written runner s as ++ written runner (after runner s as) bs := by
  induction as generalizing s with
  | nil => rfl
  | cons a as ih => rw [List.cons_append, written, ih, written, List.append_assoc, after_cons]

@[simp] theorem written_map_line (ls : List Line) :
    written runner s (ls.map .line) = ls.map .line := by
  induction ls generalizing s with
  | nil => rfl
  | cons l ls ih => rw [List.map_cons, written, ih, List.map_cons]; rfl

theorem trace_prefix_after : s.trace <+: (after runner s as).trace := by
  rw [trace_after]
  exact List.prefix_append _ _

/-- Of lines that no call can add meanwhile, those are written that the acts add. -/
theorem filter_line?_written {p : Line → Bool}
    (own : ∀ l, (Event.line l).isMeanwhile = true → p l = false) :
    ((written runner s as).filterMap Event.line?).filter p =
      (as.filterMap Act.line?).filter p := by
  induction as generalizing s with
  | nil => rfl
  | cons a as ih =>
      rw [written, List.filterMap_append, List.filter_append, ih]
      cases a with
      | print text => rfl
      | line l => exact (List.filter_append [l] _).symm
      | makeDirectories path made => rfl
      | call c outcome =>
          have foreign :
              ((runner s.trace s.tree c).events.filterMap Event.line?).filter p = [] := by
            rw [List.filter_eq_nil_iff]
            intro l hl
            obtain ⟨e, he, told⟩ := List.mem_filterMap.1 hl
            cases e with
            | line l' =>
                cases told
                simp [own l ((runner s.trace s.tree c).meanwhile _ he)]
            | _ => cases told
          exact congrArg (· ++ _) foreign

/-- The calls in the trace are those of the acts: nothing that happens meanwhile is a call. -/
theorem calls_after :
    (after runner s as).calls = s.calls ++ (exchanges as).map Exchange.call := by
  induction as generalizing s with
  | nil => simp
  | cons a as ih =>
      rw [after_cons, ih]
      cases a with
      | print text => simp [RunState.calls, Act.after, Event.call?]
      | line l => simp [RunState.calls, Act.after, Event.call?]
      | makeDirectories path made => simp [RunState.calls, Act.after]
      | call c outcome =>
          have meanwhile : (runner s.trace s.tree c).events.filterMap Event.call? = [] :=
            List.filterMap_eq_nil_iff.2 fun e he =>
              Event.call?_of_isMeanwhile ((runner s.trace s.tree c).meanwhile e he)
          simp [RunState.calls, Act.after, meanwhile, Event.call?]

/-- A line that no call can add meanwhile is written only if an act adds it. -/
theorem mem_of_line_mem_written {l : Line} (own : (Event.line l).isMeanwhile = false)
    (h : .line l ∈ written runner s as) : .line l ∈ as := by
  have mine (l' : Line) (hm : (Event.line l').isMeanwhile = true) : decide (l' = l) = false := by
    rw [decide_eq_false_iff_not]
    rintro rfl
    cases own.symm.trans hm
  have told : l ∈ ((written runner s as).filterMap Event.line?).filter (· = l) :=
    List.mem_filter.2 ⟨List.mem_filterMap.2 ⟨_, h, rfl⟩, by simp⟩
  rw [filter_line?_written runner s as mine] at told
  obtain ⟨a, ha, line⟩ := List.mem_filterMap.1 (List.mem_filter.1 told).1
  cases a with
  | line l' =>
      cases line
      exact ha
  | _ => cases line

theorem mem_of_line_mem_trace_after {l : Line} (own : (Event.line l).isMeanwhile = false)
    (h : .line l ∈ (after runner s as).trace) : .line l ∈ s.trace ∨ .line l ∈ as := by
  rw [trace_after, List.mem_append] at h
  exact h.imp_right (mem_of_line_mem_written runner s as own)

theorem tree_after (hx : exchanges as = []) (hd : directories as = []) :
    (after runner s as).tree = s.tree := by
  induction as generalizing s with
  | nil => rfl
  | cons a as ih =>
      cases a with
      | print text => exact ih _ hx hd
      | line l => exact ih _ hx hd
      | makeDirectories path made => simp at hd
      | call c outcome => simp at hx

end After

namespace Course

variable {runner : Runner} {s : RunState} {as bs : List Act}

theorem append (h : Course runner s as) (h' : Course runner (after runner s as) bs) :
    Course runner s (as ++ bs) := by
  induction as generalizing s with
  | nil => exact h'
  | cons a as ih => exact ⟨h.1, ih h.2 h'⟩

theorem answered {a : Act} (h : Course runner s (as ++ a :: bs)) :
    a.Answered runner (after runner s as) := by
  induction as generalizing s with
  | nil => exact h.1
  | cons a' as ih => exact ih h.2

theorem exists_answered {x : Exchange} (h : Course runner s as) (hx : x ∈ exchanges as) :
    ∃ t : RunState, x.outcome = (runner t.trace t.tree x.call).outcome := by
  obtain ⟨before, rest, rfl⟩ := exists_append_of_mem_exchanges hx
  exact ⟨_, h.answered⟩

theorem lines (runner : Runner) (s : RunState) (ls : List Line) :
    Course runner s (ls.map .line) := by
  induction ls generalizing s with
  | nil => trivial
  | cons l ls ih => exact ⟨trivial, ih _⟩

end Course

/-- From `s` the action takes the course `as` and ends with `o`. -/
structure Takes {α : Type} (runner : Runner) (m : Action α) (s : RunState) (as : List Act)
    (o : Except Failure α) : Prop where
  ends : m.run.run s = (o, after runner s as)
  course : Course runner s as

namespace Takes

variable {α β : Type} {runner : Runner} {s : RunState} {as bs : List Act}

theorem pure (runner : Runner) (s : RunState) (a : α) :
    Takes runner (Pure.pure a) s [] (.ok a) := ⟨rfl, trivial⟩

theorem throw (runner : Runner) (s : RunState) (f : Failure) :
    Takes runner (MonadExcept.throw f : Action α) s [] (.error f) := ⟨rfl, trivial⟩

theorem run_bind (m : Action α) (f : α → Action β) (s : RunState) :
    (m >>= f).run.run s = match m.run.run s with
      | (.ok a, t) => (f a).run.run t
      | (.error e, t) => (.error e, t) := by
  change (ExceptT.bindCont f (m.run.run s).1).run (m.run.run s).2 = _
  rcases m.run.run s with ⟨_ | _, t⟩ <;> rfl

theorem bind {m : Action α} {f : α → Action β} {a : α} {o : Except Failure β}
    (h : Takes runner m s as (.ok a)) (h' : Takes runner (f a) (after runner s as) bs o) :
    Takes runner (m >>= f) s (as ++ bs) o := by
  refine ⟨?_, h.course.append h'.course⟩
  rw [run_bind, h.ends, after_append]
  exact h'.ends

theorem bind_error {m : Action α} {e : Failure} (h : Takes runner m s as (.error e))
    (f : α → Action β) : Takes runner (m >>= f) s as (.error e) := by
  refine ⟨?_, h.course⟩
  rw [run_bind, h.ends]

theorem bind_pure {m : Action α} {a : α} (h : Takes runner m s as (.ok a)) (f : α → β) :
    Takes runner (m >>= fun a => Pure.pure (f a)) s as (.ok (f a)) := by
  have course := h.bind (f := fun a => Pure.pure (f a)) (pure runner _ (f a))
  rwa [List.append_nil] at course

theorem lines (runner : Runner) (s : RunState) (ls : List Line) :
    Takes runner (Action.lines ls) s (ls.map .line) (.ok ()) := by
  refine ⟨?_, .lines runner s ls⟩
  rw [after_map_line]
  rfl

theorem line (runner : Runner) (s : RunState) (l : Line) :
    Takes runner (Action.line l) s [.line l] (.ok ()) := lines runner s [l]

theorem tree (runner : Runner) (s : RunState) :
    Takes runner Action.tree s [] (.ok s.tree) := ⟨rfl, trivial⟩

theorem makeDirectories (runner : Runner) (s : RunState) (path : String) :
    Takes runner (Action.makeDirectories path) s
      [.makeDirectories path (s.tree.makeDirectories path).1]
      (.ok (s.tree.makeDirectories path).1) := ⟨rfl, rfl, trivial⟩

theorem run_get (s : RunState) : (get : Action RunState).run.run s = (.ok s, s) := rfl

theorem run_set (s t : RunState) : (set t : Action PUnit).run.run s = (.ok ⟨⟩, t) := rfl

theorem call (runner : Runner) (s : RunState) (c : Call) :
    Takes runner (Action.call runner c) s [.call c (runner s.trace s.tree c).outcome]
      (runner s.trace s.tree c).outcome := by
  refine ⟨?_, rfl, trivial⟩
  simp only [Action.call, run_bind, run_get, run_set]
  cases (runner s.trace s.tree c).outcome with
  | ok result => rfl
  | error f => rfl

/-- Two courses of one action write the same and make the same calls. -/
theorem eq_of_takes {m : Action α} {o o' : Except Failure α} (h : Takes runner m s as o)
    (h' : Takes runner m s bs o') :
    (after runner s as).trace = (after runner s bs).trace ∧
      (exchanges as).map Exchange.call = (exchanges bs).map Exchange.call := by
  have same := congrArg Prod.snd (h.ends.symm.trans h'.ends)
  have calls := congrArg RunState.calls same
  rw [calls_after, calls_after, List.append_cancel_left_eq] at calls
  exact ⟨congrArg RunState.trace same, calls⟩

end Takes

end BootImage
