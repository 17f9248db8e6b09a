import BootImage.Dependency.Query
import BootImage.Proofs.Action.Course
import BootImage.Proofs.Dependency.Lookup
import BootImage.Proofs.Dependency.Schema

/-!
# How the search for a dependency ends

The search makes one call and tells details of the graph that the answer holds. How it ends follows
from the answer alone, and its five ends exclude one another: the tool fails, it prints nothing that
fits, the root has no such dependency, the dependency is not listed, or it is found. For each end
there is a condition on the answer that holds exactly if the search ends so.
-/

namespace BootImage

namespace DependencyGraph

variable (g : DependencyGraph) (name : WideText)

def outcome : Except Failure (Except MetadataError FoundDependency) :=
  match g.dependencyId? name with
  | none => .ok (.error (.dependencyNotFound name))
  | some id => match g.sourceDir? id with
    | none => .error (.unlistedPackage id)
    | some dir => .ok (.ok ⟨dir, g.rootName?⟩)

def details : List Detail :=
  .graph (g.root.map WideText.written) g.nodes.length g.packages.length ::
    match g.dependencyId? name with
    | none => []
    | some id => .edge name.written id.written :: match g.sourceDir? id with
      | none => []
      | some dir => [.sourceDir name.written dir.written]

theorem follow_takes (runner : Runner) (s : RunState) :
    Takes runner (g.follow name) s (((g.details name).map .detail).map .line)
      (g.outcome name) := by
  have told (s : RunState) (d : Detail) := Takes.line runner s (.detail d)
  rw [follow, details, outcome]
  refine (told s _).bind ?_
  cases g.dependencyId? name with
  | none => exact .pure runner _ _
  | some id =>
      dsimp only
      refine (told _ _).bind ?_
      cases g.sourceDir? id with
      | none => exact .throw runner _ _
      | some dir => exact (told _ _).bind (.pure runner _ _)

theorem outcome_eq_refused_iff {e : MetadataError} :
    g.outcome name = .ok (.error e) ↔ e = .dependencyNotFound name ∧ g.Lacks name := by
  rw [outcome, ← dependencyId?_eq_none_iff]
  cases g.dependencyId? name with
  | none => simp [eq_comm]
  | some id =>
      dsimp only
      cases g.sourceDir? id <;> simp

theorem outcome_eq_unlisted_iff {id : WideText} :
    g.outcome name = .error (.unlistedPackage id) ↔
      g.LeadsTo name id ∧ ∀ p ∈ g.packages, p.id ≠ id := by
  rw [outcome, ← dependencyId?_eq_some_iff, ← sourceDir?_eq_none_iff]
  cases g.dependencyId? name with
  | none => simp
  | some id' =>
      dsimp only
      cases hd : g.sourceDir? id' with
      | none =>
          simp only [Except.error.injEq, Failure.unlistedPackage.injEq, Option.some.injEq]
          constructor
          · rintro rfl
            exact ⟨rfl, hd⟩
          · rintro ⟨rfl, -⟩
            rfl
      | some dir =>
          simp only [Option.some.injEq, reduceCtorEq, false_iff]
          rintro ⟨rfl, hn⟩
          rw [hd] at hn
          cases hn

theorem outcome_eq_found_iff {dir : WideText} {rootName : Option WideText} :
    g.outcome name = .ok (.ok ⟨dir, rootName⟩) ↔
      ∃ id, g.LeadsTo name id ∧ g.LiesIn id dir ∧
        ∀ n, rootName = some n ↔ g.HasRootName n := by
  have named : (∀ n, rootName = some n ↔ g.HasRootName n) ↔ g.rootName? = rootName := by
    simp only [← rootName?_eq_some_iff]
    constructor
    · intro h
      exact Option.ext fun n => (h n).symm
    · rintro rfl n
      rfl
  simp only [named, ← dependencyId?_eq_some_iff, ← sourceDir?_eq_some_iff, outcome]
  cases g.dependencyId? name with
  | none => simp
  | some id =>
      dsimp only
      cases hd : g.sourceDir? id <;> simp [hd]

end DependencyGraph

def searchOutcome (complain : String → String) (tool : String) (name : WideText)
    (answer : CallResult) :
    Except Failure (Except MetadataError FoundDependency) :=
  match readAnswer complain tool answer with
  | .error e => .ok (.error e)
  | .ok g => g.outcome name

/-- The tool succeeded, and printed a document that describes the graph. -/
def CallResult.Prints (answer : CallResult) (g : DependencyGraph) : Prop :=
  answer.exitCode = 0 ∧ ∃ d, Json.parse? answer.stdout = some d ∧ Describes d g

theorem readAnswer_eq_ok_iff {complain : String → String} {tool : String} {answer : CallResult}
    {g : DependencyGraph} : readAnswer complain tool answer = .ok g ↔ answer.Prints g := by
  rw [readAnswer, CallResult.Prints, ← @DependencyGraph.parse_eq_ok_iff complain]
  by_cases h : answer.exitCode = 0 <;> simp [h]

/-- An answer that holds no graph is refused, for the tool's failure before all else. -/
theorem kind_of_readAnswer_eq_error {complain : String → String} {tool : String}
    {answer : CallResult} {e : MetadataError} (h : readAnswer complain tool answer = .error e) :
    e.kind = if answer.exitCode = 0 then .invalidMetadata else .queryFailed := by
  rw [readAnswer] at h
  by_cases h0 : answer.exitCode = 0
  · rw [if_neg (by simpa using h0)] at h
    rw [if_pos h0]
    exact DependencyGraph.kind_of_parse_eq_error h
  · rw [if_pos h0] at h
    rw [if_neg h0]
    cases h
    cases answer.spawnError <;> rfl

def searchDetails (complain : String → String) (tool : String) (name : WideText)
    (answer : CallResult) : List Detail :=
  match readAnswer complain tool answer with
  | .error _ => []
  | .ok g => g.details name

def searchActs (complain : String → String) (tool : String) (cwd : Option String)
    (name : WideText) (outcome : Except Failure CallResult) : List Act :=
  .call (metadataCall tool cwd) outcome :: match outcome with
    | .error _ => []
    | .ok answer => ((searchDetails complain tool name answer).map .detail).map .line

@[simp] theorem exchanges_searchActs (complain : String → String) (tool : String)
    (cwd : Option String) (name : WideText) (outcome : Except Failure CallResult) :
    exchanges (searchActs complain tool cwd name outcome) = [⟨metadataCall tool cwd, outcome⟩] := by
  cases outcome <;> simp [searchActs, -List.map_map]

@[simp] theorem directories_searchActs (complain : String → String) (tool : String)
    (cwd : Option String) (name : WideText) (outcome : Except Failure CallResult) :
    directories (searchActs complain tool cwd name outcome) = [] := by
  cases outcome <;> simp [searchActs, -List.map_map]

/-- The search makes one call, and its end follows from what comes of it. -/
theorem findDependency_takes (complain : String → String) (runner : Runner) (tool : String)
    (cwd : Option String) (name : WideText) (s : RunState) :
    Takes runner (findDependency complain runner tool cwd name) s
      (searchActs complain tool cwd name (runner s.trace s.tree (metadataCall tool cwd)).outcome)
      ((runner s.trace s.tree (metadataCall tool cwd)).outcome.bind
        (searchOutcome complain tool name)) := by
  have called := Takes.call runner s (metadataCall tool cwd)
  revert called
  generalize (runner s.trace s.tree (metadataCall tool cwd)).outcome = outcome
  intro called
  rw [findDependency]
  cases outcome with
  | error f => exact called.bind_error _
  | ok answer =>
      refine called.bind ?_
      simp only [searchDetails, Except.bind, searchOutcome]
      cases readAnswer complain tool answer with
      | error e => exact .pure runner _ _
      | ok g => exact g.follow_takes name runner _

/-- What an end of the search for the dependency `name` says of the tool's answer: for each of the
five ends there is a condition that holds exactly if it is this one. -/
structure Verdict (answer : CallResult) (name : WideText)
    (o : Except Failure (Except MetadataError FoundDependency)) : Prop where
  exhaustive : (∃ e, o = .ok (.error e)) ∨ (∃ id, o = .error (.unlistedPackage id)) ∨
    ∃ found, o = .ok (.ok found)
  queryFailed : (∃ e, o = .ok (.error e) ∧ e.kind = .queryFailed) ↔ answer.exitCode ≠ 0
  invalidMetadata : (∃ e, o = .ok (.error e) ∧ e.kind = .invalidMetadata) ↔
    answer.exitCode = 0 ∧ ∀ d, Json.parse? answer.stdout = some d → ¬Fits d
  dependencyNotFound : (∃ e, o = .ok (.error e) ∧ e.kind = .dependencyNotFound) ↔
    ∃ g, answer.Prints g ∧ g.Lacks name
  unlisted (id : WideText) : o = .error (.unlistedPackage id) ↔
    ∃ g, answer.Prints g ∧ g.LeadsTo name id ∧ ∀ p ∈ g.packages, p.id ≠ id
  found (dir : WideText) (rootName : Option WideText) : o = .ok (.ok ⟨dir, rootName⟩) ↔
    ∃ g id, answer.Prints g ∧ g.LeadsTo name id ∧ g.LiesIn id dir ∧
      ∀ n, rootName = some n ↔ g.HasRootName n

theorem verdict_searchOutcome (complain : String → String) (tool : String) (name : WideText)
    (answer : CallResult) : Verdict answer name (searchOutcome complain tool name answer) := by
  rw [searchOutcome]
  cases h : readAnswer complain tool answer with
  | error e =>
      have kind := kind_of_readAnswer_eq_error h
      have unread (g : DependencyGraph) : ¬answer.Prints g := by
        rw [← @readAnswer_eq_ok_iff complain tool, h]
        simp
      have misfit : answer.exitCode = 0 → ∀ d, Json.parse? answer.stdout = some d → ¬Fits d := by
        rintro h0 d hd ⟨g, hg⟩
        exact unread g ⟨h0, d, hd, hg⟩
      constructor
      · exact .inl ⟨e, rfl⟩
      · by_cases h0 : answer.exitCode = 0 <;> simp [kind, h0]
      · by_cases h0 : answer.exitCode = 0
        · simpa [kind, h0] using misfit h0
        · simp [kind, h0]
      · by_cases h0 : answer.exitCode = 0 <;> simp [kind, h0, unread]
      · simp [unread]
      · simp [unread]
  | ok g =>
      have only (g' : DependencyGraph) : answer.Prints g' ↔ g' = g := by
        rw [← @readAnswer_eq_ok_iff complain tool, h, Except.ok.injEq, eq_comm]
      obtain ⟨h0, d, hd, hg⟩ := readAnswer_eq_ok_iff.1 h
      have fits : Fits d := ⟨g, hg⟩
      have refused (e : MetadataError) := @g.outcome_eq_refused_iff name e
      dsimp only
      constructor
      · rw [DependencyGraph.outcome]
        cases g.dependencyId? name with
        | none => exact .inl ⟨_, rfl⟩
        | some id =>
            dsimp only
            cases g.sourceDir? id with
            | none => exact .inr (.inl ⟨_, rfl⟩)
            | some dir => exact .inr (.inr ⟨_, rfl⟩)
      · simp [refused, MetadataError.kind, h0]
      · simp [refused, MetadataError.kind, h0, hd, fits]
      · simp [refused, MetadataError.kind, only]
      · simp [g.outcome_eq_unlisted_iff, only]
      · simp [g.outcome_eq_found_iff, only]

/-- The search stops only at an edge that leads to no package. -/
theorem searchOutcome_eq_error_iff {complain : String → String} {tool : String} {name : WideText}
    {answer : CallResult} {f : Failure} : searchOutcome complain tool name answer = .error f ↔
      ∃ g id, f = .unlistedPackage id ∧ answer.Prints g ∧ g.LeadsTo name id ∧
        ∀ p ∈ g.packages, p.id ≠ id := by
  have verdict := verdict_searchOutcome complain tool name answer
  constructor
  · intro h
    rcases verdict.exhaustive with ⟨e, ho⟩ | ⟨id, ho⟩ | ⟨found, ho⟩
    · rw [h] at ho
      cases ho
    · obtain ⟨g, hg⟩ := (verdict.unlisted id).1 ho
      rw [h] at ho
      exact ⟨g, id, Except.error.inj ho, hg⟩
    · rw [h] at ho
      cases ho
  · rintro ⟨g, id, rfl, hg⟩
    exact (verdict.unlisted id).2 ⟨g, hg⟩

/-- The search makes exactly one call, of the build tool for its metadata. If the call gives an
answer, the search ends as the answer determines, in one of five ways; if the call cannot be made,
so it ends. -/
theorem findDependency_verdict (complain : String → String) (runner : Runner) (tool : String)
    (cwd : Option String) (name : WideText) (s : RunState) :
    ∃ as o, Takes runner (findDependency complain runner tool cwd name) s as o ∧
      exchanges as =
        [⟨⟨.capture, tool, ["metadata"], cwd⟩,
          (runner s.trace s.tree (metadataCall tool cwd)).outcome⟩] ∧
      (after runner s as).calls = s.calls ++ [⟨.capture, tool, ["metadata"], cwd⟩] ∧
      match (runner s.trace s.tree (metadataCall tool cwd)).outcome with
      | .error f => o = .error f
      | .ok answer => Verdict answer name o := by
  refine ⟨_, _, findDependency_takes complain runner tool cwd name s, exchanges_searchActs ..,
    ?_, ?_⟩
  · rw [calls_after, exchanges_searchActs]
    rfl
  · cases (runner s.trace s.tree (metadataCall tool cwd)).outcome with
    | error f => rfl
    | ok answer => exact verdict_searchOutcome complain tool name answer

end BootImage
