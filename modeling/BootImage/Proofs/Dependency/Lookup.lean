import BootImage.Dependency.Graph
import Mathlib.Logic.Basic

/-!
# First matches in a dependency graph

A graph from outside may hold an identifier several times, or lead to one it does not hold. Every
search takes the first match. `IsFirst p x xs` says what that is without saying how it is found, and
the searches of a graph are put in its terms: what the root's dependency leads to, when there is
none, where a package is and what the root package is called.
-/

namespace BootImage

/-- `x` satisfies `p` and stands in `xs` before all others that do. -/
def IsFirst {α : Type} (p : α → Prop) (x : α) (xs : List α) : Prop :=
  p x ∧ ∃ before after, xs = before ++ x :: after ∧ ∀ y ∈ before, ¬p y

section Find

variable {α : Type} {p : α → Prop} {q : α → Bool}

theorem find?_eq_some_iff_isFirst (h : ∀ x, q x = true ↔ p x) {xs : List α} {x : α} :
    xs.find? q = some x ↔ IsFirst p x xs := by
  rw [List.find?_eq_some_iff_append, IsFirst, h]
  simp only [Bool.not_eq_true', ← Bool.not_eq_true, h]

theorem find?_eq_none_iff_forall (h : ∀ x, q x = true ↔ p x) {xs : List α} :
    xs.find? q = none ↔ ∀ x ∈ xs, ¬p x := by
  simp only [List.find?_eq_none, h]

end Find

namespace DependencyGraph

variable (g : DependencyGraph) (name id : WideText)

/-- The root's node, which is the first with the root's identifier. -/
def IsRootNode (n : DependencyNode) : Prop := IsFirst (fun n => g.root = some n.id) n g.nodes

/-- The root's dependency `name`, which is the first of that name, leads to the package `id`. -/
def LeadsTo : Prop :=
  ∃ n e, g.IsRootNode n ∧ IsFirst (fun e => e.name = name) e n.deps ∧ e.pkgId = id

/-- There is no root, or no node of it, or that node has no dependency `name`. -/
def Lacks : Prop :=
  g.root = none ∨ (∀ n ∈ g.nodes, g.root ≠ some n.id) ∨
    ∃ n, g.IsRootNode n ∧ ∀ e ∈ n.deps, e.name ≠ name

/-- The package `id` is listed, for the first time with its manifest in `dir`. -/
def LiesIn (dir : WideText) : Prop :=
  ∃ p, IsFirst (fun p => p.id = id) p g.packages ∧ Path.wideDirname p.manifestPath = dir

/-- The first package with the root's identifier is called `name`. -/
def HasRootName : Prop :=
  ∃ p, IsFirst (fun p => g.root = some p.id) p g.packages ∧ p.name = name

section Root

variable {α : Type} {key : α → WideText} {xs : List α}

theorem root_bind_eq_some_iff {x : α} :
    (g.root.bind fun root => xs.find? fun x => key x == root) = some x ↔
      IsFirst (fun x => g.root = some (key x)) x xs := by
  cases g.root with
  | none => simp [IsFirst]
  | some root =>
      refine find?_eq_some_iff_isFirst ?_
      intro x
      rw [beq_iff_eq, Option.some.injEq, eq_comm]

theorem root_bind_eq_none_iff :
    (g.root.bind fun root => xs.find? fun x => key x == root) = none ↔
      ∀ x ∈ xs, g.root ≠ some (key x) := by
  cases g.root with
  | none => simp
  | some root =>
      refine find?_eq_none_iff_forall ?_
      intro x
      rw [beq_iff_eq, Option.some.injEq, eq_comm]

end Root

theorem dependencyId?_eq :
    g.dependencyId? name = (g.root.bind g.node?).bind fun n =>
      (n.deps.find? fun e => e.name == name).map DependencyEdge.pkgId := by
  rw [dependencyId?]
  cases g.root with
  | none => rfl
  | some root =>
      change (g.node? root).bind _ = (g.node? root).bind _
      cases g.node? root with
      | none => rfl
      | some n =>
          change (n.deps.find? _).bind _ = (n.deps.find? _).map _
          cases n.deps.find? fun e => e.name == name <;> rfl

theorem root_bind_node?_eq_some_iff {n : DependencyNode} :
    g.root.bind g.node? = some n ↔ g.IsRootNode n := g.root_bind_eq_some_iff

theorem root_bind_node?_eq_none_iff :
    g.root.bind g.node? = none ↔ ∀ n ∈ g.nodes, g.root ≠ some n.id := g.root_bind_eq_none_iff

theorem dependencyId?_eq_some_iff : g.dependencyId? name = some id ↔ g.LeadsTo name id := by
  have edge (n : DependencyNode) (e : DependencyEdge) :
      (n.deps.find? fun e => e.name == name) = some e ↔ IsFirst (fun e => e.name = name) e n.deps :=
    find?_eq_some_iff_isFirst (by simp)
  rw [dependencyId?_eq, Option.bind_eq_some_iff]
  simp only [root_bind_node?_eq_some_iff, Option.map_eq_some_iff, edge]
  constructor
  · rintro ⟨n, hn, e, he, hid⟩
    exact ⟨n, e, hn, he, hid⟩
  · rintro ⟨n, e, hn, he, hid⟩
    exact ⟨n, hn, e, he, hid⟩

theorem dependencyId?_eq_none_iff : g.dependencyId? name = none ↔ g.Lacks name := by
  have edge (n : DependencyNode) :
      (n.deps.find? fun e => e.name == name) = none ↔ ∀ e ∈ n.deps, e.name ≠ name :=
    find?_eq_none_iff_forall (by simp)
  rw [dependencyId?_eq, Option.bind_eq_none_iff]
  simp only [Option.map_eq_none_iff, root_bind_node?_eq_some_iff, edge]
  constructor
  · intro h
    cases hn : g.root.bind g.node? with
    | none => exact .inr (.inl (g.root_bind_node?_eq_none_iff.1 hn))
    | some n =>
        have root := g.root_bind_node?_eq_some_iff.1 hn
        exact .inr (.inr ⟨n, root, h n root⟩)
  · intro h n root
    -- there is a node of the root, so only the last way of lacking is left
    have hn := g.root_bind_node?_eq_some_iff.2 root
    rcases h with h | h | ⟨n', root', h⟩
    · rw [h] at hn
      cases hn
    · rw [g.root_bind_node?_eq_none_iff.2 h] at hn
      cases hn
    · rw [g.root_bind_node?_eq_some_iff.2 root'] at hn
      cases hn
      exact h

theorem sourceDir?_eq_some_iff {dir : WideText} : g.sourceDir? id = some dir ↔ g.LiesIn id dir := by
  have package (p : PackageInfo) : g.package? id = some p ↔ IsFirst (fun p => p.id = id) p _ :=
    find?_eq_some_iff_isFirst (by simp)
  rw [sourceDir?, Option.map_eq_some_iff]
  simp only [package, LiesIn]

theorem sourceDir?_eq_none_iff : g.sourceDir? id = none ↔ ∀ p ∈ g.packages, p.id ≠ id := by
  rw [sourceDir?, Option.map_eq_none_iff]
  exact find?_eq_none_iff_forall (by simp)

theorem rootName?_eq_some_iff : g.rootName? = some name ↔ g.HasRootName name := by
  have package (p : PackageInfo) : g.root.bind g.package? = some p ↔ _ := g.root_bind_eq_some_iff
  have eq : g.rootName? = (g.root.bind g.package?).map PackageInfo.name := by
    cases h : g.root with
    | none => simp [rootName?, h]
    | some root => cases hp : g.package? root <;> simp [rootName?, h, hp]
  rw [eq, Option.map_eq_some_iff]
  simp only [package, HasRootName]

end DependencyGraph

end BootImage
