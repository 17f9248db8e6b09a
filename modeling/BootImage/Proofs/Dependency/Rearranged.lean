import BootImage.Json.Render
import BootImage.Proofs.Dependency.Document
import BootImage.Proofs.Dependency.Outcome
import Mathlib.Data.List.Forall2
import Mathlib.Data.List.Nodup

/-!
# The order of a dependency graph

The build tool may list nodes, packages and dependencies in any order, and it may list some that
have no part in a search. Where what is searched for is listed once, a search finds the same in
every order and among any others that do not match. So the search for a dependency ends in the same
way on every rearrangement of a graph whose identifiers, and whose root's dependency names, are
distinct.
-/

namespace BootImage

/-- The list `bs` has a counterpart of each item of `as`, in any order, and besides these only items
that are `fresh`. -/
def Rearranged {α β : Type} (r : α → β → Prop) (fresh : β → Prop) (as : List α) (bs : List β) :
    Prop :=
  ∃ kept extra, List.Forall₂ r as kept ∧ (kept ++ extra).Perm bs ∧ ∀ b ∈ extra, fresh b

namespace Rearranged

variable {α β : Type} {r : α → β → Prop} {fresh : β → Prop} {as : List α} {bs : List β}

theorem exists_mem_of_mem (h : Rearranged r fresh as bs) {a : α} (ha : a ∈ as) :
    ∃ b ∈ bs, r a b := by
  obtain ⟨kept, extra, pairs, perm, -⟩ := h
  have among : ∀ b ∈ kept, b ∈ bs := fun b hb => perm.subset (List.mem_append_left extra hb)
  clear perm
  induction pairs with
  | nil => cases ha
  | cons hab _ ih =>
      rw [List.forall_mem_cons] at among
      rcases List.mem_cons.1 ha with rfl | ha
      · exact ⟨_, among.1, hab⟩
      · exact ih ha among.2

theorem fresh_or_exists_mem (h : Rearranged r fresh as bs) {b : β} (hb : b ∈ bs) :
    fresh b ∨ ∃ a ∈ as, r a b := by
  obtain ⟨kept, extra, pairs, perm, new⟩ := h
  rcases List.mem_append.1 (perm.symm.subset hb) with hb | hb
  · right
    clear perm
    induction pairs with
    | nil => cases hb
    | cons hab _ ih =>
        rcases List.mem_cons.1 hb with rfl | hb
        · exact ⟨_, List.mem_cons_self, hab⟩
        · obtain ⟨a, ha, hr⟩ := ih hb
          exact ⟨a, List.mem_cons_of_mem _ ha, hr⟩
  · exact .inl (new b hb)

/-- A search by a key that is there once finds counterparts, or nothing in both lists. -/
theorem find? (h : Rearranged r fresh as bs) {key : α → WideText} {key' : β → WideText}
    (distinct : (as.map key).Nodup) (same : ∀ a b, r a b → key' b = key a) {k : WideText}
    (new : ∀ b, fresh b → key' b ≠ k) :
    Option.Rel r (as.find? fun a => key a == k) (bs.find? fun b => key' b == k) := by
  have found {b : β} (hb : (bs.find? fun b => key' b == k) = some b) :
      ∃ a ∈ as, r a b ∧ key a = k := by
    have hk : key' b = k := by simpa using List.find?_some hb
    rcases h.fresh_or_exists_mem (List.mem_of_find?_eq_some hb) with fresh | ⟨a, ha, hr⟩
    · exact absurd hk (new b fresh)
    · exact ⟨a, ha, hr, (same a b hr).symm.trans hk⟩
  cases ha : as.find? fun a => key a == k with
  | none =>
      have absent : (bs.find? fun b => key' b == k) = none := by
        rw [Option.eq_none_iff_forall_ne_some]
        intro b hb
        obtain ⟨a, hmem, -, hk⟩ := found hb
        exact List.find?_eq_none.1 ha a hmem (beq_iff_eq.2 hk)
      rw [absent]
      exact .none
  | some a =>
      have hmem := List.mem_of_find?_eq_some ha
      have hk : key a = k := by simpa using List.find?_some ha
      cases hb : bs.find? fun b => key' b == k with
      | none =>
          obtain ⟨b, hmem', hr⟩ := h.exists_mem_of_mem hmem
          exact absurd (beq_iff_eq.2 ((same a b hr).trans hk)) (List.find?_eq_none.1 hb b hmem')
      | some b =>
          obtain ⟨a', hmem', hr, hk'⟩ := found hb
          rw [List.inj_on_of_nodup_map distinct hmem hmem' (hk.trans hk'.symm)]
          exact .some hr

theorem find?_eq {fresh : α → Prop} {bs : List α} (h : Rearranged Eq fresh as bs)
    {key : α → WideText} (distinct : (as.map key).Nodup) {k : WideText}
    (new : ∀ b, fresh b → key b ≠ k) :
    (bs.find? fun b => key b == k) = as.find? fun a => key a == k := by
  have found := h.find? distinct (fun a b hab => congrArg key hab.symm) new
  revert found
  generalize (as.find? fun a => key a == k) = a
  generalize (bs.find? fun b => key b == k) = b
  intro found
  cases found with
  | none => rfl
  | some hab => rw [hab]

end Rearranged

namespace DependencyGraph

/-- The node has the same dependencies in any order, and maybe others that are not called `name`. -/
structure RearrangedNode (name : WideText) (n n' : DependencyNode) : Prop where
  id : n'.id = n.id
  deps : Rearranged Eq (fun e => e.name ≠ name) n.deps n'.deps

/-- The package is neither the root nor one that the root depends on. -/
def Unasked (g : DependencyGraph) (p : PackageInfo) : Prop :=
  g.root ≠ some p.id ∧ ∀ n, g.IsRootNode n → ∀ e ∈ n.deps, e.pkgId ≠ p.id

/-- The graph `g'` has the root, the nodes and the packages of `g` in any order, with the
dependencies of each node in any order. It may have other nodes and packages, if they are not what
the root and its dependencies are, and the nodes may have other dependencies, if they are not called
`name`. -/
structure RearrangedAs (g : DependencyGraph) (name : WideText) (g' : DependencyGraph) : Prop where
  root : g'.root = g.root
  nodes : Rearranged (RearrangedNode name) (fun n => g.root ≠ some n.id) g.nodes g'.nodes
  packages : Rearranged Eq g.Unasked g.packages g'.packages

/-- No two nodes and no two packages have the same identifier, and no two dependencies of the root
the same name. -/
structure Distinct (g : DependencyGraph) : Prop where
  nodes : (g.nodes.map DependencyNode.id).Nodup
  packages : (g.packages.map PackageInfo.id).Nodup
  deps (n : DependencyNode) (h : g.IsRootNode n) : (n.deps.map DependencyEdge.name).Nodup

namespace RearrangedAs

variable {g g' : DependencyGraph} {name id : WideText} (h : g.RearrangedAs name g')
  (distinct : g.Distinct)

include h distinct

theorem rootNode :
    Option.Rel (RearrangedNode name) (g.root.bind g.node?) (g'.root.bind g'.node?) := by
  rw [h.root]
  cases hr : g.root with
  | none => exact .none
  | some root =>
      refine h.nodes.find? distinct.nodes (fun n n' hn => hn.id) ?_
      intro n' fresh hid
      exact fresh (by rw [hr, hid])

theorem dependencyId?_eq : g'.dependencyId? name = g.dependencyId? name := by
  have names := fun n hn => distinct.deps n (g.root_bind_node?_eq_some_iff.1 hn)
  have root := h.rootNode distinct
  rw [DependencyGraph.dependencyId?_eq, DependencyGraph.dependencyId?_eq]
  revert names root
  generalize g.root.bind g.node? = n
  generalize g'.root.bind g'.node? = n'
  intro names root
  cases root with
  | none => rfl
  | some hnode =>
      rw [Option.bind_some, Option.bind_some,
        hnode.deps.find?_eq (names _ rfl) fun e other => other]

theorem package?_eq (asked : ∀ p, g.Unasked p → p.id ≠ id) : g'.package? id = g.package? id :=
  h.packages.find?_eq distinct.packages asked

theorem sourceDir?_eq (leads : g.LeadsTo name id) : g'.sourceDir? id = g.sourceDir? id := by
  obtain ⟨n, e, root, ⟨-, before, after, hdeps, -⟩, rfl⟩ := leads
  have listed : e ∈ n.deps := by
    rw [hdeps]
    simp
  have asked (p : PackageInfo) (unasked : g.Unasked p) : p.id ≠ e.pkgId :=
    (unasked.2 n root e listed).symm
  rw [sourceDir?, sourceDir?, h.package?_eq distinct asked]

theorem rootName?_eq : g'.rootName? = g.rootName? := by
  rw [rootName?, rootName?, h.root]
  cases hr : g.root with
  | none => rfl
  | some root =>
      have asked (p : PackageInfo) (unasked : g.Unasked p) : p.id ≠ root := by
        intro hid
        exact unasked.1 (by rw [hr, hid])
      have same := h.package?_eq distinct asked
      change (g'.package? root).bind _ = (g.package? root).bind _
      rw [same]

theorem outcome_eq : g'.outcome name = g.outcome name := by
  rw [outcome, outcome, h.dependencyId?_eq distinct]
  cases hid : g.dependencyId? name with
  | none => rfl
  | some id =>
      have leads := (g.dependencyId?_eq_some_iff name id).1 hid
      dsimp only
      rw [h.sourceDir?_eq distinct leads, h.rootName?_eq distinct]

end RearrangedAs

end DependencyGraph

theorem searchOutcome_of_prints {complain : String → String} {tool : String} {name : WideText}
    {answer : CallResult} {g : DependencyGraph} (h : answer.Prints g) :
    searchOutcome complain tool name answer = g.outcome name := by
  rw [searchOutcome, readAnswer_eq_ok_iff.2 h]

section Search

variable {complain complain' : String → String} {runner runner' : Runner} {s s' : RunState}
  {tool : String} {name : WideText} {cwd : Option String} {answer answer' : CallResult}
  {g g' : DependencyGraph}

/-- The search for a dependency ends in the same way whatever the order in which the build tool
lists the graph, and whatever else it lists that has no part in the search. -/
theorem findDependency_rearranged
    (answered : (runner s.trace s.tree (metadataCall tool cwd)).outcome = .ok answer)
    (answered' : (runner' s'.trace s'.tree (metadataCall tool cwd)).outcome = .ok answer')
    (prints : answer.Prints g) (prints' : answer'.Prints g') (distinct : g.Distinct)
    (rearranged : g.RearrangedAs name g') :
    ((findDependency complain' runner' tool cwd name).run.run s').1 =
      ((findDependency complain runner tool cwd name).run.run s).1 := by
  rw [(findDependency_takes complain runner tool cwd name s).ends,
    (findDependency_takes complain' runner' tool cwd name s').ends, answered, answered']
  change searchOutcome complain' tool name answer' = searchOutcome complain tool name answer
  rw [searchOutcome_of_prints prints, searchOutcome_of_prints prints',
    rearranged.outcome_eq distinct]

end Search

namespace DependencyGraph

def kernel : DependencyGraph where
  root := some "k"
  nodes := [⟨"k", [⟨"bootloader", "b"⟩, ⟨"log", "l"⟩]⟩, ⟨"b", []⟩]
  packages := [⟨"k", "kernel", "/work/kernel/Cargo.toml"⟩, ⟨"b", "bootloader", "/boot/Cargo.toml"⟩]

def kernelRearranged : DependencyGraph where
  root := some "k"
  nodes := [⟨"x", []⟩, ⟨"b", []⟩, ⟨"k", [⟨"log", "l"⟩, ⟨"xen", "x"⟩, ⟨"bootloader", "b"⟩]⟩]
  packages := [⟨"b", "bootloader", "/boot/Cargo.toml"⟩, ⟨"x", "xen", "/xen/Cargo.toml"⟩,
    ⟨"k", "kernel", "/work/kernel/Cargo.toml"⟩]

end DependencyGraph

theorem findDependency_rearranged_kernel :
    let answering (g : DependencyGraph) : Runner := fun _ tree _ =>
      { outcome := .ok { stdout := g.toJson.render }, tree }
    let ends (g : DependencyGraph) (name : WideText) :=
      ((findDependency id (answering g) "cargo" none name).run.run { tree := ⟨"/", []⟩ }).1
    ends .kernel "bootloader" = .ok (.ok ⟨"/boot", some "kernel"⟩) ∧
      ends .kernelRearranged "bootloader" = ends .kernel "bootloader" := by
  intro answering ends
  have rootNode {n : DependencyNode} (h : DependencyGraph.kernel.IsRootNode n) :
      n = ⟨"k", [⟨"bootloader", "b"⟩, ⟨"log", "l"⟩]⟩ := by
    rw [← DependencyGraph.root_bind_node?_eq_some_iff] at h
    exact (Option.some.inj h).symm
  have distinct : DependencyGraph.kernel.Distinct := by
    refine ⟨by decide, by decide, ?_⟩
    intro n h
    rw [rootNode h]
    decide
  have rearranged : DependencyGraph.kernel.RearrangedAs "bootloader" .kernelRearranged := by
    refine ⟨rfl, ⟨[⟨"k", [⟨"log", "l"⟩, ⟨"xen", "x"⟩, ⟨"bootloader", "b"⟩]⟩, ⟨"b", []⟩],
      [⟨"x", []⟩], .cons ?_ (.cons ?_ .nil), by decide, ?_⟩,
      ⟨_, [⟨"x", "xen", "/xen/Cargo.toml"⟩], List.forall₂_eq_eq_eq ▸ rfl, by decide, ?_⟩⟩
    · exact ⟨rfl, _, [⟨"xen", "x"⟩], List.forall₂_eq_eq_eq ▸ rfl, by decide, by decide⟩
    · exact ⟨rfl, [], [], .nil, .nil, by simp⟩
    · decide
    · rw [List.forall_mem_singleton]
      refine ⟨by decide, ?_⟩
      intro n h
      rw [rootNode h]
      decide
  have prints (g : DependencyGraph) : CallResult.Prints { stdout := g.toJson.render } g :=
    (@readAnswer_eq_ok_iff id "cargo" _ g).1 (g.parse_render id)
  refine ⟨?_, findDependency_rearranged rfl rfl (prints _) (prints _) distinct rearranged⟩
  have searched (g : DependencyGraph) (name : WideText) :
      ends g name = searchOutcome id "cargo" name { stdout := g.toJson.render } :=
    congrArg Prod.fst (findDependency_takes id (answering g) "cargo" none name _).ends
  rw [searched, searchOutcome_of_prints (prints .kernel)]
  rfl

end BootImage
