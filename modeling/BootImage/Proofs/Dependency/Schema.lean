import BootImage.Dependency.Document
import BootImage.Proofs.Json.Readers

/-!
# The documents that describe a graph

What a metadata document must hold to describe a package, an edge, a node, a resolution and a whole
graph. Items are described one by one and in order, and what is not named here may be anything. The
reader of metadata documents gives a graph exactly if the document describes that graph, so a
document describes at most one.
-/

namespace BootImage

structure DescribesPackage (d : Json) (p : PackageInfo) : Prop where
  id : d.member? "id" = some (.string p.id)
  name : d.member? "name" = some (.string p.name)
  manifestPath : d.member? "manifest_path" = some (.string p.manifestPath)

structure DescribesEdge (d : Json) (e : DependencyEdge) : Prop where
  name : d.member? "name" = some (.string e.name)
  pkgId : d.member? "pkg" = some (.string e.pkgId)

structure DescribesNode (d : Json) (n : DependencyNode) : Prop where
  id : d.member? "id" = some (.string n.id)
  deps : (d.member? "deps" = none ∧ n.deps = []) ∨
    ∃ ds, d.member? "deps" = some (.array ds) ∧ List.Forall₂ DescribesEdge ds n.deps

structure DescribesResolve (d : Json) (r : Option WideText × List DependencyNode) : Prop where
  root : d.member? "root" = some (r.1.elim .null .string)
  nodes : ∃ ds, d.member? "nodes" = some (.array ds) ∧ List.Forall₂ DescribesNode ds r.2

structure Describes (d : Json) (g : DependencyGraph) : Prop where
  packages : ∃ ds, d.member? "packages" = some (.array ds) ∧
    List.Forall₂ DescribesPackage ds g.packages
  resolve : ∃ r, d.member? "resolve" = some r ∧ DescribesResolve r (g.root, g.nodes)

def Fits (d : Json) : Prop := ∃ g, Describes d g

namespace DependencyGraph

open Json

theorem readPackage_eq_ok_iff {d : Json} {p : PackageInfo} :
    readPackage d = .ok p ↔ DescribesPackage d p := by
  simp only [readPackage, bind_eq_ok_iff, readObject_eq_ok_iff, readMember_eq_ok_iff,
    readString_eq_ok_iff]
  constructor
  · rintro ⟨ms, rfl, id, ⟨_, hid, rfl⟩, name, ⟨_, hname, rfl⟩, path, ⟨_, hpath, rfl⟩, h⟩
    cases h
    exact ⟨hid, hname, hpath⟩
  · rintro ⟨hid, hname, hpath⟩
    obtain ⟨ms, rfl, hid⟩ := member?_eq_some_iff.1 hid
    exact ⟨ms, rfl, p.id, ⟨_, hid, rfl⟩, p.name, ⟨_, hname, rfl⟩, p.manifestPath, ⟨_, hpath, rfl⟩,
      rfl⟩

theorem readEdge_eq_ok_iff {d : Json} {e : DependencyEdge} :
    readEdge d = .ok e ↔ DescribesEdge d e := by
  simp only [readEdge, bind_eq_ok_iff, readObject_eq_ok_iff, readMember_eq_ok_iff,
    readString_eq_ok_iff]
  constructor
  · rintro ⟨ms, rfl, name, ⟨_, hname, rfl⟩, pkgId, ⟨_, hpkg, rfl⟩, h⟩
    cases h
    exact ⟨hname, hpkg⟩
  · rintro ⟨hname, hpkg⟩
    obtain ⟨ms, rfl, hname⟩ := member?_eq_some_iff.1 hname
    exact ⟨ms, rfl, e.name, ⟨_, hname, rfl⟩, e.pkgId, ⟨_, hpkg, rfl⟩, rfl⟩

theorem readNode_eq_ok_iff {d : Json} {n : DependencyNode} :
    readNode d = .ok n ↔ DescribesNode d n := by
  simp only [readNode, bind_eq_ok_iff, readObject_eq_ok_iff, readMember_eq_ok_iff,
    readMemberD_eq_ok_iff, readArray_eq_ok_iff, readString_eq_ok_iff, readEdge_eq_ok_iff]
  constructor
  · rintro ⟨ms, rfl, id, ⟨_, hid, rfl⟩, deps, hdeps, h⟩
    cases h
    refine ⟨hid, hdeps.imp_right ?_⟩
    rintro ⟨_, hmember, ds, rfl, hds⟩
    exact ⟨ds, hmember, hds⟩
  · rintro ⟨hid, hdeps⟩
    obtain ⟨ms, rfl, hid⟩ := member?_eq_some_iff.1 hid
    refine ⟨ms, rfl, n.id, ⟨_, hid, rfl⟩, n.deps, hdeps.imp_right ?_, rfl⟩
    rintro ⟨ds, hmember, hds⟩
    exact ⟨_, hmember, ds, rfl, hds⟩

theorem readResolve_eq_ok_iff {d : Json} {r : Option WideText × List DependencyNode} :
    readResolve d = .ok r ↔ DescribesResolve d r := by
  simp only [readResolve, bind_eq_ok_iff, readObject_eq_ok_iff, readMember_eq_ok_iff,
    readNullable_readString_eq_ok_iff, readArray_eq_ok_iff, readNode_eq_ok_iff]
  constructor
  · rintro ⟨ms, rfl, root, ⟨_, hroot, rfl⟩, nodes, ⟨_, hnodes, ds, rfl, hds⟩, h⟩
    cases h
    exact ⟨hroot, ds, hnodes, hds⟩
  · rintro ⟨hroot, ds, hnodes, hds⟩
    obtain ⟨ms, rfl, hroot⟩ := member?_eq_some_iff.1 hroot
    exact ⟨ms, rfl, r.1, ⟨_, hroot, rfl⟩, r.2, ⟨_, hnodes, ds, rfl, hds⟩, rfl⟩

/-- A document is read as a graph exactly if it describes that graph. -/
theorem ofJson_eq_ok_iff {d : Json} {g : DependencyGraph} :
    ofJson d = .ok g ↔ Describes d g := by
  simp only [ofJson, bind_eq_ok_iff, readObject_eq_ok_iff, readMember_eq_ok_iff,
    readArray_eq_ok_iff, readPackage_eq_ok_iff, readResolve_eq_ok_iff]
  constructor
  · rintro ⟨ms, rfl, packages, ⟨_, hpackages, ds, rfl, hds⟩, ⟨root, nodes⟩, ⟨r, hresolve, hr⟩, h⟩
    cases h
    exact ⟨⟨ds, hpackages, hds⟩, r, hresolve, hr⟩
  · rintro ⟨⟨ds, hpackages, hds⟩, r, hresolve, hr⟩
    obtain ⟨ms, rfl, hpackages⟩ := member?_eq_some_iff.1 hpackages
    exact ⟨ms, rfl, g.packages, ⟨_, hpackages, ds, rfl, hds⟩, (g.root, g.nodes),
      ⟨r, hresolve, hr⟩, rfl⟩

/-- A text is read as a graph exactly if it is JSON and describes that graph. -/
theorem parse_eq_ok_iff {complain : String → String} {text : String} {g : DependencyGraph} :
    parse complain text = .ok g ↔ ∃ d, Json.parse? text = some d ∧ Describes d g := by
  rw [parse]
  cases Json.parse? text with
  | none => simp
  | some d => simp [ofJson?, mapError_eq_ok_iff, ofJson_eq_ok_iff]

theorem kind_of_parse_eq_error {complain : String → String} {text : String} {e : MetadataError}
    (h : parse complain text = .error e) :
    e.kind = .invalidMetadata := by
  rw [parse] at h
  cases hd : Json.parse? text with
  | none =>
      rw [hd] at h
      cases h
      rfl
  | some d =>
      rw [hd] at h
      cases hg : ofJson d with
      | error issue =>
          simp only [ofJson?, hg] at h
          cases h
          rfl
      | ok g =>
          simp only [ofJson?, hg] at h
          cases h

end DependencyGraph

end BootImage
