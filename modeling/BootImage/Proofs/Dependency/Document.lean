import BootImage.Proofs.Dependency.Schema
import BootImage.Proofs.Json.Lexemes
import BootImage.Proofs.Json.Members
import BootImage.Proofs.Json.Rendering

/-!
# Metadata documents, read and written

Which documents fit is said here without naming a graph: every member that is asked for is there
and has its type, down to the items of the innermost lists. Exactly these documents are read, and
what is read of them is the graph that they describe.

A graph is written by giving each of its parts as an object under the names of the metadata format.
Such an object may hold its members in any order and any others among them. However a graph is
written, it is read back, and so it is from the text of what is written.
-/

namespace BootImage

def Json.HasText (d : Json) (key : WideText) : Prop := ∃ s, d.member? key = some (.string s)

def Json.HasItems (d : Json) (key : WideText) (p : Json → Prop) : Prop :=
  ∃ ds, d.member? key = some (.array ds) ∧ ∀ item ∈ ds, p item

def ConformsPackage (d : Json) : Prop :=
  d.HasText "id" ∧ d.HasText "name" ∧ d.HasText "manifest_path"

def ConformsEdge (d : Json) : Prop := d.HasText "name" ∧ d.HasText "pkg"

def ConformsNode (d : Json) : Prop :=
  d.HasText "id" ∧ (d.member? "deps" = none ∨ d.HasItems "deps" ConformsEdge)

def ConformsResolve (d : Json) : Prop :=
  (d.member? "root" = some .null ∨ d.HasText "root") ∧ d.HasItems "nodes" ConformsNode

/-- The document has all that a metadata document must have, each of its type. -/
def Conforms (d : Json) : Prop :=
  d.HasItems "packages" ConformsPackage ∧ ∃ r, d.member? "resolve" = some r ∧ ConformsResolve r

theorem exists_forall₂_iff {α β : Type} {r : α → β → Prop} {as : List α} :
    (∃ bs, List.Forall₂ r as bs) ↔ ∀ a ∈ as, ∃ b, r a b := by
  induction as with
  | nil => simp
  | cons a as ih =>
      rw [List.forall_mem_cons, ← ih]
      constructor
      · rintro ⟨bs, h⟩
        cases h with
        | cons hb hbs => exact ⟨⟨_, hb⟩, _, hbs⟩
      · rintro ⟨⟨b, hb⟩, bs, hbs⟩
        exact ⟨b :: bs, .cons hb hbs⟩

/-- Items can be described exactly if each of them can. -/
theorem exists_describes_items_iff {α : Type} {describes : Json → α → Prop} {p : Json → Prop}
    (h : ∀ d, (∃ a, describes d a) ↔ p d) (d : Json) (key : WideText) :
    (∃ as ds, d.member? key = some (.array ds) ∧ List.Forall₂ describes ds as) ↔
      d.HasItems key p := by
  simp only [Json.HasItems, ← h, ← exists_forall₂_iff]
  constructor
  · rintro ⟨as, ds, hd, has⟩
    exact ⟨ds, hd, as, has⟩
  · rintro ⟨ds, hd, as, has⟩
    exact ⟨as, ds, hd, has⟩

theorem exists_describesPackage_iff (d : Json) :
    (∃ p, DescribesPackage d p) ↔ ConformsPackage d := by
  constructor
  · rintro ⟨p, hid, hname, hpath⟩
    exact ⟨⟨_, hid⟩, ⟨_, hname⟩, _, hpath⟩
  · rintro ⟨⟨id, hid⟩, ⟨name, hname⟩, path, hpath⟩
    exact ⟨⟨id, name, path⟩, hid, hname, hpath⟩

theorem exists_describesEdge_iff (d : Json) : (∃ e, DescribesEdge d e) ↔ ConformsEdge d := by
  constructor
  · rintro ⟨e, hname, hpkg⟩
    exact ⟨⟨_, hname⟩, _, hpkg⟩
  · rintro ⟨⟨name, hname⟩, pkg, hpkg⟩
    exact ⟨⟨name, pkg⟩, hname, hpkg⟩

theorem exists_describesNode_iff (d : Json) : (∃ n, DescribesNode d n) ↔ ConformsNode d := by
  have edges := exists_describes_items_iff exists_describesEdge_iff d "deps"
  rw [ConformsNode, ← edges]
  constructor
  · rintro ⟨n, hid, hdeps⟩
    refine ⟨⟨_, hid⟩, ?_⟩
    rcases hdeps with ⟨absent, -⟩ | ⟨ds, hds, deps⟩
    · exact .inl absent
    · exact .inr ⟨_, ds, hds, deps⟩
  · rintro ⟨⟨id, hid⟩, absent | ⟨deps, ds, hds, hdeps⟩⟩
    · exact ⟨⟨id, []⟩, hid, .inl ⟨absent, rfl⟩⟩
    · exact ⟨⟨id, deps⟩, hid, .inr ⟨ds, hds, hdeps⟩⟩

theorem exists_describesResolve_iff (d : Json) :
    (∃ r, DescribesResolve d r) ↔ ConformsResolve d := by
  have nodes := exists_describes_items_iff exists_describesNode_iff d "nodes"
  rw [ConformsResolve, ← nodes]
  constructor
  · rintro ⟨⟨root, nodes⟩, hroot, ds, hds, hnodes⟩
    refine ⟨?_, nodes, ds, hds, hnodes⟩
    cases root with
    | none => exact .inl hroot
    | some root => exact .inr ⟨root, hroot⟩
  · rintro ⟨hnull | ⟨root, hroot⟩, nodes, hnodes⟩
    · exact ⟨(none, nodes), hnull, hnodes⟩
    · exact ⟨(some root, nodes), hroot, hnodes⟩

theorem fits_iff_conforms (d : Json) : Fits d ↔ Conforms d := by
  have packages := exists_describes_items_iff exists_describesPackage_iff d "packages"
  simp only [Conforms, ← packages, ← exists_describesResolve_iff]
  constructor
  · rintro ⟨g, hpackages, r, hr, hresolve⟩
    exact ⟨⟨_, hpackages⟩, r, hr, _, hresolve⟩
  · rintro ⟨⟨packages, hpackages⟩, r, hr, ⟨root, nodes⟩, hresolve⟩
    exact ⟨⟨root, nodes, packages⟩, hpackages, r, hr, hresolve⟩

/-- The document is an object that holds the fields, in any order, and besides them only members
with other keys. -/
def Json.Holds (d : Json) (fields : List (WideText × Json)) : Prop :=
  ∃ ms, d = .object ms ∧ (ms.filter fun m => (fields.map Prod.fst).contains m.1).Perm fields

theorem Json.Holds.member? {d : Json} {fields : List (WideText × Json)} (h : d.Holds fields)
    (distinct : (fields.map Prod.fst).Nodup) {key : WideText} {v : Json} (hm : (key, v) ∈ fields) :
    d.member? key = some v := by
  obtain ⟨ms, rfl, perm⟩ := h
  have known : (fields.map Prod.fst).contains key = true := by
    simpa using ⟨v, hm⟩
  rw [Json.member?, Json.members, ← lookup_filter known,
    lookup_eq_of_perm perm ((perm.map Prod.fst).nodup_iff.2 distinct)]
  exact (lookup_eq_some_iff_mem distinct).2 hm

def WritesPackage (d : Json) (p : PackageInfo) : Prop :=
  d.Holds [("id", .string p.id), ("name", .string p.name),
    ("manifest_path", .string p.manifestPath)]

def WritesEdge (d : Json) (e : DependencyEdge) : Prop :=
  d.Holds [("name", .string e.name), ("pkg", .string e.pkgId)]

def WritesNode (d : Json) (n : DependencyNode) : Prop :=
  ∃ ds, List.Forall₂ WritesEdge ds n.deps ∧ d.Holds [("id", .string n.id), ("deps", .array ds)]

def WritesResolve (d : Json) (r : Option WideText × List DependencyNode) : Prop :=
  ∃ ds, List.Forall₂ WritesNode ds r.2 ∧
    d.Holds [("root", r.1.elim .null .string), ("nodes", .array ds)]

def WritesGraph (d : Json) (g : DependencyGraph) : Prop :=
  ∃ ds r, List.Forall₂ WritesPackage ds g.packages ∧ WritesResolve r (g.root, g.nodes) ∧
    d.Holds [("packages", .array ds), ("resolve", r)]

theorem WritesPackage.describes {d : Json} {p : PackageInfo} (h : WritesPackage d p) :
    DescribesPackage d p where
  id := h.member? (by simp) (by simp)
  name := h.member? (by simp) (by simp)
  manifestPath := h.member? (by simp) (by simp)

theorem WritesEdge.describes {d : Json} {e : DependencyEdge} (h : WritesEdge d e) :
    DescribesEdge d e where
  name := h.member? (by simp) (by simp)
  pkgId := h.member? (by simp) (by simp)

theorem WritesNode.describes {d : Json} {n : DependencyNode} (h : WritesNode d n) :
    DescribesNode d n := by
  obtain ⟨ds, hds, h⟩ := h
  exact ⟨h.member? (by simp) (by simp),
    .inr ⟨ds, h.member? (by simp) (by simp), hds.imp fun _ _ => WritesEdge.describes⟩⟩

theorem WritesResolve.describes {d : Json} {r : Option WideText × List DependencyNode}
    (h : WritesResolve d r) : DescribesResolve d r := by
  obtain ⟨ds, hds, h⟩ := h
  exact ⟨h.member? (by simp) (by simp), ds, h.member? (by simp) (by simp),
    hds.imp fun _ _ => WritesNode.describes⟩

theorem WritesGraph.describes {d : Json} {g : DependencyGraph} (h : WritesGraph d g) :
    Describes d g := by
  obtain ⟨ds, r, hds, hr, h⟩ := h
  exact ⟨⟨ds, h.member? (by simp) (by simp), hds.imp fun _ _ => WritesPackage.describes⟩,
    r, h.member? (by simp) (by simp), hr.describes⟩

theorem Json.holds_object (fields : List (WideText × Json)) :
    (Json.object fields).Holds fields := by
  refine ⟨fields, rfl, ?_⟩
  rw [List.filter_eq_self.2]
  intro m hm
  simpa using ⟨m.2, hm⟩

/-- The plain document of a package, without further members; likewise below. -/
def PackageInfo.toJson (p : PackageInfo) : Json :=
  .object [("id", .string p.id), ("name", .string p.name),
    ("manifest_path", .string p.manifestPath)]

def DependencyEdge.toJson (e : DependencyEdge) : Json :=
  .object [("name", .string e.name), ("pkg", .string e.pkgId)]

def DependencyNode.toJson (n : DependencyNode) : Json :=
  .object [("id", .string n.id), ("deps", .array (n.deps.map DependencyEdge.toJson))]

def DependencyGraph.toJson (g : DependencyGraph) : Json :=
  .object [("packages", .array (g.packages.map PackageInfo.toJson)),
    ("resolve", .object [("root", g.root.elim .null .string),
      ("nodes", .array (g.nodes.map DependencyNode.toJson))])]

theorem forall₂_map_left {α : Type} {writes : Json → α → Prop} {toJson : α → Json}
    (h : ∀ a, writes (toJson a) a) (as : List α) : List.Forall₂ writes (as.map toJson) as := by
  rw [List.forall₂_map_left_iff, List.forall₂_same]
  exact fun a _ => h a

theorem writesGraph_toJson (g : DependencyGraph) : WritesGraph g.toJson g := by
  have package (p : PackageInfo) : WritesPackage p.toJson p := Json.holds_object _
  have edge (e : DependencyEdge) : WritesEdge e.toJson e := Json.holds_object _
  have node (n : DependencyNode) : WritesNode n.toJson n :=
    ⟨_, forall₂_map_left edge n.deps, Json.holds_object _⟩
  exact ⟨_, _, forall₂_map_left package g.packages,
    ⟨_, forall₂_map_left node g.nodes, Json.holds_object _⟩, Json.holds_object _⟩

section Text

open Json

theorem spells_write_map {α : Type} {toJson : α → Json}
    (h : ∀ a, Spells (toJson a).write (toJson a)) (as : List α) :
    Spells (Json.array (as.map toJson)).write (.array (as.map toJson)) :=
  spells_write_array (List.forall_mem_map.2 fun a _ => h a)

theorem spells_write_package (p : PackageInfo) : Spells p.toJson.write p.toJson := by
  apply spells_write_object
  · simp
  · simp [Members.index?, Members.indexOf?]
  · simp [spells_write_string]

theorem spells_write_edge (e : DependencyEdge) : Spells e.toJson.write e.toJson := by
  apply spells_write_object
  · simp
  · simp [Members.index?, Members.indexOf?]
  · simp [spells_write_string]

theorem spells_write_node (n : DependencyNode) : Spells n.toJson.write n.toJson := by
  apply spells_write_object
  · simp
  · simp [Members.index?, Members.indexOf?]
  · simp [spells_write_string, spells_write_map spells_write_edge]

theorem spells_write_graph (g : DependencyGraph) : Spells g.toJson.write g.toJson := by
  have root : Spells (g.root.elim Json.null .string).write (g.root.elim .null .string) := by
    cases g.root with
    | none => exact spells_write_null
    | some id => exact spells_write_string id
  apply spells_write_object
  · simp
  · simp [Members.index?, Members.indexOf?]
  · rw [List.forall_mem_cons, List.forall_mem_singleton]
    refine ⟨spells_write_map spells_write_package g.packages, ?_⟩
    apply spells_write_object
    · simp
    · simp [Members.index?, Members.indexOf?]
    · simp [root, spells_write_map spells_write_node]

theorem DependencyGraph.parse_render (complain : String → String) (g : DependencyGraph) :
    parse complain g.toJson.render = .ok g := by
  rw [DependencyGraph.parse_eq_ok_iff]
  exact ⟨g.toJson, parse?_eq_some_iff.2 (spells_write_graph g).isText_render,
    (writesGraph_toJson g).describes⟩

end Text

/-- Exactly the documents that conform are read, and what is read is described by the document; all
others are refused as metadata that does not fit. However a graph is written, it is read back. -/
theorem DependencyGraph.ofJson?_exact :
    (∀ d, ((∃ g, ofJson? (some d) = .ok g) ↔ Conforms d) ∧
      (¬Conforms d → ∃ e, ofJson? (some d) = .error e ∧ e.kind = .invalidMetadata) ∧
      ∀ g, ofJson? (some d) = .ok g → Describes d g) ∧
    (∀ g d, WritesGraph d g → ofJson? (some d) = .ok g) ∧
    ∀ g, WritesGraph g.toJson g := by
  have read (d : Json) (g : DependencyGraph) : ofJson? (some d) = .ok g ↔ Describes d g := by
    rw [ofJson?, Json.mapError_eq_ok_iff, ofJson_eq_ok_iff]
  refine ⟨?_, ?_, writesGraph_toJson⟩
  · intro d
    have accepted : (∃ g, ofJson? (some d) = .ok g) ↔ Conforms d := by
      simp only [read, ← fits_iff_conforms, Fits]
    refine ⟨accepted, ?_, fun g => (read d g).1⟩
    intro h
    rw [← accepted] at h
    cases hd : ofJson d with
    | ok g => exact absurd ⟨g, by rw [ofJson?, hd]; rfl⟩ h
    | error issue => exact ⟨.illFormed issue, by rw [ofJson?, hd]; rfl, rfl⟩
  · intro g d h
    exact (read d g).2 h.describes

end BootImage
