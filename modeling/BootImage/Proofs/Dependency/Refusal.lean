import BootImage.Proofs.Dependency.Document
import BootImage.Proofs.Json.Schema

/-!
# Where a metadata document is refused

The readers of metadata documents follow one schema. So a document that is refused is refused for
the first place in the order of the schema that does not conform, however many others there are and
wherever they stand in the document.
-/

namespace BootImage.DependencyGraph

open Json (Follows FollowsFields Schema follows_readString follows_readNullable_readString
  followsFields_ok)

def packageSchema : Schema :=
  .fields [⟨"id", true, .text⟩, ⟨"name", true, .text⟩, ⟨"manifest_path", true, .text⟩]

def edgeSchema : Schema := .fields [⟨"name", true, .text⟩, ⟨"pkg", true, .text⟩]

def nodeSchema : Schema := .fields [⟨"id", true, .text⟩, ⟨"deps", false, .items edgeSchema⟩]

def resolveSchema : Schema :=
  .fields [⟨"root", true, .textOrNull⟩, ⟨"nodes", true, .items nodeSchema⟩]

def metadataSchema : Schema :=
  .fields [⟨"packages", true, .items packageSchema⟩, ⟨"resolve", true, resolveSchema⟩]

theorem follows_readPackage : Follows readPackage packageSchema := by
  refine FollowsFields.fields ?_
  refine (follows_readString.required "id").bind fun id => ?_
  refine (follows_readString.required "name").bind fun name => ?_
  refine (follows_readString.required "manifest_path").bind fun manifestPath => ?_
  exact followsFields_ok _

theorem follows_readEdge : Follows readEdge edgeSchema := by
  refine FollowsFields.fields ?_
  refine (follows_readString.required "name").bind fun name => ?_
  refine (follows_readString.required "pkg").bind fun pkgId => ?_
  exact followsFields_ok _

theorem follows_readNode : Follows readNode nodeSchema := by
  refine FollowsFields.fields ?_
  refine (follows_readString.required "id").bind fun id => ?_
  refine (follows_readEdge.items.optional "deps" []).bind fun deps => ?_
  exact followsFields_ok _

theorem follows_readResolve : Follows readResolve resolveSchema := by
  refine FollowsFields.fields ?_
  refine (follows_readNullable_readString.required "root").bind fun root => ?_
  refine (follows_readNode.items.required "nodes").bind fun nodes => ?_
  exact followsFields_ok _

theorem follows_ofJson : Follows ofJson metadataSchema := by
  refine FollowsFields.fields ?_
  refine (follows_readPackage.items.required "packages").bind fun packages => ?_
  refine (follows_readResolve.required "resolve").bind fun resolve => ?_
  exact followsFields_ok _

theorem ofJson?_eq_error_iff {d : Json} {e : MetadataError} :
    ofJson? (some d) = .error e ↔
      ∃ i, Json.FirstIssue (metadataSchema.places d) i ∧ e = .illFormed i := by
  rw [ofJson?, Json.mapError_eq_error_iff]
  simp only [follows_ofJson d]

theorem forall_places_conform_iff {d : Json} :
    (∀ p ∈ metadataSchema.places d, p.Conforms) ↔ Conforms d := by
  rw [follows_ofJson.forall_conforms_iff, ← fits_iff_conforms, Fits]
  simp only [ofJson_eq_ok_iff]

/-- What is said of the first place that does not conform. -/
theorem message_illFormed_issue {d : Json} {p : Json.Place}
    (first : Json.FirstIssue (metadataSchema.places d) p.issue)
    (there : Json.at? p.path d = p.value?) :
    (MetadataError.illFormed p.issue).message =
      "Unexpected cargo metadata format" ++
        (if d.kind = .object then " at " ++ ".".intercalate (p.path.map Json.Step.text) else "") ++
        ": " ++
        match Json.at? p.path d with
        | none => "Required"
        | some v => "Expected " ++ p.schema.kind.name ++ ", received " ++ v.kind.name := by
  have place : p.path = [] ↔ d.kind ≠ .object := Json.path_eq_nil_iff_of_firstIssue first
  have told : p.issue.fault.message = match p.value? with
      | none => "Required"
      | some v => "Expected " ++ p.schema.kind.name ++ ", received " ++ v.kind.name := by
    obtain ⟨path, s, required, value?⟩ := p
    cases value? <;> rfl
  have whole : (MetadataError.illFormed p.issue).message = "Unexpected cargo metadata format" ++
      (if p.path.isEmpty then "" else " at " ++ p.issue.position) ++ ": " ++
        p.issue.fault.message := rfl
  rw [there, ← told, whole]
  by_cases hd : d.kind = .object
  · have inner : p.path ≠ [] := by
      rw [ne_eq, place]
      exact not_not_intro hd
    rw [if_pos hd, if_neg (by simpa using inner)]
    rfl
  · rw [if_neg hd, if_pos (by simpa using place.2 hd)]

/-- A document is refused exactly if it has a place that does not conform, and then for the first
such place in the order of the schema. The error tells where that is, unless it is the document
itself, and what is wrong there: that nothing is, or what is there in place of what has to be. -/
theorem refused_at_first_fault (d : Json) :
    (Conforms d ↔ ∀ p ∈ metadataSchema.places d, p.Conforms) ∧
    (∀ p ∈ metadataSchema.places d, Json.at? p.path d = p.value?) ∧
    ∀ e, ofJson? (some d) = .error e ↔
      ∃ before p after, metadataSchema.places d = before ++ p :: after ∧
        (∀ q ∈ before, q.Conforms) ∧ ¬p.Conforms ∧ e = .illFormed p.issue ∧
        e.message =
          "Unexpected cargo metadata format" ++
            (if d.kind = .object then " at " ++ ".".intercalate (p.path.map Json.Step.text)
              else "") ++
            ": " ++
            match Json.at? p.path d with
            | none => "Required"
            | some v => "Expected " ++ p.schema.kind.name ++ ", received " ++ v.kind.name := by
  refine ⟨forall_places_conform_iff.symm, fun p => Json.at?_of_mem_places, fun e => ?_⟩
  rw [ofJson?_eq_error_iff]
  constructor
  · rintro ⟨i, first, rfl⟩
    obtain ⟨before, p, after, order, conform, fails, rfl⟩ := id first
    have mem : p ∈ metadataSchema.places d := by
      rw [order]
      exact List.mem_append_right before List.mem_cons_self
    exact ⟨before, p, after, order, conform, fails, rfl,
      message_illFormed_issue first (Json.at?_of_mem_places mem)⟩
  · rintro ⟨before, p, after, order, conform, fails, rfl, -⟩
    exact ⟨p.issue, ⟨before, p, after, order, conform, fails, rfl⟩, rfl⟩

example : ofJson? (some (.object [("resolve", .null),
      ("packages", .array [.object [("name", .bool true), ("id", .string "kernel")]])])) =
    .error (.illFormed ⟨[.key "packages", .index 0, .key "name"], .mistyped .string .boolean⟩) :=
  rfl

end BootImage.DependencyGraph
