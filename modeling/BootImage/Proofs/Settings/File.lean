import BootImage.Proofs.Json.Lexemes
import BootImage.Proofs.Json.Members
import BootImage.Proofs.Json.Readers
import BootImage.Proofs.Json.Rendering
import BootImage.Settings.File

/-!
# What settings files say

A text is a settings file exactly if it is a JSON object whose keys are all fields and hold what
their fields accept; of several members with one key the last one counts. It sets the fields that it
has and no others. So a file can be written with its members in any order, with any blanks and with
any escapes, and it is read as what was written.
-/

namespace BootImage

open Json (IsObjectText)

namespace SettingsField

def Accepts : SettingsField → Json → Prop
  | quiet, d => ∃ b, d = .bool b
  | _, d => ∃ s : WideText, s ≠ "" ∧ d = .string s

theorem fault?_eq_none_iff {field : SettingsField} {d : Json} :
    field.fault? d = none ↔ field.Accepts d := by
  cases field <;> cases d <;> simp [fault?, Accepts]

theorem key_injective {field other : SettingsField} (h : field.key = other.key) :
    field = other := by
  have found := ofKey?_key field
  rw [h, ofKey?_key] at found
  exact (Option.some.inj found).symm

theorem isSome_ofKey?_iff {k : WideText} :
    (ofKey? k).isSome = true ↔ ∃ field : SettingsField, k = field.key := by
  rw [ofKey?, List.find?_isSome]
  constructor
  · rintro ⟨field, -, hk⟩
    exact ⟨field, (beq_iff_eq.1 hk).symm⟩
  · rintro ⟨field, rfl⟩
    exact ⟨field, mem_all field, beq_self_eq_true _⟩

end SettingsField

namespace SettingsFile

/-- The members, in the order in which they are written, make up a settings object. -/
structure Fits (written : List (WideText × Json)) : Prop where
  known : ∀ m ∈ written, ∃ field : SettingsField, m.1 = ↑field.key
  accepted (field : SettingsField) (d : Json)
    (h : written.reverse.lookup (field.key : WideText) = some d) :
    field.Accepts d

def value? (f : SettingsFile) : SettingsField → Option Json
  | .binaryName => f.binaryName.map .string
  | .targetTriple => f.targetTriple.map .string
  | .manifestFile => f.manifestFile.map .string
  | .bootloaderDependency => f.bootloaderDependency.map .string
  | .cargoPath => f.cargoPath.map .string
  | .qemuPath => f.qemuPath.map .string
  | .biosPath => f.biosPath.map .string
  | .quiet => f.quiet.map .bool

theorem eq_of_value? {f g : SettingsFile} (h : ∀ field, f.value? field = g.value? field) :
    f = g := by
  have text {a b : Option WideText} (hab : a.map Json.string = b.map Json.string) : a = b :=
    Option.map_injective (fun _ _ => Json.string.inj) hab
  have flag {a b : Option Bool} (hab : a.map Json.bool = b.map Json.bool) : a = b :=
    Option.map_injective (fun _ _ => Json.bool.inj) hab
  obtain ⟨⟩ := f
  obtain ⟨⟩ := g
  rw [mk.injEq]
  exact ⟨text (h .binaryName), text (h .targetTriple), text (h .manifestFile),
    text (h .bootloaderDependency), text (h .cargoPath), text (h .qemuPath), text (h .biosPath),
    flag (h .quiet)⟩

variable {ms written : List (WideText × Json)}

theorem fieldIssues_eq_nil_iff :
    fieldIssues ms = [] ↔
      ∀ field d, ms.lookup (SettingsField.key field : WideText) = some d → field.Accepts d := by
  rw [fieldIssues, List.filterMap_eq_nil_iff]
  constructor
  · intro h field d hd
    have none := h field field.mem_all
    rw [hd, Option.bind_some, Option.map_eq_none_iff] at none
    exact SettingsField.fault?_eq_none_iff.1 none
  · intro h field _
    cases hd : ms.lookup (field.key : WideText) with
    | none => rfl
    | some d =>
        rw [Option.bind_some, SettingsField.fault?_eq_none_iff.2 (h field d hd)]
        rfl

theorem unknownKeys_eq_nil_iff :
    unknownKeys ms = [] ↔ ∀ m ∈ ms, ∃ field : SettingsField, m.1 = ↑field.key := by
  rw [unknownKeys, List.filter_eq_nil_iff, List.forall_mem_map]
  refine forall₂_congr fun m _ => ?_
  rw [← SettingsField.isSome_ofKey?_iff]
  cases SettingsField.ofKey? m.1 <;> simp

/-- Nothing is wrong with an object exactly if its members as written fit. -/
theorem issues_ofList_eq_nil_iff : issues (Json.Members.ofList written) = [] ↔ Fits written := by
  have parted (ms : List (WideText × Json)) :
      issues ms = [] ↔ fieldIssues ms = [] ∧ unknownKeys ms = [] := by
    rw [issues, List.append_eq_nil_iff]
    cases unknownKeys ms <;> simp
  rw [parted, fieldIssues_eq_nil_iff, unknownKeys_eq_nil_iff,
    Json.forall_mem_ofList_iff (p := fun k => ∃ field : SettingsField, k = ↑field.key)]
  simp only [Json.lookup_ofList]
  constructor
  · rintro ⟨accepted, known⟩
    exact ⟨known, accepted⟩
  · rintro ⟨known, accepted⟩
    exact ⟨accepted, known⟩

theorem value?_ofMembers
    (h : ∀ field d, ms.lookup (SettingsField.key field : WideText) = some d → field.Accepts d)
    (field : SettingsField) : (ofMembers ms).value? field = ms.lookup (field.key : WideText) := by
  cases hd : ms.lookup (field.key : WideText) with
  | none => cases field <;> simp [ofMembers, value?, hd]
  | some d =>
      have accepted := h field d hd
      cases field with
      | quiet =>
          obtain ⟨b, rfl⟩ := accepted
          simp [ofMembers, value?, hd, Json.bool?]
      | _ =>
          obtain ⟨s, -, rfl⟩ := accepted
          simp [ofMembers, value?, hd, Json.text?]

theorem Fits.value?_eq (fits : Fits written) (field : SettingsField) :
    (ofMembers (Json.Members.ofList written)).value? field =
      written.reverse.lookup (field.key : WideText) := by
  rw [← Json.lookup_ofList]
  refine value?_ofMembers ?_ field
  simpa only [Json.lookup_ofList] using fits.accepted

variable {complain : String → String} {path text : String} {f : SettingsFile}

theorem exists_isObjectText_of_parse (h : parse complain path text = .ok f) :
    ∃ written, IsObjectText text written := by
  rw [parse] at h
  cases hd : Json.parse? text with
  | none =>
      rw [hd] at h
      cases h
  | some d =>
      rw [hd] at h
      cases d with
      | object ms =>
          obtain ⟨written, object, -⟩ := Json.isText_object_iff.1 (Json.parse?_eq_some_iff.1 hd)
          exact ⟨written, object⟩
      | _ => cases h

/-- An object is read exactly if its members fit, and then as what they set. -/
theorem parse_eq_ok_iff (object : IsObjectText text written) :
    parse complain path text = .ok f ↔
      Fits written ∧ ∀ field, f.value? field = written.reverse.lookup (field.key : WideText) := by
  have hd : Json.parse? text = some (.object (Json.Members.ofList written)) :=
    Json.parse?_eq_some_iff.2 (Json.isText_object_iff.2 ⟨written, object, rfl⟩)
  rw [parse, hd]
  dsimp only
  rw [Json.mapError_eq_ok_iff, ofJson]
  by_cases none : issues (Json.Members.ofList written) = []
  · have fits := issues_ofList_eq_nil_iff.1 none
    rw [none, if_pos List.isEmpty_nil, Except.ok.injEq]
    constructor
    · rintro rfl
      exact ⟨fits, fits.value?_eq⟩
    · rintro ⟨-, h⟩
      refine eq_of_value? fun field => ?_
      rw [h, fits.value?_eq]
  · rw [if_neg (by simpa using none)]
    refine iff_of_false (by simp) ?_
    rintro ⟨fits, -⟩
    exact none (issues_ofList_eq_nil_iff.2 fits)

theorem path_of_parse_eq_error {e : SettingsError} (h : parse complain path text = .error e) :
    e.path = path := by
  rw [parse] at h
  cases hd : Json.parse? text with
  | none =>
      rw [hd] at h
      cases h
      rfl
  | some d =>
      rw [hd] at h
      dsimp only at h
      cases hf : ofJson d with
      | ok f =>
          rw [hf] at h
          cases h
      | error issues =>
          rw [hf] at h
          cases h
          rfl

def members (f : SettingsFile) : List (WideText × Json) :=
  SettingsField.all.filterMap fun field => (f.value? field).map fun d => (↑field.key, d)

theorem mem_members_iff {m : WideText × Json} :
    m ∈ f.members ↔ ∃ field, f.value? field = some m.2 ∧ m.1 = field.key := by
  rw [members, List.mem_filterMap]
  constructor
  · rintro ⟨field, -, h⟩
    obtain ⟨d, hd, rfl⟩ := Option.map_eq_some_iff.1 h
    exact ⟨field, hd, rfl⟩
  · rintro ⟨field, hd, hk⟩
    refine ⟨field, field.mem_all, ?_⟩
    rw [hd, Option.map_some, ← hk]

theorem nodup_keys_members (f : SettingsFile) : (f.members.map Prod.fst).Nodup := by
  let key (field : SettingsField) : WideText := field.key
  have distinct : (SettingsField.all.map key).Nodup := by decide
  exact (Json.keys_filterMap_sublist SettingsField.all key f.value?).nodup distinct

theorem lookup_members (f : SettingsFile) (field : SettingsField) :
    f.members.lookup (field.key : WideText) = f.value? field := by
  refine Option.ext fun d => ?_
  rw [Json.lookup_eq_some_iff_mem f.nodup_keys_members, mem_members_iff]
  constructor
  · rintro ⟨other, hd, hk⟩
    rwa [SettingsField.key_injective (WideText.ofString_inj.1 hk)]
  · intro hd
    exact ⟨field, hd, rfl⟩

theorem accepts_of_value? (h : ∀ field, f.value? field ≠ some (.string ""))
    {field : SettingsField} {d : Json} (hd : f.value? field = some d) : field.Accepts d := by
  have filled := h field
  rw [hd] at filled
  cases field with
  | quiet =>
      obtain ⟨b, -, rfl⟩ := Option.map_eq_some_iff.1 hd
      exact ⟨b, rfl⟩
  | _ =>
      obtain ⟨s, -, rfl⟩ := Option.map_eq_some_iff.1 hd
      refine ⟨s, ?_, rfl⟩
      rintro rfl
      exact filled rfl

/-- However the members of a file are ordered and spelled, the file is read. -/
theorem parse_of_perm (h : ∀ field, f.value? field ≠ some (.string ""))
    (order : written.Perm f.members) (object : IsObjectText text written) :
    parse complain path text = .ok f := by
  -- no key comes twice, so the order does not matter, nor which of several members counts
  have order' := (List.reverse_perm written).trans order
  have distinct : (written.reverse.map Prod.fst).Nodup :=
    (order'.map Prod.fst).nodup_iff.2 f.nodup_keys_members
  have values (field : SettingsField) :
      f.value? field = written.reverse.lookup (field.key : WideText) := by
    rw [Json.lookup_eq_of_perm order' distinct, lookup_members]
  refine (parse_eq_ok_iff object).2 ⟨⟨?_, ?_⟩, values⟩
  · intro m hm
    obtain ⟨field, -, hk⟩ := mem_members_iff.1 (order.mem_iff.1 hm)
    exact ⟨field, hk⟩
  · intro field d hd
    rw [← values] at hd
    exact accepts_of_value? h hd

theorem spells_of_mem_members {m : WideText × Json} (hm : m ∈ f.members) :
    Json.Spells (Json.write m.2) m.2 := by
  obtain ⟨field, hd, -⟩ := mem_members_iff.1 hm
  cases field with
  | quiet =>
      obtain ⟨b, -, hb⟩ := Option.map_eq_some_iff.1 hd
      rw [← hb]
      exact Json.spells_write_bool b
  | _ =>
      obtain ⟨s, -, hs⟩ := Option.map_eq_some_iff.1 hd
      rw [← hs]
      exact Json.spells_write_string s

theorem parse_render (complain : String → String) (path : String)
    (h : ∀ field, f.value? field ≠ some (.string "")) :
    parse complain path (Json.render (.object f.members)) = .ok f :=
  parse_of_perm h (List.Perm.refl _) (Json.isObjectText_render fun _ hm => spells_of_mem_members hm)

/-- The names that files set for the binary are those that are not empty. -/
theorem exists_parse_binaryName_iff (complain : String → String) (path : String)
    (name : WideText) :
    (∃ text f, parse complain path text = .ok f ∧ f.binaryName = some name) ↔ name ≠ "" := by
  constructor
  · rintro ⟨text, f, read, named⟩
    obtain ⟨written, object⟩ := exists_isObjectText_of_parse read
    obtain ⟨fits, values⟩ := (parse_eq_ok_iff object).1 read
    have value : f.value? .binaryName = some (.string name) := by rw [value?, named]; rfl
    rw [values] at value
    obtain ⟨s, filled, hs⟩ := fits.accepted .binaryName (.string name) value
    cases hs
    exact filled
  · intro filled
    refine ⟨_, { binaryName := some name }, parse_render complain path fun field => ?_, rfl⟩
    cases field <;> simp [value?, filled]

/-- The texts that are read are the objects whose members fit, and each is read as what its members
set; every other text is refused in the name of its path. A file is read back from every text of its
members, in every order of them, and each order has a text. -/
theorem parse_exact (complain : String → String) (path : String) :
    (∀ text, (∃ f, parse complain path text = .ok f) ↔
      ∃ written, IsObjectText text written ∧ Fits written) ∧
    (∀ text written f, IsObjectText text written →
      (parse complain path text = .ok f ↔
        Fits written ∧ ∀ field, f.value? field = written.reverse.lookup (field.key : WideText))) ∧
    (∀ text e, parse complain path text = .error e → e.path = path) ∧
    ∀ f : SettingsFile, (∀ field, f.value? field ≠ some (.string "")) →
      ∀ written, written.Perm f.members →
        IsObjectText (Json.render (.object written)) written ∧
        ∀ text, IsObjectText text written → parse complain path text = .ok f := by
  refine ⟨?_, ?_, ?_, ?_⟩
  · intro text
    constructor
    · rintro ⟨f, hf⟩
      obtain ⟨written, object⟩ := exists_isObjectText_of_parse hf
      exact ⟨written, object, ((parse_eq_ok_iff object).1 hf).1⟩
    · rintro ⟨written, object, fits⟩
      exact ⟨_, (parse_eq_ok_iff object).2 ⟨fits, fits.value?_eq⟩⟩
  · intro text written f object
    exact parse_eq_ok_iff object
  · intro text e he
    exact path_of_parse_eq_error he
  · intro f h written order
    constructor
    · refine Json.isObjectText_render ?_
      intro m hm
      exact spells_of_mem_members (order.mem_iff.1 hm)
    · intro text object
      exact parse_of_perm h order object

end SettingsFile

end BootImage
