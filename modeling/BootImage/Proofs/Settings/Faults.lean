import BootImage.Proofs.Json.Keys
import BootImage.Proofs.Settings.File

/-!
# What is told of a settings file at fault

A JSON text that is no settings file is refused with everything that is wrong with it. Each field
whose value is not accepted is told of once, in the order of the fields and not of the file; where
the file has a field more than once, only the last value is looked at. The keys that are no fields
are told of together, after the fields, in the order of the object's keys.
-/

namespace BootImage

open Json (IsObjectText IsText KeyOrder)

namespace SettingsField

def kind : SettingsField → Json.Kind
  | quiet => .boolean
  | _ => .string

/-- What is said of a value that a field does not accept. -/
inductive Complaint (field : SettingsField) : Json → WideText → Prop
  | mistyped {d : Json} (h : d.kind ≠ field.kind) :
      Complaint field d ("Expected " ++ field.kind.name ++ ", received " ++ d.kind.name)
  | empty (h : field.kind = .string) :
      Complaint field (.string "") "String must contain at least 1 character(s)"

theorem fault?_of_kind_ne {field : SettingsField} {d : Json} (h : d.kind ≠ field.kind) :
    field.fault? d = some (.mistyped field.kind d.kind) := by
  cases field <;> cases d <;> first | rfl | exact absurd rfl h

theorem fault?_string {field : SettingsField} (h : field.kind = .string) (s : WideText) :
    field.fault? (.string s) = if s = "" then some .empty else none := by
  cases field <;> first | rfl | cases h

theorem complaint_iff {field : SettingsField} {d : Json} {said : WideText} :
    field.Complaint d said ↔ (field.fault? d).map Json.Fault.message = some said := by
  by_cases hd : d.kind = field.kind
  · cases hk : field.kind with
    | string =>
        rw [hk] at hd
        obtain ⟨s, rfl⟩ := Json.kind_eq_string_iff.1 hd
        rw [fault?_string hk]
        constructor
        · rintro (h | _)
          · exact absurd (hd.trans hk.symm) h
          · rfl
        -- among the values of the right type only the empty text is complained of
        · intro h
          by_cases hs : s = ""
          · subst hs
            cases h
            exact .empty hk
          · rw [if_neg hs] at h
            cases h
    | boolean =>
        rw [hk] at hd
        obtain ⟨b, rfl⟩ := Json.kind_eq_boolean_iff.1 hd
        have accepted : field.fault? (.bool b) = none := by
          cases field <;> first | rfl | cases hk
        rw [accepted]
        refine iff_of_false ?_ (by simp)
        rintro ⟨h⟩
        exact h (hd.trans hk.symm)
    | _ => cases field <;> cases hk
  · rw [fault?_of_kind_ne hd]
    constructor
    · rintro (_ | hk)
      · rfl
      · exact absurd hk.symm hd
    · intro h
      cases h
      exact .mistyped hd

end SettingsField

namespace SettingsFile

/-- The fields at fault, with what is said of each, and the keys that are no fields: all those of an
object whose members are written as `written`, each of them once and in order. -/
structure Faults (written : List (WideText × Json)) (faulty : List (SettingsField × WideText))
    (unknown : List WideText) : Prop where
  fields : ∀ field said, (field, said) ∈ faulty ↔
    ∃ d, written.reverse.lookup (field.key : WideText) = some d ∧ field.Complaint d said
  fieldOrder : (faulty.map Prod.fst).Sublist SettingsField.all
  keys : ∀ k, k ∈ unknown ↔ k ∈ written.map Prod.fst ∧ ∀ field : SettingsField, k ≠ ↑field.key
  keyOrder : unknown.Pairwise (KeyOrder (written.map Prod.fst))
  distinct : unknown.Nodup

/-- What is said of the keys that are no fields, if there are any. -/
def rootLines (unknown : List WideText) : List WideText :=
  if unknown = [] then []
  else ["(root): Unrecognized key(s) in object: " ++
    .intercalate ", " (unknown.map fun k => "'" ++ k ++ "'")]

variable {written : List (WideText × Json)}

def faulty (ms : List (WideText × Json)) : List (SettingsField × WideText) :=
  SettingsField.all.filterMap fun field =>
    ((ms.lookup (field.key : WideText)).bind fun d =>
      (field.fault? d).map Json.Fault.message).map (field, ·)

theorem mem_faulty_iff {ms : List (WideText × Json)} {field : SettingsField} {said : WideText} :
    (field, said) ∈ faulty ms ↔
      ∃ d, ms.lookup (field.key : WideText) = some d ∧ field.Complaint d said := by
  rw [faulty, List.mem_filterMap]
  constructor
  · rintro ⟨other, -, h⟩
    obtain ⟨said', h, eq⟩ := Option.map_eq_some_iff.1 h
    cases eq
    obtain ⟨d, hd, h⟩ := Option.bind_eq_some_iff.1 h
    exact ⟨d, hd, SettingsField.complaint_iff.2 h⟩
  · rintro ⟨d, hd, h⟩
    refine ⟨field, field.mem_all, ?_⟩
    rw [hd, Option.bind_some, SettingsField.complaint_iff.1 h]
    rfl

theorem faults_ofList (written : List (WideText × Json)) :
    Faults written (faulty (Json.Members.ofList written))
      (unknownKeys (Json.Members.ofList written)) where
  fields field said := by
    rw [mem_faulty_iff, Json.lookup_ofList]
  fieldOrder := by
    have order := Json.keys_filterMap_sublist SettingsField.all id fun field =>
      ((Json.Members.ofList written).lookup (field.key : WideText)).bind fun d =>
        (field.fault? d).map Json.Fault.message
    rwa [List.map_id] at order
  keys k := by
    rw [unknownKeys, List.mem_filter, Json.mem_keys_ofList_iff, ← not_exists,
      ← SettingsField.isSome_ofKey?_iff]
    simp
  keyOrder := (Json.pairwise_keys_ofList written).filter _
  distinct := Json.nodup_of_pairwise_keyOrder ((Json.pairwise_keys_ofList written).filter _)

theorem located_field (field : SettingsField) (fault : Json.Fault) :
    (⟨[.key field.key], fault⟩ : Json.Issue).located = field.key ++ ": " ++ fault.message := by
  cases field <;> rfl

theorem located_root (fault : Json.Fault) :
    (⟨[], fault⟩ : Json.Issue).located = "(root): " ++ fault.message := by
  change WideText.ofString "(root)" ++ (": " : String) ++ fault.message = _
  rw [← WideText.ofString_append]
  rfl

theorem map_located_issues (ms : List (WideText × Json)) :
    (issues ms).map Json.Issue.located =
      (faulty ms).map (fun m => (m.1.key : WideText) ++ ": " ++ m.2) ++
        rootLines (unknownKeys ms) := by
  have fields : (fieldIssues ms).map Json.Issue.located =
      (faulty ms).map fun m => (m.1.key : WideText) ++ ": " ++ m.2 := by
    rw [fieldIssues, faulty, List.map_filterMap, List.map_filterMap]
    refine List.filterMap_congr fun field _ => ?_
    cases ms.lookup (field.key : WideText) with
    | none => rfl
    | some d =>
        cases h : field.fault? d with
        | none => simp [h]
        | some fault => simp [h, located_field]
  have opening : WideText.ofString "(root): Unrecognized key(s) in object: " =
      WideText.ofString "(root): " ++ ("Unrecognized key(s) in object: " : String) := by
    rw [← WideText.ofString_append]
    rfl
  rw [issues, List.map_append, fields, rootLines]
  cases h : unknownKeys ms with
  | nil => rfl
  | cons k ks =>
      rw [if_neg (List.cons_ne_nil k ks), opening, WideText.append_assoc]
      exact congrArg (fun line => _ ++ [line]) (located_root (.unrecognized (k :: ks)))

theorem issues_eq_nil_iff {ms : List (WideText × Json)} :
    issues ms = [] ↔ faulty ms = [] ∧ unknownKeys ms = [] := by
  rw [← List.map_eq_nil_iff (f := Json.Issue.located), map_located_issues, List.append_eq_nil_iff,
    List.map_eq_nil_iff, rootLines]
  cases unknownKeys ms <;> simp

theorem message_not_object (path : String) (k : Json.Kind) :
    (⟨path, .illFormed [⟨[], .mistyped .object k⟩]⟩ : SettingsError).message =
      "Invalid " ++ path ++ ": (root): Expected object, received " ++ k.name := by
  have told : WideText.ofString ": (root): Expected object, received " =
      WideText.ofString ": " ++ ("(root): " : String) ++ ("Expected " : String) ++
        ("object" : String) ++ (", received " : String) := by
    simp only [← WideText.ofString_append]
    rfl
  have one (t : WideText) : WideText.intercalate "; " [t] = t := by simp [WideText.intercalate]
  rw [SettingsError.message]
  dsimp only
  rw [List.map_singleton, one, located_root, told, Json.Fault.message]
  simp only [WideText.append_assoc]
  rfl

/-- A JSON text that is no object is told to be none. An object is a settings file unless something
is wrong with its members, and then everything that is wrong with them is told, once each and in
order. -/
theorem parse_tells_all_faults (complain : String → String) (path text : String) :
    (∀ d, IsText text d → d.kind ≠ .object → ∃ e, parse complain path text = .error e ∧
      e.message = "Invalid " ++ path ++ ": (root): Expected object, received " ++ d.kind.name) ∧
    ∀ written, IsObjectText text written → ∃ fields keys, Faults written fields keys ∧
      if fields = [] ∧ keys = [] then ∃ f, parse complain path text = .ok f
      else ∃ e, parse complain path text = .error e ∧
        e.message = "Invalid " ++ path ++ ": " ++
          .intercalate "; "
            (fields.map (fun m => (m.1.key : WideText) ++ ": " ++ m.2) ++ rootLines keys) := by
  constructor
  · intro d hd other
    rw [parse, Json.parse?_eq_some_iff.2 hd]
    refine ⟨⟨path, .illFormed [⟨[], .mistyped .object d.kind⟩]⟩, ?_, message_not_object path d.kind⟩
    cases d with
    | object => exact absurd rfl other
    | _ => rfl
  · intro written object
    refine ⟨_, _, faults_ofList written, ?_⟩
    have hd : Json.parse? text = some (.object (Json.Members.ofList written)) :=
      Json.parse?_eq_some_iff.2 (Json.isText_object_iff.2 ⟨written, object, rfl⟩)
    rw [parse, hd]
    dsimp only [ofJson]
    by_cases none : issues (Json.Members.ofList written) = []
    · rw [if_pos (issues_eq_nil_iff.1 none), if_pos (by simpa using none)]
      exact ⟨_, rfl⟩
    · rw [if_neg (mt issues_eq_nil_iff.2 none), if_neg (by simpa using none)]
      refine ⟨_, rfl, ?_⟩
      rw [← map_located_issues]
      rfl

example :
    (match parse id "c" ("\x7b\"quiet\":true,\"zz\":0,\"10\":0,\"cargoPath\":\"\"," ++
        "\"2\":0,\"quiet\":1\x7d") with
      | .ok _ => ""
      | .error e => e.message.written) =
    "Invalid c: cargoPath: String must contain at least 1 character(s); " ++
      "quiet: Expected boolean, received number; " ++
      "(root): Unrecognized key(s) in object: '2', '10', 'zz'" := by
  decide +kernel

end SettingsFile

end BootImage
