import BootImage.Proofs.Json.Readers

/-!
# Schemas and the places they ask about

A schema says what a document is to be. It goes through a document place by place: the document
itself, then for an array its items in turn and for an object the fields of the schema in turn, each
of them with what is within it before the next. A place conforms if the value there is of the type
that the schema names, whatever it holds, or if nothing is there and nothing has to be.

A reader follows a schema if it gives the issue of the first place that does not conform, and a
result if there is no such place. The readers that are put together from others follow the schemas
that are put together in the same way.
-/

namespace BootImage.Json

structure Field (α : Type) where
  key : String
  required : Bool
  value : α

/-- What a document is to be. An object may have members besides its fields. -/
inductive Schema where
  | text
  | textOrNull
  | items (item : Schema)
  | fields (fields : List (Field Schema))

def Schema.kind : Schema → Kind
  | text | textOrNull => .string
  | items _ => .array
  | fields _ => .object

def Schema.Admits : Schema → Kind → Prop
  | textOrNull, k => k = .string ∨ k = .null
  | s, k => k = s.kind

/-- A position that a schema asks about: the steps that lead there, what is to be there, whether
something has to be, and what is there. -/
structure Place where
  path : List Step
  schema : Schema
  required : Bool
  value? : Option Json

namespace Place

def under (s : Step) (p : Place) : Place := { p with path := s :: p.path }

def Conforms (p : Place) : Prop :=
  match p.value? with
  | some d => p.schema.Admits d.kind
  | none => p.required = false

def issue (p : Place) : Issue where
  path := p.path
  fault :=
    match p.value? with
    | some d => .mistyped p.schema.kind d.kind
    | none => .required

end Place

def at? : List Step → Json → Option Json
  | [], d => some d
  | .key k :: path, d => (d.member? k).bind (at? path)
  | .index n :: path, .array ds => ds[n]?.bind (at? path)
  | .index _ :: _, _ => none

/-- The issue is that of the first place that does not conform. -/
def FirstIssue (ps : List Place) (i : Issue) : Prop :=
  ∃ before p after, ps = before ++ p :: after ∧ (∀ q ∈ before, q.Conforms) ∧ ¬p.Conforms ∧
    i = p.issue

namespace Schema

mutual

def within : Schema → Json → List Place
  | items s, .array ds => ds.zipIdx.flatMap fun m =>
      (⟨[], s, true, some m.1⟩ :: within s m.1).map (Place.under (.index m.2))
  | fields fs, .object ms => fieldPlaces fs ms
  | _, _ => []

def fieldPlaces : List (Field Schema) → List (WideText × Json) → List Place
  | [], _ => []
  | ⟨key, required, s⟩ :: fs, ms =>
    (⟨[], s, required, ms.lookup (key : WideText)⟩ ::
      (ms.lookup (key : WideText)).elim [] fun d => within s d).map
      (Place.under (.key key)) ++ fieldPlaces fs ms

end

/-- The places of a document, in the order in which the schema goes through them. -/
def places (s : Schema) (d : Json) : List Place := ⟨[], s, true, some d⟩ :: within s d

end Schema

variable {ps qs : List Place} {p : Place} {i : Issue} {s : Schema} {d : Json}

theorem at?_of_mem_places (h : p ∈ s.places d) : at? p.path d = p.value? := by
  -- within an array and within an object, one step leads to the item or the member
  have stepwise : ∀ p ∈ s.within d, at? p.path d = p.value? := by
    refine Schema.within.induct (fun s d => ∀ p ∈ s.within d, at? p.path d = p.value?)
      (fun fs ms => ∀ p ∈ Schema.fieldPlaces fs ms, at? p.path (.object ms) = p.value?)
      ?items ?fields ?other ?noField ?field s d
    case items =>
      intro s ds ih p hp
      rw [Schema.within, List.mem_flatMap] at hp
      obtain ⟨⟨d, n⟩, hm, hp⟩ := hp
      obtain ⟨q, hq, rfl⟩ := List.mem_map.1 hp
      have item : ds[n]? = some d := List.mem_zipIdx_iff_getElem?.1 hm
      have there : at? q.path d = q.value? := by
        rcases List.mem_cons.1 hq with rfl | hq
        · rfl
        · exact ih (d, n) q hq
      simpa [Place.under, at?, item] using there
    case fields =>
      intro fs ms ih p hp
      rw [Schema.within] at hp
      exact ih p hp
    case other =>
      intro s d hitems hfields p hp
      rw [Schema.within] at hp
      · cases hp
      · exact hitems
      · exact hfields
    case noField =>
      intro ms p hp
      cases hp
    case field =>
      intro key required s fs ms ih ihs p hp
      rw [Schema.fieldPlaces, List.mem_append] at hp
      rcases hp with hp | hp
      · obtain ⟨q, hq, rfl⟩ := List.mem_map.1 hp
        change (ms.lookup (key : WideText)).bind (at? q.path) = q.value?
        rcases List.mem_cons.1 hq with rfl | hq
        · cases ms.lookup (key : WideText) <;> rfl
        · cases hd : ms.lookup (key : WideText) with
          | none =>
              rw [hd] at hq
              cases hq
          | some d =>
              rw [hd] at hq
              exact ih d q hq
      · exact ihs p hp
  rcases List.mem_cons.1 h with rfl | h
  · rfl
  · exact stepwise p h

theorem path_ne_nil_of_mem_within (h : p ∈ s.within d) : p.path ≠ [] := by
  have fields (fs : List (Field Schema)) (ms : List (WideText × Json)) :
      ∀ p ∈ Schema.fieldPlaces fs ms, p.path ≠ [] := by
    induction fs with
    | nil => simp [Schema.fieldPlaces]
    | cons f fs ih =>
        rw [Schema.fieldPlaces, List.forall_mem_append, List.forall_mem_map]
        exact ⟨fun q _ => List.cons_ne_nil _ _, ih⟩
  cases s <;> cases d
  case items.array s ds =>
    rw [Schema.within, List.mem_flatMap] at h
    obtain ⟨m, -, h⟩ := h
    obtain ⟨q, -, rfl⟩ := List.mem_map.1 h
    exact List.cons_ne_nil _ _
  case fields.object fs ms =>
    rw [Schema.within] at h
    exact fields fs ms p h
  all_goals simp [Schema.within] at h

@[simp] theorem conforms_under (t : Step) (p : Place) : (p.under t).Conforms ↔ p.Conforms := Iff.rfl

@[simp] theorem issue_under (t : Step) (p : Place) : (p.under t).issue = p.issue.under t := rfl

theorem forall_conforms_map_under {t : Step} :
    (∀ p ∈ ps.map (Place.under t), p.Conforms) ↔ ∀ p ∈ ps, p.Conforms := by
  simp

theorem not_firstIssue_nil : ¬FirstIssue [] i := by
  rintro ⟨before, p, after, h, -⟩
  simp at h

theorem firstIssue_cons :
    FirstIssue (p :: ps) i ↔ (¬p.Conforms ∧ i = p.issue) ∨ (p.Conforms ∧ FirstIssue ps i) := by
  constructor
  · rintro ⟨before, q, after, h, conform, fails, rfl⟩
    cases before with
    | nil =>
        obtain ⟨rfl, rfl⟩ := List.cons.inj h
        exact .inl ⟨fails, rfl⟩
    | cons r before =>
        obtain ⟨rfl, rfl⟩ := List.cons.inj h
        rw [List.forall_mem_cons] at conform
        exact .inr ⟨conform.1, before, q, after, rfl, conform.2, fails, rfl⟩
  · rintro (⟨fails, rfl⟩ | ⟨hp, before, q, after, rfl, conform, fails, rfl⟩)
    · exact ⟨[], p, ps, rfl, by simp, fails, rfl⟩
    · exact ⟨p :: before, q, after, rfl, List.forall_mem_cons.2 ⟨hp, conform⟩, fails, rfl⟩

theorem firstIssue_append :
    FirstIssue (ps ++ qs) i ↔
      FirstIssue ps i ∨ ((∀ p ∈ ps, p.Conforms) ∧ FirstIssue qs i) := by
  induction ps with
  | nil => simp [not_firstIssue_nil]
  | cons p ps ih =>
      rw [List.cons_append, firstIssue_cons, firstIssue_cons, ih, List.forall_mem_cons]
      tauto

theorem firstIssue_map_under {t : Step} :
    FirstIssue (ps.map (Place.under t)) i ↔ ∃ j, FirstIssue ps j ∧ i = j.under t := by
  induction ps with
  | nil => simp [not_firstIssue_nil]
  | cons p ps ih =>
      simp only [List.map_cons, firstIssue_cons, ih, conforms_under, issue_under]
      constructor
      · rintro (⟨fails, rfl⟩ | ⟨hp, j, hj, rfl⟩)
        · exact ⟨_, .inl ⟨fails, rfl⟩, rfl⟩
        · exact ⟨j, .inr ⟨hp, hj⟩, rfl⟩
      · rintro ⟨j, ⟨fails, rfl⟩ | ⟨hp, hj⟩, rfl⟩
        · exact .inl ⟨fails, rfl⟩
        · exact .inr ⟨hp, j, hj, rfl⟩

/-- Some place is the first that does not conform, unless all of them do. -/
theorem forall_not_firstIssue_iff : (∀ i, ¬FirstIssue ps i) ↔ ∀ p ∈ ps, p.Conforms := by
  induction ps with
  | nil => simp [not_firstIssue_nil]
  | cons p ps ih =>
      simp only [firstIssue_cons, List.forall_mem_cons, ← ih]
      constructor
      · intro h
        have hp : p.Conforms := by
          by_contra fails
          exact h p.issue (.inl ⟨fails, rfl⟩)
        exact ⟨hp, fun i hi => h i (.inr ⟨hp, hi⟩)⟩
      · rintro ⟨hp, h⟩ i (⟨fails, -⟩ | ⟨-, hi⟩)
        · exact fails hp
        · exact h i hi

/-- A document of another type has no place but itself. -/
theorem firstIssue_places_of_not_admits (h : ¬s.Admits d.kind) :
    FirstIssue (s.places d) i ↔ i = ⟨[], .mistyped s.kind d.kind⟩ := by
  have fails : ¬(⟨[], s, true, some d⟩ : Place).Conforms := h
  rw [Schema.places, firstIssue_cons]
  simp [fails, Place.issue]

theorem firstIssue_places_of_admits (h : s.Admits d.kind) :
    FirstIssue (s.places d) i ↔ FirstIssue (s.within d) i := by
  have conforms : (⟨[], s, true, some d⟩ : Place).Conforms := h
  rw [Schema.places, firstIssue_cons]
  simp [conforms]

/-- The document itself is at fault exactly if it is of another type. -/
theorem path_eq_nil_iff_of_firstIssue (h : FirstIssue (s.places d) i) :
    i.path = [] ↔ ¬s.Admits d.kind := by
  by_cases hd : s.Admits d.kind
  · refine iff_of_false ?_ (not_not_intro hd)
    rw [firstIssue_places_of_admits hd] at h
    obtain ⟨before, p, after, hp, -, -, rfl⟩ := h
    exact path_ne_nil_of_mem_within (hp ▸ List.mem_append_right before List.mem_cons_self)
  · rw [firstIssue_places_of_not_admits hd] at h
    exact iff_of_true (congrArg Issue.path h) hd

section Readers

variable {α β : Type} {read : Json → Except Issue α} {fs : List (Field Schema)}

/-- The reader fails where the document first fails the schema, and nowhere else. -/
def Follows (read : Json → Except Issue α) (s : Schema) : Prop :=
  ∀ d i, read d = .error i ↔ FirstIssue (s.places d) i

def FollowsFields (read : List (WideText × Json) → Except Issue α) (fs : List (Field Schema)) :
    Prop :=
  ∀ ms i, read ms = .error i ↔ FirstIssue (Schema.fieldPlaces fs ms) i

/-- A result is given exactly if all places conform. -/
theorem Follows.forall_conforms_iff (h : Follows read s) :
    (∀ p ∈ s.places d, p.Conforms) ↔ ∃ a, read d = .ok a := by
  rw [← forall_not_firstIssue_iff]
  simp only [← h d]
  cases read d <;> simp

theorem follows_readString : Follows readString .text := by
  intro d i
  by_cases h : Schema.text.Admits d.kind
  · obtain ⟨t, rfl⟩ := kind_eq_string_iff.1 h
    rw [firstIssue_places_of_admits h]
    simp [readString, Schema.within, not_firstIssue_nil]
  · rw [firstIssue_places_of_not_admits h]
    cases d with
    | string => exact absurd rfl h
    | _ => simp [readString, Schema.kind, eq_comm]

theorem follows_readNullable_readString : Follows (readNullable readString) .textOrNull := by
  intro d i
  by_cases h : Schema.textOrNull.Admits d.kind
  · rw [firstIssue_places_of_admits h]
    cases d with
    | null | string =>
        simp [readNullable, readString, Except.map, Schema.within, not_firstIssue_nil]
    | _ => simp [Schema.Admits, kind] at h
  · rw [firstIssue_places_of_not_admits h]
    cases d with
    | null => exact absurd (.inr rfl) h
    | string => exact absurd (.inl rfl) h
    | _ => simp [readNullable, readString, Except.map, Schema.kind, eq_comm]

theorem Follows.items (h : Follows read s) : Follows (readArray read) (.items s) := by
  have each (ds : List Json) (n : Nat) (i : Issue) :
      readItems read n ds = .error i ↔
        FirstIssue ((ds.zipIdx n).flatMap fun m =>
          (s.places m.1).map (Place.under (.index m.2))) i := by
    induction ds generalizing n with
    | nil => simp [readItems, not_firstIssue_nil]
    | cons d ds ih =>
        rw [readItems, bind_eq_error_iff, List.zipIdx_cons, List.flatMap_cons, firstIssue_append,
          firstIssue_map_under, forall_conforms_map_under, h.forall_conforms_iff, ← ih]
        simp only [mapError_eq_error_iff, mapError_eq_ok_iff, bind_eq_error_iff, ← h d, pure,
          Except.pure, reduceCtorEq, and_false, exists_false, or_false, exists_and_right]
  intro d i
  by_cases hd : (Schema.items s).Admits d.kind
  · obtain ⟨ds, rfl⟩ := kind_eq_array_iff.1 hd
    rw [firstIssue_places_of_admits hd, readArray, each, Schema.within]
    rfl
  · rw [firstIssue_places_of_not_admits hd]
    cases d with
    | array => exact absurd rfl hd
    | _ => simp [readArray, Schema.kind, eq_comm]

theorem Follows.required (h : Follows read s) (key : String) :
    FollowsFields (fun ms => readMember ms key read) [⟨key, true, s⟩] := by
  intro ms i
  change readMember ms key read = .error i ↔ _
  rw [Schema.fieldPlaces, Schema.fieldPlaces, List.append_nil, firstIssue_map_under, readMember]
  cases ms.lookup (key : WideText) with
  | none =>
      have fails : ¬(⟨[], s, true, none⟩ : Place).Conforms := Bool.noConfusion
      simp [firstIssue_cons, fails, Place.issue, Issue.under, eq_comm]
  | some d =>
      rw [mapError_eq_error_iff]
      simp only [h d]
      rfl

theorem Follows.optional (h : Follows read s) (key : String) (default : α) :
    FollowsFields (fun ms => readMemberD ms key read default) [⟨key, false, s⟩] := by
  intro ms i
  change readMemberD ms key read default = .error i ↔ _
  rw [Schema.fieldPlaces, Schema.fieldPlaces, List.append_nil, firstIssue_map_under, readMemberD]
  cases ms.lookup (key : WideText) with
  | none =>
      have conforms : (⟨[], s, false, none⟩ : Place).Conforms := rfl
      simp [firstIssue_cons, conforms, not_firstIssue_nil]
  | some d =>
      -- what is there has to conform, whether or not something has to be there
      have there (j : Issue) : FirstIssue (⟨[], s, false, some d⟩ :: s.within d) j ↔
          FirstIssue (s.places d) j := by
        rw [Schema.places, firstIssue_cons, firstIssue_cons]
        rfl
      rw [mapError_eq_error_iff]
      simp only [h d, ← there]
      rfl

theorem followsFields_ok (a : α) : FollowsFields (fun _ => .ok a) [] := by
  intro ms i
  simp [Schema.fieldPlaces, not_firstIssue_nil]

theorem FollowsFields.bind {first : List (WideText × Json) → Except Issue α}
    {rest : α → List (WideText × Json) → Except Issue β} {f : Field Schema}
    (h : FollowsFields first [f]) (h' : ∀ a, FollowsFields (rest a) fs) :
    FollowsFields (fun ms => first ms >>= fun a => rest a ms) (f :: fs) := by
  intro ms i
  have parted : Schema.fieldPlaces (f :: fs) ms =
      Schema.fieldPlaces [f] ms ++ Schema.fieldPlaces fs ms := by
    simp [Schema.fieldPlaces]
  have read : (∀ p ∈ Schema.fieldPlaces [f] ms, p.Conforms) ↔ ∃ a, first ms = .ok a := by
    rw [← forall_not_firstIssue_iff]
    simp only [← h ms]
    cases first ms <;> simp
  rw [bind_eq_error_iff, parted, firstIssue_append, read, ← h ms]
  simp only [h' _ ms, exists_and_right]

theorem FollowsFields.fields {m : List (WideText × Json) → Except Issue α}
    (h : FollowsFields m fs) :
    Follows (fun d => readObject d >>= m) (.fields fs) := by
  intro d i
  change readObject d >>= m = .error i ↔ _
  by_cases hd : (Schema.fields fs).Admits d.kind
  · obtain ⟨ms, rfl⟩ := kind_eq_object_iff.1 hd
    rw [firstIssue_places_of_admits hd, Schema.within, ← h ms]
    rfl
  · rw [firstIssue_places_of_not_admits hd, bind_eq_error_iff]
    cases d with
    | object => exact absurd rfl hd
    | _ => simp [readObject, Schema.kind, eq_comm]

end Readers

end BootImage.Json
