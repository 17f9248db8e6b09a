import BootImage.Files.Change
import BootImage.Proofs.Files.Proper

/-!
# Making directories

Along a way without links a directory is made entirely or not at all. If there is a file on the way
nothing changes; otherwise what was missing on the way is there afterwards, as directories, and
everything else is as before. Making a directory once more changes nothing and comes to the same.
-/

namespace BootImage.FileTree

/-- A regular file is at the location or on the way to it. -/
def Blocked (t : FileTree) (l : Location) : Prop :=
  ∃ p, p <+: l ∧ ∃ e, t.find? p = some e ∧ e.isFile = true

instance (t : FileTree) (l : Location) : Decidable (t.Blocked l) :=
  decidable_of_iff (∃ p ∈ l.inits, ∃ e ∈ t.find? p, e.isFile = true) <| by
    simp only [List.mem_inits, Option.mem_def, Blocked]

def canName (t : FileTree) (path : String) : Bool :=
  !Text.hasNull path && !path.isEmpty && path.utf8ByteSize ≤ longestPath &&
    (t.way path).all isNameable

section Below

variable {t : FileTree} {base l : Location} {e : Entry} {rest : List String}

/-- Whatever links there are, nothing but directories is added, and what is there stays. -/
theorem find?_makeBelow_cases (base : Location) (rest : List String) (l : Location) :
    (makeBelow base rest t).2.find? l = t.find? l ∨
      t.find? l = none ∧ (makeBelow base rest t).2.find? l = some .directory := by
  fun_induction makeBelow base rest t with
  | case10 base name rest t _ _ missing _ ih =>
      by_cases hl : l = base ++ [name]
      · rw [hl, find?_set_self t (by simp)] at ih
        rw [hl]
        exact .inr ⟨missing, ih.elim id And.right⟩
      · rwa [find?_set_of_ne t hl] at ih
  | case2 _ _ _ ih => exact ih
  | case3 _ _ _ _ ih => exact ih
  | case4 _ _ _ _ _ _ _ ih => exact ih
  | case5 _ _ _ _ _ _ _ _ _ _ ih => exact ih
  | _ => exact .inl rfl

theorem origin_makeBelow (base : Location) (rest : List String) :
    (makeBelow base rest t).2.origin = t.origin := by
  fun_induction makeBelow base rest t with
  | case10 _ _ _ _ _ _ _ _ ih => exact ih
  | case2 _ _ _ ih => exact ih
  | case3 _ _ _ _ ih => exact ih
  | case4 _ _ _ _ _ _ _ ih => exact ih
  | case5 _ _ _ _ _ _ _ _ _ _ ih => exact ih
  | _ => rfl

theorem Proper.makeBelow (h : t.Proper) (start : t.find? base = some .directory)
    (rest : List String) : (makeBelow base rest t).2.Proper := by
  fun_induction FileTree.makeBelow base rest t with
  | case10 base name rest t _ _ _ _ ih =>
      refine ih (h.set_directory (by simp) ?_) (find?_set_self t (by simp) _)
      rwa [List.dropLast_concat]
  | case2 _ _ _ ih => exact ih h start
  | case3 _ _ _ _ ih => exact ih h (h.find?_dropLast start)
  | case4 _ _ _ _ _ _ there ih => exact ih h there
  | case5 _ _ _ _ _ _ _ _ _ led ih => exact ih h (h.find?_of_walk start led)
  | _ => exact h

/-- How directories are made along a direct way: what is there is gone through, and what is missing
is added, up to something that is no directory or cannot be named. -/
inductive Makes : FileTree → Location → List String → Except Refusal Location → FileTree → Prop
  | done {t : FileTree} {base : Location} : Makes t base [] (.ok base) t
  | through {t t' : FileTree} {base : Location} {name : String} {rest : List String}
      {made : Except Refusal Location} (plain : IsPlain name)
      (there : t.find? (base ++ [name]) = some .directory)
      (below : Makes t (base ++ [name]) rest made t') : Makes t base (name :: rest) made t'
  | added {t t' : FileTree} {base : Location} {name : String} {rest : List String}
      {made : Except Refusal Location} (plain : IsPlain name)
      (missing : t.find? (base ++ [name]) = none) (nameable : isNameable name = true)
      (below : Makes (t.set (base ++ [name]) .directory) (base ++ [name]) rest made t') :
      Makes t base (name :: rest) made t'
  | blocked {t : FileTree} {base : Location} {name : String} {rest : List String} {e : Entry}
      (there : t.find? (base ++ [name]) = some e) (file : e ≠ .directory) {why : Refusal}
      (again : makeBelow base (name :: rest) t = (.error why, t)) :
      Makes t base (name :: rest) (.error why) t
  | unnamed {t : FileTree} {base : Location} {name : String} {rest : List String}
      (missing : t.find? (base ++ [name]) = none) (unnameable : isNameable name = false)
      {why : Refusal} (again : makeBelow base (name :: rest) t = (.error why, t)) :
      Makes t base (name :: rest) (.error why) t

theorem Direct.makes (direct : t.Direct base rest) :
    Makes t base rest (makeBelow base rest t).1 (makeBelow base rest t).2 := by
  induction rest generalizing base t with
  | nil => exact .done
  | cons name rest ih =>
      have plain := direct.isPlain
      have step := makeBelow.eq_def base (name :: rest) t
      simp only [if_neg plain.1, if_neg plain.2] at step
      cases there : t.find? (base ++ [name]) with
      | none =>
          simp only [there] at step
          by_cases nameable : isNameable name = true
          · rw [if_pos nameable] at step
            rw [step]
            exact .added plain there nameable (ih direct.tail_set)
          · rw [if_neg nameable] at step
            rw [step]
            exact .unnamed there (by simpa using nameable) step
      | some e =>
          cases e with
          | directory =>
              simp only [there] at step
              rw [step]
              exact .through plain there (ih (direct.tail there))
          | link target => exact absurd there (direct.find?_ne_link target)
          | file content executable =>
              simp only [there] at step
              rw [step]
              exact .blocked there (by simp) step
          | program name' =>
              simp only [there] at step
              rw [step]
              exact .blocked there (by simp) step

namespace Makes

variable {t' : FileTree} {made : Except Refusal Location}

theorem find?_beside (h : Makes t base rest made t') (hl : ¬ l <+: base ++ rest) :
    t'.find? l = t.find? l := by
  induction h with
  | @added t _ base name _ _ _ _ _ _ ih =>
      have other : l ≠ base ++ [name] := by
        rintro rfl
        exact hl (by simp)
      rw [ih (by simpa using hl), find?_set_of_ne t other]
  | through _ _ _ ih => exact ih (by simpa using hl)
  | _ => rfl

theorem find?_of_eq_some (h : Makes t base rest made t') (he : t.find? l = some e) :
    t'.find? l = some e := by
  induction h with
  | @added t _ base name _ _ _ missing _ _ ih =>
      have other : l ≠ base ++ [name] := by
        rintro rfl
        cases missing.symm.trans he
      exact ih (by rwa [find?_set_of_ne t other])
  | through _ _ _ ih => exact ih he
  | _ => exact he

/-- Once more the same comes of it, and nothing is changed. -/
theorem makeBelow_again (h : Makes t base rest made t') : makeBelow base rest t' = (made, t') := by
  induction h with
  | done => rfl
  | through plain there below ih =>
      rw [makeBelow_cons_directory (below.find?_of_eq_some there) plain, ih]
  | added plain _ _ below ih =>
      have there := below.find?_of_eq_some (find?_set_self _ (by simp) .directory)
      rw [makeBelow_cons_directory there plain, ih]
  | blocked _ _ again => exact again
  | unnamed _ _ again => exact again

/-- Where a file is on the way, nothing is made. -/
theorem of_file (h : Makes t base rest made t') (ht : t.Proper)
    (start : t.find? base = some .directory) {p : Location} (hp : p <+: rest)
    (he : t.find? (base ++ p) = some e) (file : e ≠ .directory) :
    ∃ why, made = .error why ∧ t' = t := by
  -- the file is not the directory that the way starts from
  have below {t : FileTree} {base p : Location} {name : String} {rest : List String}
      (start : t.find? base = some .directory) (hp : p <+: name :: rest)
      (he : t.find? (base ++ p) = some e) :
      ∃ q, q <+: rest ∧ t.find? ((base ++ [name]) ++ q) = some e := by
    cases p with
    | nil =>
        rw [List.append_nil, start] at he
        exact absurd (Option.some.inj he).symm file
    | cons n q =>
        obtain ⟨rfl, hq⟩ := List.cons_prefix_cons.1 hp
        exact ⟨q, hq, by simpa using he⟩
  induction h generalizing p with
  | done =>
      rw [List.prefix_nil.1 hp, List.append_nil, start] at he
      exact absurd (Option.some.inj he).symm file
  | through _ there _ ih =>
      obtain ⟨q, hq, he⟩ := below start hp he
      exact ih ht there hq he
  | added _ missing _ _ _ =>
      obtain ⟨q, -, he⟩ := below start hp he
      cases (ht.find?_append_of_none missing q).symm.trans he
  | blocked _ _ _ => exact ⟨_, rfl, rfl⟩
  | unnamed _ _ _ => exact ⟨_, rfl, rfl⟩

/-- Where no file is on the way, just what is missing is made. -/
theorem of_free (h : Makes t base rest made t') (ht : t.Proper)
    (start : t.find? base = some .directory)
    (free : ∀ p, p <+: rest → ∀ e, t.find? (base ++ p) = some e → e = .directory)
    (names : ∀ n ∈ rest, isNameable n = true) :
    made = .ok (base ++ rest) ∧
      ∀ l, t'.find? l = if l <+: base ++ rest ∧ t.find? l = none then some .directory
        else t.find? l := by
  induction h with
  | @done t base =>
      refine ⟨by simp, fun l => ?_⟩
      rw [List.append_nil, if_neg]
      rintro ⟨hl, missing⟩
      cases (ht.find?_of_prefix start hl).symm.trans missing
  | @through t t' base name rest made plain there below ih =>
      rw [List.forall_mem_cons] at names
      have free' (p : Location) (hp : p <+: rest) (e : Entry)
          (he : t.find? ((base ++ [name]) ++ p) = some e) : e = .directory :=
        free (name :: p) (by simpa using hp) e (by simpa using he)
      simpa using ih ht there free' names.2
  | @added t t' base name rest made plain missing nameable below ih =>
      rw [List.forall_mem_cons] at names
      have there : (t.set (base ++ [name]) .directory).find? (base ++ [name]) = some .directory :=
        find?_set_self t (by simp) _
      have proper : (t.set (base ++ [name]) .directory).Proper :=
        ht.set_directory (by simp) (by rwa [List.dropLast_concat])
      have free' (p : Location) (_ : p <+: rest) (e : Entry)
          (he : (t.set (base ++ [name]) .directory).find? ((base ++ [name]) ++ p) = some e) :
          e = .directory := by
        by_cases hp : p = []
        · rw [hp, List.append_nil, there] at he
          exact (Option.some.inj he).symm
        · rw [find?_set_of_ne t (by simpa using hp), ht.find?_append_of_none missing] at he
          cases he
      obtain ⟨made, found⟩ := ih proper there free' names.2
      refine ⟨by simpa using made, fun l => ?_⟩
      rw [found]
      by_cases hl : l = base ++ [name]
      · subst hl
        simp [there, missing]
      · simp [find?_set_of_ne t hl]
  | @blocked t base name rest e there file why again =>
      exact absurd (free [name] (by simp) e there) file
  | unnamed _ unnameable _ =>
      rw [names _ List.mem_cons_self] at unnameable
      cases unnameable

end Makes

end Below

section Making

variable {t : FileTree} {l : Location} {e : Entry} {path : String}

/-- What comes of making a directory: it is refused at once, or made from the root down. -/
theorem makeDirectories_cases (t : FileTree) (path : String) :
    (∃ e, t.canName path = false ∧ ∀ t' : FileTree, t'.origin = t.origin →
      t'.makeDirectories path = (.error e, t')) ∨
    ∀ t' : FileTree, t'.origin = t.origin → t'.makeDirectories path =
      (((makeBelow [] (t.way path) t').1.map fun _ => ()).mapError (.makingDirectory · path),
        (makeBelow [] (t.way path) t').2) := by
  by_cases null : Text.hasNull path = true
  · exact .inl ⟨_, by simp [canName, null], fun t' _ => by rw [makeDirectories, if_pos null]⟩
  by_cases empty : path.isEmpty = true
  · exact .inl ⟨_, by simp [canName, empty],
      fun t' _ => by rw [makeDirectories, if_neg null, if_pos empty]⟩
  by_cases long : longestPath < path.utf8ByteSize
  · exact .inl ⟨_, by simp [canName, Nat.not_le.2 long],
      fun t' _ => by rw [makeDirectories, if_neg null, if_neg empty, if_pos long]⟩
  refine .inr fun t' origin => ?_
  have way : t'.way path = t.way path := by rw [FileTree.way, FileTree.way, origin]
  rw [makeDirectories, if_neg null, if_neg empty, if_neg long, way]

/-- Whatever links there are, nothing but directories is added, and what is there stays. -/
theorem find?_makeDirectories_cases (t : FileTree) (path : String) (l : Location) :
    (t.makeDirectories path).2.find? l = t.find? l ∨
      t.find? l = none ∧ (t.makeDirectories path).2.find? l = some .directory := by
  rcases makeDirectories_cases t path with ⟨_, -, refused⟩ | made
  · exact .inl (by rw [refused t rfl])
  · rw [made t rfl]
    exact find?_makeBelow_cases [] _ l

theorem find?_makeDirectories_of_eq_some (he : t.find? l = some e) (path : String) :
    (t.makeDirectories path).2.find? l = some e := by
  rcases find?_makeDirectories_cases t path l with same | ⟨missing, -⟩
  · rw [same, he]
  · cases missing.symm.trans he

theorem Unlinked.makeDirectories {names : List String} (h : t.Unlinked [] names) (path : String) :
    (t.makeDirectories path).2.Unlinked [] names := by
  intro p hp target
  rcases find?_makeDirectories_cases t path ([] ++ p) with same | ⟨-, made⟩
  · rw [same]
    exact h p hp target
  · rw [made]
    simp

theorem origin_makeDirectories (t : FileTree) (path : String) :
    (t.makeDirectories path).2.origin = t.origin := by
  rcases makeDirectories_cases t path with ⟨_, -, refused⟩ | made
  · rw [refused t rfl]
  · rw [made t rfl]
    exact origin_makeBelow [] _

theorem Proper.makeDirectories (h : t.Proper) (path : String) :
    (t.makeDirectories path).2.Proper := by
  rcases makeDirectories_cases t path with ⟨_, -, refused⟩ | made
  · rwa [refused t rfl]
  · rw [made t rfl]
    exact h.makeBelow rfl _

namespace Direct

variable (direct : t.Direct [] (t.way path))

include direct

theorem eq_directory_of_not_blocked (free : ¬ t.Blocked (t.way path)) {p : Location}
    (hp : p <+: t.way path) (he : t.find? p = some e) : e = .directory := by
  cases e with
  | directory => rfl
  | link target => exact absurd he (direct.unlinked p hp target)
  | file content executable => exact absurd ⟨p, hp, _, he, rfl⟩ free
  | program name => exact absurd ⟨p, hp, _, he, rfl⟩ free

/-- Once more the same comes of it, and nothing is changed. -/
theorem makeDirectories_again :
    (t.makeDirectories path).2.makeDirectories path = t.makeDirectories path := by
  rcases makeDirectories_cases t path with ⟨_, -, refused⟩ | made
  · rw [refused t rfl, refused t rfl]
  · rw [made _ (origin_makeDirectories t path), made t rfl, direct.makes.makeBelow_again]

theorem find?_makeDirectories_beside (hl : ¬ l <+: t.way path) :
    (t.makeDirectories path).2.find? l = t.find? l := by
  rcases makeDirectories_cases t path with ⟨_, -, refused⟩ | made
  · rw [refused t rfl]
  · rw [made t rfl]
    exact direct.makes.find?_beside hl

theorem makeDirectories_of_blocked (h : t.Proper) (blocked : t.Blocked (t.way path)) :
    ∃ e, t.makeDirectories path = (.error e, t) := by
  obtain ⟨p, hp, e, he, file⟩ := blocked
  rcases makeDirectories_cases t path with ⟨e, -, refused⟩ | made
  · exact ⟨e, refused t rfl⟩
  · have notDirectory : e ≠ .directory := by
      rintro rfl
      cases file
    obtain ⟨why, unmade, same⟩ := direct.makes.of_file h rfl hp he notDirectory
    exact ⟨_, by rw [made t rfl, unmade, same]; rfl⟩

/-- Where no file is on the way, just what is missing is made. -/
theorem makeDirectories_of_free (h : t.Proper) (named : t.canName path = true)
    (free : ¬ t.Blocked (t.way path)) :
    (t.makeDirectories path).1 = .ok () ∧
      ∀ l, (t.makeDirectories path).2.find? l =
        if l <+: t.way path ∧ t.find? l = none then some .directory else t.find? l := by
  rcases makeDirectories_cases t path with ⟨_, unnamed, -⟩ | made
  · cases named.symm.trans unnamed
  · have free' (p : Location) (hp : p <+: t.way path) (e : Entry)
        (he : t.find? ([] ++ p) = some e) : e = .directory :=
      direct.eq_directory_of_not_blocked free hp he
    simp only [canName, Bool.and_eq_true, List.all_eq_true] at named
    obtain ⟨done, found⟩ := direct.makes.of_free h rfl free' named.2
    rw [made t rfl, done]
    exact ⟨rfl, found⟩

theorem find?_makeDirectories_self (h : t.Proper) (named : t.canName path = true)
    (free : ¬ t.Blocked (t.way path)) :
    (t.makeDirectories path).2.find? (t.way path) = some .directory := by
  rw [(direct.makeDirectories_of_free h named free).2]
  cases he : t.find? (t.way path) with
  | none => simp
  | some e => simp [direct.eq_directory_of_not_blocked free List.prefix_rfl he]

end Direct

end Making

end BootImage.FileTree
