import BootImage.Proofs.Path.Reduction

/-!
# Paths in normal form

A path from the root is in normal form if it is the root or consists of names with single slashes in
front of them. Then it is spelled as what it comes to, so resolving it gives it back, wherever it is
seen from. Resolving and joining give paths in normal form, with two exceptions: a joined path keeps
a slash at its end, and a current directory that is resolved as it stands keeps its spelling.
-/

namespace BootImage.Path

/-- The root, or names with single slashes in front of them. -/
def IsNormal (p : List Char) : Prop :=
  p = ['/'] ∨ ∃ q, p = '/' :: q ∧ ∀ s ∈ Text.pieces '/' q, isName s = true

/-- In normal form but for a slash at the end. -/
def IsNormalToSlash (p : List Char) : Prop :=
  IsNormal p ∨ ∃ q, p = q ++ ['/'] ∧ IsNormal q ∧ q ≠ ['/']

theorem isNormal_fromRoot {ss : List Segment} (h : ∀ s ∈ ss, isName s = true)
    (slash : ∀ s ∈ ss, '/' ∉ s) : IsNormal (fromRoot ss) := by
  cases ss with
  | nil => exact .inl rfl
  | cons s ss =>
      refine .inr ⟨_, rfl, ?_⟩
      rw [Text.pieces_joinPieces (List.cons_ne_nil _ _) slash]
      exact h

theorem isNormal_fromRoot_reduce (p : List Char) : IsNormal (fromRoot (reduce false p)) :=
  isNormal_fromRoot isName_of_mem_reduce fun _ => not_mem_of_mem_reduce

theorem reduce_slash_cons {q : List Char} (h : ∀ s ∈ Text.pieces '/' q, isName s = true) :
    reduce false ('/' :: q) = Text.pieces '/' q := by
  rw [← List.nil_append ('/' :: q), reduce_append_slash, foldl_visit_of_isName h]
  simp [reduce]

/-- A path in normal form is spelled as what it comes to, and no other path is. -/
theorem isNormal_iff {p : List Char} : IsNormal p ↔ fromRoot (reduce false p) = p := by
  constructor
  · rintro (rfl | ⟨q, rfl, h⟩)
    · rfl
    · rw [reduce_slash_cons h, fromRoot, Text.joinPieces_pieces]
  · intro h
    rw [← h]
    exact isNormal_fromRoot_reduce p

instance (p : List Char) : Decidable (IsNormal p) := decidable_of_iff' _ isNormal_iff

theorem isAbsolute_of_isNormal {p : List Char} (h : IsNormal p) : isAbsolute p = true := by
  rcases h with rfl | ⟨q, rfl, -⟩ <;> rfl

theorem getLast?_ne_slash {q : List Char} (h : ∀ s ∈ Text.pieces '/' q, isName s = true) :
    ('/' :: q).getLast? ≠ some '/' := by
  intro last
  obtain ⟨r, hr⟩ := List.getLast?_eq_some_iff.1 last
  have empty : [] ∈ Text.pieces '/' q := by
    cases r with
    | nil => simp [(List.cons.inj hr).2]
    | cons c r =>
        rw [List.cons_append] at hr
        simp [(List.cons.inj hr).2, Text.pieces_append_sep_cons]
  exact absurd (h [] empty) (by decide)

theorem isNormalToSlash_normalizeChars {p : List Char} (h : isAbsolute p = true) :
    IsNormalToSlash (normalizeChars p) := by
  rw [normalizeChars, if_pos h]
  cases hr : reduce false p with
  | nil => exact .inl (.inl rfl)
  | cons s ss =>
      have normal := isNormal_fromRoot_reduce p
      rw [hr] at normal
      dsimp only
      by_cases slash : p.getLast? = some '/'
      · rw [if_pos slash]
        refine .inr ⟨_, rfl, normal, fun root => ?_⟩
        have names := reduce_fromRoot_reduce p
        rw [hr, root] at names
        cases names
      · rw [if_neg slash, List.append_nil]
        exact .inl normal

theorem isNormalToSlash_join {d : String} (h : isAbsolute d.toList = true) (parts : List String) :
    IsNormalToSlash (join (d :: parts)).toList := by
  rw [toList_join_cons (ne_empty_of_isAbsolute h)]
  exact isNormalToSlash_normalizeChars (isAbsolute_intercalate h _)

theorem isNormal_normalizeChars {p : List Char} (h : isAbsolute p = true)
    (slash : p.getLast? ≠ some '/') : IsNormal (normalizeChars p) := by
  rw [normalizeChars, if_pos h]
  cases hr : reduce false p with
  | nil => exact .inl rfl
  | cons s ss =>
      dsimp only
      rw [if_neg slash, List.append_nil, ← hr]
      exact isNormal_fromRoot_reduce p

theorem getLast?_intercalate (ps : List (List Char)) {p : List Char} (hp : p ≠ []) :
    (['/'].intercalate (ps ++ [p])).getLast? = p.getLast? := by
  induction ps with
  | nil => simp
  | cons q ps ih =>
      obtain ⟨r, rs, cut⟩ := List.exists_cons_of_ne_nil (List.concat_ne_nil p ps)
      rw [List.cons_append, cut, List.intercalate_cons_cons, ← cut, List.getLast?_append, ih,
        List.getLast?_eq_some_getLast hp]
      rfl

/-- A joined path whose last part does not end with a slash is in normal form. -/
theorem isNormal_join_append {d : String} (h : isAbsolute d.toList = true) (parts : List String)
    {s : String} (hs : s ≠ "") (slash : s.toList.getLast? ≠ some '/') :
    IsNormal (join (d :: (parts ++ [s]))).toList := by
  have last : [s].filter (fun p => !p.isEmpty) = [s] := by simp [hs]
  rw [toList_join_cons (ne_empty_of_isAbsolute h), List.filter_append, last, List.map_append]
  refine isNormal_normalizeChars (isAbsolute_intercalate h _) ?_
  rw [List.map_singleton, ← List.cons_append, getLast?_intercalate _ (by simpa using hs)]
  exact slash

theorem isNormal_join {d s : String} (h : isAbsolute d.toList = true)
    (hs : isName s.toList = true) (slash : '/' ∉ s.toList) : IsNormal (join [d, s]).toList := by
  refine isNormal_join_append h [] (ne_empty_of_isName hs) ?_
  exact fun last => slash (List.mem_of_getLast? last)

theorem isHere_singleton {d : String} : isHere [d] = true ↔ d = "" ∨ d = "." := by
  simp [isHere]

theorem resolve_eq {cwd : String} (h : isAbsolute cwd.toList = true) (d : String) :
    resolve cwd [d] =
      if d = "" ∨ d = "." then cwd
      else String.ofList (fromRoot (absoluteSegments cwd.toList d.toList)) := by
  rw [resolve, h, Bool.and_true]
  by_cases here : d = "" ∨ d = "."
  · rw [if_pos (isHere_singleton.2 here), if_pos here]
  · rw [if_neg (mt isHere_singleton.1 here), if_neg here]
    simp [absoluteSegments]

/-- What is resolved is in normal form, unless it is a current directory that is not. -/
theorem isNormal_resolve_iff {cwd : String} (h : isAbsolute cwd.toList = true) (d : String) :
    IsNormal (resolve cwd [d]).toList ↔ (d = "" ∨ d = "." → IsNormal cwd.toList) := by
  rw [resolve_eq h]
  by_cases here : d = "" ∨ d = "."
  · rw [if_pos here]
    exact ⟨fun normal _ => normal, fun normal => normal here⟩
  · rw [if_neg here, String.toList_ofList]
    exact iff_of_true (isNormal_fromRoot_reduce _) fun h => absurd h here

/-- A path in normal form resolves to itself wherever it is seen from. -/
theorem resolve_eq_self_iff {p : String} (h : isAbsolute p.toList = true) (cwd : String) :
    resolve cwd [p] = p ↔ IsNormal p.toList := by
  rw [resolve_of_isAbsolute h, isNormal_iff, ← String.toList_inj, String.toList_ofList]

end BootImage.Path
