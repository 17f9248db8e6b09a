import BootImage.Path.Basic

/-!
# What a path comes to

An absolute path comes to the segments that are left when it is reduced. Reducing is done segment by
segment, so a name behind a path is one more segment, and a path that is put together from reduced
segments reduces to them. Hence normalising a path, joining names to it or resolving it changes how
it is spelled and not what it comes to.
-/

namespace BootImage

namespace Path

theorem foldl_visit_of_isName {ss : List Segment} (h : ∀ s ∈ ss, isName s = true)
    (climbs : Bool) (stack : List Segment) :
    ss.foldl (visit climbs) stack = ss.reverse ++ stack := by
  induction ss generalizing stack with
  | nil => rfl
  | cons s ss ih =>
      rw [List.foldl_cons, visit_of_isName (h s List.mem_cons_self),
        ih fun x hx => h x (List.mem_cons_of_mem _ hx)]
      simp

theorem isName_of_mem_reduce {p : List Char} : ∀ s ∈ reduce false p, isName s = true := by
  have kept (ss : List Segment) (stack : List Segment) (h : ∀ x ∈ stack, isName x = true) :
      ∀ x ∈ ss.foldl (visit false) stack, isName x = true := by
    induction ss generalizing stack with
    | nil => exact h
    | cons s ss ih => exact ih _ (isName_of_mem_visit h s)
  intro s hs
  exact kept _ [] (by simp) s (List.mem_reverse.1 hs)

theorem mem_of_mem_visit {climbs : Bool} {stack : List Segment} {s x : Segment}
    (h : x ∈ visit climbs stack s) : x = s ∨ x ∈ stack := by
  by_cases h₁ : s = [] ∨ s = current
  · rw [visit.eq_def, if_pos h₁] at h
    exact .inr h
  by_cases h₂ : s = parent
  · rw [visit.eq_def, if_neg h₁, if_pos h₂] at h
    cases stack with
    | nil =>
        dsimp only at h
        split at h
        · exact .inl ((List.mem_singleton.1 h).trans h₂.symm)
        · cases h
    | cons top below =>
        dsimp only at h
        split at h
        · exact (List.mem_cons.1 h).imp_left (·.trans h₂.symm)
        · exact .inr (List.mem_cons_of_mem _ h)
  · rw [visit.eq_def, if_neg h₁, if_neg h₂] at h
    exact List.mem_cons.1 h

theorem mem_pieces_of_mem_reduce {climbs : Bool} {p : List Char} {s : Segment}
    (h : s ∈ reduce climbs p) : s ∈ Text.pieces '/' p := by
  have kept (ss : List Segment) (stack : List Segment) :
      ∀ x ∈ ss.foldl (visit climbs) stack, x ∈ ss ∨ x ∈ stack := by
    induction ss generalizing stack with
    | nil => exact fun x hx => .inr hx
    | cons s ss ih =>
        intro x hx
        rcases ih _ x hx with hx | hx
        · exact .inl (List.mem_cons_of_mem _ hx)
        · rcases mem_of_mem_visit hx with rfl | hx
          · exact .inl List.mem_cons_self
          · exact .inr hx
  exact (kept _ [] s (List.mem_reverse.1 h)).resolve_right List.not_mem_nil

theorem ne_nil_of_mem_reduce {p : List Char} {s : Segment} (h : s ∈ reduce false p) :
    s ≠ [] := by
  rintro rfl
  cases isName_of_mem_reduce _ h

theorem not_mem_of_mem_reduce {p : List Char} {s : Segment} (h : s ∈ reduce false p) :
    '/' ∉ s := by
  exact Text.not_mem_of_mem_pieces (mem_pieces_of_mem_reduce h)

theorem reduce_append_slash (climbs : Bool) (p q : List Char) :
    reduce climbs (p ++ '/' :: q) =
      ((Text.pieces '/' q).foldl (visit climbs) (reduce climbs p).reverse).reverse := by
  rw [reduce, Text.pieces_append_sep_cons, List.foldl_append, reduce, List.reverse_reverse]

theorem reduce_append_name {s : Segment} (hs : isName s = true) (slash : '/' ∉ s) (climbs : Bool)
    (p : List Char) : reduce climbs (p ++ '/' :: s) = reduce climbs p ++ [s] := by
  rw [reduce_append_slash, Text.pieces_of_not_mem slash, List.foldl_cons, List.foldl_nil,
    visit_of_isName hs, List.reverse_cons, List.reverse_reverse]

theorem reduce_append_slash_nil (climbs : Bool) (p : List Char) :
    reduce climbs (p ++ ['/']) = reduce climbs p := by
  rw [reduce_append_slash]
  simp

theorem reduce_fromRoot {ss : List Segment} (h : ∀ s ∈ ss, isName s = true)
    (slash : ∀ s ∈ ss, '/' ∉ s) : reduce false (fromRoot ss) = ss := by
  have root : fromRoot ss = [] ++ '/' :: Text.joinPieces '/' ss := rfl
  rw [root, reduce_append_slash]
  cases ss with
  | nil => rfl
  | cons s ss =>
      rw [Text.pieces_joinPieces (by simp) slash, foldl_visit_of_isName h]
      simp [reduce]

theorem reduce_fromRoot_reduce (p : List Char) :
    reduce false (fromRoot (reduce false p)) = reduce false p :=
  reduce_fromRoot isName_of_mem_reduce fun _ => not_mem_of_mem_reduce

theorem reduce_normalizeChars {p : List Char} (h : isAbsolute p = true) :
    reduce false (normalizeChars p) = reduce false p := by
  rw [normalizeChars, if_pos h]
  cases hr : reduce false p with
  | nil => rfl
  | cons s ss =>
      dsimp only
      rw [← hr]
      by_cases slash : p.getLast? = some '/'
      · rw [if_pos slash, reduce_append_slash_nil, reduce_fromRoot_reduce]
      · rw [if_neg slash, List.append_nil, reduce_fromRoot_reduce]

theorem ne_empty_of_isAbsolute {d : String} (h : isAbsolute d.toList = true) : d ≠ "" := by
  rintro rfl
  cases h

theorem isAbsolute_append {p : List Char} (h : isAbsolute p = true) (q : List Char) :
    isAbsolute (p ++ q) = true := by
  rw [isAbsolute] at h ⊢
  cases hp : p.head? with
  | none => simp [hp] at h
  | some c => simpa [List.head?_append, hp] using h

theorem isAbsolute_normalizeChars {p : List Char} (h : isAbsolute p = true) :
    isAbsolute (normalizeChars p) = true := by
  rw [normalizeChars, if_pos h]
  cases reduce false p <;> rfl

theorem isAbsolute_intercalate {p : List Char} (h : isAbsolute p = true)
    (ps : List (List Char)) : isAbsolute (['/'].intercalate (p :: ps)) = true := by
  cases ps with
  | nil => simpa using h
  | cons q ps =>
      rw [List.intercalate_cons_cons]
      exact isAbsolute_append (isAbsolute_append h _) _

theorem toList_join_cons {d : String} (hd : d ≠ "") (parts : List String) :
    (join (d :: parts)).toList =
      normalizeChars (['/'].intercalate
        (d.toList :: (parts.filter fun p => !p.isEmpty).map String.toList)) := by
  have kept : (d :: parts).filter (fun p => !p.isEmpty) =
      d :: parts.filter (fun p => !p.isEmpty) :=
    List.filter_cons_of_pos (by simpa using hd)
  rw [join, kept, normalize, String.toList_ofList, String.toList_intercalate]
  rfl

theorem toList_join {d s : String} (hd : d ≠ "") (hs : s ≠ "") :
    (join [d, s]).toList = normalizeChars (d.toList ++ '/' :: s.toList) := by
  have parts : [s].filter (fun p => !p.isEmpty) = [s] := by simp [hs]
  rw [toList_join_cons hd, parts]
  simp

theorem isAbsolute_join {d : String} (h : isAbsolute d.toList = true) (parts : List String) :
    isAbsolute (join (d :: parts)).toList = true := by
  rw [toList_join_cons (ne_empty_of_isAbsolute h)]
  exact isAbsolute_normalizeChars (isAbsolute_intercalate h _)

theorem ne_empty_of_isName {s : String} (hs : isName s.toList = true) : s ≠ "" := by
  rintro rfl
  cases hs

theorem reduce_join {d s : String} (h : isAbsolute d.toList = true) (hs : isName s.toList = true)
    (slash : '/' ∉ s.toList) :
    reduce false (join [d, s]).toList = reduce false d.toList ++ [s.toList] := by
  rw [toList_join (ne_empty_of_isAbsolute h) (ne_empty_of_isName hs),
    reduce_normalizeChars (isAbsolute_append h _), reduce_append_name hs slash]

theorem resolve_of_isAbsolute {d : String} (h : isAbsolute d.toList = true) (cwd : String) :
    resolve cwd [d] = String.ofList (fromRoot (reduce false d.toList)) := by
  have elsewhere : isHere [d] = false := by
    have dot : d ≠ "." := by
      rintro rfl
      cases h
    simp [isHere, ne_empty_of_isAbsolute h, dot]
  have extended : extend cwd.toList d.toList = d.toList := by
    rw [extend, if_neg (by simpa using ne_empty_of_isAbsolute h), if_pos h]
  rw [resolve, elsewhere]
  simp [h, extended]

theorem reduce_resolve {d : String} (h : isAbsolute d.toList = true) (cwd : String) :
    reduce false (resolve cwd [d]).toList = reduce false d.toList := by
  rw [resolve_of_isAbsolute h, String.toList_ofList, reduce_fromRoot_reduce]

theorem isAbsolute_resolve {cwd : String} {parts : List String}
    (h : isAbsolute cwd.toList = true ∨ ∃ p ∈ parts, isAbsolute p.toList = true) :
    isAbsolute (resolve cwd parts).toList = true := by
  rw [resolve]
  split
  · next here => exact (Bool.and_eq_true_iff.1 here).2
  · dsimp only
    rw [if_pos (by simpa using h), String.toList_ofList]
    rfl

end Path

end BootImage
