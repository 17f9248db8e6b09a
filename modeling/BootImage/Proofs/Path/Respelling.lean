import BootImage.Proofs.Path.Reduction

/-!
# One path in several spellings

A path can be spelled with more slashes than it needs, with segments `.`, with detours into some
directory and back out of it, and with a slash at its end. None of this changes what the path comes
to, nor whether it starts from the root.
-/

namespace BootImage.Path

/-- Two paths that differ in superfluous slashes, in segments `.`, and in detours `x/..`. -/
inductive Respelled : List Char → List Char → Prop
  | refl (p : List Char) : Respelled p p
  | symm {p q : List Char} (h : Respelled p q) : Respelled q p
  | trans {p q r : List Char} (h : Respelled p q) (h' : Respelled q r) : Respelled p r
  | slash (p q : List Char) : Respelled (p ++ '/' :: q) (p ++ '/' :: '/' :: q)
  | current (p q : List Char) : Respelled (p ++ '/' :: q) (p ++ '/' :: (current ++ '/' :: q))
  | detour {x : Segment} (hx : isName x = true) (hs : '/' ∉ x) (p q : List Char) :
      Respelled (p ++ '/' :: q) (p ++ '/' :: (x ++ '/' :: (parent ++ '/' :: q)))
  | ending {p : List Char} (hp : p ≠ []) : Respelled p (p ++ ['/'])

namespace Respelled

variable {p q : List Char}

theorem reduce_eq (h : Respelled p q) (climbs : Bool) : reduce climbs p = reduce climbs q := by
  induction h with
  | refl => rfl
  | symm _ ih => exact ih.symm
  | trans _ _ ih ih' => exact ih.trans ih'
  | slash p q =>
      rw [reduce_append_slash, reduce_append_slash, Text.pieces_sep_cons, List.foldl_cons,
        visit_nil]
  | current p q =>
      rw [reduce_append_slash, reduce_append_slash, Text.pieces_append_sep_cons,
        Text.pieces_of_not_mem (by decide : '/' ∉ Path.current), List.singleton_append,
        List.foldl_cons, visit_current]
  | detour hx hs p q =>
      rw [reduce_append_slash, reduce_append_slash, Text.pieces_append_sep_cons,
        Text.pieces_append_sep_cons, Text.pieces_of_not_mem hs,
        Text.pieces_of_not_mem (by decide : '/' ∉ parent), List.singleton_append,
        List.singleton_append, List.foldl_cons, List.foldl_cons, visit_of_isName hx,
        visit_parent_of_isName hx]
  | ending => rw [reduce_append_slash_nil]

theorem isAbsolute_eq (h : Respelled p q) : isAbsolute p = isAbsolute q := by
  have kept (p q r : List Char) : isAbsolute (p ++ '/' :: q) = isAbsolute (p ++ '/' :: r) := by
    cases p <;> rfl
  induction h with
  | refl => rfl
  | symm _ ih => exact ih.symm
  | trans _ _ ih ih' => exact ih.trans ih'
  | slash | current | detour => exact kept _ _ _
  | ending hp =>
      obtain ⟨c, cs, rfl⟩ := List.exists_cons_of_ne_nil hp
      rfl

theorem resolve_eq {d d' : String} (h : Respelled d.toList d'.toList)
    (absolute : isAbsolute d.toList = true) (cwd cwd' : String) :
    resolve cwd [d] = resolve cwd' [d'] := by
  rw [resolve_of_isAbsolute absolute, resolve_of_isAbsolute (h.isAbsolute_eq ▸ absolute),
    h.reduce_eq]

end Respelled

end BootImage.Path
