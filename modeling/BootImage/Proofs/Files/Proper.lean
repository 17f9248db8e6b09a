import Mathlib.Data.List.Induction
import Mathlib.Data.List.Infix
import BootImage.Files.Walk
import BootImage.Proofs.Path.NormalForm

/-!
# Ways without links

A tree is proper if whatever it holds lies in a directory. In a proper tree a way without links goes
where its names say: what is at its end is what is found at the location of these names, there are
directories only on the way there, and nothing lies below a file or below nothing.
-/

namespace BootImage

namespace FileTree

def Proper (t : FileTree) : Prop := ∀ x ∈ t.entries, t.find? x.1.dropLast = some .directory

instance (t : FileTree) : Decidable t.Proper :=
  inferInstanceAs (Decidable (∀ x ∈ t.entries, t.find? x.1.dropLast = some .directory))

/-- No link lies on the way along `names` from `here`, nor at its end. -/
def Unlinked (t : FileTree) (here : Location) (names : List String) : Prop :=
  ∀ p, p <+: names → ∀ target, t.find? (here ++ p) ≠ some (.link target)

instance (t : FileTree) (here : Location) (names : List String) :
    Decidable (t.Unlinked here names) :=
  decidable_of_iff (∀ p ∈ names.inits, ∀ e ∈ t.find? (here ++ p), e.isLink = false) <| by
    simp only [List.mem_inits, Option.mem_def]
    refine forall₂_congr fun p _ => ⟨fun h target he => ?_, fun h e he => ?_⟩
    · cases h _ he
    · cases e with
      | link target => exact absurd he (h target)
      | _ => rfl

def IsPlain (name : String) : Prop := name ≠ "." ∧ name ≠ ".."

variable {t : FileTree} {here l : Location} {e : Entry} {name : String} {names : List String}

theorem mem_of_find? (hl : l ≠ []) (h : t.find? l = some e) : (l, e) ∈ t.entries := by
  cases l with
  | nil => exact absurd rfl hl
  | cons n l =>
      obtain ⟨before, after, entries, -⟩ := List.lookup_eq_some_iff.1 h
      rw [entries]
      simp

namespace Proper

theorem find?_dropLast (h : t.Proper) (he : t.find? l = some e) :
    t.find? l.dropLast = some .directory := by
  by_cases hl : l = []
  · rw [hl]
    rfl
  · exact h _ (mem_of_find? hl he)

theorem find?_of_append (h : t.Proper) (q : List String) (hq : q ≠ [])
    (he : t.find? (l ++ q) = some e) : t.find? l = some .directory := by
  induction q using List.reverseRecOn generalizing e with
  | nil => exact absurd rfl hq
  | append_singleton q name ih =>
      have above := h.find?_dropLast he
      rw [← List.append_assoc, List.dropLast_concat] at above
      by_cases hq : q = []
      · rwa [hq, List.append_nil] at above
      · exact ih hq above

theorem find?_of_prefix (h : t.Proper) (hd : t.find? l = some .directory) {p : Location}
    (hp : p <+: l) : t.find? p = some .directory := by
  obtain ⟨q, rfl⟩ := hp
  by_cases hq : q = []
  · rwa [hq, List.append_nil] at hd
  · exact h.find?_of_append q hq hd

theorem find?_append_eq_none (h : t.Proper) (hl : t.find? l ≠ some .directory) {q : List String}
    (hq : q ≠ []) : t.find? (l ++ q) = none := by
  cases he : t.find? (l ++ q) with
  | none => rfl
  | some e => exact absurd (h.find?_of_append q hq he) hl

/-- Nothing is found where nothing is, nor below. -/
theorem find?_append_of_none (h : t.Proper) (missing : t.find? l = none) (q : List String) :
    t.find? (l ++ q) = none := by
  by_cases hq : q = []
  · rwa [hq, List.append_nil]
  · exact h.find?_append_eq_none (by simp [missing]) hq

/-- A directory can be put wherever there is a directory for it. -/
theorem set_directory (h : t.Proper) (hl : l ≠ []) (above : t.find? l.dropLast = some .directory) :
    (t.set l .directory).Proper := by
  have kept {l' : Location} (h' : t.find? l' = some .directory) :
      (t.set l .directory).find? l' = some .directory := by
    by_cases heq : l' = l
    · rw [heq, find?_set_self t hl]
    · rwa [find?_set_of_ne t heq]
  intro x hx
  rcases List.mem_cons.1 hx with rfl | hx
  · exact kept above
  · exact kept (h x (List.mem_filter.1 hx).1)

/-- Whatever a way leads to, over links or not, is found where it leads. -/
theorem find?_of_along (h : t.Proper) {follows : Bool} {jump : Location → List String → Reach}
    (jumps : ∀ l' names', t.find? l' = some .directory → jump l' names' = .found l e →
      t.find? l = some e)
    (start : t.find? here = some .directory) (led : t.along follows jump here names = .found l e) :
    t.find? l = some e := by
  fun_induction along t follows jump here names with
  | case1 here =>
      cases led
      exact start
  | case2 here rest ih => exact ih start led
  | case3 here rest _ ih => exact ih (h.find?_dropLast start) led
  | case4 here name rest _ _ there ih => exact ih there led
  | case5 here name rest _ _ target there =>
      cases led
      exact there
  | case6 here name rest _ _ target there _ =>
      refine jumps _ _ ?_ led
      split_ifs
      · rfl
      · exact start
  | case7 here name rest _ _ e _ _ there _ =>
      cases led
      exact there
  | _ => cases led

theorem find?_of_walk (h : t.Proper) {follows : Bool} {links : Nat}
    (start : t.find? here = some .directory)
    (led : t.walk follows links here names = .found l e) : t.find? l = some e := by
  induction links generalizing here names with
  | zero =>
      refine h.find?_of_along (fun _ _ _ looped => ?_) start led
      cases looped
  | succ links ih => exact h.find?_of_along (fun _ _ => ih) start led

end Proper

namespace Unlinked

theorem head (h : t.Unlinked here (name :: names)) (target : String) :
    t.find? (here ++ [name]) ≠ some (.link target) := h [name] (by simp) target

theorem tail (h : t.Unlinked here (name :: names)) : t.Unlinked (here ++ [name]) names :=
  fun p hp target => by simpa using h (name :: p) (by simpa using hp) target

/-- A directory that is made puts no link on the way. -/
theorem set_directory (h : t.Unlinked here names) (hl : l ≠ []) :
    (t.set l .directory).Unlinked here names := by
  intro p hp target
  by_cases heq : here ++ p = l
  · rw [heq, find?_set_self t hl]
    simp
  · rw [find?_set_of_ne t heq]
    exact h p hp target

end Unlinked

/-- The way along `names` from the directory `here` goes where the names say. -/
structure Direct (t : FileTree) (here : Location) (names : List String) : Prop where
  start : t.find? here = some .directory
  plain : ∀ n ∈ names, IsPlain n
  unlinked : t.Unlinked here names

namespace Direct

theorem isPlain (h : t.Direct here (name :: names)) : IsPlain name :=
  h.plain name List.mem_cons_self

theorem find?_ne_link (h : t.Direct here (name :: names)) (target : String) :
    t.find? (here ++ [name]) ≠ some (.link target) := h.unlinked.head target

theorem tail (h : t.Direct here (name :: names))
    (there : t.find? (here ++ [name]) = some .directory) : t.Direct (here ++ [name]) names :=
  ⟨there, fun n hn => h.plain n (List.mem_cons_of_mem _ hn), h.unlinked.tail⟩

theorem tail_set (h : t.Direct here (name :: names)) :
    (t.set (here ++ [name]) .directory).Direct (here ++ [name]) names :=
  ⟨find?_set_self t (by simp) _, fun n hn => h.plain n (List.mem_cons_of_mem _ hn),
    h.unlinked.tail.set_directory (by simp)⟩

end Direct

/-- Along a direct way names lead to what is found at their location. -/
theorem Proper.found?_along (h : t.Proper) (follows : Bool)
    (jump : Location → List String → Reach) (direct : t.Direct here names) :
    (t.along follows jump here names).found? = t.find? (here ++ names) := by
  induction names generalizing here with
  | nil => rw [along, List.append_nil, direct.start]; rfl
  | cons name rest ih =>
      obtain ⟨notHere, notUp⟩ := direct.isPlain
      -- nothing lies below a file, so a way through one leads nowhere
      have leaf {e : Entry} (he : t.find? (here ++ [name]) = some e) (hd : e ≠ .directory) :
          (if rest.isEmpty then Reach.found (here ++ [name]) e
            else .refused .notDirectory).found? = t.find? ((here ++ [name]) ++ rest) := by
        by_cases hr : rest = []
        · rw [hr, List.append_nil, he]
          rfl
        · rw [h.find?_append_eq_none (by simp [he, hd]) hr, if_neg (by simpa using hr)]
          rfl
      have split : here ++ name :: rest = (here ++ [name]) ++ rest := by simp
      rw [along, if_neg notHere, if_neg notUp, split]
      cases he : t.find? (here ++ [name]) with
      | none =>
          rw [h.find?_append_of_none he rest]
          dsimp only
          split_ifs <;> rfl
      | some e =>
          cases e with
          | directory => exact ih (direct.tail he)
          | link target => exact absurd he (direct.find?_ne_link target)
          | file content executable => exact leaf he (by simp)
          | program name' => exact leaf he (by simp)

/-- A path leads to what is found at the location of its names, unless it is empty or too long. -/
theorem Proper.at?_eq (h : t.Proper) {path : String}
    (direct : t.Direct [] (t.way path)) :
    t.at? path = if path.isEmpty || longestPath < path.utf8ByteSize then none
      else t.find? (t.way path) := by
  have led : (t.walk true mostLinks [] (t.way path)).found? = t.find? (t.way path) :=
    h.found?_along true _ direct
  rw [at?, led]

end FileTree

namespace Path

theorem steps_of_isNormal {path : String} (h : IsNormal path.toList) (below : path ≠ "/") :
    steps path = (reduce false path.toList).map String.ofList := by
  rcases h with root | ⟨q, hq, names⟩
  · exact absurd (String.toList_inj.1 root) below
  · have cut : Text.pieces '/' ('/' :: q) = [] :: Text.pieces '/' q := by simp
    have kept : (Text.pieces '/' q).filter (fun s => !s.isEmpty) = Text.pieces '/' q := by
      refine List.filter_eq_self.2 fun s hs => ?_
      have := names s hs
      simp_all [isName]
    rw [steps, hq, cut, reduce_slash_cons names, if_neg (getLast?_ne_slash names),
      List.filter_cons_of_neg (by simp), kept]

theorem isPlain_of_isName {name : String} (h : isName name.toList = true) :
    FileTree.IsPlain name := by
  constructor <;>
  · rintro rfl
    exact absurd h (by decide)

end Path

namespace FileTree

section Join

variable {d name : String} (absolute : Path.isAbsolute d.toList = true)
  (hs : Path.isName name.toList = true) (slash : '/' ∉ name.toList)

include absolute hs slash

theorem way_join (t : FileTree) :
    t.way (Path.join [d, name]) = (Path.reduce false d.toList).map String.ofList ++ [name] := by
  have reduced := Path.reduce_join absolute hs slash
  have below : Path.join [d, name] ≠ "/" := by
    intro root
    rw [root] at reduced
    simp [Path.reduce] at reduced
  rw [way, if_pos (Path.isAbsolute_join absolute _),
    Path.steps_of_isNormal (Path.isNormal_join absolute hs slash) below, reduced]
  simp

/-- It goes where its names say if no link is on it. -/
theorem direct_join {t : FileTree} (unlinked : t.Unlinked [] (t.way (Path.join [d, name]))) :
    t.Direct [] (t.way (Path.join [d, name])) := by
  refine ⟨rfl, ?_, unlinked⟩
  rw [way_join absolute hs slash, List.forall_mem_append, List.forall_mem_singleton,
    List.forall_mem_map]
  refine ⟨fun s hs => Path.isPlain_of_isName ?_, Path.isPlain_of_isName hs⟩
  rw [String.toList_ofList]
  exact Path.isName_of_mem_reduce s hs

end Join

end FileTree

end BootImage
