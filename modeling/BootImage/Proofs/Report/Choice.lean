import BootImage.Report.Component
import BootImage.Proofs.Text.Casing
import Mathlib.Data.List.Induction
import Mathlib.Data.List.Sort

/-!
# What a text chooses of the components

A text chooses components piece by piece. A piece enables the component that it names, or all of
them, or none, and what it enables is put behind what is there already. So of two texts with a comma
between them the second only adds to what the first chooses; and what is chosen follows from which
piece is the first to enable a component, with the fixed order of all components deciding among
those that one piece enables.
-/

namespace BootImage.Component

variable (k : Text.Casing)

/-- Whether a piece enables the component: it is the component's name or a word for all of them. -/
def Enables (piece : List Char) (c : Component) : Prop :=
  String.ofList (k.lower (Text.trim piece)) ∈ [c.name, "1", "true", "all"]

instance (piece : List Char) (c : Component) : Decidable (Enables k piece c) :=
  inferInstanceAs (Decidable (_ ∈ _))

def piecesBefore (ps : List (List Char)) (c : Component) : Nat :=
  ps.findIdx fun p => Enables k p c

/-- One component is enabled by an earlier piece than the other, or by the same piece and stands
before the other among all components. -/
def Precedes (ps : List (List Char)) (c d : Component) : Prop :=
  piecesBefore k ps c < piecesBefore k ps d ∨
    piecesBefore k ps c = piecesBefore k ps d ∧ all.idxOf c < all.idxOf d

/-- The components that some pieces enable, each once and in the order of the pieces that are the
first to enable them. -/
structure Enabled (ps : List (List Char)) (cs : List Component) : Prop where
  nodup : cs.Nodup
  mem_iff : ∀ c, c ∈ cs ↔ ∃ p ∈ ps, Enables k p c
  ordered : cs.Pairwise (Precedes k ps)

/-- The text without those of its pieces that enable nothing. -/
def condensed (text : String) : String :=
  String.ofList <| Text.joinPieces ',' <|
    (Text.pieces ',' text.toList).filter fun p => ∃ c ∈ all, Enables k p c

variable {k}

theorem distinct_of_nodup {cs : List Component} (h : cs.Nodup) : distinct cs = cs := by
  induction cs using List.reverseRecOn with
  | nil => rfl
  | append_singleton cs c ih =>
      obtain ⟨old, -, new⟩ := List.nodup_append.1 h
      have fresh : c ∉ cs := fun hc => new c hc c (List.mem_singleton_self c) rfl
      rw [distinct, addAll_append, ← distinct, ih old]
      exact if_neg fresh

theorem addAll_eq (chosen more : List Component) :
    addAll chosen more = chosen ++ (distinct more).filter fun c => c ∉ chosen := by
  induction more using List.reverseRecOn with
  | nil => exact (List.append_nil chosen).symm
  | append_singleton more c ih =>
      have last : distinct (more ++ [c]) = add (distinct more) c := addAll_append [] more [c]
      have added : addAll chosen (more ++ [c]) = add (addAll chosen more) c :=
        addAll_append chosen more [c]
      rw [added, last, ih, add, add]
      by_cases old : c ∈ chosen <;> by_cases listed : c ∈ distinct more <;> simp [old, listed]

/-- The pieces one after the other choose what they name taken together. -/
theorem parse_eq (text : String) :
    parse text = distinct ((Text.pieces ',' text.toList).flatMap named) :=
  List.foldl_flatMap.symm

theorem parse_append_comma (a b : String) :
    parse (a ++ "," ++ b) = parse a ++ (parse b).filter fun c => c ∉ parse a := by
  have cut : Text.pieces ',' (a ++ "," ++ b).toList =
      Text.pieces ',' a.toList ++ Text.pieces ',' b.toList := by
    rw [String.toList_append, String.toList_append, List.append_assoc]
    exact Text.pieces_append_sep_cons ',' a.toList b.toList
  rw [parse_eq, cut, List.flatMap_append, distinct, addAll_append, addAll_eq, ← distinct,
    ← parse_eq, ← parse_eq]

/-! ### One piece -/

theorem ofName?_eq (token : String) :
    (ofName? token).toList = all.filter fun c => token = c.name := by
  cases h : ofName? token with
  | none =>
      refine (List.filter_eq_nil_iff.2 fun c hc hn => ?_).symm
      exact List.find?_eq_none.1 h c hc (beq_iff_eq.2 (of_decide_eq_true hn).symm)
  | some c =>
      have name : c.name = token := by simpa using List.find?_some h
      rw [← name]
      cases c <;> decide

/-- All ways to bring a piece to lower case enable the same. -/
theorem enables_iff {piece : List Char} {c : Component} : Enables k piece c ↔
    String.ofList (Text.lowerCase (Text.trim piece)) ∈ [c.name, "1", "true", "all"] := by
  have ascii : ∀ word ∈ [c.name, "1", "true", "all"], ∀ l ∈ word.toList, l.toNat < 128 := by
    cases c <;> simp [name]
  have same : ∀ word ∈ [c.name, "1", "true", "all"],
      String.ofList (k.lower (Text.trim piece)) = word ↔
        String.ofList (Text.lowerCase (Text.trim piece)) = word := by
    intro word hw
    rw [← String.toList_inj, ← String.toList_inj, String.toList_ofList, String.toList_ofList,
      k.lower_eq_iff (ascii word hw)]
  constructor
  · intro h
    rw [(same _ h).1 rfl]
    exact h
  · intro h
    rw [Enables, (same _ h).2 rfl]
    exact h

theorem named_eq (piece : List Char) : named piece = all.filter fun c => Enables k piece c := by
  simp only [enables_iff]
  rw [named]
  split
  · next h => exact (List.filter_eq_self.2 fun c _ => by simp [h]).symm
  · next h =>
    rw [ofName?_eq]
    refine List.filter_congr fun c _ => ?_
    simp [h]

theorem nodup_named (piece : List Char) : (named piece).Nodup := by
  rw [named_eq (k := .plain)]
  exact List.Nodup.filter _ (by decide)

theorem mem_named_iff {piece : List Char} {c : Component} :
    c ∈ named piece ↔ Enables k piece c := by
  rw [named_eq (k := k), List.mem_filter, decide_eq_true_iff]
  exact and_iff_right c.mem_all

/-! ### Piece by piece -/

section

variable {ps : List (List Char)} {cs : List Component} {c d : Component}

/-- Further pieces do not change which piece is the first. -/
theorem piecesBefore_append (h : ∃ p ∈ ps, Enables k p c) (qs : List (List Char)) :
    piecesBefore k (ps ++ qs) c = piecesBefore k ps c ∧ piecesBefore k ps c < ps.length := by
  have before : piecesBefore k ps c < ps.length :=
    List.findIdx_lt_length.2 (by simpa using h)
  refine ⟨?_, before⟩
  rw [piecesBefore, List.findIdx_append]
  exact if_pos before

/-- The first of the pieces that enables a component is the last one if none before it does. -/
theorem piecesBefore_concat {p : List Char} (none : ¬ ∃ q ∈ ps, Enables k q c)
    (h : Enables k p c) : piecesBefore k (ps ++ [p]) c = ps.length := by
  have old : ps.findIdx (fun q => Enables k q c) = ps.length :=
    List.findIdx_eq_length.2 (by simpa using none)
  rw [piecesBefore, List.findIdx_append, old, if_neg (Nat.lt_irrefl _)]
  simp [h]

theorem Precedes.append (h : Precedes k ps c d) (hc : ∃ p ∈ ps, Enables k p c)
    (hd : ∃ p ∈ ps, Enables k p d) (qs : List (List Char)) : Precedes k (ps ++ qs) c d := by
  rw [Precedes, (piecesBefore_append hc qs).1, (piecesBefore_append hd qs).1]
  exact h

theorem Enabled.concat (h : Enabled k ps cs) (p : List Char) :
    Enabled k (ps ++ [p]) (addAll cs (named p)) := by
  have new {c : Component} :
      c ∈ (named p).filter (fun c => c ∉ cs) ↔ Enables k p c ∧ ¬ ∃ q ∈ ps, Enables k q c := by
    rw [List.mem_filter, mem_named_iff, decide_eq_true_iff, h.mem_iff]
  rw [addAll_eq, distinct_of_nodup (nodup_named p)]
  constructor
  · apply List.nodup_append.2
    refine ⟨h.nodup, (nodup_named p).filter _, ?_⟩
    rintro c hc d hd rfl
    exact (new.1 hd).2 ((h.mem_iff c).1 hc)
  · intro c
    have last : (∃ q ∈ ps ++ [p], Enables k q c) ↔
        (∃ q ∈ ps, Enables k q c) ∨ Enables k p c := by
      simp [or_and_right, exists_or]
    rw [List.mem_append, new, h.mem_iff, last]
    by_cases old : ∃ q ∈ ps, Enables k q c <;> simp [old]
  · apply List.pairwise_append.2
    refine ⟨?_, ?_, ?_⟩
    · apply h.ordered.imp_of_mem
      intro c d hc hd precedes
      exact precedes.append ((h.mem_iff c).1 hc) ((h.mem_iff d).1 hd) [p]
    · have order : (named p).Pairwise fun c d => all.idxOf c < all.idxOf d := by
        rw [named_eq (k := k)]
        exact List.Pairwise.filter _ (by decide)
      -- all of them are first enabled by the last piece
      apply (order.filter _).imp_of_mem
      intro c d hc hd lt
      obtain ⟨enables, none⟩ := new.1 hc
      obtain ⟨enables', none'⟩ := new.1 hd
      right
      rw [piecesBefore_concat none enables, piecesBefore_concat none' enables']
      exact ⟨rfl, lt⟩
    · intro c hc d hd
      obtain ⟨enables, none⟩ := new.1 hd
      obtain ⟨same, before⟩ := piecesBefore_append ((h.mem_iff c).1 hc) [p]
      left
      rw [same, piecesBefore_concat none enables]
      exact before

theorem enabled_flatMap (ps : List (List Char)) : Enabled k ps (distinct (ps.flatMap named)) := by
  induction ps using List.reverseRecOn with
  | nil => exact ⟨List.nodup_nil, by simp [distinct], List.Pairwise.nil⟩
  | append_singleton ps p ih =>
      rw [List.flatMap_append, List.flatMap_singleton, distinct, addAll_append]
      exact ih.concat p

/-- What some pieces enable, once each and in order, is fixed. -/
theorem Enabled.eq {cs' : List Component} (h : Enabled k ps cs) (h' : Enabled k ps cs') :
    cs = cs' := by
  have same : cs.Perm cs' := (List.perm_ext_iff_of_nodup h.nodup h'.nodup).2 fun c =>
    (h.mem_iff c).trans (h'.mem_iff c).symm
  refine List.Perm.eq_of_pairwise ?_ h.ordered h'.ordered same
  intro c d _ _ before after
  unfold Precedes at before after
  omega

theorem enabled_iff_eq_parse {text : String} :
    Enabled k (Text.pieces ',' text.toList) cs ↔ cs = parse text := by
  rw [parse_eq]
  constructor
  · intro h
    exact h.eq (enabled_flatMap _)
  · rintro rfl
    exact enabled_flatMap _

theorem flatMap_named_filter (ps : List (List Char)) :
    (ps.filter fun p => ∃ c ∈ all, Enables k p c).flatMap named = ps.flatMap named := by
  induction ps with
  | nil => rfl
  | cons p ps ih =>
      rw [List.filter_cons]
      split
      · rw [List.flatMap_cons, List.flatMap_cons, ih]
      · next idle =>
        have nothing : named p = [] := by
          rw [named_eq (k := k), List.filter_eq_nil_iff]
          simpa using idle
        rw [List.flatMap_cons, nothing, ih, List.nil_append]

/-- Pieces that enable nothing may be left out. -/
theorem parse_condensed (text : String) : parse (condensed k text) = parse text := by
  have kept := flatMap_named_filter (k := k) (Text.pieces ',' text.toList)
  rw [parse_eq, parse_eq, condensed, String.toList_ofList, ← kept]
  generalize hps : (Text.pieces ',' text.toList).filter _ = ps
  cases ps with
  | nil => rfl
  | cons p ps =>
      rw [Text.pieces_joinPieces (List.cons_ne_nil p ps)]
      intro q hq
      rw [← hps] at hq
      exact Text.not_mem_of_mem_pieces (List.mem_filter.1 hq).1

end

/-- Of two texts with a comma between them, the second adds what the first does not choose. Every
text chooses what its pieces enable, whichever way they are brought to lower case, and nothing else
about it matters; nor does what the process was started with, where a text is given. -/
theorem chosen_piece_by_piece (k : Text.Casing) (ambient : Option String) :
    (∀ a b, inEffect (some (a ++ "," ++ b)) ambient =
      inEffect (some a) ambient ++
        (inEffect (some b) ambient).filter fun c => c ∉ inEffect (some a) ambient) ∧
    ∀ text,
      (∀ cs, Enabled k (Text.pieces ',' text.toList) cs ↔ cs = inEffect (some text) ambient) ∧
      inEffect (some (condensed k text)) ambient = inEffect (some text) ambient := by
  have given (text : String) : inEffect (some text) ambient = parse text := rfl
  simp only [given]
  refine ⟨parse_append_comma, fun text => ⟨fun cs => enabled_iff_eq_parse, ?_⟩⟩
  exact parse_condensed text

example : parse " Exec,bogus,, ALL ,args" = [exec, args, metadata, pipeline] := by decide

end BootImage.Component
