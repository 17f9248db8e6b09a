import Mathlib.Data.List.Basic
import BootImage.Shell.Regex

/-!
# What regular expressions match

`Leads r p q` says that the expression `r` can match what lies between the places `p` and `q` of a
line. Every place that `Regex.places` gives is led to, and if the expression does not look back at
its groups, every place that is led to is given, though its groups may have been filled another way:
a repetition that gets nowhere is left out. So a match is found if there is one, and what is found
is the first in the line and the longest there.
-/

namespace BootImage.Shell.Regex

namespace Place

/-- The second place is in the same line, at the first place or after it. -/
def Ahead (p q : Place) : Prop := ∃ t, p.after = t ++ q.after ∧ q.before = t.reverse ++ p.before

/-- The places are the same but for the groups. -/
def Same (p q : Place) : Prop := p.before = q.before ∧ p.after = q.after

variable {p q q' : Place}

theorem Ahead.refl (p : Place) : p.Ahead p := ⟨[], rfl, rfl⟩

theorem Ahead.trans (h : p.Ahead q) (h' : q.Ahead q') : p.Ahead q' := by
  obtain ⟨t, after, before⟩ := h
  obtain ⟨u, after', before'⟩ := h'
  exact ⟨t ++ u, by rw [after, after', List.append_assoc],
    by rw [before', before, List.reverse_append, List.append_assoc]⟩

theorem Ahead.length_le (h : p.Ahead q) : q.after.length ≤ p.after.length := by
  obtain ⟨t, after, -⟩ := h
  simp [after]

theorem Ahead.same (h : p.Ahead q) (stays : p.after.length ≤ q.after.length) : p.Same q := by
  obtain ⟨t, after, before⟩ := h
  obtain rfl : t = [] := by
    rw [after, List.length_append] at stays
    exact List.eq_nil_of_length_eq_zero (by omega)
  exact ⟨before.symm, after⟩

theorem Same.refl (p : Place) : p.Same p := ⟨rfl, rfl⟩

theorem Same.symm (h : p.Same q) : q.Same p := ⟨h.1.symm, h.2.symm⟩

theorem Same.trans (h : p.Same q) (h' : q.Same q') : p.Same q' :=
  ⟨h.1.trans h'.1, h.2.trans h'.2⟩

end Place

/-- Between a character of a word and one that is none, on the side that is asked for. -/
def IsEdge (starts ends : Bool) (p : Place) : Prop :=
  starts = true ∧ p.before.head?.any isWord = false ∧ p.after.head?.any isWord = true ∨
    ends = true ∧ p.before.head?.any isWord = true ∧ p.after.head?.any isWord = false

theorem isEdge_iff {starts ends : Bool} {p : Place} :
    ((starts && !p.before.head?.any isWord && p.after.head?.any isWord) ||
      (ends && p.before.head?.any isWord && !p.after.head?.any isWord)) = true ↔
    IsEdge starts ends p := by
  simp [IsEdge, and_assoc]

/-- An expression can match what lies between two places. -/
inductive Leads : Regex → Place → Place → Prop
  | nothing {p : Place} : Leads nothing p p
  | any {p : Place} {c : Char} {cs : List Char} (h : p.after = c :: cs) :
      Leads any p { p with before := c :: p.before, after := cs }
  | oneOf {s : Charset} {p : Place} {c : Char} {cs : List Char} (h : p.after = c :: cs)
      (has : s.has c = true) : Leads (oneOf s) p { p with before := c :: p.before, after := cs }
  | lineStart {p : Place} (h : p.before = []) : Leads lineStart p p
  | lineEnd {p : Place} (h : p.after = []) : Leads lineEnd p p
  | wordEdge {starts ends : Bool} {p : Place} (h : IsEdge starts ends p) :
      Leads (wordEdge starts ends) p p
  | sequence {a b : Regex} {p q q' : Place} (first : Leads a p q) (second : Leads b q q') :
      Leads (sequence a b) p q'
  | left {a b : Regex} {p q : Place} (h : Leads a p q) : Leads (either a b) p q
  | right {a b : Regex} {p q : Place} (h : Leads b p q) : Leads (either a b) p q
  | done {most : Option Nat} {a : Regex} {p : Place} : Leads (many 0 most a) p p
  | more {least : Nat} {most : Option Nat} {a : Regex} {p q q' : Place} (may : most ≠ some 0)
      (first : Leads a p q) (rest : Leads (many (least - 1) (most.map (· - 1)) a) q q') :
      Leads (many least most a) p q'
  | group {number : Nat} {a : Regex} {p q : Place} {t : List Char} (h : Leads a p q)
      (between : p.after = t ++ q.after) :
      Leads (group number a) p { q with groups := (number, t) :: q.groups }
  | again {number : Nat} {p : Place} {t rest : List Char} (had : p.groups.lookup number = some t)
      (here : p.after = t ++ rest) :
      Leads (again number) p { p with before := t.reverse ++ p.before, after := rest }

variable {r a : Regex} {p q : Place}

theorem Leads.ahead (h : Leads r p q) : p.Ahead q := by
  induction h with
  | any h => exact ⟨[_], h, rfl⟩
  | oneOf h _ => exact ⟨[_], h, rfl⟩
  | sequence _ _ first second => exact first.trans second
  | left _ ih => exact ih
  | right _ ih => exact ih
  | more _ _ _ first rest => exact first.trans rest
  | group _ _ ih => exact ih
  | again _ here => exact ⟨_, here, rfl⟩
  | _ => exact .refl _

/-! ## Every place that is given is led to -/

theorem leads_of_mem_repeated (sound : ∀ p q, q ∈ a.places p → Leads a p q) {n least : Nat}
    {most : Option Nat} (h : q ∈ repeated a.places n least most p) :
    Leads (many least most a) p q := by
  induction n generalizing least most p with
  | zero => cases h
  | succ n ih =>
      rw [repeated] at h
      rcases List.mem_append.1 h with h | h
      · obtain ⟨may, h⟩ := List.mem_ite_nil_left.1 h
        obtain ⟨q', first, h⟩ := List.mem_flatMap.1 h
        obtain ⟨-, rest⟩ := List.mem_ite_nil_right.1 h
        exact .more (by simpa using may) (sound p q' first) (ih rest)
      · obtain ⟨rfl, h⟩ := List.mem_ite_nil_right.1 h
        rw [List.mem_singleton.1 h]
        exact .done

theorem leads_of_mem_places (h : q ∈ r.places p) : Leads r p q := by
  induction r generalizing p q with
  | nothing =>
      rw [List.mem_singleton.1 h]
      exact .nothing
  | any =>
      rw [places] at h
      split at h
      · next after =>
          rw [List.mem_singleton.1 h]
          exact .any after
      · cases h
  | oneOf s =>
      rw [places] at h
      split at h
      · next after =>
          obtain ⟨has, h⟩ := List.mem_ite_nil_right.1 h
          rw [List.mem_singleton.1 h]
          exact .oneOf after has
      · cases h
  | lineStart =>
      obtain ⟨before, h⟩ := List.mem_ite_nil_right.1 h
      rw [List.mem_singleton.1 h]
      exact .lineStart (List.isEmpty_iff.1 before)
  | lineEnd =>
      obtain ⟨after, h⟩ := List.mem_ite_nil_right.1 h
      rw [List.mem_singleton.1 h]
      exact .lineEnd (List.isEmpty_iff.1 after)
  | wordEdge starts ends =>
      obtain ⟨edge, h⟩ := List.mem_ite_nil_right.1 h
      rw [List.mem_singleton.1 h]
      exact .wordEdge (isEdge_iff.1 edge)
  | sequence a b first second =>
      obtain ⟨q', ha, hb⟩ := List.mem_flatMap.1 h
      exact .sequence (first ha) (second hb)
  | either a b left right =>
      rcases List.mem_append.1 h with h | h
      · exact .left (left h)
      · exact .right (right h)
  | many least most a ih => exact leads_of_mem_repeated (fun _ _ => ih) h
  | group number a ih =>
      obtain ⟨q', hq, rfl⟩ := List.mem_map.1 h
      obtain ⟨t, after, before⟩ := (ih hq).ahead
      refine .group (ih hq) ?_
      simp [after]
  | again number =>
      rw [places] at h
      split at h
      · next text had =>
          obtain ⟨here, h⟩ := List.mem_ite_nil_right.1 h
          obtain ⟨rest, after⟩ := List.isPrefixOf_iff_prefix.1 here
          rw [List.mem_singleton.1 h, ← after, List.drop_left]
          exact .again had after.symm
      · cases h

/-! ## Every place that is led to is given -/

/-- Whether an expression looks back at what a group had. -/
def looksBack : Regex → Bool
  | sequence a b | either a b => a.looksBack || b.looksBack
  | many _ _ a | group _ a => a.looksBack
  | again _ => true
  | _ => false

variable {step : Place → List Place} {n least : Nat} {most : Option Nat} {p' : Place}

theorem mem_repeated_succ_iff : q ∈ repeated step (n + 1) least most p ↔
    most ≠ some 0 ∧ (∃ q' ∈ step p, (q'.after.length < p.after.length ∨ 0 < least) ∧
      q ∈ repeated step n (least - 1) (most.map (· - 1)) q') ∨ least = 0 ∧ q = p := by
  rw [repeated, List.mem_append, List.mem_ite_nil_left, List.mem_ite_nil_right,
    List.mem_flatMap, List.mem_singleton]
  simp only [List.mem_ite_nil_right, beq_iff_eq, ne_eq, Bool.or_eq_true, decide_eq_true_eq]

theorem mem_repeated_of_le {m : Nat} (le : n ≤ m) (h : q ∈ repeated step n least most p) :
    q ∈ repeated step m least most p := by
  induction n generalizing m least most p with
  | zero => cases h
  | succ n ih =>
      obtain ⟨m, rfl⟩ : ∃ k, m = k + 1 := ⟨m - 1, by omega⟩
      rw [mem_repeated_succ_iff] at h ⊢
      rcases h with ⟨may, q', first, gets, rest⟩ | stays
      · exact .inl ⟨may, q', first, gets, ih (by omega) rest⟩
      · exact .inr stays

/-- One step more may always be taken. -/
theorem mem_repeated_of_pred (h : q ∈ repeated step n 0 (most.map (· - 1)) p) :
    q ∈ repeated step n 0 most p := by
  induction n generalizing most p with
  | zero => cases h
  | succ n ih =>
      rw [mem_repeated_succ_iff] at h ⊢
      rcases h with ⟨may, q', first, gets, rest⟩ | stays
      · refine .inl ⟨?_, q', first, gets, ih rest⟩
        rintro rfl
        exact may rfl
      · exact .inr stays

theorem exists_mem_repeated_of_same
    (moves : ∀ {p p' q : Place}, p.Same p' → q ∈ step p → ∃ q' ∈ step p', q.Same q')
    (same : p.Same p') (h : q ∈ repeated step n least most p) :
    ∃ q' ∈ repeated step n least most p', q.Same q' := by
  induction n generalizing least most p p' with
  | zero => cases h
  | succ n ih =>
      rw [mem_repeated_succ_iff] at h
      rcases h with ⟨may, q₁, first, gets, rest⟩ | ⟨least, rfl⟩
      · obtain ⟨q₂, first', same'⟩ := moves same first
        obtain ⟨q', rest', same''⟩ := ih same' rest
        rw [same.2, same'.2] at gets
        exact ⟨q', mem_repeated_succ_iff.2 (.inl ⟨may, q₂, first', gets, rest'⟩), same''⟩
      · exact ⟨p', mem_repeated_succ_iff.2 (.inr ⟨least, rfl⟩), same⟩

theorem exists_mem_places_of_same (h : r.looksBack = false) (same : p.Same p')
    (hq : q ∈ r.places p) : ∃ q' ∈ r.places p', q.Same q' := by
  induction r generalizing p p' q with
  | nothing =>
      rw [List.mem_singleton.1 hq]
      exact ⟨p', List.mem_singleton_self p', same⟩
  | any =>
      rw [places] at hq ⊢
      rw [← same.2]
      split at hq
      · rw [List.mem_singleton.1 hq]
        exact ⟨_, List.mem_singleton_self _, by rw [same.1], rfl⟩
      · cases hq
  | oneOf s =>
      rw [places] at hq ⊢
      rw [← same.2]
      split at hq
      · obtain ⟨has, hq⟩ := List.mem_ite_nil_right.1 hq
        rw [List.mem_singleton.1 hq]
        exact ⟨_, List.mem_ite_nil_right.2 ⟨has, List.mem_singleton_self _⟩, by rw [same.1], rfl⟩
      · cases hq
  | lineStart =>
      obtain ⟨before, hq⟩ := List.mem_ite_nil_right.1 hq
      rw [List.mem_singleton.1 hq]
      rw [same.1] at before
      exact ⟨p', List.mem_ite_nil_right.2 ⟨before, List.mem_singleton_self p'⟩, same⟩
  | lineEnd =>
      obtain ⟨after, hq⟩ := List.mem_ite_nil_right.1 hq
      rw [List.mem_singleton.1 hq]
      rw [same.2] at after
      exact ⟨p', List.mem_ite_nil_right.2 ⟨after, List.mem_singleton_self p'⟩, same⟩
  | wordEdge starts ends =>
      obtain ⟨edge, hq⟩ := List.mem_ite_nil_right.1 hq
      rw [List.mem_singleton.1 hq]
      rw [same.1, same.2] at edge
      exact ⟨p', List.mem_ite_nil_right.2 ⟨edge, List.mem_singleton_self p'⟩, same⟩
  | sequence a b first second =>
      obtain ⟨ha, hb⟩ := Bool.or_eq_false_iff.1 h
      obtain ⟨q₁, hq₁, hq⟩ := List.mem_flatMap.1 hq
      obtain ⟨q₂, hq₂, same⟩ := first ha same hq₁
      obtain ⟨q', hq', same⟩ := second hb same hq
      exact ⟨q', List.mem_flatMap.2 ⟨q₂, hq₂, hq'⟩, same⟩
  | either a b left right =>
      obtain ⟨ha, hb⟩ := Bool.or_eq_false_iff.1 h
      rcases List.mem_append.1 hq with hq | hq
      · obtain ⟨q', hq', same⟩ := left ha same hq
        exact ⟨q', List.mem_append_left _ hq', same⟩
      · obtain ⟨q', hq', same⟩ := right hb same hq
        exact ⟨q', List.mem_append_right _ hq', same⟩
  | many least most a ih =>
      rw [places] at hq ⊢
      rw [← same.2]
      exact exists_mem_repeated_of_same (ih h) same hq
  | group number a ih =>
      obtain ⟨q₁, hq₁, rfl⟩ := List.mem_map.1 hq
      obtain ⟨q', hq', same'⟩ := ih h same hq₁
      exact ⟨_, List.mem_map_of_mem hq', same'⟩
  | again number => cases h

theorem Leads.exists_mem_places (leads : Leads r p q) (h : r.looksBack = false) :
    ∃ q' ∈ r.places p, q'.Same q := by
  induction leads with
  | nothing => exact ⟨_, List.mem_singleton_self _, .refl _⟩
  | any after => exact ⟨_, by simp [places, after], .refl _⟩
  | oneOf after has => exact ⟨_, by simp [places, after, has], .refl _⟩
  | lineStart before => exact ⟨_, by simp [places, before], .refl _⟩
  | lineEnd after => exact ⟨_, by simp [places, after], .refl _⟩
  | wordEdge edge =>
      exact ⟨_, List.mem_ite_nil_right.2 ⟨isEdge_iff.2 edge, List.mem_singleton_self _⟩, .refl _⟩
  | sequence _ _ first second =>
      obtain ⟨ha, hb⟩ := Bool.or_eq_false_iff.1 h
      obtain ⟨q₁, hq₁, same⟩ := first ha
      obtain ⟨q₂, hq₂, same₂⟩ := second hb
      obtain ⟨q', hq', same'⟩ := exists_mem_places_of_same hb same.symm hq₂
      exact ⟨q', List.mem_flatMap.2 ⟨q₁, hq₁, hq'⟩, same'.symm.trans same₂⟩
  | left _ ih =>
      obtain ⟨q', hq', same⟩ := ih (Bool.or_eq_false_iff.1 h).1
      exact ⟨q', List.mem_append_left _ hq', same⟩
  | right _ ih =>
      obtain ⟨q', hq', same⟩ := ih (Bool.or_eq_false_iff.1 h).2
      exact ⟨q', List.mem_append_right _ hq', same⟩
  | done => exact ⟨_, mem_repeated_succ_iff.2 (.inr ⟨rfl, rfl⟩), .refl _⟩
  | @more least most a p q q' may leads _ first rest =>
      obtain ⟨q₁, hq₁, same⟩ := first h
      obtain ⟨q₂, hq₂, same₂⟩ := rest h
      obtain ⟨q₃, hq₃, same₃⟩ := exists_mem_places_of_same
        (r := many (least - 1) (most.map (· - 1)) a) h same.symm hq₂
      have place := same₃.symm.trans same₂
      have ahead := (leads_of_mem_places hq₁).ahead
      rw [places] at hq₃ ⊢
      by_cases gets : q₁.after.length < p.after.length ∨ 0 < least
      · have enough : q₁.after.length + (least - 1) + 1 ≤ p.after.length + least := by
          have := ahead.length_le
          omega
        exact ⟨q₃, mem_repeated_succ_iff.2
          (.inl ⟨may, q₁, hq₁, gets, mem_repeated_of_le enough hq₃⟩), place⟩
      · -- a step that gets nowhere can be left out
        obtain ⟨stays, none⟩ := not_or.1 gets
        obtain rfl : least = 0 := Nat.eq_zero_of_not_pos none
        have back : q₁.Same p := (ahead.same (Nat.le_of_not_lt stays)).symm
        obtain ⟨q₄, hq₄, same₄⟩ := exists_mem_repeated_of_same
          (exists_mem_places_of_same (r := a) h) back hq₃
        rw [back.2] at hq₄
        exact ⟨q₄, mem_repeated_of_pred hq₄, same₄.symm.trans place⟩
  | group _ _ ih =>
      obtain ⟨q', hq', same⟩ := ih h
      exact ⟨_, List.mem_map_of_mem hq', same⟩
  | again _ _ => cases h

/-! ## What is found -/

/-- The longer of the matches that end in two places, or the first if they are equally long. -/
def longer (best : Option Place) (q : Place) : Option Place := match best with
  | some b => if q.after.length < b.after.length then some q else best
  | none => some q

theorem longer_cases (best : Option Place) (q : Place) :
    ∃ b, longer best q = some b ∧ (best = some b ∨ q = b) ∧
      ∀ q', best = some q' ∨ q = q' → b.after.length ≤ q'.after.length := by
  cases best with
  | none => exact ⟨q, rfl, .inr rfl, by simp⟩
  | some b =>
      rw [longer]
      split_ifs with less
      · refine ⟨q, rfl, .inr rfl, ?_⟩
        rintro q' (⟨⟨⟩⟩ | rfl)
        · exact Nat.le_of_lt less
        · exact Nat.le_refl _
      · refine ⟨b, rfl, .inl rfl, ?_⟩
        rintro q' (⟨⟨⟩⟩ | rfl)
        · exact Nat.le_refl _
        · exact Nat.le_of_not_lt less

theorem foldl_longer_cases (best : Option Place) (qs : List Place) :
    (qs.foldl longer best = none ∧ best = none ∧ qs = []) ∨
    ∃ b, qs.foldl longer best = some b ∧ (best = some b ∨ b ∈ qs) ∧
      ∀ q, best = some q ∨ q ∈ qs → b.after.length ≤ q.after.length := by
  induction qs generalizing best with
  | nil =>
      cases best with
      | none => exact .inl ⟨rfl, rfl, rfl⟩
      | some b => exact .inr ⟨b, rfl, .inl rfl, by simp⟩
  | cons q qs ih =>
      obtain ⟨b, step, among, least⟩ := longer_cases best q
      rw [List.foldl_cons, step]
      rcases ih (some b) with ⟨-, lost, -⟩ | ⟨b', found, among', least'⟩
      · cases lost
      · refine .inr ⟨b', found, ?_, ?_⟩
        · rcases among' with ⟨⟨⟩⟩ | later
          · exact among.imp_right fun here => List.mem_cons.2 (.inl here.symm)
          · exact .inr (List.mem_cons_of_mem q later)
        · rintro q' (before | mem)
          · exact Nat.le_trans (least' b (.inl rfl)) (least q' (.inl before))
          · rcases List.mem_cons.1 mem with rfl | later
            · exact Nat.le_trans (least' b (.inl rfl)) (least q' (.inr rfl))
            · exact least' q' (.inr later)

theorem matchAt?_cases (r : Regex) (p : Place) :
    (r.matchAt? p = none ∧ r.places p = []) ∨
    ∃ m, r.matchAt? p = some m ∧ m.before = p.before.reverse ∧ p.after = m.text ++ m.after ∧
      (∃ q ∈ r.places p, q.after = m.after ∧ q.groups = m.groups) ∧
      ∀ q ∈ r.places p, m.after.length ≤ q.after.length := by
  have eq : r.matchAt? p = ((r.places p).foldl longer none).map fun q =>
    ⟨p.before.reverse, p.after.take (p.after.length - q.after.length), q.after, q.groups⟩ := rfl
  rw [eq]
  rcases foldl_longer_cases none (r.places p) with ⟨found, -, none⟩ | ⟨b, found, among, least⟩
  · rw [found]
    exact .inl ⟨rfl, none⟩
  · rw [found]
    have mem : b ∈ r.places p := among.resolve_left (by simp)
    obtain ⟨t, after, -⟩ := (leads_of_mem_places mem).ahead
    exact .inr ⟨_, rfl, rfl, by simp [after], ⟨b, mem, rfl, rfl⟩, fun q hq => least q (.inr hq)⟩

/-- Nothing is matched where an expression leads nowhere. -/
theorem places_eq_nil_iff (h : r.looksBack = false) :
    r.places p = [] ↔ ∀ q, ¬ Leads r p q := by
  constructor
  · intro none q leads
    obtain ⟨q', mem, -⟩ := leads.exists_mem_places h
    simp [none] at mem
  · intro none
    exact List.eq_nil_iff_forall_not_mem.2 fun q mem => none q (leads_of_mem_places mem)

/-- A match is the first in a line, and the longest of those that start in its place. -/
structure IsFirst (r : Regex) (line : List Char) (m : Match) : Prop where
  cut : line = m.before ++ (m.text ++ m.after)
  leads : ∃ q, Leads r ⟨m.before.reverse, m.text ++ m.after, []⟩ q ∧ q.after = m.after
  longest {q : Place} (h : Leads r ⟨m.before.reverse, m.text ++ m.after, []⟩ q) :
    m.after.length ≤ q.after.length
  first {b c : List Char} (h : line = b ++ c) (earlier : b.length < m.before.length) (q : Place) :
    ¬ Leads r ⟨b.reverse, c, []⟩ q

/-- No match starts in a place of the line before which there are fewer than `n` characters. -/
def NoneBefore (r : Regex) (line : List Char) (n : Nat) : Prop :=
  ∀ b c, line = b ++ c → b.length < n → ∀ q, ¬ Leads r ⟨b.reverse, c, []⟩ q

variable {b c line : List Char}

theorem NoneBefore.succ (before : r.NoneBefore line b.length) (cut : line = b ++ c)
    (here : ∀ q, ¬ Leads r ⟨b.reverse, c, []⟩ q) : r.NoneBefore line (b.length + 1) := by
  intro b' c' cut' le
  rcases Nat.lt_succ_iff_lt_or_eq.1 le with less | same
  · exact before b' c' cut' less
  · obtain ⟨rfl, rfl⟩ := List.append_inj (cut'.symm.trans cut) same
    exact here

theorem matchAt?_isFirst (h : r.looksBack = false) (cut : line = b ++ c)
    (before : r.NoneBefore line b.length) :
    (∃ m, r.matchAt? ⟨b.reverse, c, []⟩ = some m ∧ r.IsFirst line m) ∨
    r.matchAt? ⟨b.reverse, c, []⟩ = none ∧ r.NoneBefore line (b.length + 1) := by
  rcases matchAt?_cases r ⟨b.reverse, c, []⟩ with
    ⟨unmatched, none⟩ | ⟨m, matched, start, text, ⟨q, hq, after, -⟩, longest⟩
  · exact .inr ⟨unmatched, before.succ cut ((places_eq_nil_iff h).1 none)⟩
  · simp only [List.reverse_reverse] at start text
    subst start text
    refine .inl ⟨m, matched, cut, ⟨q, leads_of_mem_places hq, after⟩, fun leads => ?_,
      fun cut' earlier => before _ _ cut' earlier⟩
    obtain ⟨q', hq', same⟩ := leads.exists_mem_places h
    rw [← same.2]
    exact longest q' hq'

theorem findFrom?_cases (h : r.looksBack = false) (cut : line = b ++ c)
    (before : r.NoneBefore line b.length) :
    (∃ m, r.findFrom? b.reverse c = some m ∧ r.IsFirst line m) ∨
    r.findFrom? b.reverse c = none ∧ r.NoneBefore line (line.length + 1) := by
  induction c generalizing b with
  | nil =>
      obtain rfl : line = b := by simpa using cut
      exact matchAt?_isFirst h cut before
  | cons d c ih =>
      rw [findFrom?]
      rcases matchAt?_isFirst h cut before with ⟨m, matched, isFirst⟩ | ⟨unmatched, before⟩
      · rw [matched]
        exact .inl ⟨m, rfl, isFirst⟩
      · rw [unmatched]
        simpa using ih (b := b ++ [d]) (by simpa using cut) (by simpa using before)

/-- What is found is the first match in the line, and the longest there. If none is found, the
expression matches nowhere in the line. -/
theorem find?_cases (h : r.looksBack = false) (line : List Char) :
    (∃ m, r.find? line = some m ∧ r.IsFirst line m) ∨
    r.find? line = none ∧ ∀ b c, line = b ++ c → ∀ q, ¬ Leads r ⟨b.reverse, c, []⟩ q := by
  rcases findFrom?_cases (b := []) h (rfl : line = [] ++ line) (fun _ _ _ less => by cases less)
    with found | ⟨none, nowhere⟩
  · exact .inl found
  · refine .inr ⟨none, fun b c cut => nowhere b c cut ?_⟩
    rw [cut, List.length_append]
    omega

end BootImage.Shell.Regex
