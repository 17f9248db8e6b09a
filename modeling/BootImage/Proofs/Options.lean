import BootImage.Options
import Mathlib.Data.List.Nodup
import Mathlib.Data.Nat.Find

/-!
# The words of a build

Words are read from the left until one offends: it is no build word, or it was there before. The
words before it are build words, each of them once, so they are all kept in mind, and the word that
offends decides the outcome alone. If none offends, the outcome follows from which words there are,
and in no other way is a build asked for.
-/

namespace BootImage

namespace BuildWord

theorem text_injective : Function.Injective text := by
  intro v w h
  rw [← ofText?_eq_some_iff, ofText?_text] at h
  exact Option.some.inj h

theorem mem_texts_iff {arg : String} :
    arg ∈ ["release", "run", "gdb"] ↔ ∃ w : BuildWord, arg = w.text := by
  constructor
  · intro h
    simp only [List.mem_cons, List.not_mem_nil, or_false] at h
    rcases h with h | h | h
    · exact ⟨.release, h⟩
    · exact ⟨.run, h⟩
    · exact ⟨.gdb, h⟩
  · rintro ⟨w, rfl⟩
    cases w <;> simp [text]

theorem mem_map_text {w : BuildWord} {words : List BuildWord} :
    w.text ∈ words.map text ↔ w ∈ words := List.mem_map_of_injective text_injective

end BuildWord

namespace Request

/-- The word at position `i` cannot be read: it is no build word, or it was there before. -/
def Offends (args : List String) (i : Nat) : Prop :=
  ∃ arg, args[i]? = some arg ∧ (arg ∉ ["release", "run", "gdb"] ∨ arg ∈ args.take i)

/-- The first word that cannot be read is the one at position `i`. -/
def FirstOffends (args : List String) (i : Nat) : Prop :=
  Offends args i ∧ ∀ j < i, ¬Offends args j

variable {args : List String} {i : Nat}

theorem exists_firstOffends (h : Offends args i) : ∃ j, FirstOffends args j := by
  classical
  have exists_offends : ∃ j, Offends args j := ⟨i, h⟩
  exact ⟨Nat.find exists_offends, Nat.find_spec exists_offends, fun _ => Nat.find_min _⟩

/-- As far as no word offends, the words are build words, each of them once. -/
theorem exists_words (hi : i ≤ args.length) (h : ∀ j < i, ¬Offends args j) :
    ∃ words : List BuildWord, args.take i = words.map BuildWord.text ∧ words.Nodup := by
  induction i with
  | zero => exact ⟨[], rfl, .nil⟩
  | succ i ih =>
      obtain ⟨words, before, distinct⟩ := ih (by omega) fun j hj => h j (by omega)
      have here : args[i]? = some args[i] := List.getElem?_eq_getElem hi
      have fine := h i (by omega)
      simp only [Offends, here, Option.some.injEq, exists_eq_left', not_or, not_not] at fine
      obtain ⟨w, hw⟩ := BuildWord.mem_texts_iff.1 fine.1
      have new : w ∉ words := by
        rw [hw, before, BuildWord.mem_map_text] at fine
        exact fine.2
      refine ⟨words ++ [w], ?_, ?_⟩
      · rw [List.take_add_one, before, here, hw]
        simp
      · rw [List.nodup_append_comm]
        exact List.nodup_cons.2 ⟨new, distinct⟩

theorem parseAfter_append {seen words : List BuildWord} (distinct : (seen ++ words).Nodup)
    (args : List String) :
    parseAfter seen (words.map BuildWord.text ++ args) = parseAfter (seen ++ words) args := by
  induction words generalizing seen with
  | nil => simp
  | cons w words ih =>
      have new : w ∉ seen := by
        intro old
        exact (List.nodup_append'.1 distinct).2.2 old List.mem_cons_self
      have shifted : seen ++ w :: words = (seen ++ [w]) ++ words := by simp
      rw [List.map_cons, List.cons_append, parseAfter_text, if_neg new, shifted]
      apply ih
      rwa [← shifted]

theorem parse_words_append {words : List BuildWord} (distinct : words.Nodup) (args : List String) :
    parse (words.map BuildWord.text ++ args) = parseAfter words args :=
  @parseAfter_append [] words distinct args

/-- What becomes of a word that offends behind the words `before`. -/
inductive Decides (before : List String) : String → Request → Prop
  | help : Decides before "help" .help
  | repeated (w : BuildWord) (old : w.text ∈ before) :
      Decides before w.text (.refused (.repeated w))
  | unknown {arg : String} (other : arg ≠ "help") (unlisted : arg ∉ ["release", "run", "gdb"]) :
      Decides before arg (.refused (.unknown arg))

section Stop

variable {seen : List BuildWord} {arg : String}
  (h : arg ∉ ["release", "run", "gdb"] ∨ arg ∈ seen.map BuildWord.text)

include h

theorem decides_parseAfter (later : List String) :
    Decides (seen.map BuildWord.text) arg (parseAfter seen (arg :: later)) := by
  by_cases help : arg = "help"
  · rw [help, parseAfter_help]
    exact .help
  by_cases listed : arg ∈ ["release", "run", "gdb"]
  · have old := h.resolve_left (not_not_intro listed)
    obtain ⟨w, rfl⟩ := BuildWord.mem_texts_iff.1 listed
    rw [parseAfter_text, if_pos (BuildWord.mem_map_text.1 old)]
    exact .repeated w old
  · have none : BuildWord.ofText? arg = none := by
      rw [Option.eq_none_iff_forall_ne_some]
      intro w hw
      exact listed (BuildWord.mem_texts_iff.2 ⟨w, BuildWord.ofText?_eq_some_iff.1 hw⟩)
    rw [parseAfter, if_neg help, none]
    exact .unknown help listed

theorem parseAfter_cons_eq (later later' : List String) :
    parseAfter seen (arg :: later) = parseAfter seen (arg :: later') := by
  rw [parseAfter, parseAfter]
  by_cases help : arg = "help"
  · rw [if_pos help, if_pos help]
  rw [if_neg help, if_neg help]
  cases hw : BuildWord.ofText? arg with
  | none => rfl
  | some w =>
      rw [BuildWord.ofText?_eq_some_iff.1 hw] at h
      have old := h.resolve_left (not_not_intro (BuildWord.mem_texts_iff.2 ⟨w, rfl⟩))
      dsimp only
      rw [if_pos (BuildWord.mem_map_text.1 old), if_pos (BuildWord.mem_map_text.1 old)]

end Stop

namespace FirstOffends

theorem exists_parse_eq (h : FirstOffends args i) :
    ∃ (words : List BuildWord) (arg : String), args[i]? = some arg ∧
      args.take i = words.map BuildWord.text ∧
      (arg ∉ ["release", "run", "gdb"] ∨ arg ∈ words.map BuildWord.text) ∧
      ∀ later, parse (args.take (i + 1) ++ later) = parseAfter words (arg :: later) := by
  obtain ⟨⟨arg, here, offends⟩, fine⟩ := h
  have hi : i < args.length := (List.getElem?_eq_some_iff.1 here).1
  obtain ⟨words, before, distinct⟩ := exists_words (Nat.le_of_lt hi) fine
  rw [before] at offends
  refine ⟨words, arg, here, before, offends, ?_⟩
  intro later
  rw [List.take_add_one, before, here, List.append_assoc]
  exact parse_words_append distinct (arg :: later)

theorem decides (h : FirstOffends args i) {arg : String} (here : args[i]? = some arg) :
    Decides (args.take i) arg (parse args) := by
  obtain ⟨words, arg', here', before, offends, read⟩ := h.exists_parse_eq
  cases here.symm.trans here'
  rw [before, ← List.take_append_drop (i + 1) args, read]
  exact decides_parseAfter offends _

/-- Nothing behind the word that offends matters. -/
theorem parse_take_append (h : FirstOffends args i) (later : List String) :
    parse (args.take (i + 1) ++ later) = parse args := by
  obtain ⟨words, arg, -, -, offends, read⟩ := h.exists_parse_eq
  conv => rhs; rw [← List.take_append_drop (i + 1) args, read]
  rw [read]
  exact parseAfter_cons_eq offends _ _

theorem parse_append (h : FirstOffends args i) (later : List String) :
    parse (args ++ later) = parse args := by
  rw [← h.parse_take_append (args.drop (i + 1) ++ later), ← List.append_assoc,
    List.take_append_drop]

end FirstOffends

/-- Where no word offends, the outcome follows from which words there are. -/
theorem parse_of_forall_not_offends (h : ∀ i, ¬Offends args i) :
    parse args = if "gdb" ∈ args ∧ "run" ∉ args then .refused .debuggerWithoutRun
      else .build ⟨"release" ∈ args, "run" ∈ args, "gdb" ∈ args⟩ := by
  obtain ⟨words, all, distinct⟩ := exists_words le_rfl fun j _ => h j
  rw [List.take_length] at all
  have kept (w : BuildWord) : w.text ∈ args ↔ w ∈ words := by
    rw [all]
    exact BuildWord.mem_map_text
  have read := parse_words_append distinct []
  rw [List.append_nil, ← all] at read
  rw [read, parseAfter_nil, ofWords]
  simp only [← kept, BuildWord.text]

theorem forall_not_offends_iff :
    (∀ i, ¬Offends args i) ↔ args.Nodup ∧ ∀ arg ∈ args, arg ∈ ["release", "run", "gdb"] := by
  constructor
  · intro h
    obtain ⟨words, all, distinct⟩ := exists_words le_rfl fun j _ => h j
    rw [List.take_length] at all
    rw [all]
    refine ⟨distinct.map BuildWord.text_injective, ?_⟩
    intro arg harg
    obtain ⟨w, -, rfl⟩ := List.mem_map.1 harg
    exact BuildWord.mem_texts_iff.2 ⟨w, rfl⟩
  · rintro ⟨distinct, listed⟩ i ⟨arg, here, offends⟩
    obtain ⟨hi, rfl⟩ := List.getElem?_eq_some_iff.1 here
    rcases offends with unlisted | old
    · exact unlisted (listed _ (List.getElem_mem hi))
    · rw [← List.take_append_drop i args, List.drop_eq_getElem_cons hi,
        List.nodup_append'] at distinct
      exact distinct.2.2 old List.mem_cons_self

/-- A build is asked for exactly by build words that come once each and have `run` beside `gdb`, and
its options are those words. -/
theorem parse_eq_build_iff {o : BuildOptions} :
    parse args = .build o ↔
      args.Nodup ∧ (∀ arg ∈ args, arg ∈ ["release", "run", "gdb"]) ∧
        ("gdb" ∈ args → "run" ∈ args) ∧ o = ⟨"release" ∈ args, "run" ∈ args, "gdb" ∈ args⟩ := by
  rw [← and_assoc, ← forall_not_offends_iff]
  constructor
  · intro h
    have fine : ∀ i, ¬Offends args i := by
      intro i offends
      obtain ⟨j, first⟩ := exists_firstOffends offends
      obtain ⟨arg, here, -⟩ := first.1
      have decides := first.decides here
      rw [h] at decides
      cases decides
    rw [parse_of_forall_not_offends fine] at h
    refine ⟨fine, ?_⟩
    by_cases alone : "gdb" ∈ args ∧ "run" ∉ args
    · rw [if_pos alone] at h
      cases h
    · rw [if_neg alone] at h
      cases h
      exact ⟨by simpa using alone, rfl⟩
  · rintro ⟨fine, together, rfl⟩
    rw [parse_of_forall_not_offends fine, if_neg (by simpa using together)]

/-- The first word that offends decides alone, and nothing behind it matters; if none does, it is
which words there are that decides. A build is asked for exactly by build words that come once each
and have `run` beside `gdb`, so it waits for a debugger only if it boots its image. -/
theorem parse_decided (args : List String) :
    (∀ i arg, FirstOffends args i → args[i]? = some arg →
      Decides (args.take i) arg (parse args) ∧
      ∀ later, parse (args.take (i + 1) ++ later) = parse args ∧
        parse (args ++ later) = parse args) ∧
    (∀ i, Offends args i → ∃ j, FirstOffends args j) ∧
    ((∀ i, ¬Offends args i) →
      parse args = if "gdb" ∈ args ∧ "run" ∉ args then .refused .debuggerWithoutRun
        else .build ⟨"release" ∈ args, "run" ∈ args, "gdb" ∈ args⟩) ∧
    (∀ o, parse args = .build o ↔
      args.Nodup ∧ (∀ arg ∈ args, arg ∈ ["release", "run", "gdb"]) ∧
        ("gdb" ∈ args → "run" ∈ args) ∧ o = ⟨"release" ∈ args, "run" ∈ args, "gdb" ∈ args⟩) ∧
    ∀ o, parse args = .build o → o.waitForDebugger = true → o.shouldRun = true := by
  refine ⟨?_, fun i => exists_firstOffends, parse_of_forall_not_offends,
    fun o => parse_eq_build_iff,
    ?_⟩
  · intro i arg first here
    exact ⟨first.decides here,
      fun later => ⟨first.parse_take_append later, first.parse_append later⟩⟩
  · intro o h waits
    obtain ⟨-, -, together, rfl⟩ := parse_eq_build_iff.1 h
    simpa using together (by simpa using waits)

end Request

end BootImage
