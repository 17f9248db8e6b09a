import BootImage.Proofs.Json.Derivation
import BootImage.Proofs.Json.Scanned
import Mathlib.Data.List.Chain

/-!
# What the scanner reads

A token that is spelled at the front of a text is read and done, if what follows it ends it. Only a
word needs to be ended, and only another word does not end it. Since no value has two words in a
row, every text of the grammar is read, and `parse?` reads exactly the texts of the grammar.
-/

namespace BootImage.Json

open Grammar

namespace Grammar

def IsWord : Token → Prop
  | .null | .true | .false | .number _ => True
  | _ => False

def Separate (ts : List Token) : Prop := ts.IsChain fun t u => ¬(IsWord t ∧ IsWord u)

theorem Separate.cons {t : Token} {ts : List Token} (h : Separate ts) (ht : ¬IsWord t) :
    Separate (t :: ts) :=
  List.isChain_cons.2 ⟨fun _ _ words => ht words.1, h⟩

theorem Separate.append {t : Token} {ts us : List Token} (h : Separate ts) (h' : Separate us)
    (ht : ¬IsWord t) : Separate (ts ++ t :: us) := by
  refine List.isChain_append.2 ⟨h, h'.cons ht, ?_⟩
  rintro _ _ _ ⟨⟩ words
  exact ht words.2

theorem Derives.separate {p : Phrase} {ts : List Token} (h : Derives p ts) : Separate ts := by
  induction h with
  | object _ ih => exact ih
  | item _ ih => exact ih
  | array _ ih => exact (ih.append .nil id).cons id
  | nextItem _ _ ih ih' => exact ih.append ih' id
  | member _ _ ih => exact (ih.cons id).cons id
  | nextMember _ _ _ ih ih' => exact ((ih.append ih' id).cons id).cons id
  | bracedMembers _ ih => exact (ih.append .nil id).cons id
  | _ => simp [Separate, IsWord]

end Grammar

namespace Scanner

def rest? (s : Scanner) (cs : List Char) : Option (List Token) := (s.scan cs).bind finish

theorem scan_word {w : List Char} (hw : ∀ c ∈ w, isDelimiter c = false) (done : List Token)
    (read : List Char) :
    scan ⟨done, .word read⟩ w = some ⟨done, .word (w.reverse ++ read)⟩ := by
  induction w generalizing read with
  | nil => rfl
  | cons c w ih =>
      rw [List.forall_mem_cons] at hw
      rw [scan_cons, step, hw.1]
      refine (ih hw.2 (c :: read)).trans ?_
      simp

theorem scan_code {u : Nat} {w : List Char} (h : Code u w) (done : List Token)
    (read : List UInt16) :
    scan ⟨done, .code read 0 4⟩ w = some ⟨done, .string (UInt16.ofNat u :: read)⟩ := by
  cases h with
  | mk ha hb hc hd => simp [scan_cons, step, ha, hb, hc, hd]

theorem scan_text {us : List UInt16} {cs : List Char} (h : Text us cs) (done : List Token)
    (read : List UInt16) :
    scan ⟨done, .string read⟩ cs = some ⟨done, .string (us.reverse ++ read)⟩ := by
  induction h generalizing read with
  | nil => rfl
  | @plain c us cs control quote backslash _ ih =>
      rw [scan_cons, step, if_neg quote, if_neg backslash, if_neg (Nat.not_lt.2 control)]
      refine (ih _).trans ?_
      simp
  | @short c e us cs h _ ih =>
      have hc := escaped?_eq_some_iff.2 h
      have hu : e ≠ 'u' := by
        rintro rfl
        cases hc
      have escaped : scan ⟨done, .string read⟩ ('\\' :: e :: cs) =
          scan ⟨done, .string ((WideText.unitsOf c).reverse ++ read)⟩ cs := by
        simp [scan_cons, step, hu, hc]
      rw [escaped, ih]
      simp
  | @code u w us cs hu _ ih =>
      have escaped : scan ⟨done, .string read⟩ ('\\' :: 'u' :: (w ++ cs)) =
          scan ⟨done, .code read 0 4⟩ (w ++ cs) := by
        simp [scan_cons, step]
      rw [escaped, scan_append, scan_code hu]
      refine (ih _).trans ?_
      simp

theorem mem_of_isDelimiter {c : Char} (h : isDelimiter c = true) :
    c ∈ [' ', '\t', '\n', '\r', '"', '\x7b', '\x7d', '[', ']', ',', ':'] := by
  simp only [isDelimiter, isSpace, Bool.or_eq_true, beq_iff_eq] at h
  rcases h with ((((rfl | rfl) | rfl) | rfl) | rfl) | h
  iterate 5 decide
  unfold Token.ofMark? at h
  split at h
  iterate 6 decide
  cases h

theorem not_isDelimiter_of_all {cs : List Char}
    (h : cs.all (fun c => !isDelimiter c) = true) : ∀ c ∈ cs, isDelimiter c = false := by
  simpa using h

theorem not_isDelimiter_of_number {cs : List Char} (h : Number cs) :
    ∀ c ∈ cs, isDelimiter c = false := by
  have digits {ds : List Char} (hd : Digits ds) : ∀ c ∈ ds, isDelimiter c = false := by
    intro c hc
    rw [← Bool.not_eq_true]
    intro delimiter
    have digit := hd.2 c hc
    have none : [' ', '\t', '\n', '\r', '"', '\x7b', '\x7d', '[', ']', ',', ':'].all
        (fun c => !c.isDigit) = true := by decide
    have other := List.all_eq_true.1 none c (mem_of_isDelimiter delimiter)
    rw [digit] at other
    cases other
  obtain ⟨minus, int, frac, exp, rfl, hm, hi, hf, he⟩ := h
  simp only [List.forall_mem_append]
  refine ⟨?_, ?_, ?_, ?_⟩
  · refine not_isDelimiter_of_all ?_
    rcases hm with rfl | rfl <;> rfl
  · rcases hi with rfl | ⟨hi, -⟩
    · exact not_isDelimiter_of_all rfl
    · exact digits hi
  · rcases hf with rfl | ⟨ds, rfl, hd⟩
    · exact List.forall_mem_nil _
    · exact List.forall_mem_cons.2 ⟨rfl, digits hd⟩
  · rcases he with rfl | ⟨e, sign, ds, rfl, he, hs, hd⟩
    · exact List.forall_mem_nil _
    · have exponent : isDelimiter e = false := by
        rcases he with rfl | rfl <;> rfl
      have signed : ∀ c ∈ sign, isDelimiter c = false := by
        refine not_isDelimiter_of_all ?_
        rcases hs with rfl | rfl | rfl <;> rfl
      exact List.forall_mem_cons.2 ⟨exponent, List.forall_mem_append.2 ⟨signed, digits hd⟩⟩

theorem word_of_lexeme {t : Token} {w : List Char} (h : Lexeme t w) (hw : IsWord t) :
    w ≠ [] ∧ (∀ c ∈ w, isDelimiter c = false) ∧ Token.ofWord? w = some t := by
  cases h with
  | null => exact ⟨by decide, not_isDelimiter_of_all rfl, rfl⟩
  | true => exact ⟨by decide, not_isDelimiter_of_all rfl, rfl⟩
  | false => exact ⟨by decide, not_isDelimiter_of_all rfl, rfl⟩
  | number h =>
      have literal := Number.isLiteral_iff.2 h
      refine ⟨?_, not_isDelimiter_of_number h, ?_⟩
      · rintro rfl
        cases literal
      · have named (name : List Char) (hn : Number.isLiteral name = false) : w ≠ name := by
          rintro rfl
          rw [hn] at literal
          cases literal
        rw [Token.ofWord?, if_neg (named _ (by decide)), if_neg (named _ (by decide)),
          if_neg (named _ (by decide)), if_pos literal]
  | _ => exact absurd hw id

def EndsWord (cs : List Char) : Prop := ∀ c ∈ cs.head?, isDelimiter c = true

theorem endsWord_of_tokens {t : Token} {ts : List Token} {cs : List Char} (h : Tokens ts cs)
    (ht : IsWord t) (hs : Separate (t :: ts)) : EndsWord cs := by
  cases h with
  | nil => simp [EndsWord]
  | blank space _ => simp [EndsWord, isDelimiter, space]
  | @token u us w ds hu _ =>
      have hw : ¬IsWord u := by
        intro hw
        exact (List.isChain_cons.1 hs).1 u rfl ⟨ht, hw⟩
      cases hu with
      | null | true | false | number => exact absurd trivial hw
      | _ =>
          rintro _ ⟨⟩
          decide

theorem rest?_word {t : Token} {w cs : List Char} (ht : Token.ofWord? w = some t)
    (hc : EndsWord cs) (done : List Token) :
    rest? ⟨done, .word w.reverse⟩ cs = rest? ⟨t :: done, .blank⟩ cs := by
  cases cs with
  | nil => simp [rest?, finish, endWord, ht]
  | cons c cs => simp [rest?, scan_cons, step, hc c rfl, ht]

theorem rest?_lexeme {t : Token} {w cs : List Char} (h : Lexeme t w)
    (hc : IsWord t → EndsWord cs) (done : List Token) :
    rest? ⟨done, .blank⟩ (w ++ cs) = rest? ⟨t :: done, .blank⟩ cs := by
  by_cases hw : IsWord t
  · obtain ⟨hn, hd, ht⟩ := word_of_lexeme h hw
    obtain ⟨c, ds, rfl⟩ := List.exists_cons_of_ne_nil hn
    -- the first character opens the word, so the others are collected behind it
    rw [← rest?_word ht (hc hw)]
    rw [List.forall_mem_cons] at hd
    have scanned := scan_word hd.2 done [c]
    simp [rest?, scan_cons, step, hd.1, scan_append, scanned]
  · cases h with
    | null | true | false | number => exact absurd trivial hw
    | string h =>
        have opened : step ⟨done, .blank⟩ '"' = some ⟨done, .string []⟩ := rfl
        have read := scan_text h done []
        rw [List.append_nil] at read
        rw [rest?, List.cons_append, List.append_assoc, scan_cons, opened, Option.bind_some,
          scan_append, read, Option.bind_some, List.singleton_append, scan_cons, step, if_pos rfl,
          List.reverse_reverse]
        rfl
    | _ => rfl

theorem rest?_tokens {ts : List Token} {cs : List Char} (h : Tokens ts cs) (hs : Separate ts)
    (done : List Token) :
    rest? ⟨done, .blank⟩ cs = some (done.reverse ++ ts) := by
  induction h generalizing done with
  | nil => simp [rest?, finish, endWord]
  | @blank c ts cs space _ ih =>
      have skipped : step ⟨done, .blank⟩ c = some ⟨done, .blank⟩ := by
        simp only [isSpace, Bool.or_eq_true, beq_iff_eq] at space
        rcases space with ((rfl | rfl) | rfl) | rfl <;> rfl
      rw [rest?, scan_cons, skipped]
      exact ih hs done
  | token ht h ih =>
      rw [rest?_lexeme ht (fun hw => endsWord_of_tokens h hw hs), ih (List.isChain_cons.1 hs).2]
      simp

end Scanner

theorem tokens?_of_tokens {ts : List Token} {cs : List Char} (h : Tokens ts cs)
    (hs : Separate ts) : tokens? cs = some ts :=
  Scanner.rest?_tokens h hs []

/-- The texts that are read are those of the grammar, and each stands for the value that is read. -/
theorem parse?_eq_some_iff {text : String} {d : Json} : parse? text = some d ↔ IsText text d := by
  rw [parse?, Option.bind_eq_some_iff, IsText]
  constructor
  · rintro ⟨ts, hts, hd⟩
    exact ⟨ts, tokens_of_tokens? hts, ofTokens?_eq_some_iff.1 hd⟩
  · rintro ⟨ts, hts, hd⟩
    exact ⟨ts, tokens?_of_tokens hts hd.separate, ofTokens?_eq_some_iff.2 hd⟩

theorem isText_object_iff {text : String} {ms : List (WideText × Json)} :
    IsText text (.object ms) ↔
      ∃ written, IsObjectText text written ∧ ms = Members.ofList written := by
  constructor
  · rintro ⟨ts, hts, hd⟩
    cases hd with
    | object h => exact ⟨_, ⟨ts, hts, h⟩, rfl⟩
  · rintro ⟨written, ⟨ts, hts, h⟩, rfl⟩
    exact ⟨ts, hts, .object h⟩

end BootImage.Json
