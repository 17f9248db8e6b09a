import BootImage.Json.Render
import BootImage.Proofs.Json.Members
import BootImage.Proofs.Json.Scanned

/-!
# Written values are texts

The text that is written for an object is one of the texts of the grammar, and it has the members
the object was written with. Only strings ask for an argument: a character stands for itself, or it
is escaped by one of the short escapes or by its code, and a surrogate without its partner is
escaped by its code. Arrays and objects are then spelled item by item and member by member.
-/

namespace BootImage.Json

open Grammar

theorem hexDigit?_hexDigit {n : Nat} (h : n < 16) : hexDigit? (hexDigit n) = some n := by
  have all : ∀ k : Fin 16, hexDigit? (hexDigit k) = some k.val := by decide
  exact all ⟨n, h⟩

theorem code_unicodeEscape {n : Nat} (h : n < 65536) :
    ∃ w, unicodeEscape n = '\\' :: 'u' :: w ∧ Code n w := by
  have digit (k : Nat) : hexDigit? (hexDigit (k % 16)) = some (k % 16) :=
    hexDigit?_hexDigit (Nat.mod_lt k (by decide))
  have code := Code.mk (digit (n / 4096)) (digit (n / 256)) (digit (n / 16)) (digit n)
  have value : ((n / 4096 % 16 * 16 + n / 256 % 16) * 16 + n / 16 % 16) * 16 + n % 16 = n := by
    omega
  rw [value] at code
  exact ⟨_, rfl, code⟩

theorem text_quoteChar (c : Char) {us : List UInt16} {cs : List Char} (rest : Text us cs) :
    Text (WideText.unitsOf c ++ us) (quoteChar c ++ cs) := by
  rw [quoteChar]
  split_ifs with quote backslash escaped
  · rw [quote]
    exact .short (by decide) rest
  · rw [backslash]
    exact .short (by decide) rest
  · have small : c.toNat < 0x10000 := by
      rcases escaped with h | rfl | rfl | rfl
      · omega
      all_goals decide
    obtain ⟨w, hw, code⟩ := code_unicodeEscape small
    rw [hw, WideText.unitsOf, if_pos small]
    exact .code code rest
  · have control : 0x20 ≤ c.toNat := by
      refine Nat.not_lt.1 ?_
      intro h
      exact escaped (.inl h)
    exact .plain control quote backslash rest

theorem text_quotePart (p : WideText.Part) {us : List UInt16} {cs : List Char}
    (rest : Text us cs) : Text (p.units ++ us) (quotePart p ++ cs) := by
  cases p with
  | char c => exact text_quoteChar c rest
  | unpaired u =>
      obtain ⟨w, hw, code⟩ := code_unicodeEscape u.toNat_lt
      have text := Text.code code rest
      rw [UInt16.ofNat_toNat] at text
      rw [quotePart, hw]
      exact text

theorem lexeme_quote (s : WideText) : Lexeme (.string s) (quote s) := by
  have text (ps : List WideText.Part) :
      Text (ps.flatMap WideText.Part.units) (ps.flatMap quotePart) := by
    induction ps with
    | nil => exact .nil
    | cons p ps ih => exact text_quotePart p ih
  have lexeme := Lexeme.string (text (WideText.parts s.units))
  rwa [WideText.flatMap_units_parts] at lexeme

def Spells (cs : List Char) (d : Json) : Prop := ∃ ts, Tokens ts cs ∧ Derives (.value d) ts

theorem spells_write_string (s : WideText) : Spells (write (.string s)) (.string s) := by
  refine ⟨[.string s], ?_, .string s⟩
  rw [write]
  exact (lexeme_quote s).tokens

theorem spells_write_null : Spells (write .null) .null := by
  refine ⟨[.null], ?_, .null⟩
  rw [write]
  exact Lexeme.null.tokens

theorem spells_write_bool (b : Bool) : Spells (write (.bool b)) (.bool b) := by
  cases b with
  | true =>
      refine ⟨[.true], ?_, .true⟩
      rw [write]
      exact Lexeme.true.tokens
  | false =>
      refine ⟨[.false], ?_, .false⟩
      rw [write]
      exact Lexeme.false.tokens

theorem tokens_writeMembers {ms : List (WideText × Json)} (hn : ms ≠ [])
    (h : ∀ m ∈ ms, Spells (write m.2) m.2) :
    ∃ ts, Tokens ts (writeMembers ms) ∧ Derives (.members ms) ts := by
  induction ms with
  | nil => exact absurd rfl hn
  | cons m ms ih =>
      obtain ⟨k, d⟩ := m
      rw [List.forall_mem_cons] at h
      obtain ⟨⟨ts, spelled, derived⟩, h⟩ := h
      have key := (lexeme_quote k).tokens.append Lexeme.colon.tokens
      cases ms with
      | nil =>
          refine ⟨_, ?_, .member k derived⟩
          rw [writeMembers]
          simpa using key.append spelled
      | cons m' ms =>
          obtain ⟨us, more, members⟩ := ih (by simp) h
          refine ⟨_, ?_, .nextMember k derived members⟩
          rw [writeMembers]
          · simpa using key.append (spelled.append (Lexeme.comma.tokens.append more))
          · simp

theorem tokens_writeItems {ds : List Json} (hn : ds ≠ []) (h : ∀ d ∈ ds, Spells (write d) d) :
    ∃ ts, Tokens ts (writeItems ds) ∧ Derives (.items ds) ts := by
  induction ds with
  | nil => exact absurd rfl hn
  | cons d ds ih =>
      rw [List.forall_mem_cons] at h
      obtain ⟨⟨ts, spelled, derived⟩, h⟩ := h
      cases ds with
      | nil =>
          rw [writeItems]
          exact ⟨ts, spelled, .item derived⟩
      | cons d' ds =>
          obtain ⟨us, more, items⟩ := ih (by simp) h
          refine ⟨_, ?_, .nextItem derived items⟩
          rw [writeItems]
          · exact spelled.append (Lexeme.comma.tokens.append more)
          · simp

theorem tokens_write_object {ms : List (WideText × Json)} (h : ∀ m ∈ ms, Spells (write m.2) m.2) :
    ∃ ts, Tokens ts (write (.object ms)) ∧ Derives (.object ms) ts := by
  rw [write]
  by_cases hn : ms = []
  · subst hn
    refine ⟨_, ?_, .emptyObject⟩
    rw [writeMembers]
    simpa using Lexeme.openObject.tokens.append Lexeme.closeObject.tokens
  · obtain ⟨ts, spelled, members⟩ := tokens_writeMembers hn h
    refine ⟨_, ?_, .bracedMembers members⟩
    simpa using Lexeme.openObject.tokens.append (spelled.append Lexeme.closeObject.tokens)

theorem spells_write_array {ds : List Json} (h : ∀ d ∈ ds, Spells (write d) d) :
    Spells (write (.array ds)) (.array ds) := by
  rw [write]
  by_cases hn : ds = []
  · subst hn
    refine ⟨_, ?_, .emptyArray⟩
    rw [writeItems]
    simpa using Lexeme.openArray.tokens.append Lexeme.closeArray.tokens
  · obtain ⟨ts, spelled, items⟩ := tokens_writeItems hn h
    refine ⟨_, ?_, .array items⟩
    simpa using Lexeme.openArray.tokens.append (spelled.append Lexeme.closeArray.tokens)

theorem spells_write_object {ms : List (WideText × Json)} (distinct : (ms.map Prod.fst).Nodup)
    (plain : ∀ m ∈ ms, Members.index? m.1 = none) (h : ∀ m ∈ ms, Spells (write m.2) m.2) :
    Spells (write (.object ms)) (.object ms) := by
  obtain ⟨ts, spelled, derived⟩ := tokens_write_object h
  have value := Derives.object derived
  rw [ofList_eq_self distinct plain] at value
  exact ⟨ts, spelled, value⟩

theorem isObjectText_render {ms : List (WideText × Json)} (h : ∀ m ∈ ms, Spells (write m.2) m.2) :
    IsObjectText (render (.object ms)) ms := by
  rw [IsObjectText, render, String.toList_ofList]
  exact tokens_write_object h

/-- A value that is spelled as it is written is read back from its text. -/
theorem Spells.isText_render {d : Json} (h : Spells (write d) d) : IsText (render d) d := by
  rw [IsText, render, String.toList_ofList]
  exact h

end BootImage.Json
