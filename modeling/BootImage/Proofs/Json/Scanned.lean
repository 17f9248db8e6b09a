import BootImage.Proofs.Json.Grammar
import BootImage.Proofs.Json.Number

/-!
# What the scanner has read

`Scanner.Read` says which characters can have led to a state: those of the tokens that are done, and
the beginning of what the scanner is within. Every character keeps it, so the tokens of a text are
spelled by the text.
-/

namespace BootImage.Json

open Grammar

namespace Grammar

theorem escaped?_eq_some_iff {c e : Char} : escaped? e = some c ↔ (e, c) ∈ shortEscapes := by
  constructor
  · intro h
    unfold escaped? at h
    split at h <;> cases h <;> decide
  · intro h
    simp only [shortEscapes, List.mem_cons, Prod.mk.injEq, List.not_mem_nil, or_false] at h
    rcases h with h | h | h | h | h | h | h | h <;> (obtain ⟨rfl, rfl⟩ := h; rfl)

theorem Text.append {us vs : List UInt16} {cs ds : List Char} (h : Text us cs) (h' : Text vs ds) :
    Text (us ++ vs) (cs ++ ds) := by
  induction h with
  | nil => exact h'
  | plain control quote backslash _ ih =>
      rw [List.append_assoc]
      exact .plain control quote backslash ih
  | short h _ ih =>
      rw [List.append_assoc]
      exact .short h ih
  | code hu _ ih =>
      rw [List.cons_append, List.cons_append, List.cons_append, List.append_assoc]
      exact .code hu ih

/-- What has been read of a string, latest first, with one more part. -/
theorem Text.snoc {read us : List UInt16} {vs w : List Char} (h : Text read.reverse vs)
    (part : Text us w) : Text (us.reverse ++ read).reverse (vs ++ w) := by
  rw [List.reverse_append, List.reverse_reverse]
  exact h.append part

theorem Tokens.append {ts us : List Token} {cs ds : List Char} (h : Tokens ts cs)
    (h' : Tokens us ds) : Tokens (ts ++ us) (cs ++ ds) := by
  induction h with
  | nil => exact h'
  | blank h _ ih => exact .blank h ih
  | token h _ ih =>
      rw [List.cons_append, List.append_assoc]
      exact .token h ih

theorem Lexeme.tokens {t : Token} {w : List Char} (h : Lexeme t w) : Tokens [t] w := by
  simpa using Tokens.token h .nil

/-- Some hexadecimal digits of a code, and how many are owed. -/
inductive OpenCode : Nat → Nat → List Char → Prop
  | four : OpenCode 0 4 []
  | digit {value owed d : Nat} {c : Char} {w : List Char} (h : OpenCode value (owed + 1) w)
      (hd : hexDigit? c = some d) : OpenCode (value * 16 + d) owed (w ++ [c])

theorem OpenCode.length_add {value owed : Nat} {w : List Char} (h : OpenCode value owed w) :
    w.length + owed = 4 := by
  induction h with
  | four => rfl
  | digit _ _ ih =>
      rw [List.length_append, List.length_singleton]
      omega

theorem OpenCode.code {u : Nat} {w : List Char} (h : OpenCode u 0 w) : Code u w := by
  -- the last digit comes off first; after four of them none can be left
  obtain _ | ⟨h, hd⟩ := h
  obtain _ | ⟨h, hc⟩ := h
  obtain _ | ⟨h, hb⟩ := h
  obtain _ | ⟨h, ha⟩ := h
  cases h with
  | four => simpa using Code.mk ha hb hc hd
  | digit h _ =>
      have := h.length_add
      omega

end Grammar

def Scanner.Read (cs : List Char) : Scanner → Prop
  | ⟨done, .blank⟩ => Tokens done.reverse cs
  | ⟨done, .word read⟩ => ∃ us, cs = us ++ read.reverse ∧ Tokens done.reverse us
  | ⟨done, .string read⟩ => ∃ us vs, cs = us ++ '"' :: vs ∧ Tokens done.reverse us ∧
      Text read.reverse vs
  | ⟨done, .escape read⟩ => ∃ us vs, cs = us ++ '"' :: (vs ++ ['\\']) ∧
      Tokens done.reverse us ∧ Text read.reverse vs
  | ⟨done, .code read value owed⟩ => ∃ us vs w, cs = us ++ '"' :: (vs ++ '\\' :: 'u' :: w) ∧
      Tokens done.reverse us ∧ Text read.reverse vs ∧ OpenCode value owed w ∧ 1 ≤ owed

namespace Token

theorem lexeme_of_ofMark? {c : Char} {t : Token} (h : ofMark? c = some t) : Lexeme t [c] := by
  unfold ofMark? at h
  split at h <;> cases h <;> constructor

theorem lexeme_of_ofWord? {w : List Char} {t : Token} (h : ofWord? w = some t) : Lexeme t w := by
  rw [ofWord?] at h
  split_ifs at h with null true false number
  · cases h
    rw [null]
    exact .null
  · cases h
    rw [true]
    exact .true
  · cases h
    rw [false]
    exact .false
  · cases h
    exact .number (Number.isLiteral_iff.1 number)

end Token

namespace Scanner

theorem read_delimit {c : Char} {done : List Token} {cs : List Char} (h : Tokens done.reverse cs)
    (hc : isDelimiter c = true) : (delimit c done).Read (cs ++ [c]) := by
  rw [delimit]
  cases ht : Token.ofMark? c with
  | some t =>
      have token := h.append (Token.lexeme_of_ofMark? ht).tokens
      rw [← List.reverse_cons] at token
      exact token
  | none =>
      dsimp only
      by_cases hq : c = '"'
      · rw [if_pos hq, hq]
        exact ⟨cs, [], rfl, h, .nil⟩
      · rw [if_neg hq]
        have space : isSpace c = true := by
          simpa [isDelimiter, ht, hq] using hc
        have blank := h.append (.blank space .nil)
        rw [List.append_nil] at blank
        exact blank

theorem read_step {s s' : Scanner} {c : Char} {cs : List Char} (h : s.Read cs)
    (hs : s.step c = some s') : s'.Read (cs ++ [c]) := by
  obtain ⟨done, within⟩ := s
  cases within with
  | blank =>
      rw [step] at hs
      by_cases hc : isDelimiter c = true
      · rw [if_pos hc] at hs
        cases hs
        exact read_delimit h hc
      · rw [if_neg hc] at hs
        cases hs
        exact ⟨cs, rfl, h⟩
  | word read =>
      obtain ⟨us, rfl, h⟩ := h
      rw [step] at hs
      by_cases hc : isDelimiter c = true
      · rw [if_pos hc, Option.map_eq_some_iff] at hs
        obtain ⟨t, ht, rfl⟩ := hs
        -- the delimiter ends the word and is then read as one that follows a blank
        have token := h.append (Token.lexeme_of_ofWord? ht).tokens
        rw [← List.reverse_cons] at token
        exact read_delimit token hc
      · rw [if_neg hc] at hs
        cases hs
        exact ⟨us, by simp, h⟩
  | string read =>
      obtain ⟨us, vs, rfl, h, parts⟩ := h
      rw [step] at hs
      by_cases hq : c = '"'
      · rw [if_pos hq] at hs
        cases hs
        subst hq
        have token := h.append (Lexeme.string parts).tokens
        rw [← List.reverse_cons] at token
        simpa [Read] using token
      · rw [if_neg hq] at hs
        by_cases hb : c = '\\'
        · rw [if_pos hb] at hs
          cases hs
          exact ⟨us, vs, by simp [hb], h, parts⟩
        · rw [if_neg hb] at hs
          by_cases hl : c.toNat < 0x20
          · rw [if_pos hl] at hs
            cases hs
          · rw [if_neg hl] at hs
            cases hs
            have part := Text.plain (Nat.not_lt.1 hl) hq hb .nil
            rw [List.append_nil] at part
            exact ⟨us, _, by simp, h, parts.snoc part⟩
  | escape read =>
      obtain ⟨us, vs, rfl, h, parts⟩ := h
      rw [step] at hs
      by_cases hu : c = 'u'
      · rw [if_pos hu] at hs
        cases hs
        exact ⟨us, vs, [], by simp [hu], h, parts, .four, by decide⟩
      · rw [if_neg hu, Option.map_eq_some_iff] at hs
        obtain ⟨e, he, rfl⟩ := hs
        have part := Text.short (escaped?_eq_some_iff.1 he) .nil
        rw [List.append_nil] at part
        exact ⟨us, _, by simp, h, parts.snoc part⟩
  | code read value owed =>
      obtain ⟨us, vs, w, rfl, h, parts, opened, pos⟩ := h
      rw [step, Option.map_eq_some_iff] at hs
      obtain ⟨d, hd, rfl⟩ := hs
      obtain ⟨owed, rfl⟩ := Nat.exists_eq_add_of_le' pos
      have opened' := opened.digit hd
      by_cases hl : owed + 1 ≤ 1
      · rw [if_pos hl]
        obtain rfl : owed = 0 := by omega
        have part := Text.code opened'.code .nil
        rw [List.append_nil] at part
        exact ⟨us, _, by simp, h, parts.snoc part⟩
      · rw [if_neg hl]
        exact ⟨us, vs, _, by simp, h, parts, opened', by omega⟩

theorem read_scan {s s' : Scanner} {cs ds : List Char} (h : s.Read cs)
    (hs : s.scan ds = some s') : s'.Read (cs ++ ds) := by
  induction ds generalizing s cs with
  | nil =>
      cases hs
      rwa [List.append_nil]
  | cons c ds ih =>
      rw [scan_cons, Option.bind_eq_some_iff] at hs
      obtain ⟨t, ht, hs⟩ := hs
      have := ih (read_step h ht) hs
      rwa [List.append_assoc] at this

theorem read_finish {s : Scanner} {ts : List Token} {cs : List Char} (h : s.Read cs)
    (hs : s.finish = some ts) : Tokens ts cs := by
  obtain ⟨done, within⟩ := s
  cases within with
  | blank =>
      cases hs
      exact h
  | word read =>
      obtain ⟨us, rfl, h⟩ := h
      rw [finish, endWord] at hs
      cases ht : Token.ofWord? read.reverse with
      | none =>
          rw [ht] at hs
          cases hs
      | some t =>
          rw [ht] at hs
          cases hs
          have token := h.append (Token.lexeme_of_ofWord? ht).tokens
          rwa [← List.reverse_cons] at token
  | _ => cases hs

end Scanner

theorem tokens_of_tokens? {cs : List Char} {ts : List Token} (h : tokens? cs = some ts) :
    Tokens ts cs := by
  rw [tokens?, Option.bind_eq_some_iff] at h
  obtain ⟨s, hs, hf⟩ := h
  have begun : Scanner.initial.Read [] := Tokens.nil
  have read := Scanner.read_scan begun hs
  exact Scanner.read_finish read hf

end BootImage.Json
