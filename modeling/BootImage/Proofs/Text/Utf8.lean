import Mathlib.Algebra.Group.Nat.Defs
import Mathlib.Data.List.Infix
import BootImage.Text.Utf8

/-!
# Bytes read as text

`Decodes bytes s` says which text some bytes stand for, without a reader: the encoding of a
character stands for the character, and where there is none, as many bytes as could begin one, or
else a single byte, stand for a replacement. Every sequence of bytes stands for exactly one text,
and it is the one that `decode` gives. In particular the bytes of a text stand for that text.

The reader is tied to the encodings by the characters that fit what it holds: `OpenChar.Fits o v`
says that `v` has the bits read so far and may go on with its next byte, and `Pending p o` that the
bytes `p` followed by those still owed are the encoding of every such character.
-/

namespace BootImage.Text

open String (utf8EncodeChar)

/-- The last `k` bytes of the encoding of the character with the number `v`; each has six of its
bits. -/
def tailBytes : Nat → Nat → List UInt8
  | 0, _ => []
  | k + 1, v => UInt8.ofNat (v / 64 ^ k % 64 + 0x80) :: tailBytes k v

@[simp] theorem length_tailBytes (k v : Nat) : (tailBytes k v).length = k := by
  induction k with
  | zero => rfl
  | succ k ih => simp [tailBytes, ih]

theorem val_ofNat {v : Nat} (valid : v.isValidChar) : (Char.ofNat v).val.toNat = v := by
  rw [Char.ofNat, dif_pos valid]
  rfl

/-- For each number of bytes that may follow the first byte of an encoding, the mark of that first
byte and the least and the greatest character that are encoded so. -/
def marks : List (Nat × Nat × Nat × Nat) :=
  [(1, 0xC0, 0x80, 0x7FF), (2, 0xE0, 0x800, 0xFFFF), (3, 0xF0, 0x10000, 0x10FFFF)]

theorem utf8EncodeChar_ofNat {k mark least greatest v : Nat}
    (h : (k, mark, least, greatest) ∈ marks) (valid : v.isValidChar) (hl : least ≤ v)
    (hg : v ≤ greatest) :
    utf8EncodeChar (Char.ofNat v) = UInt8.ofNat (v / 64 ^ k + mark) :: tailBytes k v := by
  simp only [marks, List.mem_cons, Prod.mk.injEq, List.not_mem_nil, or_false] at h
  rw [String.utf8EncodeChar, val_ofNat valid]
  rcases h with ⟨rfl, rfl, rfl, rfl⟩ | ⟨rfl, rfl, rfl, rfl⟩ | ⟨rfl, rfl, rfl, rfl⟩
  · have high : v / 64 % 32 = v / 64 := by omega
    simp [show ¬ v ≤ 127 by omega, hg, tailBytes, high]
  · have high : v / 4096 % 16 = v / 4096 := by omega
    simp [show ¬ v ≤ 127 by omega, show ¬ v ≤ 2047 by omega, hg, tailBytes, high]
  · have high : v / 262144 % 8 = v / 262144 := by omega
    simp [show ¬ v ≤ 127 by omega, show ¬ v ≤ 2047 by omega, show ¬ v ≤ 65535 by omega, tailBytes,
      high]

/-- The character with the number `v` has the bits read so far and may go on with its next byte. -/
structure OpenChar.Fits (o : OpenChar) (v : Nat) : Prop where
  bits : v / 64 ^ o.owed = o.bits
  least : o.least ≤ v / 64 ^ (o.owed - 1) % 64 + 0x80
  greatest : v / 64 ^ (o.owed - 1) % 64 + 0x80 ≤ o.greatest

/-- The bytes `p` begin the encoding of every character that fits, and what is owed is the rest of
it. -/
structure Pending (p : List UInt8) (o : OpenChar) : Prop where
  owed : 0 < o.owed
  least : 0x80 ≤ o.least
  range : o.least ≤ o.greatest
  greatest : o.greatest ≤ 0xBF
  encoded (v : Nat) (fits : o.Fits v) :
    utf8EncodeChar (Char.ofNat v) = p ++ tailBytes o.owed v

section Accept

variable {p : List UInt8} {o : OpenChar} {b : UInt8}

theorem Pending.fits (h : Pending p o) (hl : o.least ≤ b.toNat) (hg : b.toNat ≤ o.greatest)
    {v : Nat} (hv : v / 64 ^ (o.owed - 1) = o.bits * 64 + (b.toNat - 0x80)) :
    o.Fits v ∧ tailBytes o.owed v = b :: tailBytes (o.owed - 1) v := by
  obtain ⟨bits, owed, least, greatest⟩ := o
  obtain ⟨k, rfl⟩ : ∃ k, owed = k + 1 := Nat.exists_eq_succ_of_ne_zero h.owed.ne'
  have low := h.least
  have high := h.greatest
  simp only [Nat.add_sub_cancel] at hv hl hg low high ⊢
  have digit : v / 64 ^ k % 64 + 0x80 = b.toNat := by omega
  refine ⟨⟨?_, ?_, ?_⟩, ?_⟩
  · change v / 64 ^ (k + 1) = bits
    rw [Nat.pow_succ, ← Nat.div_div_eq_div_mul]
    omega
  · change least ≤ v / 64 ^ k % 64 + 0x80
    omega
  · change v / 64 ^ k % 64 + 0x80 ≤ greatest
    omega
  · rw [tailBytes, digit, UInt8.ofNat_toNat]

/-- A byte that is owed but not the last leaves one less to come. -/
theorem Pending.advance (h : Pending p o) (hl : o.least ≤ b.toNat) (hg : b.toNat ≤ o.greatest)
    (more : 1 < o.owed) :
    Pending (p ++ [b]) ⟨o.bits * 64 + (b.toNat - 0x80), o.owed - 1, 0x80, 0xBF⟩ := by
  have range : 0x80 ≤ 0xBF := by decide
  refine ⟨Nat.sub_pos_of_lt more, Nat.le_refl _, range, Nat.le_refl _, fun v fits => ?_⟩
  obtain ⟨fits, tail⟩ := h.fits hl hg fits.bits
  rw [h.encoded v fits, tail]
  simp

theorem Pending.exists_prefix (h : Pending p o) (hl : o.least ≤ b.toNat)
    (hg : b.toNat ≤ o.greatest) : ∃ c, p ++ [b] <+: utf8EncodeChar c := by
  obtain ⟨fits, tail⟩ := h.fits hl hg
    (v := (o.bits * 64 + (b.toNat - 0x80)) * 64 ^ (o.owed - 1))
    (Nat.mul_div_cancel _ (Nat.pow_pos (by decide)))
  exact ⟨_, by rw [h.encoded _ fits, tail]; simp⟩

end Accept

theorem Pending.first {k mark least greatest bits low high : Nat} {b : UInt8}
    (h : (k, mark, least, greatest) ∈ marks) (hb : b.toNat = bits + mark)
    (hr : 0x80 ≤ low ∧ low ≤ high ∧ high ≤ 0xBF)
    (within : ∀ v, v / 64 ^ k = bits → low ≤ v / 64 ^ (k - 1) % 64 + 0x80 →
      v / 64 ^ (k - 1) % 64 + 0x80 ≤ high →
      (v < 0xD800 ∨ 0xDFFF < v ∧ v < 0x110000) ∧ least ≤ v ∧ v ≤ greatest) :
    Pending [b] ⟨bits, k, low, high⟩ := by
  have owed : 0 < k := by
    simp only [marks, List.mem_cons, Prod.mk.injEq, List.not_mem_nil, or_false] at h
    omega
  refine ⟨owed, hr.1, hr.2.1, hr.2.2, fun v fits => ?_⟩
  obtain ⟨valid, hv, hv'⟩ := within v fits.bits fits.least fits.greatest
  rw [utf8EncodeChar_ofNat h valid hv hv', fits.bits, ← hb, UInt8.ofNat_toNat]
  rfl

/-- What comes of the first byte of a character: the whole character, the bytes that are owed, or
nothing. -/
theorem lead_cases (done : List Char) (b : UInt8) :
    (∃ c, ByteReader.lead done b.toNat = ⟨c :: done, none⟩ ∧ utf8EncodeChar c = [b]) ∨
    (∃ o, ByteReader.lead done b.toNat = ⟨done, some o⟩ ∧ Pending [b] o) ∨
    ByteReader.lead done b.toNat = ⟨replacement :: done, none⟩ := by
  have two : (1, 0xC0, 0x80, 0x7FF) ∈ marks := by decide
  have three : (2, 0xE0, 0x800, 0xFFFF) ∈ marks := by decide
  have four : (3, 0xF0, 0x10000, 0x10FFFF) ∈ marks := by decide
  fun_cases ByteReader.lead done b.toNat with
  | case1 h =>
      have valid : b.toNat.isValidChar := .inl (by omega)
      refine .inl ⟨_, rfl, ?_⟩
      rw [String.utf8EncodeChar, val_ofNat valid]
      simp [show b.toNat ≤ 127 by omega]
  | case2 => exact .inr (.inl ⟨_, rfl, .first two (by omega) (by decide) (by omega)⟩)
  | case3 => exact .inr (.inl ⟨_, rfl, .first three (by omega) (by decide) (by omega)⟩)
  | case4 => exact .inr (.inl ⟨_, rfl, .first three (by omega) (by decide) (by omega)⟩)
  | case5 => exact .inr (.inl ⟨_, rfl, .first three (by omega) (by decide) (by omega)⟩)
  | case6 => exact .inr (.inl ⟨_, rfl, .first four (by omega) (by decide) (by omega)⟩)
  | case7 => exact .inr (.inl ⟨_, rfl, .first four (by omega) (by decide) (by omega)⟩)
  | case8 => exact .inr (.inl ⟨_, rfl, .first four (by omega) (by decide) (by omega)⟩)
  | case9 => exact .inr (.inr rfl)

theorem lead_of_mark {k mark least greatest v : Nat} (h : (k, mark, least, greatest) ∈ marks)
    (valid : v.isValidChar) (hl : least ≤ v) (hg : v ≤ greatest) (done : List Char) :
    ∃ o, ByteReader.lead done (v / 64 ^ k + mark) = ⟨done, some o⟩ ∧ o.owed = k ∧ 0 < k ∧
      o.Fits v := by
  rw [Nat.isValidChar] at valid
  simp only [marks, List.mem_cons, Prod.mk.injEq, List.not_mem_nil, or_false] at h
  -- of the ranges of first bytes only those with the mark are left
  rcases h with ⟨rfl, rfl, rfl, rfl⟩ | ⟨rfl, rfl, rfl, rfl⟩ | ⟨rfl, rfl, rfl, rfl⟩ <;>
    fun_cases ByteReader.lead <;> first
      | omega
      | refine ⟨_, rfl, rfl, by decide, ?_, ?_, ?_⟩ <;> dsimp only <;> omega

theorem utf8EncodeChar_cases (c : Char) (done : List Char) :
    (∃ b, utf8EncodeChar c = [b] ∧ ByteReader.lead done b.toNat = ⟨c :: done, none⟩) ∨
    ∃ b o, utf8EncodeChar c = b :: tailBytes o.owed c.toNat ∧
      ByteReader.lead done b.toNat = ⟨done, some o⟩ ∧ Pending [b] o ∧ o.Fits c.toNat := by
  have valid : c.toNat.isValidChar := c.valid
  have several {k mark least greatest : Nat} (h : (k, mark, least, greatest) ∈ marks)
      (hl : least ≤ c.toNat) (hg : c.toNat ≤ greatest) :
      ∃ b o, utf8EncodeChar c = b :: tailBytes o.owed c.toNat ∧
        ByteReader.lead done b.toNat = ⟨done, some o⟩ ∧ Pending [b] o ∧ o.Fits c.toNat := by
    obtain ⟨o, read, rfl, -, fits⟩ := lead_of_mark h valid hl hg done
    have encoded := utf8EncodeChar_ofNat h valid hl hg
    rw [Char.ofNat_toNat] at encoded
    have small : c.toNat / 64 ^ o.owed + mark < 256 := by
      simp only [marks, List.mem_cons, Prod.mk.injEq, List.not_mem_nil, or_false] at h
      rcases h with ⟨hk, rfl, rfl, rfl⟩ | ⟨hk, rfl, rfl, rfl⟩ | ⟨hk, rfl, rfl, rfl⟩ <;>
        rw [hk] <;> omega
    have byte : (UInt8.ofNat (c.toNat / 64 ^ o.owed + mark)).toNat = c.toNat / 64 ^ o.owed + mark :=
      Nat.mod_eq_of_lt small
    rw [← byte] at read
    refine ⟨_, o, encoded, read, ?_, fits⟩
    rcases lead_cases done (UInt8.ofNat (c.toNat / 64 ^ o.owed + mark)) with
      ⟨c', h', -⟩ | ⟨o', h', pending⟩ | h'
    · cases read.symm.trans h'
    · cases read.symm.trans h'
      exact pending
    · cases read.symm.trans h'
  by_cases h₁ : c.toNat < 0x80
  · have byte : (UInt8.ofNat c.toNat).toNat = c.toNat := Nat.mod_eq_of_lt (by omega)
    refine .inl ⟨UInt8.ofNat c.toNat, ?_, ?_⟩
    · rw [String.utf8EncodeChar]
      exact if_pos (Nat.le_of_lt_succ h₁)
    · rw [byte, ByteReader.lead, if_pos h₁, Char.ofNat_toNat]
  by_cases h₂ : c.toNat ≤ 0x7FF
  · exact .inr (several (by decide : (1, 0xC0, 0x80, 0x7FF) ∈ marks) (by omega) h₂)
  by_cases h₃ : c.toNat ≤ 0xFFFF
  · exact .inr (several (by decide : (2, 0xE0, 0x800, 0xFFFF) ∈ marks) (by omega) h₃)
  · rw [Nat.isValidChar] at valid
    exact .inr (several (by decide : (3, 0xF0, 0x10000, 0x10FFFF) ∈ marks) (by omega) (by omega))

section Step

variable {o : OpenChar} {b : UInt8} (done : List Char)

theorem step_eq_close (hl : o.least ≤ b.toNat) (hg : b.toNat ≤ o.greatest) (last : o.owed = 1) :
    ByteReader.step ⟨done, some o⟩ b =
      ⟨Char.ofNat (o.bits * 64 + (b.toNat - 0x80)) :: done, none⟩ := by
  simp [ByteReader.step, hl, hg, last]

theorem step_eq_advance (hl : o.least ≤ b.toNat) (hg : b.toNat ≤ o.greatest) (more : 1 < o.owed) :
    ByteReader.step ⟨done, some o⟩ b =
      ⟨done, some ⟨o.bits * 64 + (b.toNat - 0x80), o.owed - 1, 0x80, 0xBF⟩⟩ := by
  simp [ByteReader.step, hl, hg, Nat.not_le.2 more]

theorem step_eq_lead (h : ¬ (o.least ≤ b.toNat ∧ b.toNat ≤ o.greatest)) :
    ByteReader.step ⟨done, some o⟩ b = ByteReader.lead (replacement :: done) b.toNat := by
  simp only [ByteReader.step, if_neg h]

theorem OpenChar.Fits.next {v : Nat} {q : List UInt8} (fits : o.Fits v) (owed : 0 < o.owed)
    (h : tailBytes o.owed v = b :: q) :
    o.least ≤ b.toNat ∧ b.toNat ≤ o.greatest ∧ tailBytes (o.owed - 1) v = q ∧
      v / 64 ^ (o.owed - 1) = o.bits * 64 + (b.toNat - 0x80) := by
  obtain ⟨bits, owed', least, greatest⟩ := o
  obtain ⟨k, rfl⟩ : ∃ k, owed' = k + 1 := Nat.exists_eq_succ_of_ne_zero owed.ne'
  obtain ⟨rfl, rfl⟩ := List.cons.inj h
  have low := fits.least
  have high := fits.greatest
  have bits := fits.bits
  simp only [Nat.add_sub_cancel, Nat.pow_succ, ← Nat.div_div_eq_div_mul] at low high bits ⊢
  simp
  omega

end Step

/-- As long as bytes of a character are left, the reader holds what is owed of it. -/
theorem foldl_step_of_fits {p q r : List UInt8} {o : OpenChar} {v : Nat} (pending : Pending p o)
    (fits : o.Fits v) (h : tailBytes o.owed v = q ++ r) (left : r ≠ []) (done : List Char) :
    ∃ o', q.foldl ByteReader.step ⟨done, some o⟩ = ⟨done, some o'⟩ ∧ Pending (p ++ q) o' ∧
      o'.Fits v ∧ tailBytes o'.owed v = r := by
  induction q generalizing p o with
  | nil => exact ⟨o, rfl, by simpa using pending, fits, h⟩
  | cons b q ih =>
      obtain ⟨hl, hg, tail, bits⟩ := fits.next pending.owed h
      have more : 1 < o.owed := by
        by_contra hle
        have last : o.owed - 1 = 0 := by omega
        rw [last] at tail
        exact left (List.append_eq_nil_iff.1 tail.symm).2
      have fits' : OpenChar.Fits ⟨o.bits * 64 + (b.toNat - 0x80), o.owed - 1, 0x80, 0xBF⟩ v :=
        ⟨bits, by simp, by simp; omega⟩
      obtain ⟨o', stepped, pending', rest⟩ := ih (pending.advance hl hg more) fits' tail
      refine ⟨o', ?_, by simpa using pending', rest⟩
      rw [List.foldl_cons, step_eq_advance done hl hg more, stepped]

theorem foldl_step_part {c : Char} {p r : List UInt8} (h : utf8EncodeChar c = p ++ r)
    (begun : p ≠ []) (left : r ≠ []) (done : List Char) :
    ∃ o, p.foldl ByteReader.step ⟨done, none⟩ = ⟨done, some o⟩ ∧ Pending p o ∧
      o.Fits c.toNat ∧ tailBytes o.owed c.toNat = r := by
  obtain ⟨b, q, rfl⟩ := List.exists_cons_of_ne_nil begun
  rcases utf8EncodeChar_cases c done with ⟨b', single, -⟩ | ⟨b', o, encoded, read, pending, fits⟩
  · rw [single, List.cons_append] at h
    exact absurd (List.append_eq_nil_iff.1 (List.cons.inj h).2.symm).2 left
  · rw [encoded, List.cons_append] at h
    obtain ⟨rfl, tail⟩ := List.cons.inj h
    obtain ⟨o', stepped, rest⟩ := foldl_step_of_fits pending fits tail left done
    exact ⟨o', by rw [List.foldl_cons, ByteReader.step, read, stepped], rest⟩

theorem foldl_step_utf8EncodeChar (c : Char) (done : List Char) :
    (utf8EncodeChar c).foldl ByteReader.step ⟨done, none⟩ = ⟨c :: done, none⟩ := by
  rcases utf8EncodeChar_cases c done with ⟨b, single, read⟩ | ⟨b, o, encoded, -, pending, -⟩
  · rw [single, List.foldl_cons, ByteReader.step, read, List.foldl_nil]
  · -- up to its last byte the encoding is a part, and that byte is the one that is owed
    have owed : tailBytes o.owed c.toNat ≠ [] := by
      have pos := pending.owed
      rw [Ne, ← List.length_eq_zero_iff, length_tailBytes]
      omega
    obtain ⟨q, last, tail⟩ := (List.eq_nil_or_concat _).resolve_left owed
    rw [tail, List.concat_eq_append, ← List.cons_append] at encoded
    obtain ⟨o', stepped, -, fits, rest⟩ := foldl_step_part encoded (by simp) (by simp) done
    have one : o'.owed = 1 := by rw [← length_tailBytes o'.owed c.toNat, rest]; rfl
    obtain ⟨hl, hg, -, bits⟩ := fits.next (by omega) rest
    rw [encoded, List.foldl_append, stepped, List.foldl_cons, step_eq_close done hl hg one, ← bits,
      one, List.foldl_nil]
    simp

/-- Where no character goes on with a byte, it is read as the first of another. -/
theorem step_of_stuck {p : List UInt8} {o : OpenChar} {b : UInt8} (pending : Pending p o)
    (stuck : ∀ c, ¬ p ++ [b] <+: utf8EncodeChar c) (done : List Char) :
    ByteReader.step ⟨done, some o⟩ b = ByteReader.step ⟨replacement :: done, none⟩ b := by
  refine step_eq_lead done ?_
  rintro ⟨hl, hg⟩
  obtain ⟨c, hc⟩ := pending.exists_prefix hl hg
  exact stuck c hc

theorem step_eq_replacement {b : UInt8} (unknown : ∀ c, ¬ [b] <+: utf8EncodeChar c)
    (done : List Char) : ByteReader.step ⟨done, none⟩ b = ⟨replacement :: done, none⟩ := by
  rcases lead_cases done b with ⟨c, -, encoded⟩ | ⟨o, -, pending⟩ | read
  · exact absurd (encoded ▸ List.prefix_rfl) (unknown c)
  · have low := pending.least
    have high := pending.greatest
    have range := pending.range
    have byte : (UInt8.ofNat o.least).toNat = o.least := Nat.mod_eq_of_lt (by omega)
    obtain ⟨c, hc⟩ := pending.exists_prefix (b := UInt8.ofNat o.least) (by omega) (by omega)
    exact absurd ((List.prefix_append _ _).trans hc) (unknown c)
  · exact read

/-- The text that some bytes stand for: where there is an encoding, its character, and where there
is none, a replacement for as many bytes as begin one, or else for one byte. -/
inductive Decodes : List UInt8 → List Char → Prop
  | nil : Decodes [] []
  | char (c : Char) {rest : List UInt8} {s : List Char} (h : Decodes rest s) :
      Decodes (utf8EncodeChar c ++ rest) (c :: s)
  | broken {b : UInt8} {p rest : List UInt8} {s : List Char}
      (part : (∃ c q, q ≠ [] ∧ utf8EncodeChar c = b :: p ++ q) ∨
        p = [] ∧ ∀ c, ¬ [b] <+: utf8EncodeChar c)
      (longest : ∀ next more, rest = next :: more → ∀ c, ¬ b :: p ++ [next] <+: utf8EncodeChar c)
      (h : Decodes rest s) : Decodes (b :: p ++ rest) (replacement :: s)

theorem Decodes.finish_foldl {bytes : List UInt8} {s : List Char} (h : Decodes bytes s)
    (done : List Char) :
    (bytes.foldl ByteReader.step ⟨done, none⟩).finish = done.reverse ++ s := by
  induction h generalizing done with
  | nil => simp [ByteReader.finish]
  | char c h ih =>
      rw [List.foldl_append, foldl_step_utf8EncodeChar, ih]
      simp
  | @broken b p rest s part longest h ih =>
      have continued := ih (replacement :: done)
      rw [List.reverse_cons, List.append_assoc, List.singleton_append] at continued
      rw [List.foldl_append, ← continued]
      rcases part with ⟨c, q, left, encoded⟩ | ⟨rfl, unknown⟩
      · obtain ⟨o, read, pending, -⟩ := foldl_step_part encoded (by simp) left done
        rw [read]
        cases rest with
        | nil => rfl
        | cons next more =>
            rw [List.foldl_cons, step_of_stuck pending (longest next more rfl), List.foldl_cons]
      · rw [List.foldl_cons, List.foldl_nil, step_eq_replacement unknown]

/-- A list begins with elements that can all be taken in turn, up to its end or to one that
cannot. -/
theorem exists_longest {α : Type} (P : List α → Prop) (h : P []) (l : List α) :
    ∃ p rest, l = p ++ rest ∧ P p ∧ ∀ next more, rest = next :: more → ¬ P (p ++ [next]) := by
  induction l generalizing P with
  | nil => exact ⟨[], [], rfl, h, by simp⟩
  | cons a l ih =>
      by_cases ha : P [a]
      · obtain ⟨p, rest, rfl, hp, stuck⟩ := ih (fun q => P (a :: q)) ha
        exact ⟨a :: p, rest, rfl, hp, stuck⟩
      · refine ⟨[], a :: l, rfl, h, ?_⟩
        rintro next more ⟨⟩
        exact ha

theorem exists_decodes (bytes : List UInt8) : ∃ s, Decodes bytes s := by
  match bytes with
  | [] => exact ⟨[], .nil⟩
  | b :: l =>
    obtain ⟨p, rest, cut, begun, longest⟩ :=
      exists_longest (fun p => p = [] ∨ ∃ c, b :: p <+: utf8EncodeChar c) (.inl rfl) l
    have shorter : rest.length < (b :: l).length := by
      rw [cut, List.length_cons, List.length_append]
      omega
    obtain ⟨s, hs⟩ := exists_decodes rest
    rw [cut, ← List.cons_append]
    by_cases whole : ∃ c, utf8EncodeChar c = b :: p
    · obtain ⟨c, hc⟩ := whole
      exact ⟨c :: s, hc ▸ .char c hs⟩
    · refine ⟨replacement :: s, .broken ?_ ?_ hs⟩
      · by_cases begins : ∃ c, b :: p <+: utf8EncodeChar c
        · obtain ⟨c, q, hq⟩ := begins
          refine .inl ⟨c, q, ?_, hq.symm⟩
          rintro rfl
          exact whole ⟨c, by simpa using hq.symm⟩
        · have none : p = [] := begun.resolve_right begins
          exact .inr ⟨none, fun c hc => begins ⟨c, none ▸ hc⟩⟩
      · intro next more h c hc
        exact longest next more h (.inr ⟨c, by simpa using hc⟩)
termination_by bytes.length

theorem decode_eq_iff (bytes : List UInt8) (s : String) :
    decode bytes = s ↔ Decodes bytes s.toList := by
  have decode_eq {t : List Char} (h : Decodes bytes t) : decode bytes = String.ofList t := by
    rw [decode, ByteReader.initial, h.finish_foldl]
    rfl
  constructor
  · rintro rfl
    obtain ⟨t, ht⟩ := exists_decodes bytes
    rw [decode_eq ht]
    simpa using ht
  · intro h
    simpa using decode_eq h

theorem decode_encode (s : String) : decode (encode s) = s := by
  have decodes (l : List Char) : Decodes (l.flatMap utf8EncodeChar) l := by
    induction l with
    | nil => exact .nil
    | cons c l ih => exact .char c ih
  exact (decode_eq_iff _ _).2 (decodes s.toList)

end BootImage.Text
