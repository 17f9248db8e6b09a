/-!
# Text in code units

A `WideText` is any sequence of 16-bit code units. The code units of a text are one for each
character up to U+FFFF and a surrogate pair for each of the others. A sequence that holds a
surrogate without its partner is no text's, yet it may be read from an escape, be compared with
others and be looked up. Where it is written out, U+FFFD stands for such a surrogate, so different
sequences may be written alike.
-/

namespace BootImage

/-- A sequence of code units, whether or not it is that of a text. -/
structure WideText where
  units : List UInt16
  deriving DecidableEq, Repr, Inhabited

namespace WideText

def isHigh (u : UInt16) : Bool := 0xD800 ≤ u.toNat && u.toNat ≤ 0xDBFF

def isLow (u : UInt16) : Bool := 0xDC00 ≤ u.toNat && u.toNat ≤ 0xDFFF

def paired (u v : UInt16) : Char :=
  Char.ofNat (0x10000 + (u.toNat - 0xD800) * 0x400 + (v.toNat - 0xDC00))

def unitsOf (c : Char) : List UInt16 :=
  if c.toNat < 0x10000 then [UInt16.ofNat c.toNat]
  else [UInt16.ofNat (0xD800 + (c.toNat - 0x10000) / 0x400),
    UInt16.ofNat (0xDC00 + (c.toNat - 0x10000) % 0x400)]

def ofString (s : String) : WideText := ⟨s.toList.flatMap unitsOf⟩

instance : Coe String WideText := ⟨ofString⟩

instance : Append WideText := ⟨fun a b => ⟨a.units ++ b.units⟩⟩

def intercalate (separator : WideText) (texts : List WideText) : WideText :=
  ⟨separator.units.intercalate (texts.map units)⟩

/-- What code units are read as: characters, and surrogates that are no part of a pair. -/
inductive Part where
  | char (c : Char)
  | unpaired (u : UInt16)
  deriving DecidableEq, Repr

namespace Part

def units : Part → List UInt16
  | char c => unitsOf c
  | unpaired u => [u]

def written : Part → Char
  | char c => c
  | unpaired _ => '\ufffd'

def ofUnit (u : UInt16) : Part :=
  if isHigh u || isLow u then unpaired u else char (Char.ofNat u.toNat)

end Part

def parts : List UInt16 → List Part
  | [] => []
  | u :: v :: us =>
    if isHigh u && isLow v then .char (paired u v) :: parts us
    else .ofUnit u :: parts (v :: us)
  | [u] => [.ofUnit u]

def written (t : WideText) : String := String.ofList ((parts t.units).map Part.written)

def string? (t : WideText) : Option String :=
  if ofString t.written = t then some t.written else none

theorem toNat_ofNat_char {n : Nat} (h : n < 0xD800 ∨ 0xDFFF < n ∧ n < 0x110000) :
    (Char.ofNat n).toNat = n := by
  have valid : Char.ofNat n = Char.ofNatAux n h := dif_pos h
  rw [valid]
  rfl

theorem unitsOf_paired {u v : UInt16} (high : isHigh u = true) (low : isLow v = true) :
    unitsOf (paired u v) = [u, v] := by
  simp only [isHigh, isLow, Bool.and_eq_true, decide_eq_true_eq] at high low
  have value : (paired u v).toNat = 0x10000 + (u.toNat - 0xD800) * 0x400 + (v.toNat - 0xDC00) :=
    toNat_ofNat_char (by omega)
  have first : 0xD800 + ((paired u v).toNat - 0x10000) / 0x400 = u.toNat := by omega
  have second : 0xDC00 + ((paired u v).toNat - 0x10000) % 0x400 = v.toNat := by omega
  rw [unitsOf, if_neg (by omega), first, second, UInt16.ofNat_toNat, UInt16.ofNat_toNat]

theorem units_ofUnit (u : UInt16) : (Part.ofUnit u).units = [u] := by
  rw [Part.ofUnit]
  split
  · rfl
  · next h =>
    simp only [isHigh, isLow, Bool.or_eq_true, Bool.and_eq_true, decide_eq_true_eq] at h
    have bound := u.toNat_lt
    have value : (Char.ofNat u.toNat).toNat = u.toNat := toNat_ofNat_char (by omega)
    rw [Part.units, unitsOf, value, if_pos bound, UInt16.ofNat_toNat]

theorem flatMap_units_parts (us : List UInt16) : (parts us).flatMap Part.units = us := by
  fun_induction parts us with
  | case1 => rfl
  | case2 u v us h ih =>
    rw [Bool.and_eq_true] at h
    rw [List.flatMap_cons, ih, Part.units, unitsOf_paired h.1 h.2]
    rfl
  | case3 u v us h ih =>
    rw [List.flatMap_cons, ih, units_ofUnit]
    rfl
  | case4 u => rw [List.flatMap_cons, units_ofUnit, List.flatMap_nil, List.append_nil]

theorem parts_cons_of_not_isHigh {u : UInt16} (h : isHigh u = false) (us : List UInt16) :
    parts (u :: us) = .ofUnit u :: parts us := by
  cases us with
  | nil => rfl
  | cons v us => rw [parts, h, Bool.false_and, if_neg Bool.false_ne_true]

theorem parts_unitsOf_append (c : Char) (us : List UInt16) :
    parts (unitsOf c ++ us) = .char c :: parts us := by
  have valid : c.toNat < 0xD800 ∨ 0xDFFF < c.toNat ∧ c.toNat < 0x110000 := c.valid
  rw [unitsOf]
  split
  · next small =>
    have value : (UInt16.ofNat c.toNat).toNat = c.toNat := UInt16.toNat_ofNat_of_lt' small
    have high : isHigh (UInt16.ofNat c.toNat) = false := by
      simp only [isHigh, value, Bool.and_eq_false_iff, decide_eq_false_iff_not]
      omega
    have low : isLow (UInt16.ofNat c.toNat) = false := by
      simp only [isLow, value, Bool.and_eq_false_iff, decide_eq_false_iff_not]
      omega
    rw [List.singleton_append, parts_cons_of_not_isHigh high, Part.ofUnit, high, low, value,
      Char.ofNat_toNat]
    rfl
  · next large =>
    have first : (UInt16.ofNat (0xD800 + (c.toNat - 0x10000) / 0x400)).toNat =
        0xD800 + (c.toNat - 0x10000) / 0x400 :=
      UInt16.toNat_ofNat_of_lt' (show _ < 0x10000 by omega)
    have second : (UInt16.ofNat (0xDC00 + (c.toNat - 0x10000) % 0x400)).toNat =
        0xDC00 + (c.toNat - 0x10000) % 0x400 :=
      UInt16.toNat_ofNat_of_lt' (show _ < 0x10000 by omega)
    have high : isHigh (UInt16.ofNat (0xD800 + (c.toNat - 0x10000) / 0x400)) = true := by
      simp only [isHigh, first, Bool.and_eq_true, decide_eq_true_eq]
      omega
    have low : isLow (UInt16.ofNat (0xDC00 + (c.toNat - 0x10000) % 0x400)) = true := by
      simp only [isLow, second, Bool.and_eq_true, decide_eq_true_eq]
      omega
    have whole : 0x10000 + (0xD800 + (c.toNat - 0x10000) / 0x400 - 0xD800) * 0x400 +
        (0xDC00 + (c.toNat - 0x10000) % 0x400 - 0xDC00) = c.toNat := by omega
    change parts (_ :: _ :: us) = _
    rw [parts, high, low, Bool.and_self, if_pos rfl, paired, first, second, whole,
      Char.ofNat_toNat]

theorem parts_flatMap_unitsOf (cs : List Char) :
    parts (cs.flatMap unitsOf) = cs.map Part.char := by
  induction cs with
  | nil => rfl
  | cons c cs ih => rw [List.flatMap_cons, parts_unitsOf_append, ih, List.map_cons]

@[simp] theorem written_ofString (s : String) : (ofString s).written = s := by
  have same : Part.written ∘ Part.char = id := rfl
  rw [written, ofString, parts_flatMap_unitsOf, List.map_map, same, List.map_id,
    String.ofList_toList]

theorem ofString_append (s t : String) : ofString (s ++ t) = ofString s ++ ofString t := by
  change WideText.mk ((s ++ t).toList.flatMap unitsOf) = ⟨_ ++ _⟩
  rw [String.toList_append, List.flatMap_append, ofString, ofString]

theorem append_assoc (a b c : WideText) : a ++ b ++ c = a ++ (b ++ c) :=
  congrArg mk (List.append_assoc ..)

theorem written_ofString_append (s : String) (t : WideText) :
    (ofString s ++ t).written = s ++ t.written := by
  have whole (cs : List Char) :
      parts (cs.flatMap unitsOf ++ t.units) = cs.map Part.char ++ parts t.units := by
    induction cs with
    | nil => rfl
    | cons c cs ih =>
      rw [List.flatMap_cons, List.append_assoc, parts_unitsOf_append, ih, List.map_cons,
        List.cons_append]
  have same : Part.written ∘ Part.char = id := rfl
  change String.ofList ((parts (s.toList.flatMap unitsOf ++ t.units)).map Part.written) = _
  rw [whole, List.map_append, List.map_map, same, List.map_id, String.ofList_append,
    String.ofList_toList, written]

@[simp] theorem ofString_inj {s t : String} : ofString s = ofString t ↔ s = t := by
  constructor
  · intro h
    simpa using congrArg written h
  · exact congrArg ofString

theorem string?_eq_some_iff {t : WideText} {s : String} : t.string? = some s ↔ t = ofString s := by
  rw [string?]
  constructor
  · intro h
    obtain ⟨same, hs⟩ := Option.ite_none_right_eq_some.1 h
    cases hs
    exact same.symm
  · rintro rfl
    rw [written_ofString, if_pos rfl]

@[simp] theorem string?_ofString (s : String) : (ofString s).string? = some s :=
  string?_eq_some_iff.2 rfl

theorem written_eq_empty_iff {t : WideText} : t.written = "" ↔ t = ofString "" := by
  constructor
  · intro h
    have none : parts t.units = [] := by
      rw [written, ← String.toList_inj, String.toList_ofList] at h
      exact List.map_eq_nil_iff.1 h
    have units := flatMap_units_parts t.units
    rw [none] at units
    cases t
    cases units
    rfl
  · rintro rfl
    rfl

end WideText

end BootImage
