/-!
# Bytes and text

`encode` writes text as UTF-8 bytes. `decode` reads any bytes as UTF-8: a byte that cannot start or
continue a character ends the sequence begun before it, and every such maximal part of a character
is read as one replacement character U+FFFD. A byte order mark is an ordinary character.

The reader works one byte at a time. Between two bytes it holds what is still owed: the number of
continuation bytes that must follow, the value of the bits read so far, and the range the next byte
must lie in, which is narrower than a whole continuation range after `E0`, `ED`, `F0` and `F4`.
-/

namespace BootImage.Text

/-- A character of which some bytes have been read and `owed` are still to come. -/
structure OpenChar where
  bits : Nat
  owed : Nat
  least : Nat
  greatest : Nat
  deriving DecidableEq, Repr

def replacement : Char := '\ufffd'

/-- What is known after some bytes: the characters read, latest first, and one that is open. -/
structure ByteReader where
  done : List Char
  unfinished : Option OpenChar
  deriving DecidableEq, Repr

def ByteReader.initial : ByteReader := ⟨[], none⟩

def ByteReader.lead (done : List Char) (b : Nat) : ByteReader :=
  if b < 0x80 then ⟨Char.ofNat b :: done, none⟩
  else if 0xC2 ≤ b ∧ b ≤ 0xDF then ⟨done, some ⟨b - 0xC0, 1, 0x80, 0xBF⟩⟩
  else if b = 0xE0 then ⟨done, some ⟨0, 2, 0xA0, 0xBF⟩⟩
  else if b = 0xED then ⟨done, some ⟨0xD, 2, 0x80, 0x9F⟩⟩
  else if 0xE1 ≤ b ∧ b ≤ 0xEF then ⟨done, some ⟨b - 0xE0, 2, 0x80, 0xBF⟩⟩
  else if b = 0xF0 then ⟨done, some ⟨0, 3, 0x90, 0xBF⟩⟩
  else if b = 0xF4 then ⟨done, some ⟨4, 3, 0x80, 0x8F⟩⟩
  else if 0xF1 ≤ b ∧ b ≤ 0xF3 then ⟨done, some ⟨b - 0xF0, 3, 0x80, 0xBF⟩⟩
  else ⟨replacement :: done, none⟩

/-- Reads one byte. A byte outside the range an open character asks for closes that character as a
replacement and is read again as the start of another. -/
def ByteReader.step (r : ByteReader) (byte : UInt8) : ByteReader :=
  let b := byte.toNat
  match r.unfinished with
  | none => lead r.done b
  | some o =>
    if o.least ≤ b ∧ b ≤ o.greatest then
      let bits := o.bits * 64 + (b - 0x80)
      if o.owed ≤ 1 then ⟨Char.ofNat bits :: r.done, none⟩
      else ⟨r.done, some ⟨bits, o.owed - 1, 0x80, 0xBF⟩⟩
    else lead (replacement :: r.done) b

/-- The characters read when no more bytes come: an open character is a replacement. -/
def ByteReader.finish (r : ByteReader) : List Char :=
  match r.unfinished with
  | none => r.done.reverse
  | some _ => (replacement :: r.done).reverse

def decode (bytes : List UInt8) : String :=
  String.ofList (bytes.foldl ByteReader.step ByteReader.initial).finish

def encode (s : String) : List UInt8 := s.toList.flatMap String.utf8EncodeChar

@[simp] theorem decode_nil : decode [] = "" := rfl

end BootImage.Text
