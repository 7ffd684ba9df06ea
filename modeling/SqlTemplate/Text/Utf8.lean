/-!
# UTF-8

Reading bytes as text, strictly or with a replacement character for every maximal piece that is
not the beginning of a well-formed sequence.
-/

set_option autoImplicit false

namespace SqlTemplate

/-- The bytes of a text. -/
def utf8 (s : String) : List UInt8 :=
  s.toByteArray.data.toList

/-- The text that the bytes write, if they are well-formed. -/
def utf8? (bytes : List UInt8) : Option String :=
  String.fromUTF8? ⟨bytes.toArray⟩

/-- The part of a sequence that has been read: the bits so far, the number of bytes still to
come, and the range in which the next of them has to lie. -/
structure Utf8Pending where
  bits : Nat
  left : Nat
  low : UInt8
  high : UInt8
deriving Repr, DecidableEq

/-- What a leading byte announces; none if no sequence of two or more bytes begins with it. -/
def Utf8Pending.ofLead? (b : UInt8) : Option Utf8Pending :=
  if 0xc2 ≤ b && b ≤ 0xdf then some ⟨b.toNat - 0xc0, 1, 0x80, 0xbf⟩
  else if b = 0xe0 then some ⟨0, 2, 0xa0, 0xbf⟩
  else if b = 0xed then some ⟨0xd, 2, 0x80, 0x9f⟩
  else if 0xe1 ≤ b && b ≤ 0xef then some ⟨b.toNat - 0xe0, 2, 0x80, 0xbf⟩
  else if b = 0xf0 then some ⟨0, 3, 0x90, 0xbf⟩
  else if 0xf1 ≤ b && b ≤ 0xf3 then some ⟨b.toNat - 0xf0, 3, 0x80, 0xbf⟩
  else if b = 0xf4 then some ⟨4, 3, 0x80, 0x8f⟩
  else none

/-- The replacement character. -/
def replacement : Char := Char.ofNat 0xfffd

/-- The state after a byte at which a new sequence begins: the characters that are complete, and
the sequence that is not. -/
def utf8Begin (b : UInt8) : List Char × Option Utf8Pending :=
  if b < 0x80 then ([Char.ofNat b.toNat], none)
  else match Utf8Pending.ofLead? b with
    | some p => ([], some p)
    | none => ([replacement], none)

/-- The state after one more byte. -/
def utf8Step : Option Utf8Pending → UInt8 → List Char × Option Utf8Pending
  | none, b => utf8Begin b
  | some p, b =>
    if p.low ≤ b && b ≤ p.high then
      let bits := p.bits * 64 + (b.toNat - 0x80)
      if p.left = 1 then ([Char.ofNat bits], none)
      else ([], some ⟨bits, p.left - 1, 0x80, 0xbf⟩)
    else (replacement :: (utf8Begin b).1, (utf8Begin b).2)

/-- Reads the bytes that follow an unfinished sequence. -/
def utf8Chars : Option Utf8Pending → List UInt8 → List Char
  | none, [] => []
  | some _, [] => [replacement]
  | p, b :: rest => (utf8Step p b).1 ++ utf8Chars (utf8Step p b).2 rest

/-- The text that the bytes write, with replacement characters where they are not well-formed. -/
def utf8Lossy (bytes : List UInt8) : String :=
  String.ofList (utf8Chars none bytes)

end SqlTemplate
