import SqlTemplate.Digest.Blake3
import SqlTemplate.Number.Octets
import SqlTemplate.Text.Hex
import SqlTemplate.Value.Text

/-!
# Cache keys

The key of a value is the digest of a canonical encoding of it. The encoding writes a tag and a
length before every content, so that it can be read back, and the length of a list or map is its
number of items.
-/

set_option autoImplicit false

namespace SqlTemplate

/-- A length. -/
def lengthOctets (n : Nat) : List UInt8 :=
  littleOctets 8 n

/-- A content behind its tag and length. -/
def tagged (tag : UInt8) (data : List UInt8) : List UInt8 :=
  tag :: (lengthOctets data.length ++ data)

mutual

/-- The canonical encoding of a value. -/
def Value.encode : Value → List UInt8
  | .nil => tagged 0 []
  | .bool b => tagged 1 [if b then 1 else 0]
  | .int n => tagged 2 (littleOctets 8 (complement 8 n.toInt))
  | .float x => tagged 3 (littleOctets 8 x.toBits.toNat)
  | .text s => tagged 4 (utf8 s)
  | .bytes data => tagged 5 data
  | .instant t => tagged 6 (littleOctets 16 (complement 16 t.nanos))
  | .list items => tagged 7 (lengthOctets items.length) ++ encodeValues items
  | .map entries => tagged 8 (lengthOctets entries.length) ++ encodeEntries entries
  | .fragment f => tagged 9 (utf8 f.toText)
  | .dest path => tagged 10 (utf8 path.toText)

/-- The encodings of values, one behind the other. -/
def encodeValues : List Value → List UInt8
  | [] => []
  | v :: rest => v.encode ++ encodeValues rest

/-- The encodings of entries, one behind the other. -/
def encodeEntries : List (String × Value) → List UInt8
  | [] => []
  | (key, v) :: rest =>
    lengthOctets (utf8 key).length ++ utf8 key ++ v.encode ++ encodeEntries rest

end

/-- A cache key. -/
structure Key where
  bytes : List UInt8
deriving Repr, DecidableEq

namespace Key

/-- The key of a value. -/
def of (v : Value) : Key :=
  ⟨Blake3.digest v.encode⟩

/-- The octets in hexadecimal digits. -/
def toHex (key : Key) : String :=
  SqlTemplate.toHex key.bytes

/-- The text that shows a key. -/
def describe (key : Key) : String :=
  "Key(" ++ key.toHex ++ ")"

end Key

end SqlTemplate
