import SqlTemplate.Json.Part

/-!
# Members of loose documents

The names and values of the outermost object of a loose document, in their order and with those
that stand twice. Of a value that is no scalar only the brackets have to match. A comma may stand
before the closing bracket, and what follows it is not looked at.
-/

set_option autoImplicit false

namespace SqlTemplate

namespace Json

/-- A name and its value, if that is a scalar. -/
abbrev Member := String × Option Scalar

namespace Member

/-- The parts behind the containers that are open, the innermost first. -/
def skipOpen : List Container → List Part → Option (List Part)
  | [], parts => some parts
  | _ :: _, [] => none
  | inner :: outer, part :: parts =>
    match part with
    | .opening c => skipOpen (c :: inner :: outer) parts
    | .closing c => if c = inner then skipOpen outer parts else none
    | .comma => skipOpen (inner :: outer) parts
    | .colon => skipOpen (inner :: outer) parts
    | .scalar _ => skipOpen (inner :: outer) parts

/-- The value at the beginning, if it is a scalar, and the parts behind it. -/
def takeItem : List Part → Option (Option Scalar × List Part)
  | .scalar x :: parts => some (some x, parts)
  | .opening c :: parts => (skipOpen [c] parts).map (none, ·)
  | _ => none

/-- The members behind the opening bracket of an object, `fuel` of them at most. -/
def takeAll : Nat → List Part → Option (List Member)
  | 0, _ => none
  | _ + 1, .closing .object :: _ => some []
  | fuel + 1, .scalar (.text name) :: .colon :: parts => do
    let (value, parts) ← takeItem parts
    match parts with
    | .closing .object :: _ => some [(name, value)]
    | .comma :: parts => (takeAll fuel parts).map ((name, value) :: ·)
    | _ => none
  | _ + 1, _ => none

/-- The members of an object; a null in its place has none. -/
def ofParts? : List Part → Option (List Member)
  | .scalar .null :: _ => some []
  | .opening .object :: parts => takeAll parts.length parts
  | _ => none

/-- The members of the object that a text writes. -/
def ofText? (text : String) : Option (List Member) :=
  ofParts? (Part.ofText text)

end Member

end Json

end SqlTemplate
