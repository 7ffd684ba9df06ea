import SqlTemplate.Json.Members
import SqlTemplate.Statement.Config

/-!
# Settings

The part of a configuration that is plain data, as it stands in a document. A member may be absent
or null, but not stand twice. Numbers and texts are taken for each other: a name may be written
as a number, and a count as a text.
-/

set_option autoImplicit false

namespace SqlTemplate

/-- The part of a configuration that is plain data. -/
structure Settings where
  placeholder : Option String
  missingKey : Option String
  cacheCapacity : Option Nat

namespace Settings

/-- The text of the member with the name; none if there is no such member or it is null. -/
def textOf (members : List Json.Member) (name : String) : Except ConfigFault (Option String) :=
  match members.filter (·.1 = name) with
  | [] => .ok none
  | [(_, some .null)] => .ok none
  | [(_, some x)] =>
    match x.text? with
    | some s => .ok (some s)
    | none => .error .unreadable
  | _ => .error .unreadable

/-- The greatest count. -/
def countLimit : Nat := (1 <<< 64) - 1

/-- Reads a count: digits, perhaps after a plus sign. -/
def readCount (s : String) : Except ConfigFault Nat :=
  let digits := match s.toList with
    | '+' :: rest => rest
    | cs => cs
  match readNumber countLimit .tooLarge digits with
  | .ok n => .ok n
  | .error _ => .error .unreadable

/-- The settings of an object; members of other names are ignored. -/
def ofMembers (members : List Json.Member) : Except ConfigFault Settings := do
  let placeholder ← textOf members "placeholder"
  let missingKey ← textOf members "missing_key"
  let cacheCapacity ← (← textOf members "cache_capacity").mapM readCount
  .ok ⟨placeholder, missingKey, cacheCapacity⟩

/-- The settings that a text writes. -/
def ofText (text : String) : Except ConfigFault Settings :=
  match Json.Member.ofText? text with
  | some members => ofMembers members
  | none => .error .unreadable

end Settings

/-- A configuration with the style and the policy that settings name. -/
def Config.withSettings (settings : Settings) (config : Config) : Except ConfigFault Config := do
  let placeholder ← match settings.placeholder with
    | none => .ok config.placeholder
    | some name =>
      match Placeholder.ofName? name with
      | some p => .ok p
      | none => .error (.unknownPlaceholder name)
  let missingKey ← match settings.missingKey with
    | none => .ok config.missingKey
    | some name =>
      match MissingKey.ofName? name with
      | some m => .ok m
      | none => .error (.unknownMissingKey name)
  .ok { config with placeholder := placeholder, missingKey := missingKey }

end SqlTemplate
