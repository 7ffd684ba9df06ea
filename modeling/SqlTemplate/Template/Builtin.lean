import SqlTemplate.Value.Order
import SqlTemplate.Text.Utf8

/-!
# Functions every template has

`and` and `or` look at one argument after the other and are evaluated with the template; the
others take values.
-/

set_option autoImplicit false

namespace SqlTemplate

/-! ## Names -/

/-- The functions that every template has. -/
inductive Builtin
  | conjunction
  | disjunction
  | negation
  | length
  | index
  | equal
  | notEqual
  | less
  | lessEqual
  | greater
  | greaterEqual
deriving Repr, DecidableEq

namespace Builtin

/-- The name of a function. -/
def name : Builtin → String
  | .conjunction => "and"
  | .disjunction => "or"
  | .negation => "not"
  | .length => "len"
  | .index => "index"
  | .equal => "eq"
  | .notEqual => "ne"
  | .less => "lt"
  | .lessEqual => "le"
  | .greater => "gt"
  | .greaterEqual => "ge"

/-- All functions. -/
def all : List Builtin :=
  [.conjunction, .disjunction, .negation, .length, .index, .equal, .notEqual, .less, .lessEqual,
    .greater, .greaterEqual]

/-- The function of a name. -/
def ofName? (name : String) : Option Builtin :=
  all.find? (·.name = name)

/-- Whether a name is that of a function every template has. -/
def isName (name : String) : Bool :=
  (ofName? name).isSome

/-! ## Failures -/

end Builtin

/-- Why a function that every template has could not be called. -/
inductive BuiltinFault
  | argumentCount (name : String) (want got : Nat)
  | noArguments (name : String)
  | lengthOf (kind : String)
  | indexOutOfRange (n : Int)
  | indexOfNil
  | cannotIndex (kind : String) (key : String)
  | missingArgument
  | incomparable (a b : String)
  | unordered (kind : String)
deriving Repr, DecidableEq

/-- The wording of a failure. -/
def BuiltinFault.message : BuiltinFault → String
  | .argumentCount name want got =>
    "wrong number of args for " ++ name ++ ": want " ++ toString want ++ " got " ++ toString got
  | .noArguments name => "wrong number of args for " ++ name ++ ": want at least 1 got 0"
  | .lengthOf kind => "len of type " ++ kind
  | .indexOutOfRange n => "index out of range: " ++ toString n
  | .indexOfNil => "index of untyped nil"
  | .cannotIndex kind key => "can't index item of type " ++ kind ++ " with " ++ key
  | .missingArgument => "missing argument for comparison"
  | .incomparable a b => "incompatible types for comparison: " ++ a ++ " and " ++ b
  | .unordered kind => "invalid type for comparison: " ++ kind

/-! ## Values -/

namespace Value

/-- The length of a value: bytes of a text, items, or entries. -/
def length? : Value → Except BuiltinFault Nat
  | .text s => .ok s.utf8ByteSize
  | .bytes data => .ok data.length
  | .list items => .ok items.length
  | .map entries => .ok entries.length
  | v => .error (.lengthOf v.typeName)

/-- The item of a list at a position, or the entry of a map under a key. A map without the key
has NULL there. -/
def item? : Value → Value → Except BuiltinFault Value
  | .list items, .int n =>
    if n.toInt < 0 then .error (.indexOutOfRange n.toInt)
    else match items[n.toInt.toNat]? with
      | some v => .ok v
      | none => .error (.indexOutOfRange n.toInt)
  | .map entries, .text key => .ok ((entries.lookup key).getD .nil)
  | .nil, _ => .error .indexOfNil
  | v, key => .error (.cannotIndex v.typeName key.typeName)

/-- Whether two values count as equal. NULL equals NULL only; other values have to be
comparable. -/
def equals? (a b : Value) : Except BuiltinFault Bool :=
  if a.isNil || b.isNil then .ok (a.isNil && b.isNil)
  else match a.compare? b with
    | some o => .ok (o = .eq)
    | none => .error (.incomparable a.typeName b.typeName)

/-- Whether a value equals one of the others; the first that decides ends the search. -/
def equalsSome? (a : Value) : List Value → Except BuiltinFault Bool
  | [] => .ok false
  | b :: rest => do
    if ← a.equals? b then .ok true else a.equalsSome? rest

/-- Whether the value has no order: truth values and NULL. -/
def isUnordered : Value → Bool
  | .bool _ | .nil => true
  | _ => false

/-- Whether the order of two values is one of the accepted ones. -/
def ordered? (accept : Ordering → Bool) (a b : Value) : Except BuiltinFault Bool :=
  if a.isUnordered || b.isUnordered then .error (.unordered a.typeName)
  else match a.compare? b with
    | some o => .ok (accept o)
    | none => .error (.incomparable a.typeName b.typeName)

end Value

namespace Builtin

/-! ## Calls -/

/-- The only argument of a call. -/
def one? (f : Builtin) : List Value → Except BuiltinFault Value
  | [a] => .ok a
  | args => .error (.argumentCount f.name 1 args.length)

/-- The two arguments of a call. -/
def two? (f : Builtin) : List Value → Except BuiltinFault (Value × Value)
  | [a, b] => .ok (a, b)
  | args => .error (.argumentCount f.name 2 args.length)

/-- Compares the arguments of a call. -/
def order (f : Builtin) (accept : Ordering → Bool) (args : List Value) :
    Except BuiltinFault Value := do
  let (a, b) ← f.two? args
  return .bool (← a.ordered? accept b)

/-- Whether the first argument equals one of the others. -/
def equalTo : List Value → Except BuiltinFault Bool
  | a :: b :: rest => a.equalsSome? (b :: rest)
  | _ => .error .missingArgument

/-- Calls a function with values. `and` and `or` of values are not used: the evaluation of a
template looks at their arguments one by one. -/
def call (f : Builtin) (args : List Value) : Except BuiltinFault Value :=
  match f with
  | .conjunction | .disjunction => .error (.noArguments f.name)
  | .negation => do return .bool (!(← f.one? args).isTruthy)
  | .length => do return .int (Int64.ofNat (← (← f.one? args).length?))
  | .index =>
    match args with
    | [] => .error (.noArguments f.name)
    | v :: keys => keys.foldlM Value.item? v
  | .equal => do return .bool (← equalTo args)
  | .notEqual => do
    let (a, b) ← f.two? args
    return .bool (!(← equalTo [a, b]))
  | .less => f.order (· = .lt) args
  | .lessEqual => f.order (· ≠ .gt) args
  | .greater => f.order (· = .gt) args
  | .greaterEqual => f.order (· ≠ .lt) args

end Builtin

end SqlTemplate
