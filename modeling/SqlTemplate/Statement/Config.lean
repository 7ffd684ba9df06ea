import SqlTemplate.Error
import SqlTemplate.Statement.Conversion
import SqlTemplate.Statement.Function
import SqlTemplate.Statement.Placeholder

/-!
# Configurations

How statements are made and run: the style of placeholders, the policy on missing keys, functions
and transformations by name, variables, and hooks that take part in every operation.
-/

set_option autoImplicit false

namespace SqlTemplate

/-! ## Operations as hooks see them -/

/-- The operations of a statement that go to the database. -/
inductive Access
  | exec
  | query
  | queryRow
  | first
  | one
  | all
deriving Repr, DecidableEq

/-- The operations of a statement. -/
inductive Op
  | render
  | access (a : Access)
deriving Repr, DecidableEq

/-- The name of an operation. -/
def Op.label : Op → String
  | .render => "render"
  | .access .exec => "exec"
  | .access .query => "query"
  | .access .queryRow => "query_row"
  | .access .first => "first"
  | .access .one => "one"
  | .access .all => "all"

/-- What a hook sees before the template is executed: the parameters, and the variables, which it
can set. -/
structure Scope where
  statement : String
  op : Op
  params : Value
  vars : List (String × Value)

namespace Scope

/-- Whether a declared variable is called by the name, with or without its dollar sign. -/
def isCalled (declared name : String) : Bool :=
  declared = name || declared = "$" ++ name

/-- The value of a variable. -/
def get? (scope : Scope) (name : String) : Option Value :=
  (scope.vars.find? fun e => isCalled e.1 name).map (·.2)

/-- Gives the first variable that is called by the name a value. -/
def assign (name : String) (value : Value) : List (String × Value) → Option (List (String × Value))
  | [] => none
  | (declared, v) :: rest =>
    if isCalled declared name then some ((declared, value) :: rest)
    else (assign name value rest).map ((declared, v) :: ·)

/-- Sets a variable that has been declared. -/
def set (scope : Scope) (name : String) (value : Value) : Except Error Scope :=
  match assign name value scope.vars with
  | some vars => .ok { scope with vars := vars }
  | none => .error (.config (.undeclaredVariable name))

end Scope

/-- What a hook sees after the driver has answered: the statement and its arguments, as far as
they were made. -/
structure Call where
  statement : String
  op : Op
  sql : String
  args : List Value

/-! ## Configurations -/

/-- A hook that runs before the template. -/
abbrev BeforeHook := Scope → Except Error Scope

/-- A hook that may replace an error. -/
abbrev ErrorHook := Error → Call → Error

/-- A configuration; `observers` is the number of hooks that are told of the end of every
operation. -/
structure Config where
  placeholder : Placeholder
  missingKey : MissingKey
  functions : Functions
  transforms : Transforms
  vars : List String
  before : List BeforeHook
  onError : List ErrorHook
  observers : Nat

namespace Config

/-- The configuration in which nothing was chosen. -/
def standard : Config where
  placeholder := .question
  missingKey := .invalid
  functions := .empty
  transforms name _ := .error (.call (.undefined name))
  vars := []
  before := []
  onError := []
  observers := 0

/-- The name of a variable with its dollar sign. -/
def variableName (name : String) : String :=
  if name.toList.head? = some '$' then name else "$" ++ name

/-- Declares a variable, unless it has been declared. -/
def declare (name : String) (config : Config) : Config :=
  let name := variableName name
  if config.vars.contains name then config
  else { config with vars := config.vars ++ [name] }

/-- The text that shows a configuration. -/
def describe (config : Config) : String :=
  "Config \x7b placeholder: " ++ config.placeholder.describe ++
    ", missing_key: " ++ config.missingKey.label ++
    ", funcs: " ++ quotedSet config.functions.names ++
    ", variables: " ++ quotedList config.vars ++
    ", before: " ++ toString config.before.length ++
    ", after: " ++ toString config.observers ++
    ", on_error: " ++ toString config.onError.length ++ " \x7d"

end Config

end SqlTemplate
