import SqlTemplate.Statement.Config
import SqlTemplate.Statement.Rendering
import SqlTemplate.Template.Block

/-!
# Statements

A statement is a template bound to the type of its parameters and that of its destination. The
template is read and checked once; what is kept of it is its marked form.
-/

set_option autoImplicit false

namespace SqlTemplate

/-- A statement. -/
structure Statement where
  recipe : Recipe
  params : Shape
  dest : Shape
  transforms : Transforms
  vars : List String
  before : List BeforeHook
  onError : List ErrorHook
  observers : Nat

namespace Statement

/-- The first function of a configuration whose name it must not use. -/
def reservedFunction? (config : Config) : Option String :=
  config.functions.names.find? fun name => name = destName || isReserved name

/-- The functions that a template can call: those of the configuration win over the standard
ones. -/
def functions (config : Config) : Functions :=
  standardFunctions.merge config.functions

/-- Whether a template can call a function of the name. -/
def knows (config : Config) (name : String) : Bool :=
  (functions config).contains name || name = destName

/-- Makes a statement of a template: reads it, checks it against the types, and marks it. -/
def make (name source : String) (config : Config) (params dest : Shape) :
    Except Error Statement := do
  match reservedFunction? config with
  | some f => .error (.config (.reservedFunction f))
  | none => .ok ()
  let template ← (Template.parse name source (knows config) config.vars).mapError .parse
  (template.check params dest config.vars).mapError (.check name)
  .ok {
    recipe := ⟨template.mark, functions config, config.placeholder, config.missingKey⟩
    params := params
    dest := dest
    transforms := config.transforms
    vars := config.vars
    before := config.before
    onError := config.onError
    observers := config.observers }

/-- The name of a statement. -/
def name (st : Statement) : String :=
  st.recipe.template.name

/-- The text that shows a statement. -/
def describe (st : Statement) : String :=
  "Statement \x7b name: " ++ quoted st.name ++ ", placeholder: " ++
    st.recipe.placeholder.describe ++ ", .. \x7d"

end Statement

end SqlTemplate
