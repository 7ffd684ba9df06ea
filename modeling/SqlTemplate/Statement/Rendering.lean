import SqlTemplate.Statement.Function
import SqlTemplate.Statement.Marking
import SqlTemplate.Statement.Placeholder
import SqlTemplate.Statement.Spacing
import SqlTemplate.Template.Eval

/-!
# Rendering statements

A marked template is executed in a world that classifies every printed value: literal text is
taken over, a scan leaves its column and registers where it is stored, and anything else is bound
as an argument and leaves a placeholder.
-/

set_option autoImplicit false

namespace SqlTemplate

/-- What an execution has made so far: the text, the bound arguments, and for every scan the place
where its column is stored and what is done to it before. -/
structure Rendering where
  text : Spacing
  args : List Value
  dests : List DestPath
  mappers : List (Option Mapper)
deriving Inhabited

/-- What all executions of a statement share: the marked template, the functions, and how
arguments are written and missing keys are read. -/
structure Recipe where
  template : Template
  functions : Functions
  placeholder : Placeholder
  policy : MissingKey

namespace Rendering

/-- Nothing has been made. -/
def empty : Rendering := ⟨.empty, [], [], []⟩

/-- Binds an argument: the rendering with it, and its placeholder. -/
def bind (p : Placeholder) (r : Rendering) (v : Value) : Rendering × String :=
  let args := r.args ++ [v]
  ({ r with args := args }, p.render args.length)

/-- Binds arguments one after the other. -/
def bindList (p : Placeholder) : Rendering → List Value → Rendering × List String
  | r, [] => (r, [])
  | r, v :: rest =>
    let (r, text) := r.bind p v
    let (r, texts) := bindList p r rest
    (r, text :: texts)

/-- Classifies a value: the rendering after it, and the text that it leaves. -/
def intercept (p : Placeholder) (r : Rendering) : Value → Rendering × String
  | .fragment (.raw sql) => (r, sql)
  | .fragment (.scanner sql dest mapper) =>
    ({ r with dests := r.dests ++ [dest], mappers := r.mappers ++ [mapper] }, sql)
  | .fragment (.list items) =>
    let (r, texts) := r.bindList p items
    (r, "(" ++ ", ".intercalate texts ++ ")")
  | v => r.bind p v

/-- Answers a call. -/
def call (recipe : Recipe) (name : String) (args : List Value) (r : Rendering) :
    Except Cause Value × Rendering :=
  if name = markerName then
    match args with
    | [v] =>
      let (r, text) := r.intercept recipe.placeholder v
      (.ok (.text text), r)
    | _ => (.error (.call (.interceptCount args.length)), r)
  else if name = destName then
    if args.isEmpty then (.ok (.dest .root), r) else (.error (.call .destArguments), r)
  else
    match recipe.functions.get? name with
    | some f => (f args, r)
    | none => (.error (.call (.undefined name)), r)

/-- Takes text. -/
def write (s : String) (r : Rendering) : Rendering :=
  { r with text := r.text.write s }

/-- The world in which the template of a recipe is executed. -/
def world (recipe : Recipe) : World Rendering where
  call := call recipe
  literal s r := some (r.write s)
  print v r := some (r.write v.toText)

/-- Executes the template of a recipe on what has been made so far. -/
def run (recipe : Recipe) (params : Value) (vars : List (String × Value)) (start : Rendering) :
    Except EvalError Unit × Rendering :=
  recipe.template.execute (world recipe) recipe.policy params vars start

end Rendering

end SqlTemplate
