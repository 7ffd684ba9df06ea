import SqlTemplate.Cause
import SqlTemplate.Template.Builtin
import SqlTemplate.Template.Describe
import SqlTemplate.Value.Text

/-!
# Executing templates

A template is executed in a world that answers calls of functions and takes what is written. The
execution stops at the first failure; the world keeps what had happened to it before.
-/

set_option autoImplicit false

namespace SqlTemplate

/-! ## Failures -/

/-- Why an execution stopped at a place of the template. -/
inductive EvalReason
  | rangeOver (kind : String)
  | emptyCommand
  | argumentTo (operand : Operand)
  | noArguments (name : String)
  | builtin (name : String) (fault : BuiltinFault)
  | undefinedVariable (name : String)
  | fieldOfNil (name : String)
  | fieldOf (name : String) (kind : String)

/-- The wording of a reason. -/
def EvalReason.message : EvalReason → String
  | .rangeOver kind => "range can't iterate over " ++ kind
  | .emptyCommand => "empty command"
  | .argumentTo operand => "can't give argument to non-function " ++ operand.describe
  | .noArguments name => "wrong number of args for " ++ name ++ ": want at least 1 got 0"
  | .builtin name fault => "error calling " ++ name ++ ": " ++ fault.message
  | .undefinedVariable name => "undefined variable: " ++ name
  | .fieldOfNil name => "nil pointer evaluating ." ++ name
  | .fieldOf name kind => "can't evaluate field " ++ name ++ " in type " ++ kind

/-- Why an execution stopped. -/
inductive EvalFault
  | at (line : Nat) (reason : EvalReason)
  | function (line : Nat) (name : String) (cause : Cause)
  | missingKey (line : Nat) (key : String)
  | write

/-- Why the execution of a template failed. -/
structure EvalError where
  template : String
  fault : EvalFault

/-- The text of the error, unless its cause is foreign. -/
def EvalError.message? (e : EvalError) : Option String :=
  let place (line : Nat) : String := "template " ++ e.template ++ ":" ++ toString line ++ ": "
  match e.fault with
  | .at line reason => some (place line ++ reason.message)
  | .function line name cause =>
    cause.message?.map fun text => place line ++ "error calling " ++ name ++ ": " ++ text
  | .missingKey line key => some (place line ++ "map has no entry for key " ++ quoted key)
  | .write => some ("template " ++ e.template ++ ": failed to write output")

/-! ## The world -/

/-- What a field of a map yields if the map has no such key: NULL, the zero of its first entry, or
a failure. -/
inductive MissingKey
  | invalid
  | zero
  | error
deriving Repr, DecidableEq

namespace MissingKey

/-- The policy of a name. -/
def ofName? (name : String) : Option MissingKey :=
  if name = "invalid" ∨ name = "default" then some .invalid
  else if name = "zero" then some .zero
  else if name = "error" then some .error
  else none

/-- How a configuration shows the policy. -/
def label : MissingKey → String
  | .invalid => "Invalid"
  | .zero => "Zero"
  | .error => "Error"

end MissingKey

/-- What surrounds an execution: functions that the template has not of its own, and the output,
which takes literal text and printed values and may refuse them. -/
structure World (σ : Type) where
  call : String → List Value → σ → Except Cause Value × σ
  literal : String → σ → Option σ
  print : Value → σ → Option σ

/-- Variables with their values, the innermost first. -/
abbrev Variables := List (String × Value)

namespace Variables

/-- The variables without those that came after the first `count`. -/
def keep (count : Nat) (vars : Variables) : Variables :=
  vars.drop (vars.length - count)

/-- Gives the innermost variable of a name another value. -/
def assign (name : String) (value : Value) : Variables → Option Variables
  | [] => none
  | (n, v) :: rest =>
    if n = name then some ((n, value) :: rest)
    else (assign name value rest).map ((n, v) :: ·)

/-- The variables that are given at the start of an execution; the last one is the innermost. -/
def ofSeeds (seeds : List (String × Value)) : Variables :=
  seeds.reverse

end Variables

/-- The state of an execution: the variables, the line of the last action or block, and the
world. -/
structure Frame (σ : Type) where
  vars : Variables
  line : Nat
  world : σ

/-- What does not change in an execution. -/
structure Env (σ : Type) where
  world : World σ
  policy : MissingKey
  root : Value

/-- A step of an execution: it changes the state, and yields a value or stops. -/
abbrev Exec (σ α : Type) := ExceptT EvalFault (StateM (Frame σ)) α

namespace Exec

variable {σ α : Type}

/-- Stops at the line that the execution has come to. -/
def stop (reason : EvalReason) : Exec σ α := do
  throw (.at (← get).line reason)

/-- Comes to a line. -/
def setLine (line : Nat) : Exec σ Unit :=
  modify fun frame => { frame with line := line }

/-- The number of variables. -/
def mark : Exec σ Nat := do
  return (← get).vars.length

/-- Drops the variables that came after the first `count`. -/
def keepVariables (count : Nat) : Exec σ Unit :=
  modify fun frame => { frame with vars := Variables.keep count frame.vars }

/-- Calls a function of the world. -/
def callWorld (env : Env σ) (name : String) (args : List Value) : Exec σ Value := do
  let frame ← get
  let (answer, world) := env.world.call name args frame.world
  set { frame with world := world }
  match answer with
  | .ok value => return value
  | .error cause => throw (.function frame.line name cause)

/-- Puts what was written into the world, or stops because it was refused. -/
def written (world : Option σ) : Exec σ Unit := do
  match world with
  | some world => modify fun frame => { frame with world := world }
  | none => throw .write

/-- Writes literal text. -/
def literal (env : Env σ) (s : String) : Exec σ Unit := do
  written (env.world.literal s (← get).world)

/-- Prints a value. -/
def print (env : Env σ) (v : Value) : Exec σ Unit := do
  written (env.world.print v (← get).world)

/-- Declares a variable, or gives the innermost of its name another value. -/
def bind (assigns : Bool) (name : String) (value : Value) : Exec σ Unit := do
  let frame ← get
  if assigns then
    match Variables.assign name value frame.vars with
    | some vars => set { frame with vars := vars }
    | none => stop (.undefinedVariable name)
  else set { frame with vars := (name, value) :: frame.vars }

/-- Binds variables one after the other to the same value. -/
def bindAll (assigns : Bool) (value : Value) : List String → Exec σ Unit
  | [] => return
  | name :: rest => do
    bind assigns name value
    bindAll assigns value rest

/-- The value of a variable. The dollar sign stands for the data unless it was bound. -/
def valueOf (env : Env σ) (name : String) : Exec σ Value := do
  match (← get).vars.lookup name with
  | some value => return value
  | none => if name = "$" then return env.root else stop (.undefinedVariable name)

/-- Follows fields from a value. -/
def fields (env : Env σ) : List String → Value → Exec σ Value
  | [], v => return v
  | name :: rest, .map entries =>
    match findEntry name entries with
    | some v => fields env rest v
    | none =>
      match env.policy with
      | .invalid => fields env rest .nil
      | .zero => fields env rest ((entries.head?.map (·.2.zeroLike)).getD .nil)
      | .error => do throw (.missingKey (← get).line name)
  | name :: rest, .dest path => return .dest ((name :: rest).foldl DestPath.child path)
  | name :: _, .nil => stop (.fieldOfNil name)
  | name :: _, v => stop (.fieldOf name v.typeName)

/-- Calls a function with values. -/
def call (env : Env σ) (name : String) (args : List Value) : Exec σ Value :=
  match Builtin.ofName? name with
  | some f =>
    match f.call args with
    | .ok value => return value
    | .error fault => stop (.builtin name fault)
  | none => callWorld env name args

end Exec

/-! ## Operands and pipelines -/

/-- The functions that look at their arguments one by one: `and` stops at what is false, `or` at
what is true. -/
def shortCircuit? (name : String) : Option Bool :=
  if name = Builtin.conjunction.name then some true
  else if name = Builtin.disjunction.name then some false
  else none

mutual

/-- The value of an operand. -/
def evalOperand {σ : Type} (env : Env σ) (dot : Value) : Operand → Exec σ Value
  | .dot => return dot
  | .nil => return .nil
  | .bool b => return .bool b
  | .int n => return .int n
  | .float x => return .float x
  | .text s => return .text s
  | .field names => Exec.fields env names dot
  | .variable name names => do
    let value ← Exec.valueOf env name
    Exec.fields env names value
  | .function name =>
    if (shortCircuit? name).isSome then Exec.stop (.noArguments name)
    else Exec.call env name []
  | .chain base names => do
    let value ← evalOperand env dot base
    Exec.fields env names value
  | .pipe declared assigns commands => do
    let value ← evalCommands env dot none commands
    Exec.bindAll assigns value declared
    return value

/-- The values of operands, from the left. -/
def evalOperands {σ : Type} (env : Env σ) (dot : Value) : List Operand → Exec σ (List Value)
  | [] => return []
  | a :: rest => do
    let value ← evalOperand env dot a
    let values ← evalOperands env dot rest
    return value :: values

/-- The first operand whose truth is not `goOn`, or else what the pipeline handed over, or else
the last operand, `value` if there is none. -/
def evalUntil {σ : Type} (env : Env σ) (dot : Value) (goOn : Bool) (last : Option Value)
    (value : Value) : List Operand → Exec σ Value
  | [] => return last.getD value
  | a :: rest => do
    let value ← evalOperand env dot a
    if value.isTruthy != goOn then return value
    else evalUntil env dot goOn last value rest

/-- The value of a command; `last` is what the command before it handed over. -/
def evalCommand {σ : Type} (env : Env σ) (dot : Value) (last : Option Value) :
    List Operand → Exec σ Value
  | [] => Exec.stop .emptyCommand
  | .function name :: args =>
    match shortCircuit? name with
    | some goOn =>
      if args.isEmpty && last.isNone then Exec.stop (.noArguments name)
      else evalUntil env dot goOn last .nil args
    | none => do
      let values ← evalOperands env dot args
      Exec.call env name (values ++ last.toList)
  | operand :: args =>
    if last.isSome || !args.isEmpty then Exec.stop (.argumentTo operand)
    else evalOperand env dot operand

/-- The value that commands hand over, one to the next. -/
def evalCommands {σ : Type} (env : Env σ) (dot : Value) (last : Option Value) :
    List (List Operand) → Exec σ Value
  | [] => return last.getD .nil
  | command :: rest => do
    let value ← evalCommand env dot last command
    evalCommands env dot (some value) rest

end

/-- The value of a pipeline, to which its variables are bound. -/
def evalPipeline {σ : Type} (env : Env σ) (dot : Value) (p : Pipeline) : Exec σ Value := do
  let value ← evalCommands env dot none p.commands
  Exec.bindAll p.assigns value p.declared
  return value

/-! ## Nodes -/

/-- The keys and items of a value that a range goes through. -/
def rangeItems? : Value → Option (List (Value × Value))
  | .list items => some (items.mapIdx fun i item => (.int (Int64.ofNat i), item))
  | .map entries => some (entries.map fun (k, v) => (.text k, v))
  | .int n =>
    if 0 ≤ n.toInt then
      some ((List.range n.toInt.toNat).map fun i => (.int (Int64.ofNat i), .int (Int64.ofNat i)))
    else none
  | .nil => some []
  | _ => none

/-- Binds the variables of a range: one takes the item, of two the first takes the key. -/
def bindItem {σ : Type} (p : Pipeline) (key item : Value) : Exec σ Unit :=
  match p.declared with
  | [] => return
  | [name] => Exec.bind p.assigns name item
  | index :: name :: _ => do
    Exec.bind p.assigns index key
    Exec.bind p.assigns name item

/-- Runs a step for every key and item. -/
def forEach {σ : Type} (step : Value → Value → Exec σ Unit) : List (Value × Value) → Exec σ Unit
  | [] => return
  | (key, item) :: rest => do
    step key item
    forEach step rest

mutual

/-- Executes a node. -/
def walkNode {σ : Type} (env : Env σ) (dot : Value) : Node → Exec σ Unit
  | .text s => Exec.literal env s
  | .action line pipe => do
    Exec.setLine line
    let value ← evalPipeline env dot pipe
    if pipe.declared.isEmpty then Exec.print env value
  | .block .range line pipe body otherwise => do
    Exec.setLine line
    let mark ← Exec.mark
    let value ← evalCommands env dot none pipe.commands
    match rangeItems? value with
    | none => Exec.stop (.rangeOver value.typeName)
    | some [] => walkOption env dot otherwise
    | some items => do
      forEach (fun key item => do
        Exec.keepVariables mark
        bindItem pipe key item
        walkNodes env item body) items
      Exec.keepVariables mark
  | .block kind line pipe body otherwise => do
    Exec.setLine line
    let mark ← Exec.mark
    let value ← evalPipeline env dot pipe
    if value.isTruthy then walkNodes env (if kind = .scoped then value else dot) body
    else walkOption env dot otherwise
    Exec.keepVariables mark

/-- Executes nodes one after the other. -/
def walkNodes {σ : Type} (env : Env σ) (dot : Value) : List Node → Exec σ Unit
  | [] => return
  | node :: rest => do
    walkNode env dot node
    walkNodes env dot rest

/-- Executes the alternative of a block, if it has one. -/
def walkOption {σ : Type} (env : Env σ) (dot : Value) : Option (List Node) → Exec σ Unit
  | none => return
  | some nodes => walkNodes env dot nodes

end

/-- Executes a template on data in a world; `seeds` are variables that exist from the start. -/
def Template.execute {σ : Type} (t : Template) (world : World σ) (policy : MissingKey)
    (data : Value) (seeds : List (String × Value)) (start : σ) : Except EvalError Unit × σ :=
  let env : Env σ := ⟨world, policy, data⟩
  let (result, frame) := (walkNodes env data t.root).run.run ⟨Variables.ofSeeds seeds, 0, start⟩
  (result.mapError fun fault => ⟨t.name, fault⟩, frame.world)

end SqlTemplate
