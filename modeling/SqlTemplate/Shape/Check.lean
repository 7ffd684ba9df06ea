import SqlTemplate.Shape.Basic
import SqlTemplate.Statement.Function
import SqlTemplate.Template.Tree

/-!
# Checking templates against shapes

A template is checked once against the types of its parameters and of its destination: a field
that the type does not have, and a scan whose destination is none, are found before the first
execution. The check follows every branch and knows for each operand the type of its value, that
it is a place in the destination, that it is a literal, or nothing.
-/

set_option autoImplicit false

namespace SqlTemplate

/-! ## Failures -/

/-- Why a template does not fit its types; `other` is a failure that was reported in words of its
own, in the types or in the template. -/
inductive CheckFault
  | fieldOfLiteral (field : String)
  | noField (type : String) (field : String)
  | noDestinationField (type : String) (field : String)
  | scanWithoutDestination (function : String)
  | other (ofTypes : Bool) (text : String)
deriving Repr, DecidableEq

/-- The wording of the failure. -/
def CheckFault.message : CheckFault → String
  | .fieldOfLiteral field => "can't evaluate field " ++ field ++ " of a literal"
  | .noField type field => type ++ " has no field " ++ field
  | .noDestinationField type field => "destination " ++ type ++ " has no field " ++ field
  | .scanWithoutDestination function => function ++ ": destination must be a Dest reference"
  | .other _ text => text

/-- Whether the failure lies in the types; otherwise the template itself cannot be compiled. -/
def CheckFault.isOfTypes : CheckFault → Bool
  | .fieldOfLiteral _ | .noField _ _ | .noDestinationField _ _ => true
  | .scanWithoutDestination _ => false
  | .other ofTypes _ => ofTypes

/-! ## What is known -/

/-- What is known about a value: its type, that it is a place in the destination (of a type,
unless the place is found only when it is run), that it is a literal, or nothing. -/
inductive Known
  | shape (s : Shape)
  | place (s : Option Shape)
  | literal
  | anything

instance : Inhabited Known := ⟨.anything⟩

namespace Known

/-- Looks through optionality. -/
def peel : Known → Known
  | .shape s => .shape s.peel
  | .place (some s) => .place (some s.peel)
  | known => known

/-- What is known about the items of a sequence. -/
def item (known : Known) : Known :=
  match known.peel with
  | .shape s => (s.item?.map .shape).getD .anything
  | _ => .anything

/-- What is known about a field. -/
def field (known : Known) (name : String) : Except CheckFault Known :=
  match known.peel with
  | .anything => .ok .anything
  | .place none => .ok (.place none)
  | .literal => .error (.fieldOfLiteral name)
  | .shape s =>
    match s.lookup name with
    | .found f => .ok (.shape f)
    | .dynamic => .ok .anything
    | .missing => .error (.noField s.identifier name)
  | .place (some s) =>
    match s.lookup name with
    | .found f => .ok (.place (some f))
    | .dynamic => .ok (.place none)
    | .missing => .error (.noDestinationField s.identifier name)

/-- Follows fields. -/
def fields : List String → Known → Except CheckFault Known
  | [], known => .ok known
  | name :: rest, known => (known.field name).bind (fields rest)

/-- Whether a scan can take the value as its destination. -/
def canBePlace : Known → Bool
  | .place _ | .anything => true
  | _ => false

end Known

/-! ## The check -/

/-- What is known about variables, the innermost first. -/
abbrev KnownVariables := List (String × Known)

/-- A step of the check: it changes what is known about variables. -/
abbrev Check (α : Type) := StateT KnownVariables (Except CheckFault) α

namespace Check

/-- Stops the check. -/
def stop {α : Type} (fault : CheckFault) : Check α :=
  StateT.lift (.error fault)

/-- Continues with what was found, or stops. -/
def ofExcept {α : Type} (result : Except CheckFault α) : Check α :=
  StateT.lift result

/-- The number of variables. -/
def mark : Check Nat := do
  return (← get).length

/-- Drops the variables that came after the first `count`. -/
def keep (count : Nat) : Check Unit :=
  modify fun vars => vars.drop (vars.length - count)

/-- Nothing is known any more about the innermost variable of a name. -/
def forget (name : String) : KnownVariables → KnownVariables
  | [] => []
  | (n, known) :: rest =>
    if n = name then (n, .anything) :: rest else (n, known) :: forget name rest

/-- Declares a variable, or forgets what was known about one that is assigned. -/
def bind (assigns : Bool) (name : String) (known : Known) : Check Unit :=
  modify fun vars => if assigns then forget name vars else (name, known) :: vars

/-- Binds variables one after the other to the same value. -/
def bindAll (assigns : Bool) (known : Known) : List String → Check Unit
  | [] => return
  | name :: rest => do
    bind assigns name known
    bindAll assigns known rest

/-- What is known about a variable. -/
def valueOf (name : String) : Check Known := do
  return ((← get).lookup name).getD .anything

end Check

/-- Whether a command registers a scan in a place that is none. With the column handed over by the
command before it, the destination is the only argument that is written. -/
def scansNowhere (name : String) (piped : Bool) (args : List Known) : Bool :=
  isScanName name &&
    match args with
    | [] => !piped
    | dest :: _ => !dest.canBePlace

/-- What is known about the value of a function without arguments. -/
def knownFunction (dest : Shape) (name : String) : Known :=
  if name = destName then .place (some dest) else .anything

mutual

/-- What is known about the value of an operand. -/
def checkOperand (dest : Shape) (dot : Known) : Operand → Check Known
  | .dot => return dot
  | .nil | .bool _ | .int _ | .float _ | .text _ => return .literal
  | .field names => Check.ofExcept (dot.fields names)
  | .variable name names => do
    let known ← Check.valueOf name
    Check.ofExcept (known.fields names)
  | .function name => return knownFunction dest name
  | .chain base names => do
    let known ← checkOperand dest dot base
    Check.ofExcept (known.fields names)
  | .pipe declared assigns commands => do
    let known ← checkCommands dest dot false .anything commands
    Check.bindAll assigns known declared
    return known

/-- What is known about the values of operands. -/
def checkOperands (dest : Shape) (dot : Known) : List Operand → Check (List Known)
  | [] => return []
  | a :: rest => do
    let known ← checkOperand dest dot a
    let others ← checkOperands dest dot rest
    return known :: others

/-- What is known about the value of a command; `piped` tells whether another stands before it. -/
def checkCommand (dest : Shape) (dot : Known) (piped : Bool) : List Operand → Check Known
  | [] => return .anything
  | .function name :: args => do
    let knowns ← checkOperands dest dot args
    if scansNowhere name piped knowns then Check.stop (.scanWithoutDestination name)
    else return knownFunction dest name
  | operand :: _ => checkOperand dest dot operand

/-- What is known about the value that commands hand over. -/
def checkCommands (dest : Shape) (dot : Known) (piped : Bool) (known : Known) :
    List (List Operand) → Check Known
  | [] => return known
  | command :: rest => do
    let known ← checkCommand dest dot piped command
    checkCommands dest dot true known rest

end

/-- What is known about the value of a pipeline, to which its variables are bound. -/
def checkPipeline (dest : Shape) (dot : Known) (p : Pipeline) : Check Known := do
  let known ← checkCommands dest dot false .anything p.commands
  Check.bindAll p.assigns known p.declared
  return known

/-- Binds the variables of a range. -/
def checkItem (p : Pipeline) (item : Known) : Check Unit :=
  match p.declared with
  | [] => return
  | [name] => Check.bind p.assigns name item
  | index :: name :: _ => do
    Check.bind p.assigns index .anything
    Check.bind p.assigns name item

mutual

/-- Checks a node. Variables that the body of a block declares are still there in its
alternative. -/
def checkNode (dest : Shape) (dot : Known) : Node → Check Unit
  | .text _ => return
  | .action _ pipe => do
    let _ ← checkPipeline dest dot pipe
  | .block .range _ pipe body otherwise => do
    let mark ← Check.mark
    let known ← checkCommands dest dot false .anything pipe.commands
    checkItem pipe known.item
    checkNodes dest known.item body
    checkOption dest dot otherwise
    Check.keep mark
  | .block kind _ pipe body otherwise => do
    let mark ← Check.mark
    let known ← checkPipeline dest dot pipe
    checkNodes dest (if kind = .scoped then known.peel else dot) body
    checkOption dest dot otherwise
    Check.keep mark

/-- Checks nodes one after the other. -/
def checkNodes (dest : Shape) (dot : Known) : List Node → Check Unit
  | [] => return
  | node :: rest => do
    checkNode dest dot node
    checkNodes dest dot rest

/-- Checks the alternative of a block, if it has one. -/
def checkOption (dest : Shape) (dot : Known) : Option (List Node) → Check Unit
  | none => return
  | some nodes => checkNodes dest dot nodes

end

/-- Checks a template against the types of its parameters and of its destination; `globals` are
variables about which nothing is known. -/
def Template.check (t : Template) (params dest : Shape) (globals : List String) :
    Except CheckFault Unit :=
  let vars : KnownVariables := ("$", .shape params) :: globals.map fun name => (name, .anything)
  (checkNodes dest (.shape params) t.root).run' vars.reverse

end SqlTemplate
