import SqlTemplate.Template.Pipeline
import SqlTemplate.Template.Segment

/-!
# Blocks

A template is read segment by segment. What has been read so far is the list of the blocks that
are open, the nodes of the innermost list, and the variables in scope; the end of a block turns
it into a node of the list around it.
-/

set_option autoImplicit false

namespace SqlTemplate

/-! ## Open blocks -/

/-- A block whose end has not been read: its header, the nodes before it, the variables before
its header and behind it, the body if its alternative has begun, and whether it shares its end with
the block around it. -/
structure OpenBlock where
  kind : BlockKind
  line : Nat
  pipe : Pipeline
  before : List Node
  outerScope : List String
  innerScope : List String
  body : Option (List Node)
  sharesEnd : Bool

namespace OpenBlock

/-- The node that the block makes when its last list ends. -/
def close (b : OpenBlock) (last : List Node) : Node :=
  match b.body with
  | some body => .block b.kind b.line b.pipe body (some last)
  | none => .block b.kind b.line b.pipe last none

/-- Whether the block may go on with another condition after `else`. -/
def chains (b : OpenBlock) : Bool :=
  b.kind ≠ .range

end OpenBlock

/-- What has been read: the open blocks, the innermost first, the nodes of the innermost list,
and the variables in scope. -/
structure Reading where
  blocks : List OpenBlock
  nodes : List Node
  vars : List String

namespace Reading

/-- Nothing has been read; the dollar sign stands for the data. -/
def start (globals : List String) : Reading :=
  ⟨[], [], "$" :: globals⟩

/-- Appends a node to the innermost list. -/
def push (r : Reading) (node : Node) : Reading :=
  { r with nodes := r.nodes ++ [node] }

/-- Reads a pipeline. -/
def pipeline (isFunction : String → Bool) (r : Reading) (context : PipelineContext) (line : Nat)
    (tokens : List Token) : Except LineFault Pipeline :=
  match Pipeline.ofTokens ⟨isFunction, r.vars⟩ context tokens with
  | .ok p => .ok p
  | .error fault => .error ⟨line, fault⟩

/-- Opens a block. -/
def openBlock (isFunction : String → Bool) (r : Reading) (kind : BlockKind) (line : Nat)
    (sharesEnd : Bool) (tokens : List Token) : Except LineFault Reading := do
  let pipe ← r.pipeline isFunction (.block kind) line tokens
  let inner := pipe.scope r.vars
  .ok ⟨⟨kind, line, pipe, r.nodes, r.vars, inner, none, sharesEnd⟩ :: r.blocks, [], inner⟩

/-- Closes the innermost block, and with it the blocks that share its end. -/
def closeBlocks : List OpenBlock → List Node → Option Reading
  | [], _ => none
  | b :: blocks, nodes =>
    let around := b.before ++ [b.close nodes]
    if b.sharesEnd then closeBlocks blocks around
    else some ⟨blocks, around, b.outerScope⟩

/-- Reads an `end`. Outside of every block it belongs to no line. -/
def endBlock (r : Reading) (line : Nat) (tokens : List Token) : Except LineFault Reading :=
  if tokens ≠ [] then .error ⟨line, .tokensAfterEnd⟩
  else match closeBlocks r.blocks r.nodes with
    | some r => .ok r
    | none => .error ⟨0, .unexpectedEnd⟩

/-- Reads an `else`: the body of the innermost block is complete. -/
def elseBlock (isFunction : String → Bool) (r : Reading) (line : Nat) (tokens : List Token) :
    Except LineFault Reading :=
  match r.blocks with
  | [] => .error ⟨line, .unexpectedElse⟩
  | b :: blocks =>
    if b.body.isSome then .error ⟨line, .expectedEnd⟩
    else
      let r : Reading := ⟨{ b with body := some r.nodes } :: blocks, [], b.innerScope⟩
      match tokens with
      | [] => .ok r
      | first :: rest =>
        if b.chains ∧ first.lexeme = .name b.kind.keyword then
          r.openBlock isFunction b.kind line true rest
        else .error ⟨line, .tokensAfterElse⟩

/-! ## Actions -/

/-- What the first word of an action makes of it. -/
inductive ActionKind
  | close
  | alternative
  | opens (kind : BlockKind)
  | unsupported (word : String)
  | plain
deriving Repr, DecidableEq

/-- The kind of an action, by its first token. -/
def ActionKind.ofLexeme : Lexeme → ActionKind
  | .name word =>
    if word = "end" then .close
    else if word = "else" then .alternative
    else if word = "if" then .opens .conditional
    else if word = "range" then .opens .range
    else if word = "with" then .opens .scoped
    else if ["define", "template", "block", "break", "continue"].contains word then
      .unsupported word
    else .plain
  | _ => .plain

/-- Reads an action. -/
def action (isFunction : String → Bool) (r : Reading) (line : Nat) (tokens : List Token) :
    Except LineFault Reading :=
  match tokens with
  | [] => .error ⟨line, .missingValue .action⟩
  | first :: rest =>
    match ActionKind.ofLexeme first.lexeme with
    | .close => r.endBlock line rest
    | .alternative => r.elseBlock isFunction line rest
    | .opens kind => r.openBlock isFunction kind line false rest
    | .unsupported word => .error ⟨line, .unsupportedAction word⟩
    | .plain => do
      let pipe ← r.pipeline isFunction .action line (first :: rest)
      .ok { r.push (.action line pipe) with vars := pipe.scope r.vars }

/-- Reads a segment. -/
def segment (isFunction : String → Bool) (r : Reading) : Segment → Except LineFault Reading
  | .text s => .ok (r.push (.text s))
  | .action line body =>
    match Token.ofBody body with
    | .ok tokens => r.action isFunction line tokens
    | .error fault => .error ⟨line, fault⟩

/-- The nodes of the template when its source ends. -/
def finish (r : Reading) : Except LineFault (List Node) :=
  match r.blocks with
  | [] => .ok r.nodes
  | b :: _ => .error ⟨b.line, .unterminatedBlock b.kind⟩

end Reading

/-! ## Templates -/

/-- The nodes that a source makes. -/
def readSource (isFunction : String → Bool) (globals : List String) (source : String) :
    Except LineFault (List Node) := do
  let segments ← Segment.ofSource source
  let r ← segments.foldlM (Reading.segment isFunction) (Reading.start globals)
  r.finish

/-- Reads a template. `isFunction` tells which names the host has functions for; `globals` are
variables that exist beside the dollar sign. -/
def Template.parse (name source : String) (isFunction : String → Bool) (globals : List String) :
    Except ParseError Template :=
  match readSource isFunction globals source with
  | .ok root => .ok ⟨name, root⟩
  | .error e => .error ⟨name, e.line, e.fault⟩

end SqlTemplate
