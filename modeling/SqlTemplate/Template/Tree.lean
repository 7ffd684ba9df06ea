/-!
# Template trees

What a template is once it has been read: literal text, actions that print a pipeline or bind it
to variables, and blocks.
-/

set_option autoImplicit false

namespace SqlTemplate

/-- An operand of a command. Names of variables include the dollar sign. -/
inductive Operand
  | dot
  | nil
  | bool (b : Bool)
  | int (n : Int64)
  | float (x : Float)
  | text (s : String)
  | field (names : List String)
  | variable (name : String) (fields : List String)
  | function (name : String)
  | chain (base : Operand) (fields : List String)
  | pipe (declared : List String) (assigns : Bool) (commands : List (List Operand))
deriving Inhabited

/-- A command: a function with its arguments, or a single operand. -/
abbrev Command := List Operand

/-- A pipeline: the variables it declares or assigns, and its commands, each of which hands its
value to the next. -/
structure Pipeline where
  declared : List String
  assigns : Bool
  commands : List Command
deriving Inhabited

/-- The pipeline as an operand in parentheses. -/
def Pipeline.toOperand (p : Pipeline) : Operand :=
  .pipe p.declared p.assigns p.commands

/-- The kinds of blocks. -/
inductive BlockKind
  | conditional
  | range
  | scoped
deriving Repr, DecidableEq

/-- The word that opens a block. -/
def BlockKind.keyword : BlockKind → String
  | .conditional => "if"
  | .range => "range"
  | .scoped => "with"

/-- A node of a template. Lines count from one. -/
inductive Node
  | text (s : String)
  | action (line : Nat) (pipe : Pipeline)
  | block (kind : BlockKind) (line : Nat) (pipe : Pipeline) (body : List Node)
      (otherwise : Option (List Node))
deriving Inhabited

/-- A template: its name and its nodes. -/
structure Template where
  name : String
  root : List Node
deriving Inhabited

end SqlTemplate
