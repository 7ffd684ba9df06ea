import SqlTemplate.Template.Builtin
import SqlTemplate.Template.Token

/-!
# Pipelines from tokens

The tokens of an action are first grouped by their parentheses; the groups are then read from the
left, operand after operand and command after command. A parenthesis without its partner stays a
token and is refused when it is reached.
-/

set_option autoImplicit false

namespace SqlTemplate

/-! ## Groups -/

/-- A token, or the tokens between two parentheses. A group keeps whether blanks stand before its
parentheses. -/
inductive TokenTree
  | leaf (t : Token)
  | group (spaced : Bool) (inner : List TokenTree) (closeSpaced : Bool)
deriving Inhabited

namespace TokenTree

/-- The trees when the tokens end inside groups: their opening parentheses stay tokens. -/
def unwind : List (Bool × List TokenTree) → List TokenTree → List TokenTree
  | [], trees => trees
  | (spaced, outer) :: stack, trees =>
    unwind stack (outer ++ .leaf ⟨.leftParen, spaced⟩ :: trees)

/-- Groups tokens; `stack` holds the groups that are open, the innermost first, each with the
trees before it. -/
def nest : List (Bool × List TokenTree) → List TokenTree → List Token → List TokenTree
  | stack, trees, [] => unwind stack trees
  | stack, trees, t :: rest =>
    match t.lexeme, stack with
    | .leftParen, _ => nest ((t.spaced, trees) :: stack) [] rest
    | .rightParen, (spaced, outer) :: stack =>
      nest stack (outer ++ [.group spaced trees t.spaced]) rest
    | _, _ => nest stack (trees ++ [.leaf t]) rest

/-- The groups of a list of tokens. -/
def ofTokens (tokens : List Token) : List TokenTree :=
  nest [] [] tokens

/-- Whether a blank stands before the tree. -/
def spaced : TokenTree → Bool
  | .leaf t => t.spaced
  | .group spaced _ _ => spaced

/-- Whether the tree begins with an opening parenthesis. -/
def beginsParen : TokenTree → Bool
  | .leaf t => t.lexeme = .leftParen
  | .group _ _ _ => true

/-- Whether the tree is the bar between two commands. -/
def isPipe : TokenTree → Bool
  | .leaf t => t.lexeme = .pipe
  | .group _ _ _ => false

/-- The field that the tree appends to the operand before it. -/
def gluedField? : TokenTree → Option String
  | .leaf ⟨.field name, false⟩ => some name
  | _ => none

end TokenTree

/-! ## Operands -/

/-- What a pipeline may use: the functions of the host, and the variables in scope, the innermost
last. -/
structure Names where
  isFunction : String → Bool
  vars : List String

/-- The names that begin like this belong to the library. -/
def reservedStart : String := "__stencil"

/-- Whether a name is reserved. -/
def isReserved (name : String) : Bool :=
  reservedStart.toList.isPrefixOf name.toList

/-- The words that have a meaning in actions. -/
def keywords : List String :=
  ["if", "else", "end", "range", "with", "define", "template", "block", "break", "continue"]

namespace Names

/-- Refuses a variable that is not in scope. -/
def requireVariable (names : Names) (name : String) : Except ParseFault Unit :=
  if names.vars.contains name then .ok () else .error (.undefinedVariable name)

/-- Refuses a function that is reserved or that nobody defines. -/
def requireFunction (names : Names) (name : String) : Except ParseFault Unit :=
  if isReserved name then .error (.reservedName name)
  else if Builtin.isName name || names.isFunction name then .ok ()
  else .error (.undefinedFunction name)

/-- The operand that a name makes. -/
def word (names : Names) (name : String) : Except ParseFault Operand :=
  if name = "true" then .ok (.bool true)
  else if name = "false" then .ok (.bool false)
  else if name = "nil" then .ok .nil
  else if keywords.contains name then .error (.keywordOperand name)
  else (names.requireFunction name).map fun _ => .function name

/-- The operand that a single token makes. -/
def leaf (names : Names) : Lexeme → Except ParseFault Operand
  | .dot => .ok .dot
  | .field name => .ok (.field [name])
  | .variable name => (names.requireVariable name).map fun _ => .variable name []
  | .name name => names.word name
  | .text s => .ok (.text s)
  | .int n => .ok (.int n)
  | .float x => .ok (.float x)
  | .leftParen => .error .unclosedParenthesis
  | .rightParen => .error .unexpectedParenthesis
  | .comma => .error .unexpectedComma
  | .pipe => .error .unexpectedPipe
  | .declare => .error .unexpectedAssignment
  | .assign => .error .unexpectedAssignment

end Names

/-- An operand with one more field behind it. -/
def Operand.withField (name : String) : Operand → Except ParseFault Operand
  | .field names => .ok (.field (names ++ [name]))
  | .variable x names => .ok (.variable x (names ++ [name]))
  | .chain base names => .ok (.chain base (names ++ [name]))
  | .function f => .ok (.chain (.function f) [name])
  | .pipe declared assigns commands => .ok (.chain (.pipe declared assigns commands) [name])
  | _ => .error .fieldOfLiteral

/-- Operands with one more field behind the last of them. -/
def extendLast (name : String) : List Operand → Except ParseFault (List Operand)
  | [] => .ok []
  | [a] => (a.withField name).map ([·])
  | a :: b :: rest => (extendLast name (b :: rest)).map (a :: ·)

/-- Whether the operand can take arguments. -/
def Operand.isFunction : Operand → Bool
  | .function _ => true
  | _ => false

/-- Whether the operand is NULL. -/
def Operand.isNil : Operand → Bool
  | .nil => true
  | _ => false

/-- The command that operands make. -/
def closeCommand : List Operand → Except ParseFault Command
  | [] => .error .missingCommand
  | [a] => if a.isNil then .error .nilCommand else .ok [a]
  | a :: b :: rest =>
    if a.isFunction then .ok (a :: b :: rest) else .error .argumentToNonFunction

/-! ## Declarations -/

/-- The operator of a binding: whether it assigns. -/
def Lexeme.binding? : Lexeme → Option Bool
  | .declare => some false
  | .assign => some true
  | _ => none

/-- The variables that a pipeline binds, whether it assigns them, and the trees behind. -/
structure Binding where
  vars : List String
  assigns : Bool
  rest : List TokenTree

/-- The binding that trees begin with: one variable, or two with a comma, and an operator. -/
def Binding.ofTrees? : List TokenTree → Option Binding
  | .leaf ⟨.variable a, _⟩ :: .leaf ⟨.comma, _⟩ :: .leaf ⟨.variable b, _⟩ :: .leaf op :: rest =>
    op.lexeme.binding?.map fun assigns => ⟨[a, b], assigns, rest⟩
  | .leaf ⟨.variable a, _⟩ :: .leaf op :: rest =>
    op.lexeme.binding?.map fun assigns => ⟨[a], assigns, rest⟩
  | _ => none

/-- Refuses a binding that may not stand where it does. -/
def Binding.check (context : PipelineContext) (b : Binding) : Except ParseFault Unit :=
  if 1 < b.vars.length ∧ context ≠ .block .range then .error .tooManyDeclarations
  else if context = .parentheses then .error .declarationInParentheses
  else .ok ()

/-! ## Commands -/

mutual

/-- The operand that a tree makes. -/
def readOperand (names : Names) : TokenTree → Except ParseFault Operand
  | .leaf t => names.leaf t.lexeme
  | .group _ inner _ => do
    if let some b := Binding.ofTrees? inner then
      b.check .parentheses
    if inner.isEmpty then .error (.missingValue .parentheses)
    else
      let commands ← readCommands names [] inner
      .ok (.pipe [] false commands)

/-- The commands that trees make behind the operands of an unfinished one. -/
def readCommands (names : Names) (current : List Operand) :
    List TokenTree → Except ParseFault (List Command)
  | [] => (closeCommand current).map ([·])
  | tree :: rest =>
    if tree.isPipe then do
      let command ← closeCommand current
      let others ← readCommands names [] rest
      .ok (command :: others)
    else if current.isEmpty then do
      let operand ← readOperand names tree
      readCommands names [operand] rest
    else match tree.gluedField? with
      | some name => do
        let current ← extendLast name current
        readCommands names current rest
      | none =>
        if !tree.spaced && !tree.beginsParen then .error .missingSpace
        else do
          let operand ← readOperand names tree
          readCommands names (current ++ [operand]) rest

end

/-! ## Pipelines -/

namespace Pipeline

/-- The pipeline that trees make behind their binding. -/
def ofCommands (names : Names) (context : PipelineContext) (declared : List String)
    (assigns : Bool) (trees : List TokenTree) : Except ParseFault Pipeline :=
  if trees.isEmpty then .error (.missingValue context)
  else (readCommands names [] trees).map fun commands => ⟨declared, assigns, commands⟩

/-- The pipeline that trees make. Assigned variables have to be in scope. -/
def ofTrees (names : Names) (context : PipelineContext) (trees : List TokenTree) :
    Except ParseFault Pipeline :=
  match Binding.ofTrees? trees with
  | none => ofCommands names context [] false trees
  | some b => do
    b.check context
    if b.assigns then b.vars.forM names.requireVariable
    ofCommands names context b.vars b.assigns b.rest

/-- The pipeline that tokens make. -/
def ofTokens (names : Names) (context : PipelineContext) (tokens : List Token) :
    Except ParseFault Pipeline :=
  ofTrees names context (TokenTree.ofTokens tokens)

/-- The variables in scope behind the pipeline. -/
def scope (p : Pipeline) (vars : List String) : List String :=
  if p.assigns then vars else vars ++ p.declared

end Pipeline

end SqlTemplate
