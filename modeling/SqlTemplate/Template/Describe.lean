import SqlTemplate.Number.Decimal
import SqlTemplate.Template.Tree
import SqlTemplate.Text.Quoted

/-!
# Operands in messages

A message about an operand gives its structure: constructors with their parts, texts quoted.
-/

set_option autoImplicit false

namespace SqlTemplate

/-- A truth value in a message. -/
def describeBool (b : Bool) : String :=
  if b then "true" else "false"

mutual

/-- An operand with its structure. -/
def Operand.describe : Operand → String
  | .dot => "Dot"
  | .nil => "Nil"
  | .bool b => "Bool(" ++ describeBool b ++ ")"
  | .int n => "Int(" ++ toString n.toInt ++ ")"
  | .float x => "Float(" ++ writeDouble .operand x ++ ")"
  | .text s => "String(" ++ quoted s ++ ")"
  | .field names => "Field(" ++ quotedList names ++ ")"
  | .variable name fields =>
    "Variable \x7b name: " ++ quoted name ++ ", fields: " ++ quotedList fields ++ " \x7d"
  | .function name => "Identifier(" ++ quoted name ++ ")"
  | .chain base fields =>
    "Chain \x7b base: " ++ base.describe ++ ", fields: " ++ quotedList fields ++ " \x7d"
  | .pipe declared assigns commands =>
    "Pipe(PipeNode \x7b decl: " ++ quotedList declared ++ ", is_assign: " ++
      describeBool assigns ++ ", cmds: [" ++ describeCommands commands ++ "] \x7d)"

/-- Commands with their structure, commas between them. -/
def describeCommands : List (List Operand) → String
  | [] => ""
  | [c] => "CommandNode \x7b args: [" ++ describeOperands c ++ "] \x7d"
  | c :: d :: rest =>
    "CommandNode \x7b args: [" ++ describeOperands c ++ "] \x7d, " ++ describeCommands (d :: rest)

/-- Operands with their structure, commas between them. -/
def describeOperands : List Operand → String
  | [] => ""
  | [a] => a.describe
  | a :: b :: rest => a.describe ++ ", " ++ describeOperands (b :: rest)

end

end SqlTemplate
