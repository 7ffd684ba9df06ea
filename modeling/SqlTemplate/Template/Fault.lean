import SqlTemplate.Template.Tree
import SqlTemplate.Text.Quoted

/-!
# Why a source is no template

The causes for which reading a template stops, and their wording.
-/

set_option autoImplicit false

namespace SqlTemplate

/-- Where a pipeline stands. -/
inductive PipelineContext
  | action
  | block (kind : BlockKind)
  | parentheses
deriving Repr, DecidableEq

/-- How messages call the place of a pipeline. -/
def PipelineContext.keyword : PipelineContext → String
  | .action => "command"
  | .block kind => kind.keyword
  | .parentheses => "parenthesized pipeline"

/-- What is wrong with a source. -/
inductive ParseFault
  | unclosedAction
  | commentEndsEarly
  | unexpectedCharacter (c : Char)
  | badNumber (text : List Char)
  | unterminatedText
  | unterminatedRawText
  | unknownEscape (c : Char)
  | missingValue (context : PipelineContext)
  | missingCommand
  | tooManyDeclarations
  | declarationInParentheses
  | missingSpace
  | argumentToNonFunction
  | nilCommand
  | keywordOperand (word : String)
  | unclosedParenthesis
  | unexpectedParenthesis
  | unexpectedComma
  | unexpectedPipe
  | unexpectedAssignment
  | fieldOfLiteral
  | unsupportedAction (word : String)
  | tokensAfterEnd
  | tokensAfterElse
  | unexpectedEnd
  | unexpectedElse
  | expectedEnd
  | undefinedFunction (name : String)
  | undefinedVariable (name : String)
  | reservedName (name : String)
  | unterminatedBlock (kind : BlockKind)
deriving Repr, DecidableEq

/-- The wording of a cause. -/
def ParseFault.message : ParseFault → String
  | .unclosedAction => "unclosed action"
  | .commentEndsEarly => "comment ends before closing delimiter"
  | .unexpectedCharacter c => "unexpected character " ++ quotedChar c ++ " in action"
  | .badNumber text => "bad number syntax: " ++ String.ofList text
  | .unterminatedText => "unterminated quoted string"
  | .unterminatedRawText => "unterminated raw quoted string"
  | .unknownEscape c => "unknown escape sequence \\" ++ c.toString
  | .missingValue context => "missing value for " ++ context.keyword
  | .missingCommand => "missing command in pipeline"
  | .tooManyDeclarations => "too many declarations"
  | .declarationInParentheses => "declaration inside parenthesized pipeline"
  | .missingSpace => "missing space between operands"
  | .argumentToNonFunction => "can't give argument to non-function"
  | .nilCommand => "nil is not a command"
  | .keywordOperand word => "unexpected " ++ quoted word ++ " in operand"
  | .unclosedParenthesis => "unclosed left paren"
  | .unexpectedParenthesis => "unexpected right paren"
  | .unexpectedComma => "unexpected comma"
  | .unexpectedPipe => "unexpected pipe"
  | .unexpectedAssignment => "unexpected assignment"
  | .fieldOfLiteral => "unexpected field access after literal"
  | .unsupportedAction word => "\x7b\x7b" ++ word ++ "\x7d\x7d is not supported"
  | .tokensAfterEnd => "unexpected tokens after end"
  | .tokensAfterElse => "unexpected tokens after else"
  | .unexpectedEnd => "unexpected \x7b\x7bend\x7d\x7d"
  | .unexpectedElse => "unexpected \x7b\x7belse\x7d\x7d"
  | .expectedEnd => "expected end; found \x7b\x7belse\x7d\x7d"
  | .undefinedFunction name => "function " ++ quoted name ++ " not defined"
  | .undefinedVariable name => "undefined variable " ++ quoted name
  | .reservedName name => quoted name ++ " uses a reserved name"
  | .unterminatedBlock kind =>
    "unexpected EOF, " ++ kind.keyword ++ " is missing \x7b\x7bend\x7d\x7d"

/-- A cause with the line at which it was found. -/
structure LineFault where
  line : Nat
  fault : ParseFault
deriving Repr, DecidableEq

/-- Why the source of a template could not be read. -/
structure ParseError where
  template : String
  line : Nat
  fault : ParseFault
deriving Repr, DecidableEq

/-- The text of the error. -/
def ParseError.message (e : ParseError) : String :=
  "template " ++ e.template ++ ":" ++ toString e.line ++ ": " ++ e.fault.message

end SqlTemplate
