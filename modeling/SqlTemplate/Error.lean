import SqlTemplate.Shape.Check
import SqlTemplate.Shape.Reflection
import SqlTemplate.Template.Eval
import SqlTemplate.Template.Fault

/-!
# Errors

Everything that can go wrong between the text of a template and the values of a result, the texts
that tell it, and the layers that errors pick up on their way to the caller.
-/

set_option autoImplicit false

namespace SqlTemplate

/-- Why a configuration is refused; a document that is `unreadable` is reported in words that are
not this library's. -/
inductive ConfigFault
  | unreadable
  | unknownPlaceholder (name : String)
  | unknownMissingKey (name : String)
  | undeclaredVariable (name : String)
  | reservedFunction (name : String)
  | other (text : String)
deriving Repr, DecidableEq

/-- The wording of the refusal, where it is this library's. -/
def ConfigFault.message? : ConfigFault → Option String
  | .unreadable => none
  | .unknownPlaceholder name => some ("unknown placeholder style " ++ quoted name)
  | .unknownMissingKey name => some ("unknown missing_key policy " ++ quoted name)
  | .undeclaredVariable name => some ("variable " ++ name ++ " is not declared")
  | .reservedFunction name => some ("function name " ++ name ++ " is reserved")
  | .other text => some text

/-- An error. `server` is reported by the database server, `driver` by another driver; `withSql`
adds the statement that was run, and `shared` marks the error of an execution that several
callers waited for. -/
inductive Error
  | server
  | parse (error : ParseError)
  | eval (error : EvalError)
  | check (template : String) (fault : CheckFault)
  | reflection (fault : ReflectionFault)
  | scan (column : String)
  | mapper (column : String) (cause : Cause)
  | columnCount (expected got : Nat)
  | notFound
  | tooManyRows
  | config (fault : ConfigFault)
  | driver (text : String)
  | withSql (sql : String) (source : Error)
  | shared (source : Error)

instance : Inhabited Error := ⟨.notFound⟩

namespace Error

/-- The text of an error, where it is this library's. -/
def message? : Error → Option String
  | .server => none
  | .parse error => some error.message
  | .eval error => error.message?
  | .check template fault => some ("template " ++ template ++ ": " ++ fault.message)
  | .reflection fault => fault.message?
  | .scan _ => none
  | .mapper column cause =>
    cause.message?.map fun text => "mapper for column " ++ column ++ " failed: " ++ text
  | .columnCount expected got =>
    some ("query returned " ++ toString got ++ " columns, template registered " ++
      toString expected ++ " destinations")
  | .notFound => some "no rows in result set"
  | .tooManyRows => some "more than one row in result set"
  | .config fault => fault.message?.map ("invalid configuration: " ++ ·)
  | .driver text => some ("driver error: " ++ text)
  | .withSql sql source => source.message?.map fun text => text ++ " (sql: " ++ sql ++ ")"
  | .shared source => source.message?

/-- The error under all layers. -/
def root : Error → Error
  | .withSql _ source => source.root
  | .shared source => source.root
  | e => e

/-- Whether a row was missing. -/
def isNotFound (e : Error) : Bool :=
  match e.root with
  | .notFound => true
  | _ => false

/-- Whether there were too many rows. -/
def isTooManyRows (e : Error) : Bool :=
  match e.root with
  | .tooManyRows => true
  | _ => false

end Error

end SqlTemplate
