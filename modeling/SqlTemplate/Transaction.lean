import SqlTemplate.Error

/-!
# Transactions

A body that works inside a transaction. What the body yields is kept only if the transaction could
be committed; a body that fails or crashes is rolled back, and whether that succeeds does not
change what the caller gets.
-/

set_option autoImplicit false

namespace SqlTemplate

/-- How something that runs ends: with a value, with an error, or by a crash with a text. -/
inductive Outcome (α : Type)
  | returned (a : α)
  | failed (error : Error)
  | crashed (text : String)

/-- Whether it ended with a value. -/
def Outcome.isReturned {α : Type} : Outcome α → Bool
  | .returned _ => true
  | _ => false

/-- A connection that can open a transaction and close it in either way; `σ` is what it works
on. -/
structure Connection (σ : Type) where
  begin : StateM σ (Except Error Unit)
  commit : StateM σ (Except Error Unit)
  rollback : StateM σ (Except Error Unit)

/-- Closes a transaction as the outcome of its body demands. -/
def Connection.close {σ α : Type} (conn : Connection σ) :
    Outcome α → StateM σ (Outcome α)
  | .returned a => do
    match ← conn.commit with
    | .ok _ => return .returned a
    | .error e => return .failed e
  | outcome => do
    let _ ← conn.rollback
    return outcome

/-- Runs a body inside a transaction. -/
def Connection.transaction {σ α : Type} (conn : Connection σ) (body : StateM σ (Outcome α)) :
    StateM σ (Outcome α) := do
  match ← conn.begin with
  | .error e => return .failed e
  | .ok _ => conn.close (← body)

end SqlTemplate
