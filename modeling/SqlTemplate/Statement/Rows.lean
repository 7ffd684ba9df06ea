import SqlTemplate.Value.Basic

/-!
# Rows

What a query yields: the names of the columns, and rows of values. Rows need not have as many
values as there are columns.
-/

set_option autoImplicit false

namespace SqlTemplate

/-- A row with the names of its columns. -/
structure Row where
  columns : List String
  values : List Value

namespace Row

/-- The value of the column that a name finds. -/
def get? (row : Row) (name : String) : Option Value :=
  (findName name row.columns).bind fun i => row.values[i]?

/-- The row as a map from the names of the columns to their values. -/
def toMap (row : Row) : Value :=
  Value.ofEntries (row.columns.zip row.values)

/-- The name of a column, or its position, counted from one, if it has none. -/
def columnName (row : Row) (index : Nat) : String :=
  row.columns[index]?.getD ("#" ++ toString (index + 1))

end Row

/-- The result of a query. -/
structure Rows where
  columns : List String
  values : List (List Value)

namespace Rows

/-- No rows, and no columns. -/
def empty : Rows := ⟨[], []⟩

/-- The rows, each with the names of the columns. -/
def toList (rows : Rows) : List Row :=
  rows.values.map fun values => ⟨rows.columns, values⟩

/-- The number of rows. -/
def size (rows : Rows) : Nat :=
  rows.values.length

/-- Whether there are no rows. -/
def isEmpty (rows : Rows) : Bool :=
  rows.values.isEmpty

/-- The row at a position. -/
def get? (rows : Rows) (index : Nat) : Option Row :=
  rows.toList[index]?

/-- The first row. -/
def first? (rows : Rows) : Option Row :=
  rows.toList.head?

end Rows

end SqlTemplate
