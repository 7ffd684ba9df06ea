/-!
# Sorted keys

Lists of keyed values in the order of their keys, each key once.
-/

set_option autoImplicit false

namespace SqlTemplate

/-- Puts a value into its place among sorted keys; an earlier value of the same key gives way. -/
def putSorted {α : Type} (key : String) (value : α) : List (String × α) → List (String × α)
  | [] => [(key, value)]
  | (k, v) :: rest =>
    if key < k then (key, value) :: (k, v) :: rest
    else if key = k then (key, value) :: rest
    else (k, v) :: putSorted key value rest

/-- The given values sorted by their keys, the last one of each key. -/
def sortKeys {α : Type} (items : List (String × α)) : List (String × α) :=
  items.foldl (fun sorted e => putSorted e.1 e.2 sorted) []

end SqlTemplate
