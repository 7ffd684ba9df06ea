/-!
# Bounded stores

A cache with a capacity leaves it to a package what it forgets. The cache is the same for every
implementation of the operations of that package (`Lru`); `LruList` is one of them.
-/

set_option autoImplicit false

namespace SqlTemplate

/-! ## Operations -/

/-- A store that has room for a number of entries, and gives up the one that was used least recently
for a new one. How it keeps them is its own affair. -/
class Lru (κ ν : Type) where
  State : Type
  /-- A store without entries, with room for a number of them. -/
  new : Nat → State
  /-- The value of a key, which counts as a use of it. -/
  get : State → κ → Option ν × State
  /-- Gives a key a value, which counts as a use of it. -/
  put : State → κ → ν → State
  /-- The number of entries. -/
  size : State → Nat
  clear : State → State
  /-- How many entries there is room for. -/
  room : State → Nat
  /-- The value of a key, which does not count as a use. -/
  peek : State → κ → Option ν
  /-- Whether a key comes before another one in the order of their last uses, the latest first. -/
  Newer : State → κ → κ → Prop

/-! ## Entries in a list -/

/-- The entries of other keys. -/
def without {κ ν : Type} [DecidableEq κ] (key : κ) (entries : List (κ × ν)) : List (κ × ν) :=
  entries.filter fun e => e.1 ≠ key

/-- Entries with distinct keys, the most recently used first. -/
structure LruList (κ ν : Type) where
  room : Nat
  entries : List (κ × ν)
  pos : 0 < room
  nodup : (entries.map (·.1)).Nodup
  fits : entries.length ≤ room

section Front

variable {κ ν : Type} [DecidableEq κ]

theorem map_without (key : κ) (entries : List (κ × ν)) :
    (without key entries).map (·.1) = (entries.map (·.1)).filter fun k => k ≠ key := by
  rw [without, List.filter_map]
  rfl

/-- Distinct keys stay distinct when one of them comes to the front. -/
theorem nodup_front {entries : List (κ × ν)} (h : (entries.map (·.1)).Nodup) (key : κ) (v : ν) :
    (((key, v) :: without key entries).map (·.1)).Nodup := by
  rw [List.map_cons, map_without, List.nodup_cons]
  exact ⟨by simp, h.filter _⟩

end Front

namespace LruList

variable {κ ν : Type} [DecidableEq κ]

/-- A list without entries. -/
def new (n : Nat) : LruList κ ν := ⟨max n 1, [], by omega, .nil, Nat.zero_le _⟩

/-- An entry comes to the front, and what there is no room for is dropped. -/
def put (s : LruList κ ν) (key : κ) (v : ν) : LruList κ ν where
  room := s.room
  entries := ((key, v) :: without key s.entries).take s.room
  pos := s.pos
  nodup := by
    rw [List.map_take]
    exact (nodup_front s.nodup key v).sublist (List.take_sublist _ _)
  fits := List.length_take_le _ _

/-- The value of a key, with which it comes to the front. -/
def get (s : LruList κ ν) (key : κ) : Option ν × LruList κ ν :=
  match s.entries.lookup key with
  | none => (none, s)
  | some v => (some v, s.put key v)

/-- How far a key is from the front. -/
def place (s : LruList κ ν) (key : κ) : Nat := (s.entries.map (·.1)).idxOf key

instance : Lru κ ν where
  State := LruList κ ν
  new := new
  get := get
  put := put
  size s := s.entries.length
  clear s := ⟨s.room, [], s.pos, .nil, Nat.zero_le _⟩
  room := room
  peek s key := s.entries.lookup key
  Newer s j k := s.place j < s.place k

end LruList

end SqlTemplate
