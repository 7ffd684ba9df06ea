import Mathlib
import SqlTemplate.Proofs.Shape.Fields
import SqlTemplate.Proofs.Statement.Columns
import SqlTemplate.Statement.Rows

/-!
# Columns by their names

The value of a column is found by its name in the row itself, or in the map that the row makes. Both
searches take the column whose name is the wanted one, or else the first that it matches, but of
columns of one name the row gives the first, and the map holds the last. So they agree just if both
hold the same value (`Row.get?_eq_field?_iff`), and a row that names a column twice can be read in
two ways (`Row.get?_ne_field?`).
-/

set_option autoImplicit false

namespace SqlTemplate

/-! ## Entries that are put one after the other -/

/-- A key has the value that was put last. -/
theorem lookup_foldl_putEntry (key : String) (entries front : Entries) :
    (entries.foldl (fun m e => putEntry e.1 e.2 m) front).lookup key =
      (entries.reverse.lookup key).or (front.lookup key) :=
  lookup_foldl_put lookup_putEntry key entries front

/-- A key that is there already does not change what names read. -/
theorem readKey?_append_of_mem {front : List String} {key : String} (h : key ∈ front)
    (behind : List String) (name : String) :
    readKey? (front ++ key :: behind) name = readKey? (front ++ behind) name := by
  have hmem : name ∈ front ++ key :: behind ↔ name ∈ front ++ behind := by
    simp only [List.mem_append, List.mem_cons]
    constructor
    · rintro (hname | rfl | hname)
      · exact .inl hname
      · exact .inl h
      · exact .inr hname
    · rintro (hname | hname)
      · exact .inl hname
      · exact .inr (.inr hname)
  rw [readKey?, readKey?]
  simp only [hmem, List.find?_append]
  cases hfind : front.find? fun key => nameMatches key name with
  | some found => simp
  | none =>
      -- What does not match in front does not match when it comes again.
      have hkey := List.find?_eq_none.mp hfind key h
      simp [hkey]

/-- Names read the same among keys that are put one after the other as among the keys of the map. -/
theorem readKey?_foldl_putEntry (entries front : Entries) (name : String) :
    readKey? ((entries.foldl (fun m e => putEntry e.1 e.2 m) front).map (·.1)) name =
      readKey? (front.map (·.1) ++ entries.map (·.1)) name := by
  induction entries generalizing front with
  | nil => rw [List.foldl_nil, List.map_nil, List.append_nil]
  | cons e rest ih =>
      rw [List.foldl_cons, ih, Value.keys_putEntry, List.map_cons]
      split
      · rename_i hmem
        rw [readKey?_append_of_mem hmem]
      · rw [List.append_assoc, List.singleton_append]

/-- A name finds in a map of entries the last one of the key that it reads among theirs. -/
theorem field?_ofEntries (entries : Entries) (name : String) :
    (Value.ofEntries entries).field? name =
      (readKey? (entries.map (·.1)) name).bind fun key => entries.reverse.lookup key := by
  have hread := readKey?_foldl_putEntry entries [] name
  have hlookup := fun key => lookup_foldl_putEntry key entries []
  simp only [List.map_nil, List.nil_append, List.lookup_nil, Option.or_none] at hread hlookup
  show findEntry name (entries.foldl (fun m e => putEntry e.1 e.2 m) []) = _
  simp only [findEntry_eq_readKey?, hread, hlookup]

/-! ## Positions of names -/

/-- The first name with a property stands at the first position of a name that has it. -/
theorem findIdx?_eq_bind (p : String → Bool) (names : List String) :
    names.findIdx? p = (names.find? p).bind fun key => names.findIdx? (· = key) := by
  induction names with
  | nil => rfl
  | cons first rest ih =>
      rw [List.findIdx?_cons, List.find?_cons]
      cases hp : p first with
      | true => simp [List.findIdx?_cons]
      | false =>
          rw [ih]
          cases hfind : rest.find? p with
          | none => rfl
          | some key =>
              have hne : first ≠ key := by
                rintro rfl
                rw [List.find?_some hfind] at hp
                cases hp
              simp [List.findIdx?_cons, hne]

/-- The position that a name finds is the first one of the name that it reads. -/
theorem findName_eq_readKey? (names : List String) (name : String) :
    findName name names = (readKey? names name).bind fun key => names.findIdx? (· = key) := by
  rw [findName, findIdx?_eq_bind fun key => nameMatches key name]
  by_cases hmem : name ∈ names
  · have hfound : names.findIdx? (· = name) ≠ none := by
      simpa using hmem
    obtain ⟨i, hi⟩ := Option.ne_none_iff_exists'.mp hfound
    rw [readKey?_of_mem hmem, hi]
    exact hi.symm
  · have hnone : names.findIdx? (· = name) = none := by
      simpa using fun key (hkey : key ∈ names) (heq : key = name) => hmem (heq ▸ hkey)
    rw [readKey?_of_not_mem hmem, hnone, Option.none_or]

theorem findName_lt {names : List String} {name : String} {i : Nat}
    (h : findName name names = some i) : i < names.length := by
  rw [findName_eq_readKey?, Option.bind_eq_some_iff] at h
  obtain ⟨key, -, hi⟩ := h
  exact (List.findIdx?_eq_some_iff_getElem.mp hi).1

/-- Whether a position is the last one at which the name of another position stands. -/
def LastOf (names : List String) (i j : Nat) : Prop :=
  names[j]? = names[i]? ∧ ∀ k, j < k → names[k]? ≠ names[i]?

theorem exists_lastOf {names : List String} {i : Nat} (hi : i < names.length) :
    ∃ j, LastOf names i j := by
  refine ⟨Nat.findGreatest (fun k => names[k]? = names[i]?) names.length, ?_, fun k hk => ?_⟩
  · exact Nat.findGreatest_spec (P := fun k => names[k]? = names[i]?) hi.le rfl
  · by_cases hlength : k ≤ names.length
    · exact Nat.findGreatest_is_greatest hk hlength
    · rw [List.getElem?_eq_none (by omega), List.getElem?_eq_getElem hi]
      simp

/-- The last entry of a key stands at the last position of the key. -/
theorem lookup_reverse_zip {names : List String} {values : List Value}
    (hlength : values.length = names.length) {key : String} {j : Nat} (hj : names[j]? = some key)
    (hlast : ∀ k, j < k → names[k]? ≠ some key) :
    (names.zip values).reverse.lookup key = values[j]? := by
  induction names generalizing values j with
  | nil => cases hj
  | cons first rest ih =>
      cases values with
      | nil => cases hlength
      | cons v others =>
          have hrest : others.length = rest.length := Nat.succ.inj hlength
          rw [List.zip_cons_cons, List.reverse_cons, List.lookup_append, lookup_cons_ite]
          cases j with
          | zero =>
              -- The key is in front and nowhere behind.
              obtain rfl : first = key := Option.some.inj hj
              have hkey : first ∉ rest := fun hmem => by
                obtain ⟨k, hk⟩ := List.mem_iff_getElem?.mp hmem
                exact hlast (k + 1) (by omega) hk
              have hnone : (rest.zip others).reverse.lookup first = none := by
                rw [lookup_eq_none, List.map_reverse, List.map_fst_zip hrest.ge, List.mem_reverse]
                exact hkey
              rw [hnone]
              simp
          | succ j =>
              have hbehind := ih hrest hj fun k hk => hlast (k + 1) (by omega)
              have hlt : j < others.length :=
                hrest ▸ Nat.lt_of_succ_lt_succ (List.getElem?_eq_some_iff.mp hj).1
              rw [hbehind, List.getElem?_cons_succ, List.getElem?_eq_getElem hlt, Option.some_or]

/-! ## Rows -/

namespace Row

variable {row : Row} {name : String}

theorem get?_of_findName {i : Nat} (hi : findName name row.columns = some i) :
    row.get? name = row.values[i]? := by
  rw [get?, hi, Option.bind_some]

/-- The map of a row holds the value of the last column of a name. -/
theorem field?_toMap (h : row.values.length = row.columns.length) {i j : Nat}
    (hi : findName name row.columns = some i) (hj : LastOf row.columns i j) :
    row.toMap.field? name = row.values[j]? := by
  rw [findName_eq_readKey?, Option.bind_eq_some_iff] at hi
  obtain ⟨key, hkey, hi⟩ := hi
  have hcolumn : row.columns[i]? = some key := by
    obtain ⟨hlt, hname, -⟩ := List.findIdx?_eq_some_iff_getElem.mp hi
    rw [List.getElem?_eq_getElem hlt, of_decide_eq_true hname]
  rw [LastOf, hcolumn] at hj
  rw [toMap, field?_ofEntries, List.map_fst_zip h.ge, hkey, Option.bind_some]
  exact lookup_reverse_zip h hj.1 hj.2

/-- A name that finds no column finds nothing in the map. -/
theorem field?_toMap_eq_none (h : row.values.length = row.columns.length)
    (hnone : findName name row.columns = none) : row.toMap.field? name = none := by
  rw [findName_eq_readKey?, Option.bind_eq_none_iff] at hnone
  rw [toMap, field?_ofEntries, List.map_fst_zip h.ge, Option.bind_eq_none_iff]
  intro key hkey
  have hmem := mem_of_readKey? hkey
  have habsent := hnone key hkey
  simp only [List.findIdx?_eq_none_iff, decide_eq_false_iff_not] at habsent
  exact absurd rfl (habsent key hmem)

/-- **A column by its name and in the map.** In a row with one value per column, a name finds the
first column of a name and, in the map of the row, the last column of this name. So both find the
same value just if these two columns hold the same one. -/
theorem get?_eq_field?_iff (h : row.values.length = row.columns.length) (name : String) :
    (row.get? name = row.toMap.field? name ↔
      ∀ i j, findName name row.columns = some i → LastOf row.columns i j →
        row.values[i]? = row.values[j]?) ∧
    (findName name row.columns = none → row.get? name = none ∧ row.toMap.field? name = none) ∧
    ∀ i j, findName name row.columns = some i → LastOf row.columns i j →
      row.get? name = row.values[i]? ∧ row.toMap.field? name = row.values[j]? := by
  have hnone : findName name row.columns = none →
      row.get? name = none ∧ row.toMap.field? name = none := fun hnone =>
    ⟨by rw [get?, hnone, Option.bind_none], field?_toMap_eq_none h hnone⟩
  have hsome : ∀ i j, findName name row.columns = some i → LastOf row.columns i j →
      row.get? name = row.values[i]? ∧ row.toMap.field? name = row.values[j]? := fun i j hi hj =>
    ⟨get?_of_findName hi, field?_toMap h hi hj⟩
  refine ⟨⟨fun heq i j hi hj => ?_, fun hvalues => ?_⟩, hnone, hsome⟩
  · obtain ⟨hget, hfield⟩ := hsome i j hi hj
    rw [← hget, ← hfield, heq]
  · cases hfind : findName name row.columns with
    | none => rw [(hnone hfind).1, (hnone hfind).2]
    | some i =>
        obtain ⟨j, hj⟩ := exists_lastOf (findName_lt hfind)
        obtain ⟨hget, hfield⟩ := hsome i j hfind hj
        rw [hget, hfield, hvalues i j hfind hj]

/-- Columns that differ in case, and one that is repeated with the same value. -/
theorem get?_eq_field?_iff_repeated :
    let row : Row := ⟨["ID", "id", "author_id", "ID"], [.int 1, .int 2, .int 3, .int 1]⟩
    row.values.length = row.columns.length ∧
      row.get? "Id" = some (.int 1) ∧ row.get? "Id" = row.toMap.field? "Id" := by
  intro row
  have hfound : findName "Id" row.columns = some 0 := by
    decide
  have hlength : row.values.length = row.columns.length := rfl
  refine ⟨hlength, rfl, (get?_eq_field?_iff hlength "Id").1.mpr fun i j hi hj => ?_⟩
  obtain rfl : i = 0 := Option.some.inj (hi.symm.trans hfound)
  -- The name stands at the first and at the last position.
  match j, hj with
  | 0, _ => rfl
  | 3, _ => rfl
  | 1, hj => exact absurd hj.1 (by decide)
  | 2, hj => exact absurd hj.1 (by decide)
  | k + 4, hj => exact absurd hj.1 (by simp [row])

/-- **A repeated column is read twice over**: a name finds the first of its columns, and the last of
them in the map. -/
theorem get?_ne_field? :
    let row : Row := ⟨["id", "title", "id"], [.int 1, .text "x", .int 9]⟩
    row.values.length = row.columns.length ∧ row.get? "id" = some (.int 1) ∧
      row.toMap.field? "id" = some (.int 9) ∧ row.get? "id" ≠ row.toMap.field? "id" := by
  intro row
  have hget : row.get? "id" = some (.int 1) := rfl
  have hfield : row.toMap.field? "id" = some (.int 9) := rfl
  refine ⟨rfl, hget, hfield, ?_⟩
  rw [hget, hfield]
  simp

end Row

end SqlTemplate
