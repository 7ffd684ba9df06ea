import Mathlib
import SqlTemplate.Proofs.Basic
import SqlTemplate.Shape.Check
import SqlTemplate.Shape.Reflection

/-!
# Values of a type

What the check claims to know of a value is a property of the value: that it came from a typed value
of the type, or is a place in the destination that has the type. A step of the check, to a
field or to the items of a sequence, is right if the value has the property that it yields.
-/

set_option autoImplicit false

namespace SqlTemplate

/-! ## Typed values of a type -/

mutual

/-- Whether a typed value is of a type. -/
def Shape.Holds : Shape → Datum → Prop
  | .unit, .unit => True
  | .bool, .bool _ => True
  | .char, .char _ => True
  | .int type, .int type' n => type' = type ∧ type.low ≤ n ∧ n ≤ type.high
  | .float32, .float32 _ => True
  | .float64, .float64 _ => True
  | .text, .text _ => True
  | .borrowed, .borrowed _ => True
  | .bytes, .bytes _ => True
  | .instant, .instant _ => True
  | .option _, .absent => True
  | .option inner, .present d => inner.Holds d
  | .list item, .list items => ∀ d ∈ items, item.Holds d
  | .array item size, .array items => items.length = size ∧ ∀ d ∈ items, item.Holds d
  | .tuple shapes, .tuple items => TupleHolds shapes items
  | .boxed inner, .boxed d => inner.Holds d
  | .map key value, .map entries => ∀ e ∈ entries, key.Holds e.1 ∧ value.Holds e.2
  | .record name fields, .record type values => type = name ∧ FieldsHold fields values
  | .marker name, .marker type => type = name
  | .enumeration name, .variant type _ => type = name
  | _, _ => False

/-- Whether typed values are of types, one by one. -/
def TupleHolds : List Shape → List Datum → Prop
  | [], [] => True
  | s :: shapes, d :: items => s.Holds d ∧ TupleHolds shapes items
  | _, _ => False

/-- Whether the fields of a typed value are those of a record. -/
def FieldsHold : List (FieldInfo × Shape) → List (String × Datum) → Prop
  | [], [] => True
  | (field, s) :: fields, (name, d) :: values =>
    name = field.name ∧ s.Holds d ∧ FieldsHold fields values
  | _, _ => False

end

mutual

/-- Whether in every record the names of the fields are distinct, also if case and underscores are
ignored, and no field is declared under another name. -/
def Shape.Plain : Shape → Prop
  | .option inner => inner.Plain
  | .list item => item.Plain
  | .array item _ => item.Plain
  | .tuple shapes => TuplePlain shapes
  | .boxed inner => inner.Plain
  | .map key value => key.Plain ∧ value.Plain
  | .record _ fields => (fields.map fun e => squash e.1.name).Nodup ∧ FieldsPlain fields
  | _ => True

/-- Whether types are plain. -/
def TuplePlain : List Shape → Prop
  | [] => True
  | s :: shapes => s.Plain ∧ TuplePlain shapes

/-- Whether fields are declared under their own names and have plain types. -/
def FieldsPlain : List (FieldInfo × Shape) → Prop
  | [] => True
  | (field, s) :: fields => field.declared = field.name ∧ s.Plain ∧ FieldsPlain fields

end

mutual

/-- Whether the fields of all records that make up a type, optional or not, have a property. -/
def Shape.EveryRecord (P : List (FieldInfo × Shape) → Prop) : Shape → Prop
  | .option inner => inner.EveryRecord P
  | .record _ fields => P fields ∧ FieldsEveryRecord P fields
  | _ => True

/-- Whether it is so for the types of fields. -/
def FieldsEveryRecord (P : List (FieldInfo × Shape) → Prop) : List (FieldInfo × Shape) → Prop
  | [] => True
  | (_, s) :: fields => s.EveryRecord P ∧ FieldsEveryRecord P fields

end

theorem FieldsEveryRecord.mem {P : List (FieldInfo × Shape) → Prop} {fields : List (FieldInfo × Shape)}
    (h : FieldsEveryRecord P fields) {field : FieldInfo} {s : Shape} (hmem : (field, s) ∈ fields) :
    s.EveryRecord P := by
  induction fields with
  | nil => cases hmem
  | cons f fields ih =>
      rcases List.mem_cons.mp hmem with rfl | hmem
      · exact h.1
      · exact ih h.2 hmem

/-- Whether a value came from a typed value of the type. -/
def Shape.Describes (s : Shape) (v : Value) : Prop :=
  s.Plain ∧ ∃ d, s.Holds d ∧ d.toValue = .ok v

namespace Shape

variable {s : Shape} {v : Value}

/-- A field of the name that the type of a record has; other types have none. -/
theorem lookup_found {name : String} {f : Shape} (h : s.lookup name = .found f) :
    ∃ type fields field, s = .record type fields ∧
      fields.find? (fun e => e.1.answersTo name) = some (field, f) := by
  cases s with
  | record type fields =>
      rw [lookup] at h
      cases hfind : fields.find? fun e => e.1.answersTo name with
      | none =>
          rw [hfind] at h
          cases h
      | some e =>
          rw [hfind] at h
          cases h
          exact ⟨type, fields, e.1, rfl, hfind⟩
  | _ => cases h

/-! ## Optionality -/

theorem peel_peel (s : Shape) : s.peel.peel = s.peel := by
  induction s using Shape.peel.induct with
  | case1 inner ih => simpa only [peel] using ih
  | case2 s hs => rw [peel.eq_2 s hs, peel.eq_2 s hs]

/-- A value of an optional type is NULL, or of the type under the layers. -/
theorem Describes.peel (h : s.Describes v) : v = .nil ∨ s.peel.Describes v := by
  induction s using Shape.peel.induct with
  | case1 inner ih =>
      obtain ⟨hplain, d, hd, hv⟩ := h
      cases d with
      | absent =>
          cases hv
          exact .inl rfl
      | present d => exact ih ⟨hplain, d, hd, hv⟩
      | _ => exact hd.elim
  | case2 s hs => exact .inr (by rwa [Shape.peel.eq_2 s hs])

/-! ## Sequences -/

/-- The items of a list of values are the values of the items. -/
theorem mem_valuesOfData {items : List Datum} {values : List Value}
    (h : valuesOfData items = .ok values) {v : Value} (hv : v ∈ values) :
    ∃ d ∈ items, d.toValue = .ok v := by
  induction items generalizing values with
  | nil =>
      cases h
      cases hv
  | cons d rest ih =>
      rw [valuesOfData] at h
      obtain ⟨w, hw, h⟩ := bind_eq_ok.mp h
      obtain ⟨ws, hws, h⟩ := bind_eq_ok.mp h
      cases h
      rcases List.mem_cons.mp hv with rfl | hmem
      · exact ⟨d, List.mem_cons_self, hw⟩
      · obtain ⟨d', hd', hv'⟩ := ih hws hmem
        exact ⟨d', List.mem_cons_of_mem _ hd', hv'⟩

/-- A range over a list of values goes through the items. -/
theorem rangeItems_list {data : List Datum} {items : List (Value × Value)}
    (hv : (valuesOfData data).map Value.list = .ok v) (hitems : rangeItems? v = some items)
    {e : Value × Value} (he : e ∈ items) : ∃ d ∈ data, d.toValue = .ok e.2 := by
  obtain ⟨values, hvalues, rfl⟩ := map_eq_ok.mp hv
  cases hitems
  obtain ⟨i, hi, rfl⟩ := List.mem_mapIdx.mp he
  exact mem_valuesOfData hvalues (List.getElem_mem hi)

/-- A range over a sequence goes through values of the type of its items. -/
theorem Describes.item {item : Shape} (h : s.Describes v) (hitem : s.item? = some item)
    {items : List (Value × Value)} (hitems : rangeItems? v = some items)
    {e : Value × Value} (he : e ∈ items) : item.Describes e.2 := by
  obtain ⟨hplain, d, hd, hv⟩ := h
  cases s with
  | list inner =>
      cases hitem
      cases d with
      | list data =>
          obtain ⟨d, hmem, hvalue⟩ := rangeItems_list hv hitems he
          exact ⟨hplain, d, hd d hmem, hvalue⟩
      | _ => exact hd.elim
  | array inner size =>
      cases hitem
      cases d with
      | array data =>
          obtain ⟨d, hmem, hvalue⟩ := rangeItems_list hv hitems he
          exact ⟨hplain, d, hd.2 d hmem, hvalue⟩
      | _ => exact hd.elim
  | bytes =>
      -- Octets have items in their type, but no range goes through them.
      cases d with
      | bytes data =>
          cases hv
          cases hitems
      | _ => exact hd.elim
  | _ => cases hitem

end Shape

/-! ## Records -/

section Records

variable {fields : List (FieldInfo × Shape)} {values : List (String × Datum)} {entries : Entries}

/-- A key that is not there yet is put behind all others. -/
theorem putEntry_of_not_mem {key : String} {v : Value} (h : key ∉ entries.map (·.1)) :
    putEntry key v entries = entries ++ [(key, v)] := by
  induction entries with
  | nil => rfl
  | cons e rest ih =>
      obtain ⟨k, w⟩ := e
      rw [List.map_cons, List.mem_cons, not_or] at h
      rw [putEntry, if_neg (Ne.symm h.1), ih h.2, List.cons_append]

/-- Entries with distinct keys make a map as they are. -/
theorem ofEntries_of_nodup (h : (entries.map (·.1)).Nodup) :
    Value.ofEntries entries = .map entries := by
  -- The entries come one by one behind those that are there, so the induction is for any front.
  have hput : ∀ front : Entries, ((front ++ entries).map (·.1)).Nodup →
      entries.foldl (fun m e => putEntry e.1 e.2 m) front = front ++ entries := by
    intro front hfront
    induction entries generalizing front with
    | nil => simp
    | cons e rest ih =>
        obtain ⟨k, w⟩ := e
        have hk : k ∉ front.map (·.1) := by
          rw [List.map_append, List.map_cons, List.nodup_append] at hfront
          exact fun hmem => hfront.2.2 k hmem k List.mem_cons_self rfl
        have hrest := ih (List.nodup_cons.mp h).2 (front ++ [(k, w)]) (by simpa using hfront)
        rw [List.foldl_cons]
        show rest.foldl _ (putEntry k w front) = _
        rw [putEntry_of_not_mem hk, hrest, List.append_assoc, List.singleton_append]
  rw [Value.ofEntries, hput [] h, List.nil_append]

theorem entriesOfFields_cons {key : String} {d : Datum}
    (h : entriesOfFields ((key, d) :: values) = .ok entries) :
    ∃ v rest, d.toValue = .ok v ∧ entriesOfFields values = .ok rest ∧ entries = (key, v) :: rest := by
  rw [entriesOfFields] at h
  obtain ⟨v, hv, h⟩ := bind_eq_ok.mp h
  obtain ⟨rest, hrest, h⟩ := bind_eq_ok.mp h
  cases h
  exact ⟨v, rest, hv, hrest, rfl⟩

/-- The values of a record stand under the names of its fields. -/
theorem entriesOfFields_names (hfields : FieldsHold fields values)
    (hentries : entriesOfFields values = .ok entries) :
    entries.map (·.1) = fields.map (·.1.name) := by
  induction fields generalizing values entries with
  | nil =>
      cases values with
      | nil =>
          cases hentries
          rfl
      | cons e values => exact hfields.elim
  | cons field fields ih =>
      cases values with
      | nil => exact hfields.elim
      | cons e values =>
          obtain ⟨hname, -, hrest⟩ := hfields
          obtain ⟨v, vs, -, hvs, rfl⟩ := entriesOfFields_cons hentries
          rw [List.map_cons, List.map_cons, ih hrest hvs, hname]

theorem findEntry_cons_of_nameMatches {key name : String} {v : Value}
    (hmatch : nameMatches key name = true) (hother : entries.lookup name = none) :
    findEntry name ((key, v) :: entries) = some v := by
  rw [findEntry, List.lookup_cons, List.find?_cons, hmatch]
  by_cases heq : name = key
  · rw [beq_iff_eq.mpr heq]
    rfl
  · rw [beq_eq_false_iff_ne.mpr heq, hother]
    rfl

theorem findEntry_cons_of_not_nameMatches {key name : String} {v : Value}
    (hmatch : nameMatches key name = false) :
    findEntry name ((key, v) :: entries) = findEntry name entries := by
  have hne : name ≠ key := by
    rintro rfl
    simp [nameMatches_self] at hmatch
  rw [findEntry, List.lookup_cons, List.find?_cons, hmatch, beq_eq_false_iff_ne.mpr hne]
  rfl

/-- An entry of a record is found by every name to which its field answers. -/
theorem findEntry_entriesOfFields (hfields : FieldsHold fields values)
    (hplain : FieldsPlain fields) (hdistinct : (fields.map fun e => squash e.1.name).Nodup)
    (hentries : entriesOfFields values = .ok entries) {name : String} {field : FieldInfo}
    {f : Shape} (hfind : fields.find? (fun e => e.1.answersTo name) = some (field, f)) :
    ∃ w, findEntry name entries = some w ∧ f.Describes w := by
  induction fields generalizing values entries with
  | nil => cases hfind
  | cons e fields ih =>
      obtain ⟨info, s⟩ := e
      cases values with
      | nil => exact hfields.elim
      | cons e values =>
          obtain ⟨key, d⟩ := e
          obtain ⟨hkey, hd, hrest⟩ := hfields
          subst hkey
          obtain ⟨hdeclared, hs, hplain⟩ := hplain
          rw [List.map_cons, List.nodup_cons] at hdistinct
          obtain ⟨v, vs, hv, hvs, rfl⟩ := entriesOfFields_cons hentries
          have hanswers : info.answersTo name = nameMatches info.name name := by
            rw [FieldInfo.answersTo, hdeclared, Bool.or_self]
          rw [List.find?_cons, hanswers] at hfind
          cases hmatch : nameMatches info.name name with
          | true =>
              rw [hmatch] at hfind
              cases hfind
              -- No other key can be the name, which has the letters of this one.
              have hother : vs.lookup name = none := by
                rw [lookup_eq_none, entriesOfFields_names hrest hvs]
                intro hmem
                obtain ⟨e, he, hname⟩ := List.mem_map.mp hmem
                refine hdistinct.1 (List.mem_map.mpr ⟨e, he, ?_⟩)
                rw [hname, nameMatches_iff.mp hmatch]
              exact ⟨v, findEntry_cons_of_nameMatches hmatch hother, hs, d, hd, hv⟩
          | false =>
              rw [hmatch] at hfind
              obtain ⟨w, hw, hdescribes⟩ := ih hrest hplain hdistinct.2 hvs hfind
              exact ⟨w, (findEntry_cons_of_not_nameMatches hmatch).trans hw, hdescribes⟩

end Records

namespace Shape

/-- A value of a type that has a field is NULL, or a map with the field. -/
theorem Describes.field {s f : Shape} {v : Value} {name : String} (h : s.Describes v)
    (hfound : s.peel.lookup name = .found f) :
    v = .nil ∨ ∃ entries w, v = .map entries ∧ findEntry name entries = some w ∧ f.Describes w := by
  refine h.peel.imp_right ?_
  rintro ⟨hplain, d, hd, hv⟩
  obtain ⟨type, fields, field, hrecord, hfind⟩ := lookup_found hfound
  rw [hrecord] at hplain hd
  cases d with
  | record type' values =>
      obtain ⟨entries, hentries, hv⟩ := map_eq_ok.mp hv
      have hdistinct : (entries.map (·.1)).Nodup := by
        rw [entriesOfFields_names hd.2 hentries]
        have hsquash : ((fields.map (·.1.name)).map squash).Nodup := by
          simpa [Function.comp_def] using hplain.1
        exact List.Nodup.of_map squash hsquash
      obtain ⟨w, hw, hdescribes⟩ :=
        findEntry_entriesOfFields hd.2 hplain.2 hplain.1 hentries hfind
      exact ⟨entries, w, by rw [← hv, ofEntries_of_nodup hdistinct], hw, hdescribes⟩
  | _ => exact hd.elim

end Shape

/-! ## Places in the destination -/

/-- The type that a path of fields leads to. -/
def Shape.resolve : Shape → List String → Option Shape
  | s, [] => some s
  | s, name :: rest =>
    match s.peel.lookup name with
    | .found f => f.resolve rest
    | _ => none

/-- Whether a path of fields leads to the type, but for optionality. -/
def Shape.Resolves (dest : Shape) (segments : List String) (s : Shape) : Prop :=
  ∃ s', dest.resolve segments = some s' ∧ s'.peel = s.peel

theorem Shape.resolve_append {s s' : Shape} {segments : List String} {name : String}
    (h : s.resolve segments = some s') {f : Shape} (hfound : s'.peel.lookup name = .found f) :
    s.resolve (segments ++ [name]) = some f := by
  induction segments generalizing s with
  | nil =>
      cases h
      simp [resolve, hfound]
  | cons first rest ih =>
      rw [resolve] at h
      rw [List.cons_append, resolve]
      cases hfirst : s.peel.lookup first with
      | found t =>
          rw [hfirst] at h
          exact ih h
      | dynamic =>
          rw [hfirst] at h
          cases h
      | missing =>
          rw [hfirst] at h
          cases h

/-! ## What is known about a value -/

/-- Whether a value is what is known about it. -/
def Known.Describes (dest : Shape) : Known → Value → Prop
  | .shape s, v => s.Describes v
  | .place (some s), v => ∃ path, v = .dest path ∧ dest.Resolves path.segments s
  | .place none, v => ∃ path, v = .dest path
  | .literal, _ | .anything, _ => True

namespace Known

variable {dest : Shape} {known : Known} {v : Value}

theorem describes_anything (v : Value) : Known.anything.Describes dest v := trivial

theorem peel_peel (known : Known) : known.peel.peel = known.peel := by
  match known with
  | .shape s => exact congrArg Known.shape s.peel_peel
  | .place (some s) => exact congrArg (fun s => Known.place (some s)) s.peel_peel
  | .place none | .literal | .anything => rfl

/-- Looking through optionality loses NULL. -/
theorem Describes.peel (h : known.Describes dest v) : v = .nil ∨ known.peel.Describes dest v := by
  match known with
  | .shape s => exact Shape.Describes.peel h
  | .place (some s) =>
    obtain ⟨path, rfl, s', hresolve, hpeel⟩ := h
    exact .inr ⟨path, rfl, s', hresolve, by rw [hpeel, Shape.peel_peel]⟩
  | .place none => exact .inr h
  | .literal => exact .inr trivial
  | .anything => exact .inr trivial

/-- The items of a range are what is known about them. -/
theorem Describes.item (h : known.Describes dest v) {items : List (Value × Value)}
    (hitems : rangeItems? v = some items) {e : Value × Value} (he : e ∈ items) :
    known.item.Describes dest e.2 := by
  rcases h.peel with rfl | hpeel
  · cases hitems
    cases he
  · rw [Known.item]
    cases hknown : known.peel with
    | shape s =>
        rw [hknown] at hpeel
        cases hitem : s.item? with
        | none => simp only [hitem, Option.map_none, Option.getD_none]; trivial
        | some inner =>
            simp only [hitem, Option.map_some, Option.getD_some]
            exact Shape.Describes.item hpeel hitem hitems he
    | _ => trivial

/-- The type that the check knows for a looked up field. -/
theorem field_shape {name : String} {s : Shape} {k : Known} (h : (Known.shape s).field name = .ok k) :
    (∃ f, s.peel.lookup name = .found f ∧ k = .shape f) ∨
      (s.peel.lookup name = .dynamic ∧ k = .anything) := by
  rw [field, Known.peel] at h
  cases hlookup : s.peel.lookup name with
  | found f =>
      simp only [hlookup] at h
      exact .inl ⟨f, rfl, (Except.ok.inj h).symm⟩
  | dynamic =>
      simp only [hlookup] at h
      exact .inr ⟨rfl, (Except.ok.inj h).symm⟩
  | missing =>
      simp only [hlookup] at h
      cases h

end Known

end SqlTemplate
