import Mathlib
import SqlTemplate.Proofs.Json.Printed
import SqlTemplate.Proofs.Number.Octets
import SqlTemplate.Wire.Decode

/-!
# What is sent is read back

An argument is encoded by its kind and its type, a column is decoded by its type alone. They agree:
what was sent as a type is read back from it (`Value.ofCell_toCell`). Integers that are sent as
texts come back as texts, in arrays too, and maps come back with their entries in another order, as
values that are sent as documents are read back from these. Everything else comes back as it was.
-/

set_option autoImplicit false

namespace SqlTemplate

/-! ## Integers -/

theorem decodeInt_encodeInt {count : Nat} (hcount : 0 < count) {n : Int64} {data : List UInt8}
    (h : encodeInt count n = .ok data) : decodeInt count data = some (.int n) := by
  have hpow : 2 * (1 <<< (8 * count - 1) : Nat) = 256 ^ count := by
    rw [Nat.one_shiftLeft, ← Nat.pow_succ', Nat.succ_eq_add_one, Nat.sub_add_cancel (by omega),
      Nat.pow_mul]
  rw [encodeInt] at h
  split at h
  · cases h
  · split at h
    · cases h
    · cases h
      have hback : intOfBigOctets (bigOctets count (complement count n.toInt)) = n.toInt :=
        intOfBigOctets_bigOctets (by omega) (by omega)
      rw [decodeInt, readInt?, if_pos (bigOctets_length _ _), hback, Option.map_some,
        Int64.ofInt_toInt]

/-! ## Arrays -/

theorem takeInt?_append {head : List UInt8} (hhead : head.length = 4) (rest : List UInt8) :
    takeInt? (head ++ rest) = some (intOfBigOctets head, rest) := by
  rw [takeInt?, if_pos (by simp [hhead]), List.take_left' hhead, List.drop_left' hhead]

/-- A count or a length that can be sent is read back. -/
theorem intOfBigOctets_count {n : Nat} (h : n < lengthLimit) :
    intOfBigOctets (bigOctets 4 n) = n := by
  have hlimit : lengthLimit = 2 ^ 31 := rfl
  rw [intOfBigOctets, ofBigOctets_bigOctets (by omega), bigOctets_length, Nat.one_shiftLeft,
    if_pos (by omega)]

/-- Whether the length of a cell can be sent. -/
def Fitting (cell : Cell) : Prop := ∀ data ∈ cell, data.length < lengthLimit

theorem checkLength_eq_ok {cell checked : Cell} :
    checkLength cell = .ok checked ↔ checked = cell ∧ Fitting cell := by
  cases cell with
  | none => simp [checkLength, Fitting, eq_comm]
  | some data =>
      by_cases hdata : data.length < lengthLimit
      · simp [checkLength, Fitting, hdata, eq_comm]
      · simp [checkLength, Fitting, hdata]

theorem takeCell?_append {cell : Cell} (h : Fitting cell) (rest : List UInt8) :
    takeCell? (sizedCell cell ++ rest) = some (cell, rest) := by
  cases cell with
  | none =>
      have hnull : intOfBigOctets (bigOctets 4 (complement 4 (-1))) = -1 :=
        intOfBigOctets_bigOctets (by decide) (by decide)
      rw [takeCell?, sizedCell, takeInt?_append (bigOctets_length _ _), hnull]
      rfl
  | some data =>
      have hdata : data.length < lengthLimit := h data rfl
      rw [takeCell?, sizedCell, List.append_assoc, takeInt?_append (bigOctets_length _ _),
        intOfBigOctets_count hdata]
      simp

theorem readCells?_flatMap {cells : List Cell} (h : ∀ cell ∈ cells, Fitting cell) :
    readCells? cells.length (cells.flatMap sizedCell) = some cells := by
  induction cells with
  | nil => rfl
  | cons cell rest ih =>
      obtain ⟨hcell, hrest⟩ := List.forall_mem_cons.mp h
      rw [List.flatMap_cons, List.length_cons, readCells?, takeCell?_append hcell]
      simp [ih hrest]

theorem readArray?_encodeArray (first : Nat) (item : ColumnType) {cells : List Cell}
    (hcount : cells.length < lengthLimit) (h : ∀ cell ∈ cells, Fitting cell) :
    readArray? (encodeArray first item cells) = some cells := by
  rw [readArray?, encodeArray]
  simp only [List.append_assoc, takeInt?_append (bigOctets_length _ _), Option.bind_eq_bind,
    Option.bind_some]
  rw [intOfBigOctets_count hcount, intOfBigOctets_count (show 1 < lengthLimit by decide)]
  simp [readCells?_flatMap h]

/-- The cells of an array are those of its items. -/
theorem cellsOfValues_eq_ok {items : List Value} {t : ColumnType} {cells : List Cell}
    (h : cellsOfValues items t = .ok cells) :
    List.Forall₂ (fun v cell => v.toCell t = .ok cell ∧ Fitting cell) items cells := by
  induction items generalizing cells with
  | nil =>
      cases h
      exact .nil
  | cons v rest ih =>
      simp only [cellsOfValues, bind_eq_ok] at h
      obtain ⟨cell, hcell, checked, hchecked, others, hothers, h⟩ := h
      obtain ⟨rfl, hfits⟩ := checkLength_eq_ok.mp hchecked
      cases h
      exact .cons ⟨hcell, hfits⟩ (ih hothers)

/-! ## Scalars -/

/-- What is read back at a type: an integer that was sent as a text is one from then on. -/
def ColumnType.returned : ColumnType → Value → Value
  | .text, .int n | .varchar, .int n => .text (toString n.toInt)
  | .array item, .list items => .list (items.map item.returned)
  | _, v => v

section Scalars

variable {v : Value} {t : ColumnType} {cell : Cell}

theorem encodeDocument_eq_ok {j : Json} {data : List UInt8} (h : encodeDocument t j = .ok data) :
    t.isDocument = true := by
  cases t with
  | json | jsonb => rfl
  | _ => cases h

theorem encodeAsDocument_eq_ok {data : List UInt8} (h : encodeAsDocument t v = .ok data) :
    ∃ j, v.toJson? = some j ∧ encodeDocument t j = .ok data := by
  rw [encodeAsDocument] at h
  cases hj : v.toJson? with
  | none => rw [hj] at h; cases h
  | some j => rw [hj] at h; exact ⟨j, rfl, h⟩

/-- Lists and maps have no form as a type that is neither one of documents nor one of arrays. -/
theorem not_asDocument (ht : t.isDocument = false) :
    (encodeAsDocument t v).map some ≠ .ok cell := by
  intro h
  obtain ⟨data, hdata, -⟩ := map_eq_ok.mp h
  obtain ⟨j, -, hj⟩ := encodeAsDocument_eq_ok hdata
  rw [encodeDocument_eq_ok hj] at ht
  cases ht

theorem ofCell_bool (h : v.toCell .bool = .ok cell) : ColumnType.bool.ofCell cell = .ok v := by
  cases v with
  | nil => cases h; rfl
  | bool b =>
      cases h
      cases b <;> rfl
  | list items => exact absurd h (not_asDocument rfl)
  | map entries => exact absurd h (not_asDocument rfl)
  | _ => cases h

theorem ofCell_bytea (h : v.toCell .bytea = .ok cell) : ColumnType.bytea.ofCell cell = .ok v := by
  cases v with
  | nil => cases h; rfl
  | bytes data => cases h; rfl
  | list items => exact absurd h (not_asDocument rfl)
  | map entries => exact absurd h (not_asDocument rfl)
  | _ => cases h

theorem ofCell_integer (count : Nat)
    (ht : (t, count) ∈ [(ColumnType.int2, 2), (ColumnType.int4, 4), (ColumnType.int8, 8)])
    (h : v.toCell t = .ok cell) : t.ofCell cell = .ok v := by
  fin_cases ht
  all_goals
    cases v with
    | nil => cases h; rfl
    | int n =>
        obtain ⟨data, hdata, rfl⟩ := map_eq_ok.mp h
        simp only [ColumnType.ofCell, ColumnType.reader?]
        rw [decodeInt_encodeInt (by decide) hdata]
    | list items => exact absurd h (not_asDocument rfl)
    | map entries => exact absurd h (not_asDocument rfl)
    | _ => cases h

theorem ofCell_utf8 (hread : t.reader? = some decodeText) (s : String) :
    t.ofCell (some (utf8 s)) = .ok (.text s) := by
  rw [ColumnType.ofCell, hread]
  simp only [decodeText, utf8?_utf8, Option.map_some]

theorem ofCell_text (ht : t ∈ [ColumnType.text, .varchar, .bpchar, .name])
    (h : v.toCell t = .ok cell) : t.ofCell cell = .ok (t.returned v) := by
  fin_cases ht
  all_goals
    cases v with
    | nil => cases h; rfl
    | text s =>
        cases h
        exact ofCell_utf8 rfl s
    | int n =>
        -- Only two of the types take integers.
        cases h <;> exact ofCell_utf8 rfl (toString n.toInt)
    | list items => exact absurd h (not_asDocument rfl)
    | map entries => exact absurd h (not_asDocument rfl)
    | _ => cases h

end Scalars

/-! ## Arrays -/

section Arrays

variable {read : List UInt8 → Option Value} {t item : ColumnType}

theorem ofCell_none (hread : t.reader? = some read) : t.ofCell none = .ok .nil := by
  rw [ColumnType.ofCell, hread]

theorem ofCell_some (hread : t.reader? = some read) {data : List UInt8} {v : Value} :
    t.ofCell (some data) = .ok v ↔ read data = some v := by
  rw [ColumnType.ofCell, hread]
  cases hdata : read data with
  | none => simp [hdata]
  | some w => simp [hdata]

theorem decodeCells_items (hread : item.reader? = some read) {items : List Value}
    {cells : List Cell}
    (h : List.Forall₂ (fun v cell => item.ofCell cell = .ok (item.returned v)) items cells) :
    decodeCells read cells = some (items.map item.returned) := by
  induction h with
  | nil => rfl
  | @cons v cell items cells hcell hcells ih =>
      cases cell with
      | none =>
          rw [ofCell_none hread] at hcell
          rw [decodeCells, ih, Option.map_some, List.map_cons, Except.ok.inj hcell]
      | some data =>
          rw [decodeCells, (ofCell_some hread).mp hcell]
          simp [ih]

/-- Arrays are read back if their items are. -/
theorem ofCell_array (hreader : (ColumnType.array item).reader? = some (decodeArray read))
    (hread : item.reader? = some read)
    (hitem : ∀ {v : Value} {cell : Cell}, v.toCell item = .ok cell →
      item.ofCell cell = .ok (item.returned v))
    {v : Value} {cell : Cell} (h : v.toCell (.array item) = .ok cell) :
    (ColumnType.array item).ofCell cell = .ok ((ColumnType.array item).returned v) := by
  cases v with
  | nil =>
      cases h
      exact ofCell_none hreader
  | list items =>
      rw [Value.toCell, arrayOfCells] at h
      split at h
      · rename_i hcount
        obtain ⟨cells, hcells, rfl⟩ := map_eq_ok.mp h
        have hforms := cellsOfValues_eq_ok hcells
        have hlength : cells.length < lengthLimit := hforms.length_eq ▸ hcount
        have hfitting : ∀ cell ∈ cells, Fitting cell := fun cell hcell => by
          obtain ⟨v, -, -, hfits⟩ := exists_of_mem_right hforms hcell
          exact hfits
        have hback := decodeCells_items hread (hforms.imp fun _ _ hform => hitem hform.1)
        refine (ofCell_some hreader).mpr ?_
        rw [decodeArray, readArray?_encodeArray 1 item hlength hfitting]
        simp [hback, ColumnType.returned]
      · cases h
  | map entries => exact absurd h (not_asDocument rfl)
  | _ => cases h

end Arrays

/-! ## Documents -/

section Documents

variable {v : Value} {t : ColumnType} {cell : Cell}

/-- Whatever has a form as a type of documents has it through its document. -/
theorem toCell_document (ht : t.isDocument = true) (hv : v.Every Value.Discrete)
    (h : v.toCell t = .ok cell) : v = .nil ∧ cell = none ∨
      ∃ j data, v.toJson? = some j ∧ encodeDocument t j = .ok data ∧ cell = some data := by
  have hstructured : (encodeAsDocument t v).map some = .ok cell →
      ∃ j data, v.toJson? = some j ∧ encodeDocument t j = .ok data ∧ cell = some data := fun h => by
    obtain ⟨data, hdata, rfl⟩ := map_eq_ok.mp h
    obtain ⟨j, hj, hdocument⟩ := encodeAsDocument_eq_ok hdata
    exact ⟨j, data, hj, hdocument, rfl⟩
  cases t with
  | json | jsonb =>
      cases v with
      | nil => cases h; exact .inl ⟨rfl, rfl⟩
      | bool b => cases h; exact .inr ⟨_, _, rfl, rfl, rfl⟩
      | int n => cases h; exact .inr ⟨_, _, rfl, rfl, rfl⟩
      | text s => cases h; exact .inr ⟨_, _, rfl, rfl, rfl⟩
      | bytes data => cases h
      | list items => exact .inr (hstructured h)
      | map entries => exact .inr (hstructured h)
      | _ => exact absurd hv id
  | _ => cases ht

theorem ofCell_null (ht : t.isDocument = true) : t.ofCell none = .ok .nil := by
  cases t with
  | json | jsonb => rfl
  | _ => cases ht

theorem ofCell_document {j : Json} {data : List UInt8} (h : encodeDocument t j = .ok data)
    (hread : Json.ofText? j.write = some j) : t.ofCell (some data) = .ok (Value.ofJson j) := by
  have hdecode : decodeJson (utf8 j.write) = some (Value.ofJson j) := by
    simp [decodeJson, utf8?_utf8, hread]
  cases t with
  | json => cases h; exact (ofCell_some rfl).mpr hdecode
  | jsonb => cases h; exact (ofCell_some rfl).mpr hdecode
  | _ => cases h

end Documents

/-! ## Round trips -/

/-- The types at which what is sent is read back. -/
def ColumnType.roundTrip : List ColumnType :=
  [.bool, .int2, .int4, .int8, .text, .varchar, .bpchar, .name, .bytea] ++ [.json, .jsonb] ++
    [ColumnType.text, .varchar, .int4, .int8].map .array

namespace ColumnType

theorem returned_document {t : ColumnType} (ht : t.isDocument = true) (v : Value) :
    t.returned v = v := by
  cases t with
  | json | jsonb => rfl
  | _ => cases ht

theorem returned_discrete (t : ColumnType) {v : Value} (h : v.Every Value.Discrete) :
    (t.returned v).Every Value.Discrete := by
  induction t generalizing v with
  | text | varchar =>
      cases v with
      | int n => trivial
      | _ => exact h
  | array item ih =>
      cases v with
      | list items =>
          have hitems : ∀ items, EveryItem Value.Discrete items →
              EveryItem Value.Discrete (items.map item.returned) := fun items hitems => by
            induction items with
            | nil => trivial
            | cons v rest ihrest => exact ⟨ih hitems.1, ihrest hitems.2⟩
          exact ⟨trivial, hitems items h.2⟩
      | _ => exact h
  | _ => exact h

end ColumnType

/-- At types other than those of documents, what is read back is known exactly. -/
theorem ofCell_plain {v : Value} {t : ColumnType} (ht : t ∈ ColumnType.roundTrip)
    (hplain : t.isDocument = false) {cell : Cell} (h : v.toCell t = .ok cell) :
    t.ofCell cell = .ok (t.returned v) := by
  simp only [ColumnType.roundTrip, List.mem_append, List.mem_map] at ht
  rcases ht with (ht | ht) | ⟨item, hitem, rfl⟩
  · fin_cases ht
    · exact ofCell_bool h
    · exact ofCell_integer 2 (by simp) h
    · exact ofCell_integer 4 (by simp) h
    · exact ofCell_integer 8 (by simp) h
    · exact ofCell_text (by simp) h
    · exact ofCell_text (by simp) h
    · exact ofCell_text (by simp) h
    · exact ofCell_text (by simp) h
    · exact ofCell_bytea h
  · fin_cases ht <;> cases hplain
  · fin_cases hitem
    · exact ofCell_array rfl rfl (ofCell_text (by simp)) h
    · exact ofCell_array rfl rfl (ofCell_text (by simp)) h
    · exact ofCell_array rfl rfl (ofCell_integer 4 (by simp)) h
    · exact ofCell_array rfl rfl (ofCell_integer 8 (by simp)) h

/-- **What is sent is read back.** If a value has a form as a type, what is read from this form at
the type is equal to the value, except that integers that were sent as texts are texts. This holds
of all values without doubles, instants, fragments and destinations; where they are sent as
documents and nested more than 127 deep, provided that their documents are read back at all. -/
theorem Value.ofCell_toCell {v : Value} (hv : v.Every Value.Discrete) {t : ColumnType}
    (ht : t ∈ ColumnType.roundTrip) {cell : Cell} (hcell : v.toCell t = .ok cell)
    (hdeep : t.isDocument = true → 127 < v.depth →
      ∀ j, v.toJson? = some j → Json.ofText? j.write = some j) :
    ∃ w, t.ofCell cell = .ok w ∧ (t.returned v).same w = true := by
  cases hdocument : t.isDocument with
  | false => exact ⟨_, ofCell_plain ht hdocument hcell, Value.same_self (t.returned_discrete hv)⟩
  | true =>
      rw [ColumnType.returned_document hdocument]
      rcases toCell_document hdocument hv hcell with ⟨rfl, rfl⟩ | ⟨j, data, hj, hdata, rfl⟩
      · exact ⟨.nil, ofCell_null hdocument, Value.same_self hv⟩
      · have hread : Json.ofText? j.write = some j := by
          by_cases hdepth : v.depth ≤ 127
          · exact v.ofText?_document hv hdepth hj
          · exact hdeep hdocument (by omega) j hj
        exact ⟨_, ofCell_document hdata hread, Value.same_ofJson hv hj⟩

/-- A map comes back from its document, though in another order. -/
theorem Value.ofCell_toCell_nested :
    let v : Value := .map [("b", .list [.int (-7), .nil, .text "\"\n"]), ("a", .bool true)]
    ∃ cell w, v.toCell .jsonb = .ok cell ∧ ColumnType.jsonb.ofCell cell = .ok w ∧
      v.same w = true := by
  intro v
  have hv : v.Every Value.Discrete :=
    ⟨by simp [Discrete], ⟨trivial, trivial, trivial, trivial, trivial⟩, trivial, trivial⟩
  have hcell : v.toCell .jsonb = .ok _ := rfl
  have ht : ColumnType.jsonb ∈ ColumnType.roundTrip := by simp [ColumnType.roundTrip]
  have hshallow : ¬ 127 < v.depth := by decide
  obtain ⟨w, hw, hsame⟩ := Value.ofCell_toCell hv ht hcell fun _ hdeep => absurd hdeep hshallow
  exact ⟨_, w, hcell, hw, hsame⟩

end SqlTemplate
