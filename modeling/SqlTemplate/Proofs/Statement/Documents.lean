import Mathlib
import SqlTemplate.Statement.Function
import SqlTemplate.Statement.Conversion
import SqlTemplate.Proofs.Wire.RoundTrip

/-!
# Documents that have been read already

A column of documents is read by the driver, and a scan that asks for a document reads again what is
a text or bytes. Nothing else is changed by that, so a document that has been read stays as it is,
unless it is a text: a text is taken for one that is still to be read, and no text is read as itself,
since its quotes are not part of it (`Mapper.apply_document`).
-/

set_option autoImplicit false

namespace SqlTemplate

namespace Json

/-! ## Texts shrink when they are read -/

/-- A character is read from at least one character in front of the rest of its text. -/
theorem length_map_cons {c : Char} {s t rest : List Char} {taken : Option (List Char × List Char)}
    (ih : ∀ {t rest}, taken = some (t, rest) → t.length + rest.length < s.length)
    (h : (taken.map fun (t, r) => (c :: t, r)) = some (t, rest)) :
    t.length + rest.length ≤ s.length := by
  obtain ⟨⟨t', rest'⟩, htaken, heq⟩ := Option.map_eq_some_iff.mp h
  cases heq
  have hlength := ih htaken
  rw [List.length_cons]
  omega

/-- A text and what is left behind it are shorter than what they are read from. -/
theorem length_takeText {rule : TextRule} {s t rest : List Char}
    (h : takeText rule s = some (t, rest)) : t.length + rest.length < s.length := by
  fun_induction takeText rule s generalizing t rest with
  | case2 rest => cases h; simp
  | case4 _ _ _ _ _ _ _ _ _ _ _ _ _ _ _ ih | case9 _ _ _ _ _ _ _ _ _ ih
  | case10 _ _ _ _ _ ih | case12 _ _ _ _ _ _ ih =>
      have hlength := length_map_cons ih h
      simp only [List.length_cons]
      omega
  | _ => cases h

theorem NumberParts.toJson_ne_text (p : NumberParts) (text : String) :
    p.toJson ≠ some (.text text) := by
  intro h
  have hdouble : p.toDouble.map double ≠ some (Json.text text) := by simp
  rw [toJson] at h
  -- The sign decides which numbers are whole.
  split at h <;> split at h
  · cases h
  · exact hdouble h
  · cases h
  · exact hdouble h

/-- A number is no text. -/
theorem takeNumber_ne_text (s rest : List Char) (text : String) :
    takeNumber s ≠ some (.text text, rest) := by
  intro h
  simp only [takeNumber, Option.bind_eq_bind, Option.bind_eq_some_iff] at h
  obtain ⟨_, -, _, -, _, -, value, hvalue, heq⟩ := h
  cases heq
  exact NumberParts.toJson_ne_text _ text hvalue

theorem takeWord_eq_some {α : Type} {word : String} {value taken : α} {s rest : List Char}
    (h : takeWord word value s = some (taken, rest)) : taken = value := by
  rw [takeWord] at h
  split at h
  · cases h
    rfl
  · cases h

/-- A value that is a text begins with its quote. -/
theorem takeValue_eq_text {depth : Nat} {s rest : List Char} {text : String}
    (h : takeValue depth s = some (.text text, rest)) :
    ∃ s' t, s = '"' :: s' ∧ takeText .strict s' = some (t, rest) ∧ text = String.ofList t := by
  cases depth with
  | zero => cases h
  | succ depth =>
      rw [takeValue.eq_def] at h
      dsimp only at h
      -- Any other character begins an array, an object, a word or a number.
      split at h
      · obtain ⟨⟨t, r⟩, htaken, heq⟩ := Option.map_eq_some_iff.mp h
        cases heq
        exact ⟨_, t, rfl, htaken, rfl⟩
      · split at h
        · cases h
        · split at h
          · cases h
          · obtain ⟨_, -, heq⟩ := Option.map_eq_some_iff.mp h
            cases heq
      · split at h
        · cases h
        · split at h
          · cases h
          · obtain ⟨_, -, heq⟩ := Option.map_eq_some_iff.mp h
            cases heq
      · cases takeWord_eq_some h
      · cases takeWord_eq_some h
      · cases takeWord_eq_some h
      · exact absurd h (takeNumber_ne_text _ _ _)

/-- No text is read as itself. -/
theorem ofText?_ne_text (text : String) : ofText? text ≠ some (.text text) := by
  intro h
  rw [ofText?] at h
  split at h
  · rename_i value rest htaken
    split at h
    · cases h
      -- What is read stands behind a quote, so it is shorter than the text that it is.
      obtain ⟨s, t, hs, ht, htext⟩ := takeValue_eq_text htaken
      have hlength := length_takeText ht
      have hspace : (skipSpace text.toList).length ≤ text.toList.length :=
        (List.dropWhile_suffix _).length_le
      rw [hs, htext, String.toList_ofList, List.length_cons] at hspace
      omega
    · cases h
  · cases h

end Json

/-! ## Values of documents -/

namespace Value

theorem isNil_iff {v : Value} : v.isNil = true ↔ v = .nil := by
  cases v <;> simp [isNil]

theorem ofWhole_ne {v : Value} (hint : ∀ i, v ≠ .int i) (hfloat : ∀ x, v ≠ .float x) (n : Int) :
    ofWhole n ≠ v := by
  intro h
  rw [ofWhole] at h
  split at h
  · exact hint _ h.symm
  · exact hfloat _ h.symm

theorem ofJson_eq_nil {j : Json} : ofJson j = .nil ↔ j = .null := by
  cases j with
  | integer n => exact iff_of_false (ofWhole_ne (by simp) (by simp) n) nofun
  | _ => simp [ofJson]

/-- A document has a text for its value only if it is that text. -/
theorem ofJson_eq_text {j : Json} {text : String} : ofJson j = .text text ↔ j = .text text := by
  cases j with
  | integer n => exact iff_of_false (ofWhole_ne (by simp) (by simp) n) nofun
  | _ => simp [ofJson]

theorem ofJson_ne_bytes (j : Json) (data : List UInt8) : ofJson j ≠ .bytes data := by
  cases j with
  | integer n => exact ofWhole_ne (by simp) (by simp) n
  | _ => simp [ofJson]

end Value

/-! ## Scans of documents -/

namespace ScanKind

/-- A text does not come back from being read. -/
theorem readJson_ne_self (text : String) : readJson (some text) ≠ .ok (.text text) := by
  intro h
  rw [readJson] at h
  split at h
  · rename_i j hj
    obtain rfl := Value.ofJson_eq_text.mp (Except.ok.inj h)
    exact Json.ofText?_ne_text text hj
  · cases h

/-- What has been read stays as it is if it is no text. -/
theorem toDocument_ofJson (j : Json) :
    toDocument (Value.ofJson j) = .ok (Value.ofJson j) ↔ ∀ text, j ≠ .text text := by
  cases hv : Value.ofJson j with
  | text s =>
      obtain rfl := Value.ofJson_eq_text.mp hv
      exact ⟨fun h => absurd h (readJson_ne_self s), fun h => absurd rfl (h s)⟩
  | bytes data => exact absurd hv (Value.ofJson_ne_bytes j data)
  | _ =>
      refine ⟨fun _ text hj => ?_, fun _ => rfl⟩
      cases hv.symm.trans (Value.ofJson_eq_text.mpr hj)

end ScanKind

/-- What a column of documents holds is NULL or the value of a document. -/
theorem ColumnType.ofCell_eq_ok {t : ColumnType} (ht : t.isDocument = true) {cell : Cell}
    {v : Value} (h : t.ofCell cell = .ok v) : v = .nil ∨ ∃ j, v = Value.ofJson j := by
  have hread : ∀ {data}, decodeJson data = some v → ∃ j, v = Value.ofJson j := fun hdata => by
    simp only [decodeJson, Option.bind_eq_bind, Option.bind_eq_some_iff, Option.some.injEq] at hdata
    obtain ⟨_, -, j, -, rfl⟩ := hdata
    exact ⟨j, rfl⟩
  cases cell with
  | none => exact .inl (Except.ok.inj ((ofCell_null ht).symm.trans h)).symm
  | some data =>
      right
      cases t with
      | json => exact hread ((ofCell_some rfl).mp h)
      | jsonb =>
          have hdata := (ofCell_some rfl).mp h
          rw [decodeJsonb.eq_def] at hdata
          split at hdata
          · exact hread hdata
          · cases hdata
      | _ => cases ht

theorem scanMapper_eq_ok {name : String} {mode : ScanMode} {extra : List Value} {mapper : Mapper}
    (h : scanMapper name (some mode) extra = .ok (some mapper)) :
    ∃ fallback, mapper = .scan mode.kind mode.nullable fallback := by
  obtain ⟨kind, nullable⟩ := mode
  match extra, nullable with
  | [], _ => cases h; exact ⟨_, rfl⟩
  | [fallback], true => cases h; exact ⟨_, rfl⟩
  | [_], false => cases h
  | _ :: _ :: _, _ => cases h

/-- **Documents that have been read are kept unless they are texts.** A scan of a document, with
NULL allowed or not, leaves the value of a document other than null as it is if and only if the
document is no text; so it leaves what a column of documents holds as it is unless that is NULL or a
text. A text is read once more. -/
theorem Mapper.apply_document {name : String} {nullable : Bool} {extra : List Value}
    {mapper : Mapper} (h : scanMapper name (some ⟨.json, nullable⟩) extra = .ok (some mapper))
    (transforms : Transforms) :
    (∀ j ≠ Json.null, mapper.apply transforms (Value.ofJson j) = .ok (Value.ofJson j) ↔
      ∀ text, j ≠ .text text) ∧
    (∀ (t : ColumnType) cell v, t.isDocument = true → t.ofCell cell = .ok v → v ≠ .nil →
      (mapper.apply transforms v = .ok v ↔ ∀ text, v ≠ .text text)) ∧
    ∀ text, mapper.apply transforms (Value.ofJson (.text text)) =
      ScanKind.readJson (some text) := by
  obtain ⟨fallback, rfl⟩ := scanMapper_eq_ok h
  have hkept : ∀ j ≠ Json.null,
      (Mapper.scan .json nullable fallback).apply transforms (Value.ofJson j) =
        ScanKind.toDocument (Value.ofJson j) := fun j hj => by
    rw [apply, if_neg (mt (Value.isNil_iff.trans Value.ofJson_eq_nil).mp hj)]
    rfl
  refine ⟨fun j hj => ?_, fun t cell v ht hcell hv => ?_, fun text => hkept _ nofun⟩
  · rw [hkept j hj, ScanKind.toDocument_ofJson]
  · obtain hnil | ⟨j, rfl⟩ := ColumnType.ofCell_eq_ok ht hcell
    · exact absurd hnil hv
    · have hj : j ≠ .null := fun hnull => hv (hnull ▸ rfl)
      rw [hkept j hj, ScanKind.toDocument_ofJson]
      exact forall_congr' fun text => not_congr Value.ofJson_eq_text.symm

/-- The texts in a document that has been read are kept. -/
theorem Mapper.apply_document_nested :
    let mapper : Mapper := .scan .json true (.bool false)
    let j : Json := .array [.text "null", .object [("a", .integer 1)]]
    scanMapper "ScanNullJSON" (some ⟨.json, true⟩) [.bool false] = .ok (some mapper) ∧
      mapper.apply (fun _ v => .ok v) (Value.ofJson j) =
        .ok (.list [.text "null", .map [("a", .int 1)]]) := by
  intro mapper j
  have hmapper : scanMapper "ScanNullJSON" (some ⟨.json, true⟩) [.bool false] =
      .ok (some mapper) := rfl
  exact ⟨hmapper, ((apply_document hmapper _).1 j nofun).mpr nofun⟩

/-- The text "null" in a column of documents comes out as NULL. -/
theorem Mapper.apply_null_text :
    let v := Value.ofJson (.text "null")
    ColumnType.json.ofCell (some (utf8 "\"null\"")) = .ok v ∧
      (∃ mapper, scanMapper "ScanJSON" (some ⟨.json, false⟩) [] = .ok (some mapper) ∧
        mapper.apply (fun _ v => .ok v) v = .ok .nil) :=
  ⟨rfl, _, rfl, rfl⟩

end SqlTemplate
