import Mathlib
import SqlTemplate.Proofs.Value.Document

/-!
# What is in a value

Whether a value makes a document depends on what is in it, at any depth: it makes none exactly if
there are bytes, a fragment or a destination somewhere (`Value.toJson?_eq_none_iff`). The document
gives the value back as long as nothing in it is lost (`Value.ofJson_toJson?`).
-/

set_option autoImplicit false

namespace SqlTemplate

/-! ## Occurrences -/

/-- Whether the first value is in the second one: it is that value itself, or in an item of it, or
in the value of an entry of it. -/
inductive Value.Within : Value → Value → Prop
  | self (v : Value) : Within v v
  | item {w v : Value} {items : List Value} : v ∈ items → Within w v → Within w (.list items)
  | entry {w v : Value} {key : String} {entries : List (String × Value)} :
      (key, v) ∈ entries → Within w v → Within w (.map entries)

section Every

variable {P : Value → Prop}

mutual

/-- What holds of a value and everything in it holds of all that occurs in it. -/
theorem Value.every_iff (v : Value) : v.Every P ↔ ∀ w : Value, w.Within v → P w := by
  match v with
  | .list items =>
      rw [Value.Every, everyItem_iff items]
      constructor
      · rintro ⟨hself, hitems⟩ w hw
        cases hw with
        | self => exact hself
        | item hv hw => exact hitems _ hv w hw
      · exact fun h => ⟨h _ (.self _), fun v hv w hw => h w (.item hv hw)⟩
  | .map entries =>
      rw [Value.Every, everyEntry_iff entries]
      constructor
      · rintro ⟨hself, hentries⟩ w hw
        cases hw with
        | self => exact hself
        | entry he hw => exact hentries _ he w hw
      · exact fun h => ⟨h _ (.self _), fun e he w hw => h w (.entry he hw)⟩
  | .nil | .bool _ | .int _ | .float _ | .text _ | .bytes _ | .instant _ | .fragment _ | .dest _ =>
      -- There is nothing in such a value but itself.
      refine ⟨fun h w hw => ?_, fun h => h _ (.self _)⟩
      cases hw
      exact h

theorem everyItem_iff (items : List Value) :
    EveryItem P items ↔ ∀ v ∈ items, ∀ w : Value, w.Within v → P w := by
  match items with
  | [] => simp [EveryItem]
  | v :: rest => rw [EveryItem, v.every_iff, everyItem_iff rest, List.forall_mem_cons]

theorem everyEntry_iff (entries : List (String × Value)) :
    EveryEntry P entries ↔ ∀ e ∈ entries, ∀ w : Value, w.Within e.2 → P w := by
  match entries with
  | [] => simp [EveryEntry]
  | (_, v) :: rest => rw [EveryEntry, v.every_iff, everyEntry_iff rest, List.forall_mem_cons]

end

end Every

/-! ## Making a document -/

/-- Whether a value by itself makes no document. -/
def Value.Undocumented : Value → Prop
  | .bytes _ | .fragment _ | .dest _ => True
  | _ => False

mutual

theorem Value.toJson?_isSome_iff (v : Value) :
    v.toJson?.isSome = true ↔ v.Every fun w => ¬ w.Undocumented := by
  match v with
  | .list items =>
      rw [Value.toJson?, Option.isSome_map, jsonOfValues?_isSome_iff items, Value.Every]
      exact (and_iff_right id).symm
  | .map entries =>
      rw [Value.toJson?, Option.isSome_map, jsonOfEntries?_isSome_iff entries, Value.Every]
      exact (and_iff_right id).symm
  | .bytes _ | .fragment _ | .dest _ => exact ⟨fun h => (nomatch h), fun h => absurd trivial h⟩
  | .nil | .bool _ | .int _ | .float _ | .text _ | .instant _ => exact ⟨fun _ => id, fun _ => rfl⟩

theorem jsonOfValues?_isSome_iff (items : List Value) :
    (jsonOfValues? items).isSome = true ↔ EveryItem (fun w => ¬ w.Undocumented) items := by
  match items with
  | [] => exact ⟨fun _ => trivial, fun _ => rfl⟩
  | v :: rest =>
      rw [EveryItem, ← v.toJson?_isSome_iff, ← jsonOfValues?_isSome_iff rest, jsonOfValues?]
      cases v.toJson? <;> cases jsonOfValues? rest <;> simp

theorem jsonOfEntries?_isSome_iff (entries : List (String × Value)) :
    (jsonOfEntries? entries).isSome = true ↔ EveryEntry (fun w => ¬ w.Undocumented) entries := by
  match entries with
  | [] => exact ⟨fun _ => trivial, fun _ => rfl⟩
  | (_, v) :: rest =>
      rw [EveryEntry, ← v.toJson?_isSome_iff, ← jsonOfEntries?_isSome_iff rest, jsonOfEntries?]
      cases v.toJson? <;> cases jsonOfEntries? rest <;> simp

end

/-- A failure at any depth is a failure of the whole, and there is no other one. -/
theorem Value.toJson?_eq_none_iff (v : Value) :
    v.toJson? = none ↔ ∃ w : Value, w.Within v ∧ w.Undocumented := by
  rw [← Option.not_isSome_iff_eq_none, v.toJson?_isSome_iff, v.every_iff]
  simp only [not_forall, not_not, exists_prop]

/-! ## There and back -/

/-- **Which values make a document, and which come back from it.** A value makes no document exactly
if there are bytes, a fragment or a destination in it, at any depth. If there is none of these in
it, no instant and only finite doubles, and its maps have each key once, its document gives it back
with the entries of the maps sorted. That is equal to it: integers come back as integers, and
doubles as doubles. -/
theorem Value.ofJson_toJson? (v : Value) :
    (v.toJson? = none ↔ ∃ w : Value, w.Within v ∧ w.Undocumented) ∧
      ((∀ w : Value, w.Within v → w.Lossless ∧ ¬ w.Undocumented) →
        ∃ j, v.toJson? = some j ∧ Value.ofJson j = v.sorted ∧
          (Value.ofJson j).same v = true ∧ v.same (Value.ofJson j) = true) := by
  refine ⟨v.toJson?_eq_none_iff, fun h => ?_⟩
  have hlossless : v.Every Value.Lossless := v.every_iff.mpr fun w hw => (h w hw).1
  have hsome : v.toJson?.isSome = true :=
    v.toJson?_isSome_iff.mpr (v.every_iff.mpr fun w hw => (h w hw).2)
  obtain ⟨j, hj⟩ := Option.isSome_iff_exists.mp hsome
  have hback : Value.ofJson j = v.sorted := Value.ofJson_eq_sorted hlossless hj
  obtain ⟨hsame, hsame'⟩ := Value.same_sorted hlossless
  exact ⟨j, hj, hback, hback ▸ hsame', hback ▸ hsame⟩

/-- A map within a list within a map, whose entries come back in another order. -/
theorem Value.ofJson_toJson?_nested :
    let inner := Value.map [("z", .float (-0.0)), ("a", .int (-1))]
    let v := Value.map [("b", .list [.int 3, .float 1.5, inner]), ("a", .nil)]
    (∀ w : Value, w.Within v → w.Lossless ∧ ¬ w.Undocumented) ∧
      ∃ j, v.toJson? = some j ∧
        Value.ofJson j = .map [("a", .nil), ("b", .list [.int 3, .float 1.5,
          .map [("a", .int (-1)), ("z", .float (-0.0))]])] ∧
        (Value.ofJson j).same v = true ∧ v.same (Value.ofJson j) = true := by
  intro inner v
  have hv : ∀ w : Value, w.Within v → w.Lossless ∧ ¬ w.Undocumented := by
    refine v.every_iff.mp ?_
    simp [v, inner, Value.Every, EveryItem, EveryEntry, Value.Lossless, Value.Undocumented]
    decide
  obtain ⟨j, hj, hback, hsame, hsame'⟩ := (Value.ofJson_toJson? v).2 hv
  refine ⟨hv, j, hj, hback.trans ?_, hsame, hsame'⟩
  have hab : "a" < "b" := by decide +kernel
  have haz : "a" < "z" := by decide +kernel
  simp only [v, inner, Value.sorted, sortedItems, sortedEntries, sortKeys, List.foldl_cons,
    List.foldl_nil, putSorted, if_pos hab, if_pos haz]

end SqlTemplate
