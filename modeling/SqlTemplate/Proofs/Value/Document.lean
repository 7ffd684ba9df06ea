import Mathlib
import SqlTemplate.Proofs.Cache.Canonicity
import SqlTemplate.Value.Document

/-!
# Values come back from their documents

Data that a document can hold comes back from its document as an equal value
(`Value.same_ofJson`). It need not be the same one: the fields of a document are sorted, so what
comes back is the value with the entries of its maps sorted (`Value.ofJson_eq_sorted`), and that is
equal to it (`Value.same_sorted`).
-/

set_option autoImplicit false

namespace SqlTemplate

/-! ## Sorted keys -/

section Sorted

variable {α : Type}

theorem putSorted_perm {key : String} (value : α) {items : List (String × α)}
    (h : key ∉ items.map (·.1)) : (putSorted key value items).Perm ((key, value) :: items) := by
  induction items with
  | nil => exact .refl _
  | cons e rest ih =>
      obtain ⟨k, v⟩ := e
      rw [List.map_cons, List.mem_cons, not_or] at h
      rw [putSorted, if_neg h.1]
      split
      · exact .refl _
      · exact (List.Perm.cons _ (ih h.2)).trans (.swap ..)

theorem sortKeys_perm {items : List (String × α)} (h : (items.map (·.1)).Nodup) :
    (sortKeys items).Perm items := by
  have hput : ∀ items sorted : List (String × α), ((items ++ sorted).map (·.1)).Nodup →
      (items.foldl (fun sorted e => putSorted e.1 e.2 sorted) sorted).Perm (items ++ sorted) := by
    intro items
    induction items with
    | nil => exact fun sorted _ => .refl _
    | cons e rest ih =>
        intro sorted hkeys
        rw [List.cons_append, List.map_cons, List.nodup_cons] at hkeys
        have hsorted : e.1 ∉ sorted.map (·.1) := fun hmem => hkeys.1 (by simp [hmem])
        have hperm : (rest ++ putSorted e.1 e.2 sorted).Perm (e :: (rest ++ sorted)) :=
          ((putSorted_perm e.2 hsorted).append_left rest).trans List.perm_middle
        refine (ih _ ?_).trans hperm
        exact (hperm.map (·.1)).nodup_iff.mpr (List.nodup_cons.mpr hkeys)
  have hperm := hput items [] (by rwa [List.append_nil])
  rwa [List.append_nil] at hperm

/-- Whether the keys stand in their order. -/
def KeysSorted (items : List (String × α)) : Prop :=
  items.Pairwise fun e e' => e.1 < e'.1

theorem KeysSorted.nodup {items : List (String × α)} (h : KeysSorted items) :
    (items.map (·.1)).Nodup :=
  List.pairwise_map.mpr (h.imp fun hlt => hlt.ne)

theorem mem_putSorted {key : String} {value : α} {items : List (String × α)} {e : String × α}
    (h : e ∈ putSorted key value items) : e = (key, value) ∨ e ∈ items := by
  induction items with
  | nil => exact .inl (List.mem_singleton.mp h)
  | cons e' rest ih =>
      obtain ⟨k, v⟩ := e'
      rw [putSorted] at h
      split at h
      · exact List.mem_cons.mp h
      · split at h
        · exact (List.mem_cons.mp h).imp_right (List.mem_cons_of_mem _)
        · rcases List.mem_cons.mp h with rfl | h
          · exact .inr List.mem_cons_self
          · exact (ih h).imp_right (List.mem_cons_of_mem _)

theorem putSorted_sorted {items : List (String × α)} (h : KeysSorted items) (key : String)
    (value : α) : KeysSorted (putSorted key value items) := by
  induction items with
  | nil => exact List.pairwise_singleton _ _
  | cons e rest ih =>
      obtain ⟨k, v⟩ := e
      obtain ⟨hhead, hrest⟩ := List.pairwise_cons.mp h
      rw [putSorted]
      split
      · rename_i hlt
        refine List.pairwise_cons.mpr ⟨fun e he => ?_, h⟩
        rcases List.mem_cons.mp he with rfl | he
        · exact hlt
        · exact hlt.trans (hhead e he)
      · rename_i hlt
        split
        · rename_i heq
          subst heq
          exact List.pairwise_cons.mpr ⟨hhead, hrest⟩
        · rename_i hne
          refine List.pairwise_cons.mpr ⟨fun e he => ?_, ih hrest⟩
          rcases mem_putSorted he with rfl | he
          · exact lt_of_le_of_ne (not_lt.mp hlt) (Ne.symm hne)
          · exact hhead e he

theorem sortKeys_sorted (items : List (String × α)) : KeysSorted (sortKeys items) := by
  have hput : ∀ items sorted : List (String × α), KeysSorted sorted →
      KeysSorted (items.foldl (fun sorted e => putSorted e.1 e.2 sorted) sorted) := by
    intro items
    induction items with
    | nil => exact fun _ h => h
    | cons e rest ih => exact fun sorted h => ih _ (putSorted_sorted h e.1 e.2)
  exact hput items [] .nil

/-- What is sorted stays as it is. -/
theorem sortKeys_eq_self {items : List (String × α)} (h : KeysSorted items) :
    sortKeys items = items :=
  (sortKeys_perm h.nodup).eq_of_pairwise
    (fun _ _ _ _ hlt hgt => absurd hgt hlt.asymm) (sortKeys_sorted items) h

theorem putSorted_map {β : Type} (f : α → β) (key : String) (value : α)
    (items : List (String × α)) :
    putSorted key (f value) (items.map fun e => (e.1, f e.2)) =
      (putSorted key value items).map fun e => (e.1, f e.2) := by
  induction items with
  | nil => rfl
  | cons e rest ih =>
      rw [List.map_cons, putSorted, putSorted, ih]
      by_cases hlt : key < e.1
      · rw [if_pos hlt, if_pos hlt]
        rfl
      · rw [if_neg hlt, if_neg hlt]
        by_cases heq : key = e.1
        · rw [if_pos heq, if_pos heq]
          rfl
        · rw [if_neg heq, if_neg heq]
          rfl

/-- Sorting looks at the keys only. -/
theorem sortKeys_map {β : Type} (f : α → β) (items : List (String × α)) :
    sortKeys (items.map fun e => (e.1, f e.2)) = (sortKeys items).map fun e => (e.1, f e.2) := by
  have hput : ∀ sorted : List (String × α),
      (items.map fun e => (e.1, f e.2)).foldl (fun sorted e => putSorted e.1 e.2 sorted)
          (sorted.map fun e => (e.1, f e.2)) =
        (items.foldl (fun sorted e => putSorted e.1 e.2 sorted) sorted).map
          fun e => (e.1, f e.2) := fun sorted => by
    rw [List.foldl_map]
    exact List.foldl_hom _ fun sorted e => putSorted_map f e.1 e.2 sorted
  exact hput []

end Sorted

/-! ## Equal values -/

/-- Only what is not a number differs from itself. -/
theorem beq_self_of_isFinite {x : Float} (h : x.isFinite = true) : (x == x) = true := by
  have hfinite : x.toModel.unpack.isFinite = true := h
  show x.toModel.unpack.beq x.toModel.unpack = true
  cases hx : x.toModel.unpack with
  | notANumber =>
      rw [hx] at hfinite
      cases hfinite
  | infinity s =>
      rw [hx] at hfinite
      cases hfinite
  | zero s => rfl
  | finite s m e hm =>
      cases s <;>
        simp [Float.Model.UnpackedFloat.beq, Float.Model.UnpackedFloat.compare,
          Std.ReflCmp.compare_self]

theorem sameEntries_iff {entries others : List (String × Value)} :
    sameEntries entries others = true ↔
      ∀ e ∈ entries, ∃ w, others.lookup e.1 = some w ∧ e.2.same w = true := by
  induction entries with
  | nil => simp [sameEntries]
  | cons e rest ih =>
      rw [sameEntries, Bool.and_eq_true, ih, List.forall_mem_cons]
      cases others.lookup e.1 <;> simp

/-- Maps of one size are equal if each entry of the first has an equal one in the second. -/
theorem same_map {entries others : List (String × Value)}
    (hkeys : (others.map (·.1)).Nodup) (hlength : entries.length = others.length)
    (h : ∀ e ∈ entries, ∃ w, (e.1, w) ∈ others ∧ e.2.same w = true) :
    (Value.map entries).same (.map others) = true := by
  rw [Value.same, decide_eq_true hlength, Bool.true_and, sameEntries_iff]
  intro e he
  obtain ⟨w, hw, hsame⟩ := h e he
  exact ⟨w, lookup_of_mem hkeys hw, hsame⟩

/-- Whether a value is neither a double nor an instant, fragment or destination, and has each key
once if it is a map. -/
def Value.Discrete : Value → Prop
  | .float _ | .instant _ | .fragment _ | .dest _ => False
  | .map entries => (entries.map (·.1)).Nodup
  | _ => True

mutual

theorem Value.same_self {v : Value} (h : v.Every Value.Discrete) : v.same v = true := by
  match v with
  | .nil | .bool _ | .int _ | .text _ | .bytes _ => simp [Value.same]
  | .list items =>
      rw [Value.same]
      exact sameItems_self h.2
  | .map entries => exact same_map h.1 rfl fun e he => ⟨e.2, he, entries_same_self h.2 e he⟩
  | .float _ | .instant _ | .fragment _ | .dest _ => exact absurd h id

theorem sameItems_self {items : List Value} (h : EveryItem Value.Discrete items) :
    sameItems items items = true := by
  match items with
  | [] => rw [sameItems]
  | v :: rest => rw [sameItems, Value.same_self h.1, sameItems_self h.2, Bool.and_true]

theorem entries_same_self {entries : List (String × Value)}
    (h : EveryEntry Value.Discrete entries) : ∀ e ∈ entries, e.2.same e.2 = true := by
  match entries with
  | [] => exact fun _ he => nomatch he
  | (_, _) :: _ =>
      exact List.forall_mem_cons.mpr ⟨Value.same_self h.1, entries_same_self h.2⟩

end

/-! ## Sorted values -/

/-- Whether a value, as far as it alone goes, loses nothing in its document: it is neither an
instant, which a document holds as a text, nor a double that is not finite, which it holds as null,
nor a piece of a statement, and has each key once if it is a map. -/
def Value.Lossless : Value → Prop
  | .float x => x.isFinite = true
  | .instant _ | .fragment _ | .dest _ => False
  | .map entries => (entries.map (·.1)).Nodup
  | _ => True

theorem Value.Discrete.lossless {v : Value} (h : v.Discrete) : v.Lossless := by
  cases v with
  | float x => exact h.elim
  | _ => exact h

mutual

/-- The value with the entries of its maps sorted by their keys, at every depth. -/
def Value.sorted : Value → Value
  | .list items => .list (sortedItems items)
  | .map entries => .map (sortKeys (sortedEntries entries))
  | v => v

/-- The items with the entries of their maps sorted. -/
def sortedItems : List Value → List Value
  | [] => []
  | v :: rest => v.sorted :: sortedItems rest

/-- The entries, in their order, with the entries of maps in them sorted. -/
def sortedEntries : List (String × Value) → List (String × Value)
  | [] => []
  | (key, v) :: rest => (key, v.sorted) :: sortedEntries rest

end

theorem sortedEntries_eq_map (entries : List (String × Value)) :
    sortedEntries entries = entries.map fun e => (e.1, e.2.sorted) := by
  induction entries with
  | nil => rfl
  | cons e rest ih => rw [sortedEntries, List.map_cons, ih]

/-- A map is equal to its sorted form, both ways, if the values in it are. -/
theorem same_map_sorted {entries : List (String × Value)} (hkeys : (entries.map (·.1)).Nodup)
    (h : ∀ e ∈ entries, e.2.same e.2.sorted = true ∧ e.2.sorted.same e.2 = true) :
    (Value.map entries).same (Value.map entries).sorted = true ∧
      (Value.map entries).sorted.same (.map entries) = true := by
  rw [Value.sorted]
  have hmem : ∀ e, e ∈ sortedEntries entries ↔ ∃ e' ∈ entries, (e'.1, e'.2.sorted) = e := by
    intro e
    rw [sortedEntries_eq_map, List.mem_map]
  have hsortedKeys : (sortedEntries entries).map (·.1) = entries.map (·.1) := by
    rw [sortedEntries_eq_map, List.map_map]
    rfl
  -- No key is there twice, so sorting drops no entry.
  have hperm := sortKeys_perm (hsortedKeys ▸ hkeys)
  have hlength : (sortKeys (sortedEntries entries)).length = entries.length := by
    rw [hperm.length_eq, sortedEntries_eq_map, List.length_map]
  constructor
  · refine same_map (sortKeys_sorted _).nodup hlength.symm fun e he => ?_
    exact ⟨e.2.sorted, hperm.mem_iff.mpr ((hmem _).mpr ⟨e, he, rfl⟩), (h e he).1⟩
  · refine same_map hkeys hlength fun e he => ?_
    obtain ⟨e', he', rfl⟩ := (hmem e).mp (hperm.mem_iff.mp he)
    exact ⟨e'.2, he', (h e' he').2⟩

mutual

/-- The order of entries does not matter to equality. -/
theorem Value.same_sorted {v : Value} (h : v.Every Value.Lossless) :
    v.same v.sorted = true ∧ v.sorted.same v = true := by
  match v with
  | .nil | .bool _ | .int _ | .text _ | .bytes _ => simp [Value.sorted, Value.same]
  | .float x =>
      have hfinite : x.isFinite = true := h
      simp [Value.sorted, Value.same, beq_self_of_isFinite hfinite]
  | .list items =>
      rw [Value.sorted, Value.same, Value.same]
      exact sameItems_sorted h.2
  | .map entries => exact same_map_sorted h.1 (entries_same_sorted h.2)
  | .instant _ | .fragment _ | .dest _ => exact absurd h id

theorem sameItems_sorted {items : List Value} (h : EveryItem Value.Lossless items) :
    sameItems items (sortedItems items) = true ∧ sameItems (sortedItems items) items = true := by
  match items with
  | [] => simp [sortedItems, sameItems]
  | v :: rest =>
      obtain ⟨hv, hv'⟩ := Value.same_sorted h.1
      obtain ⟨hrest, hrest'⟩ := sameItems_sorted h.2
      simp only [sortedItems, sameItems, hv, hv', hrest, hrest', Bool.and_self, and_self]

theorem entries_same_sorted {entries : List (String × Value)}
    (h : EveryEntry Value.Lossless entries) :
    ∀ e ∈ entries, e.2.same e.2.sorted = true ∧ e.2.sorted.same e.2 = true := by
  match entries with
  | [] => exact fun _ he => nomatch he
  | (_, _) :: _ =>
      exact List.forall_mem_cons.mpr ⟨Value.same_sorted h.1, entries_same_sorted h.2⟩

end

/-! ## There and back -/

theorem Value.ofWhole_toInt (n : Int64) : Value.ofWhole n.toInt = .int n := by
  have hlow := n.minValue_le_toInt
  have hhigh := n.toInt_lt
  simp only [Int64.toInt_minValue] at hlow
  rw [ofWhole, toInt64?,
    if_pos ⟨by simpa [int64Floor] using hlow, by simpa [int64Floor] using hhigh⟩, Int64.ofInt_toInt]

theorem entriesOfJson_eq_map (fields : List (String × Json)) :
    entriesOfJson fields = fields.map fun e => (e.1, Value.ofJson e.2) := by
  induction fields with
  | nil => rfl
  | cons e rest ih => rw [entriesOfJson, List.map_cons, ih]

theorem jsonOfEntries_keys {entries : List (String × Value)} {fields : List (String × Json)}
    (h : jsonOfEntries? entries = some fields) : fields.map (·.1) = entries.map (·.1) := by
  induction entries generalizing fields with
  | nil => cases h; rfl
  | cons e rest ih =>
      obtain ⟨key, v⟩ := e
      simp only [jsonOfEntries?, Option.bind_eq_bind, Option.bind_eq_some_iff,
        Option.some.injEq] at h
      obtain ⟨item, -, items, hitems, rfl⟩ := h
      rw [List.map_cons, List.map_cons, ih hitems]

mutual

/-- What comes back from the document of a value is the value, sorted. -/
theorem Value.ofJson_eq_sorted {v : Value} (h : v.Every Value.Lossless) {j : Json}
    (hj : v.toJson? = some j) : Value.ofJson j = v.sorted := by
  match v with
  | .nil | .bool _ | .text _ =>
      cases hj
      rfl
  | .int n =>
      cases hj
      rw [Value.ofJson, Value.ofWhole_toInt]
      rfl
  | .float x =>
      cases hj
      have hfinite : x.isFinite = true := h
      rw [Json.ofDouble, if_pos hfinite]
      rfl
  | .list items =>
      obtain ⟨js, hjs, rfl⟩ := Option.map_eq_some_iff.mp hj
      rw [Value.ofJson, valuesOfJson_eq_sorted h.2 hjs, Value.sorted]
  | .map entries =>
      obtain ⟨fields, hfields, rfl⟩ := Option.map_eq_some_iff.mp hj
      -- The fields were sorted as documents; sorting the values they hold gives the same.
      rw [Json.ofFields, Value.ofJson, entriesOfJson_eq_map, ← sortKeys_map,
        ← entriesOfJson_eq_map, entriesOfJson_eq_sorted h.2 hfields, Value.sorted]
  | .bytes _ => cases hj
  | .instant _ | .fragment _ | .dest _ => exact absurd h id

theorem valuesOfJson_eq_sorted {items : List Value} (h : EveryItem Value.Lossless items)
    {js : List Json} (hjs : jsonOfValues? items = some js) :
    valuesOfJson js = sortedItems items := by
  match items with
  | [] =>
      cases hjs
      rfl
  | v :: rest =>
      simp only [jsonOfValues?, Option.bind_eq_bind, Option.bind_eq_some_iff,
        Option.some.injEq] at hjs
      obtain ⟨j, hj, js, hjs, rfl⟩ := hjs
      rw [valuesOfJson, Value.ofJson_eq_sorted h.1 hj, valuesOfJson_eq_sorted h.2 hjs, sortedItems]

theorem entriesOfJson_eq_sorted {entries : List (String × Value)}
    (h : EveryEntry Value.Lossless entries) {fields : List (String × Json)}
    (hfields : jsonOfEntries? entries = some fields) :
    entriesOfJson fields = sortedEntries entries := by
  match entries with
  | [] =>
      cases hfields
      rfl
  | (key, v) :: rest =>
      simp only [jsonOfEntries?, Option.bind_eq_bind, Option.bind_eq_some_iff,
        Option.some.injEq] at hfields
      obtain ⟨j, hj, fields, hfields, rfl⟩ := hfields
      rw [entriesOfJson, Value.ofJson_eq_sorted h.1 hj, entriesOfJson_eq_sorted h.2 hfields,
        sortedEntries]

end

/-- **A value comes back from its document**, up to the order of entries. -/
theorem Value.same_ofJson {v : Value} (h : v.Every Value.Discrete) {j : Json}
    (hj : v.toJson? = some j) : v.same (Value.ofJson j) = true := by
  have hlossless := h.mono fun _ => Value.Discrete.lossless
  rw [Value.ofJson_eq_sorted hlossless hj]
  exact (Value.same_sorted hlossless).1

end SqlTemplate
