import Mathlib
import SqlTemplate.Proofs.Number.Widening
import SqlTemplate.Proofs.Shape.Typed

/-!
# There and back

A typed value that is turned into a dynamic one, and that into a typed one of the same type, is the
one that it was (`Shape.ofValue_toValue`): integers are not cut, singles come back from doubles, and
the values of a record go back to the fields that they came from. That last thing needs the fields
of each record to be told apart by the names that they answer to; where they are not, a field takes
the value of one in front of it (`Shape.ofValue_toValue_stolen`).
-/

set_option autoImplicit false

namespace SqlTemplate

/-! ## Types that are exchanged -/

/-- Whether there are lists of the type in both directions. -/
def Shape.IsItem (item : Shape) : Prop :=
  item = .text ∨ item = .int .i64 ∨ item = .int .i32 ∨ item = .float64

mutual

/-- Whether values of the type can be turned into dynamic values and back: scalars, lists of some of
them, options that are not nested directly, and records of such types with distinct names. -/
def Shape.Exchanged : Shape → Prop
  | .bool | .int _ | .float32 | .float64 | .text | .bytes | .instant => True
  | .option inner => (∀ s, inner ≠ .option s) ∧ inner.Exchanged
  | .list item => item.IsItem
  | .record _ fields => (fields.map (·.1.name)).Nodup ∧ FieldsExchanged fields
  | _ => False

/-- Whether fields have such types. -/
def FieldsExchanged : List (FieldInfo × Shape) → Prop
  | [] => True
  | (_, s) :: fields => s.Exchanged ∧ FieldsExchanged fields

end

/-- Whether the fields of all records are told apart: none answers to the name of one in front of
it. -/
def Shape.Separate : Shape → Prop :=
  Shape.EveryRecord fun fields =>
    fields.Pairwise fun earlier later => later.1.answersTo earlier.1.name = false

/-! ## Scalars -/

/-- An integer that fits 64 bits is the one that they hold. -/
theorem toInt_of_toInt64? {n : Int} {i : Int64} (h : toInt64? n = some i) : i.toInt = n := by
  rw [toInt64?] at h
  split at h
  · rename_i hrange
    obtain rfl := Option.some.inj h
    have hfloor : (int64Floor : Int) = 2 ^ 63 := by decide
    exact Int64.toInt_ofInt_of_le (hfloor ▸ hrange.1) (hfloor ▸ hrange.2)
  · cases h

/-- The integers of a type are stored in it. -/
theorem IntType.store_toValue {type : IntType} {n : Int} {v : Value} (hlow : type.low ≤ n)
    (hhigh : n ≤ type.high) (hv : (Datum.int type n).toValue = .ok v) :
    type.isExchanged = true ∧ v.isNil = false ∧ type.store v = .ok (.int type n) := by
  rw [Datum.toValue] at hv
  split at hv
  · rename_i hexchanged
    cases hint : toInt64? n with
    | none =>
        rw [hint] at hv
        cases hv
    | some i =>
        rw [hint] at hv
        cases hv
        have hn : i.toInt = n := toInt_of_toInt64? hint
        have hrange : ¬ (i.toInt < type.low ∨ type.high < i.toInt) := by omega
        refine ⟨hexchanged, rfl, ?_⟩
        rw [store, if_neg hrange, hn]
  · cases hv

/-- The items of a list are read as they were. -/
theorem Shape.IsItem.read {item : Shape} (h : item.IsItem) : ∃ read, item.itemReader? = some read ∧
    ∀ d v, item.Holds d → d.toValue = .ok v → read v = some d := by
  have hint : ∀ type : IntType, type = .i64 ∨ type = .i32 →
      ∃ read, (Shape.int type).itemReader? = some read ∧
        ∀ d v, (Shape.int type).Holds d → d.toValue = .ok v → read v = some d := by
    intro type htype
    refine ⟨_, by rw [itemReader?, if_pos htype], fun d v hd hv => ?_⟩
    cases d with
    | int type' n =>
        obtain ⟨rfl, hlow, hhigh⟩ := hd
        obtain ⟨-, -, hstore⟩ := IntType.store_toValue hlow hhigh hv
        cases v with
        | int i =>
            rw [IntType.store] at hstore
            split at hstore
            · cases hstore
            · rename_i hrange
              cases hstore
              exact if_neg hrange
        | _ => cases hstore
    | _ => exact hd.elim
  rcases h with rfl | rfl | rfl | rfl
  · refine ⟨_, rfl, fun d v hd hv => ?_⟩
    cases d with
    | text s =>
        cases hv
        rfl
    | _ => exact hd.elim
  · exact hint .i64 (.inl rfl)
  · exact hint .i32 (.inr rfl)
  · refine ⟨_, rfl, fun d v hd hv => ?_⟩
    cases d with
    | float64 x =>
        cases hv
        rfl
    | _ => exact hd.elim

/-- Items that are read one by one are read together. -/
theorem Shape.storeItems_values {item shape : Shape} {read : Value → Option Datum}
    (hread : ∀ d v, item.Holds d → d.toValue = .ok v → read v = some d) {items : List Datum}
    {values : List Value} (hitems : ∀ d ∈ items, item.Holds d)
    (hvalues : valuesOfData items = .ok values) : shape.storeItems read values = .ok items := by
  induction items generalizing values with
  | nil =>
      cases hvalues
      rfl
  | cons d rest ih =>
      rw [valuesOfData] at hvalues
      obtain ⟨v, hv, hvalues⟩ := bind_eq_ok.mp hvalues
      obtain ⟨vs, hvs, hvalues⟩ := bind_eq_ok.mp hvalues
      cases hvalues
      have hfirst : read v = some d := hread d v (hitems d List.mem_cons_self) hv
      have hrest := ih (fun d hd => hitems d (List.mem_cons_of_mem _ hd)) hvs
      rw [storeItems, hfirst, hrest]
      rfl

/-- Only what is absent becomes NULL. -/
theorem Shape.Exchanged.not_nil {s : Shape} {d : Datum} {v : Value} (hs : s.Exchanged)
    (hd : s.Holds d) (hv : d.toValue = .ok v) (hoption : ∀ inner, s ≠ .option inner) :
    v.isNil = false := by
  cases s with
  | option inner => exact absurd rfl (hoption inner)
  | int type =>
      cases d with
      | int type' n =>
          obtain ⟨rfl, hlow, hhigh⟩ := hd
          exact (IntType.store_toValue hlow hhigh hv).2.1
      | _ => exact hd.elim
  | list item =>
      cases d with
      | list items =>
          obtain ⟨values, -, rfl⟩ := map_eq_ok.mp hv
          rfl
      | _ => exact hd.elim
  | record name fields =>
      cases d with
      | record type values =>
          obtain ⟨entries, -, rfl⟩ := map_eq_ok.mp hv
          rfl
      | _ => exact hd.elim
  | bool | float32 | float64 | text | bytes | instant =>
      cases d <;> first | exact hd.elim | (cases hv; rfl)
  | _ => exact hs.elim

/-! ## Records -/

/-- A field finds its value behind entries that it does not answer to. -/
theorem FieldInfo.find?_append {field : FieldInfo} {front rest : Entries} {v : Value}
    (hfront : ∀ e ∈ front, field.answersTo e.1 = false) :
    field.find? (front ++ (field.name, v) :: rest) = some v := by
  have hself : field.answersTo field.name = true := by
    rw [answersTo, nameMatches_self, Bool.or_true]
  have hnone : front.find? (fun e => field.answersTo e.1) = none := by
    rw [List.find?_eq_none]
    intro e he
    simp [hfront e he]
  rw [find?, List.find?_append, hnone, Option.none_or, List.find?_cons, hself]
  rfl

theorem FieldsExchanged.mem {fields : List (FieldInfo × Shape)} (h : FieldsExchanged fields)
    {field : FieldInfo} {s : Shape} (hmem : (field, s) ∈ fields) : s.Exchanged := by
  induction fields with
  | nil => cases hmem
  | cons f fields ih =>
      rcases List.mem_cons.mp hmem with rfl | hmem
      · exact h.1
      · exact ih h.2 hmem

/-- The values of a record go back to their fields, if they come back by themselves and the fields
are told apart. The entries that stand in front are those of fields that are filled already. -/
theorem fieldsOfEntries_entriesOfFields {fields : List (FieldInfo × Shape)}
    {values : List (String × Datum)} {front entries : Entries}
    (hback : ∀ field s, (field, s) ∈ fields → ∀ d v, s.Holds d → d.toValue = .ok v →
      s.ofValue v = .ok d)
    (hapart : fields.Pairwise fun earlier later => later.1.answersTo earlier.1.name = false)
    (hfront : ∀ e ∈ front, ∀ f ∈ fields, f.1.answersTo e.1 = false)
    (hd : FieldsHold fields values) (hv : entriesOfFields values = .ok entries) :
    fieldsOfEntries (front ++ entries) fields = .ok values := by
  induction fields generalizing values front entries with
  | nil =>
      cases values with
      | nil => rfl
      | cons e values => exact hd.elim
  | cons f fields ih =>
      obtain ⟨field, s⟩ := f
      cases values with
      | nil => exact hd.elim
      | cons e values =>
          obtain ⟨name, d⟩ := e
          obtain ⟨rfl, hfield, hrest⟩ := hd
          obtain ⟨v, rest, hvalue, hvalues, rfl⟩ := entriesOfFields_cons hv
          obtain ⟨hbehind, hapart⟩ := List.pairwise_cons.mp hapart
          have hfind : field.find? (front ++ (field.name, v) :: rest) = some v :=
            FieldInfo.find?_append fun e he => hfront e he (field, s) List.mem_cons_self
          have hfirst : s.ofValue v = .ok d := hback field s List.mem_cons_self d v hfield hvalue
          have hfront' : ∀ e ∈ front ++ [(field.name, v)], ∀ f ∈ fields,
              f.1.answersTo e.1 = false := by
            intro e he f hf
            rcases List.mem_append.mp he with he | he
            · exact hfront e he f (List.mem_cons_of_mem _ hf)
            · obtain rfl := List.mem_singleton.mp he
              exact hbehind f hf
          have hothers := ih (fun g s hg => hback g s (List.mem_cons_of_mem _ hg)) hapart hfront'
            hrest hvalues
          rw [List.append_assoc, List.singleton_append] at hothers
          rw [fieldsOfEntries, hfind]
          show (s.ofValue v).bind _ = _
          rw [hfirst]
          show (fieldsOfEntries _ fields).bind _ = _
          rw [hothers]
          rfl

/-! ## All types -/

/-- **There and back.** A value of a type that is exchanged, in whose records the fields are told
apart, comes back from its dynamic value. -/
theorem Shape.ofValue_toValue {s : Shape} {d : Datum} {v : Value} (hs : s.Exchanged)
    (hseparate : s.Separate) (hd : s.Holds d) (hv : d.toValue = .ok v) : s.ofValue v = .ok d := by
  match s with
  | .option inner =>
    cases d with
    | absent =>
        cases hv
        rfl
    | present d =>
        have hnil : v.isNil = false := hs.2.not_nil hd hv hs.1
        have hinner : inner.ofValue v = .ok d := Shape.ofValue_toValue hs.2 hseparate hd hv
        rw [Shape.ofValue, hnil, if_neg Bool.false_ne_true, hinner]
        rfl
    | _ => exact hd.elim
  | .record name fields =>
    cases d with
    | record type values =>
        obtain ⟨rfl, hfields⟩ := hd
        obtain ⟨entries, hentries, rfl⟩ := map_eq_ok.mp hv
        have hdistinct : (entries.map (·.1)).Nodup := by
          rw [entriesOfFields_names hfields hentries]
          exact hs.1
        have hback : ∀ field s, (field, s) ∈ fields → ∀ d v, s.Holds d → d.toValue = .ok v →
            s.ofValue v = .ok d := fun field s hmem d v hd hv =>
          Shape.ofValue_toValue (hs.2.mem hmem) (hseparate.2.mem hmem) hd hv
        have hall : fieldsOfEntries ([] ++ entries) fields = .ok values :=
          fieldsOfEntries_entriesOfFields hback hseparate.1 (by simp) hfields hentries
        rw [List.nil_append] at hall
        rw [ofEntries_of_nodup hdistinct, Shape.ofValue]
        show (fieldsOfEntries entries fields).map (Datum.record type) = _
        rw [hall]
        rfl
    | _ => exact hd.elim
  | .int type =>
    cases d with
    | int type' n =>
        obtain ⟨rfl, hlow, hhigh⟩ := hd
        obtain ⟨hexchanged, hnil, hstore⟩ := IntType.store_toValue hlow hhigh hv
        show (if v.isNil then _ else (Shape.int type').storePlain v) = _
        rw [hnil, if_neg Bool.false_ne_true, Shape.storePlain, if_pos hexchanged, hstore]
    | _ => exact hd.elim
  | .list item =>
    cases d with
    | list items =>
        obtain ⟨read, hreader, hread⟩ := Shape.IsItem.read hs
        obtain ⟨values, hvalues, rfl⟩ := map_eq_ok.mp hv
        have hitems : (Shape.list item).storeItems read values = .ok items :=
          Shape.storeItems_values hread hd hvalues
        show (Shape.list item).storePlain (.list values) = _
        rw [Shape.storePlain, hreader]
        show ((Shape.list item).storeItems read values).map Datum.list = _
        rw [hitems]
        rfl
    | _ => exact hd.elim
  | .float32 =>
    cases d with
    | float32 x =>
        cases hv
        show Except.ok (Datum.float32 (narrow (widen x))) = _
        rw [narrow_widen]
    | _ => exact hd.elim
  | .bool | .float64 | .text | .bytes | .instant =>
    cases d <;> first | exact hd.elim | (cases hv; rfl)
termination_by s
decreasing_by
  · simp
  · have hsize := List.sizeOf_lt_of_mem hmem
    simp only [Prod.mk.sizeOf_spec] at hsize
    simp only [Shape.record.sizeOf_spec]
    omega

/-- A record with a record in it, of which one field is declared under another name, and one is
absent. -/
theorem Shape.ofValue_toValue_nested :
    let author : Shape :=
      .record "Author" [(.plain "name", .text), (⟨"born", "year", none⟩, .option (.int .i32))]
    let book : Shape := .record "Book" [(⟨"id", "book_id", none⟩, .int ⟨false, .w64⟩),
      (.plain "author", .option author), (.plain "score", .float32),
      (.plain "pages", .list (.int .i64))]
    let d : Datum := .record "Book" [("id", .int ⟨false, .w64⟩ 7),
      ("author", .present (.record "Author" [("name", .text "ann"), ("born", .absent)])),
      ("score", .float32 1.5), ("pages", .list [.int .i64 12, .int .i64 30])]
    let v : Value := .map [("id", .int 7), ("author", .map [("name", .text "ann"), ("born", .nil)]),
      ("score", .float (widen 1.5)), ("pages", .list [.int 12, .int 30])]
    book.Exchanged ∧ book.Separate ∧ book.Holds d ∧ d.toValue = .ok v ∧ book.ofValue v = .ok d := by
  intro author book d v
  have hs : book.Exchanged := by
    simp [book, author, Shape.Exchanged, FieldsExchanged, Shape.IsItem, FieldInfo.plain]
  have hseparate : book.Separate := by
    simp only [book, author, Shape.Separate, Shape.EveryRecord, FieldsEveryRecord, and_true]
    decide +kernel
  have hd : book.Holds d := by
    simp [book, author, d, Shape.Holds, FieldsHold, FieldInfo.plain]
    decide
  have hv : d.toValue = .ok v := rfl
  exact ⟨hs, hseparate, hd, hv, Shape.ofValue_toValue hs hseparate hd hv⟩

/-- Three fields with distinct names that differ in case and underscores only: each takes the value
of the first. -/
theorem Shape.ofValue_toValue_stolen :
    let s : Shape := .record "Ambig" [(.plain "a_b", .int .i64), (.plain "ab", .int .i64),
      (.plain "aB", .int .i64)]
    let d : Datum :=
      .record "Ambig" [("a_b", .int .i64 1), ("ab", .int .i64 2), ("aB", .int .i64 3)]
    s.Exchanged ∧ s.Holds d ∧ ∃ v, d.toValue = .ok v ∧ s.ofValue v ≠ .ok d ∧
      s.ofValue v = .ok (.record "Ambig"
        [("a_b", .int .i64 1), ("ab", .int .i64 1), ("aB", .int .i64 1)]) := by
  intro s d
  have hback : s.ofValue (.map [("a_b", .int 1), ("ab", .int 2), ("aB", .int 3)])
      = .ok (.record "Ambig" [("a_b", .int .i64 1), ("ab", .int .i64 1), ("aB", .int .i64 1)]) := by
    rfl
  refine ⟨?_, ?_, _, rfl, ?_, hback⟩
  · simp [s, Shape.Exchanged, FieldsExchanged, FieldInfo.plain]
  · simp [s, d, Shape.Holds, FieldsHold, FieldInfo.plain]
    decide
  · show s.ofValue (.map [("a_b", .int 1), ("ab", .int 2), ("aB", .int 3)]) ≠ _
    rw [hback]
    simp [d]

end SqlTemplate
