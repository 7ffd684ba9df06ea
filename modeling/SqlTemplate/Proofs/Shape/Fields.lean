import Mathlib
import SqlTemplate.Proofs.Shape.Typed

/-!
# One name, one field

A name in a template is resolved twice: the check takes it for the first field of a record that
answers to it, under its own name or the one that is declared for it, and the execution reads with
it an entry of the map that the record became, the one whose key it is or else the first that it
matches. `Shape.lookup_agrees_iff` says for which names both come upon the same field: those for
which the first field that answers does so under its own name, and exactly if any field has exactly
that name. Elsewhere a checked template reads another field or NULL (`Shape.lookup_disagrees`).
-/

set_option autoImplicit false

namespace SqlTemplate

/-! ## Reading entries -/

/-- The key whose value a name reads: itself if it is a key, or else the first that it matches. -/
def readKey? (keys : List String) (name : String) : Option String :=
  if name ∈ keys then some name else keys.find? fun key => nameMatches key name

section Reading

variable {keys : List String} {name key : String}

theorem readKey?_of_mem (h : name ∈ keys) : readKey? keys name = some name := if_pos h

theorem readKey?_of_not_mem (h : name ∉ keys) :
    readKey? keys name = keys.find? fun key => nameMatches key name := if_neg h

theorem mem_of_readKey? (h : readKey? keys name = some key) : key ∈ keys := by
  by_cases hmem : name ∈ keys
  · rw [readKey?_of_mem hmem] at h
    cases h
    exact hmem
  · rw [readKey?_of_not_mem hmem] at h
    exact List.mem_of_find?_eq_some h

theorem nameMatches_of_readKey? (h : readKey? keys name = some key) :
    nameMatches key name = true := by
  by_cases hmem : name ∈ keys
  · rw [readKey?_of_mem hmem] at h
    cases h
    exact nameMatches_self name
  · rw [readKey?_of_not_mem hmem] at h
    simpa using List.find?_some h

/-- Nothing is read if no key matches. -/
theorem readKey?_eq_none (h : ∀ key ∈ keys, nameMatches key name = false) :
    readKey? keys name = none := by
  cases hread : readKey? keys name with
  | none => rfl
  | some key =>
      have hmatch := nameMatches_of_readKey? hread
      rw [h key (mem_of_readKey? hread)] at hmatch
      cases hmatch

/-- The first entry with a property of its key is the one that its key looks up. -/
theorem lookup_of_find? {entries : Entries} {e : String × Value} {p : String → Bool}
    (h : entries.find? (fun e => p e.1) = some e) : entries.lookup e.1 = some e.2 := by
  induction entries with
  | nil => cases h
  | cons first rest ih =>
      obtain ⟨k, v⟩ := first
      rw [List.find?_cons] at h
      cases hp : p k with
      | true =>
          rw [hp] at h
          cases h
          exact List.lookup_cons_self
      | false =>
          rw [hp] at h
          have hne : e.1 ≠ k := by
            intro heq
            have := List.find?_some h
            rw [heq, hp] at this
            cases this
          rw [List.lookup_cons, beq_eq_false_iff_ne.mpr hne]
          exact ih h

/-- What a name finds among entries is the value of the key that it reads. -/
theorem findEntry_eq_readKey? (entries : Entries) (name : String) :
    findEntry name entries =
      (readKey? (entries.map (·.1)) name).bind fun key => entries.lookup key := by
  by_cases hmem : name ∈ entries.map (·.1)
  · obtain ⟨v, hv⟩ := exists_lookup.mp hmem
    rw [readKey?_of_mem hmem, findEntry, hv]
    exact hv.symm
  · rw [readKey?_of_not_mem hmem, findEntry, lookup_eq_none.mpr hmem, Option.none_or,
      List.find?_map]
    cases hfind : entries.find? fun e => nameMatches e.1 name with
    | none =>
        have : entries.find? ((fun key => nameMatches key name) ∘ (·.1)) = none := hfind
        rw [this]
        rfl
    | some e =>
        have : entries.find? ((fun key => nameMatches key name) ∘ (·.1)) = some e := hfind
        rw [this]
        exact (lookup_of_find? (p := fun key => nameMatches key name) hfind).symm

theorem findEntry_eq_none {entries : Entries} :
    findEntry name entries = none ↔ readKey? (entries.map (·.1)) name = none := by
  rw [findEntry_eq_readKey?]
  cases hread : readKey? (entries.map (·.1)) name with
  | none => simp
  | some key =>
      have hkey : entries.lookup key ≠ none := by
        rw [ne_eq, lookup_eq_none, not_not]
        exact mem_of_readKey? hread
      simpa using hkey

end Reading

/-! ## Finding fields -/

/-- Whether the check takes a name for a field of the type. -/
def Shape.FindsField (s : Shape) (name : String) (e : FieldInfo × Shape) : Prop :=
  ∃ type fields, s = .record type fields ∧ fields.find? (fun f => f.1.answersTo name) = some e

/-- Whether a name means one field only: the first field that answers to it does so under its own
name, and if the name is that of a field, it is the name of this one. -/
def Unambiguous (fields : List (FieldInfo × Shape)) (name : String) : Prop :=
  ∀ e, fields.find? (fun f => f.1.answersTo name) = some e →
    nameMatches e.1.name name = true ∧ (name ∈ fields.map (·.1.name) → e.1.name = name)

section Fields

variable {type name : String} {fields : List (FieldInfo × Shape)}

/-- What the check finds under a name is the type of the field that it takes the name for. -/
theorem Shape.lookup_eq_found {s f : Shape} :
    s.lookup name = .found f ↔ ∃ field, s.FindsField name (field, f) := by
  constructor
  · intro h
    obtain ⟨type, fields, field, rfl, hfind⟩ := lookup_found h
    exact ⟨field, type, fields, rfl, hfind⟩
  · rintro ⟨field, type, fields, rfl, hfind⟩
    rw [lookup, hfind]

theorem Shape.findsField_record {e : FieldInfo × Shape} :
    (Shape.record type fields).FindsField name e ↔
      fields.find? (fun f => f.1.answersTo name) = some e := by
  constructor
  · rintro ⟨_, _, heq, hfind⟩
    cases heq
    exact hfind
  · intro h
    exact ⟨type, fields, rfl, h⟩

theorem Shape.lookup_eq_missing : (Shape.record type fields).lookup name = .missing ↔
    fields.find? (fun f => f.1.answersTo name) = none := by
  rw [lookup]
  cases hfind : fields.find? fun f => f.1.answersTo name with
  | none => simp
  | some e => simp

theorem FieldInfo.answersTo_of_nameMatches {field : FieldInfo}
    (h : nameMatches field.name name = true) : field.answersTo name = true := by
  rw [answersTo, h, Bool.or_true]

/-- The first field that answers to an unambiguous name is the one that the name reads. -/
theorem Unambiguous.readKey? {e : FieldInfo × Shape} (h : Unambiguous fields name)
    (hfind : fields.find? (fun f => f.1.answersTo name) = some e) :
    readKey? (fields.map (·.1.name)) name = some e.1.name := by
  obtain ⟨hown, hexact⟩ := h e hfind
  by_cases hmem : name ∈ fields.map (·.1.name)
  · rw [readKey?_of_mem hmem, hexact hmem]
  · -- No field in front answers to the name, so none of their own names matches it either.
    obtain ⟨-, front, back, hsplit, hfront⟩ := List.find?_eq_some_iff_append.mp hfind
    have hfirst : fields.find? (fun f => nameMatches f.1.name name) = some e := by
      refine List.find?_eq_some_iff_append.mpr ⟨hown, front, back, hsplit, fun f hf => ?_⟩
      have hanswers := hfront f hf
      by_contra hmatch
      rw [FieldInfo.answersTo_of_nameMatches (by simpa using hmatch)] at hanswers
      cases hanswers
    rw [readKey?_of_not_mem hmem, List.find?_map]
    have : fields.find? ((fun key => nameMatches key name) ∘ (·.1.name)) = some e := hfirst
    rw [this]
    rfl

theorem FieldsPlain.declared (h : FieldsPlain fields) {e : FieldInfo × Shape} (he : e ∈ fields) :
    e.1.declared = e.1.name := by
  induction fields with
  | nil => cases he
  | cons f fields ih =>
      rcases List.mem_cons.mp he with rfl | he
      · exact h.1
      · exact ih h.2.2 he

/-- Names are unambiguous where they are distinct, also if case and underscores are ignored, and
nothing is declared under another name. -/
theorem unambiguous_of_plain (hplain : FieldsPlain fields)
    (hdistinct : (fields.map fun e => squash e.1.name).Nodup) (name : String) :
    Unambiguous fields name := by
  intro e hfind
  have he : e ∈ fields := List.mem_of_find?_eq_some hfind
  have hown : nameMatches e.1.name name = true := by
    have hanswers : e.1.answersTo name = true := by simpa using List.find?_some hfind
    rwa [FieldInfo.answersTo, hplain.declared he, Bool.or_self] at hanswers
  refine ⟨hown, fun hmem => ?_⟩
  obtain ⟨f, hf, hname⟩ := List.mem_map.mp hmem
  have hsquash : squash e.1.name = squash f.1.name := by
    rw [hname]
    exact nameMatches_iff.mp hown
  rw [List.inj_on_of_nodup_map hdistinct he hf hsquash, hname]

/-- The check and the reading of keys come upon the same field for unambiguous names only. -/
theorem finds_iff_reads (hnames : (fields.map (·.1.name)).Nodup) :
    ((∀ e ∈ fields, fields.find? (fun f => f.1.answersTo name) = some e ↔
        readKey? (fields.map (·.1.name)) name = some e.1.name) ∧
      (fields.find? (fun f => f.1.answersTo name) = none ↔
        readKey? (fields.map (·.1.name)) name = none)) ↔ Unambiguous fields name := by
  constructor
  · rintro ⟨hsame, -⟩ e hfind
    have hread := (hsame e (List.mem_of_find?_eq_some hfind)).mp hfind
    refine ⟨nameMatches_of_readKey? hread, fun hmem => ?_⟩
    rw [readKey?_of_mem hmem] at hread
    exact (Option.some.inj hread).symm
  · intro h
    cases hfind : fields.find? fun f => f.1.answersTo name with
    | none =>
        have hread : readKey? (fields.map (·.1.name)) name = none := by
          refine readKey?_eq_none fun key hkey => ?_
          obtain ⟨f, hf, rfl⟩ := List.mem_map.mp hkey
          have hanswers := List.find?_eq_none.mp hfind f hf
          by_contra hmatch
          exact hanswers (FieldInfo.answersTo_of_nameMatches (by simpa using hmatch))
        simp [hread]
    | some found =>
        have hread := h.readKey? hfind
        have hfound : found ∈ fields := List.mem_of_find?_eq_some hfind
        rw [hread]
        refine ⟨fun e he => ?_, by simp⟩
        rw [Option.some_inj, Option.some_inj]
        exact ⟨fun heq => by rw [heq], fun heq => List.inj_on_of_nodup_map hnames hfound he heq⟩

end Fields

/-! ## Values of records -/

theorem mem_of_entriesOfFields {values : List (String × Datum)} {entries : Entries}
    (h : entriesOfFields values = .ok entries) {key : String} {w : Value}
    (hmem : (key, w) ∈ entries) : ∃ d, (key, d) ∈ values ∧ d.toValue = .ok w := by
  induction values generalizing entries with
  | nil =>
      cases h
      cases hmem
  | cons e values ih =>
      obtain ⟨first, d⟩ := e
      obtain ⟨v, rest, hv, hrest, rfl⟩ := entriesOfFields_cons h
      rcases List.mem_cons.mp hmem with heq | hmem
      · cases heq
        exact ⟨d, List.mem_cons_self, hv⟩
      · obtain ⟨d', hd', hw⟩ := ih hrest hmem
        exact ⟨d', List.mem_cons_of_mem _ hd', hw⟩

/-- **The check and the execution come upon the same field, or both upon none, exactly for the
unambiguous names.** What the check finds is the type of the field, and what is read is what the
value of the field became. -/
theorem Shape.lookup_agrees_iff {type : String} {fields : List (FieldInfo × Shape)}
    {values : List (String × Datum)} {v : Value} (hnames : (fields.map (·.1.name)).Nodup)
    (hd : (Shape.record type fields).Holds (.record type values))
    (hv : (Datum.record type values).toValue = .ok v) (name : String) :
    (∀ f, (Shape.record type fields).lookup name = .found f ↔
      ∃ field, (Shape.record type fields).FindsField name (field, f)) ∧
    ∃ entries, v = .map entries ∧
      (∀ key, readKey? (entries.map (·.1)) name = some key →
        ∃ d w, (key, d) ∈ values ∧ d.toValue = .ok w ∧ findEntry name entries = some w) ∧
      (((∀ e ∈ fields, (Shape.record type fields).FindsField name e ↔
          readKey? (entries.map (·.1)) name = some e.1.name) ∧
        ((Shape.record type fields).lookup name = .missing ↔ findEntry name entries = none)) ↔
          Unambiguous fields name) := by
  obtain ⟨entries, hentries, rfl⟩ := map_eq_ok.mp hv
  have hkeys : entries.map (·.1) = fields.map (·.1.name) := entriesOfFields_names hd.2 hentries
  refine ⟨fun f => lookup_eq_found, entries, ofEntries_of_nodup (hkeys ▸ hnames),
    fun key hread => ?_, ?_⟩
  · obtain ⟨w, hw⟩ : ∃ w, entries.lookup key = some w := by
      rw [← Option.ne_none_iff_exists', ne_eq, lookup_eq_none, not_not]
      exact mem_of_readKey? hread
    obtain ⟨d, hmem, hdw⟩ := mem_of_entriesOfFields hentries (mem_of_lookup hw)
    refine ⟨d, w, hmem, hdw, ?_⟩
    rw [findEntry_eq_readKey?, hread]
    exact hw
  · simp only [findsField_record, lookup_eq_missing, findEntry_eq_none, hkeys]
    exact finds_iff_reads hnames

/-- A name that two fields match up to case. -/
theorem Shape.lookup_agrees_iff_cased :
    let fields : List (FieldInfo × Shape) :=
      [(.plain "ab", .int .i64), (.plain "a_b", .text), (⟨"c", "a_B", none⟩, .bool)]
    let values : List (String × Datum) :=
      [("ab", .int .i64 1), ("a_b", .text "x"), ("c", .bool true)]
    let v : Value := .map [("ab", .int 1), ("a_b", .text "x"), ("c", .bool true)]
    (fields.map (·.1.name)).Nodup ∧ (Shape.record "R" fields).Holds (.record "R" values) ∧
      (Datum.record "R" values).toValue = .ok v ∧ Unambiguous fields "AB" ∧
      ∃ entries, v = .map entries ∧
        (∀ e ∈ fields, (Shape.record "R" fields).FindsField "AB" e ↔
          readKey? (entries.map (·.1)) "AB" = some e.1.name) ∧
        ((Shape.record "R" fields).lookup "AB" = .missing ↔ findEntry "AB" entries = none) := by
  intro fields values v
  have hnames : (fields.map (·.1.name)).Nodup := by
    decide
  have hd : (Shape.record "R" fields).Holds (.record "R" values) := by
    simp [fields, values, Shape.Holds, FieldsHold, FieldInfo.plain]
    decide
  have hv : (Datum.record "R" values).toValue = .ok v := rfl
  have hname : Unambiguous fields "AB" := by
    have hfind : fields.find? (fun f => f.1.answersTo "AB") = some (.plain "ab", .int .i64) := rfl
    intro e he
    cases hfind.symm.trans he
    decide
  obtain ⟨-, entries, hentries, -, hagrees⟩ := Shape.lookup_agrees_iff hnames hd hv "AB"
  exact ⟨hnames, hd, hv, hname, entries, hentries, hagrees.mpr hname⟩

/-- Of two fields with names that differ in an underscore, the check takes the first for the name of
the second, which is the one that is read; and it finds a field under the name that is declared for
it, under which nothing is read. -/
theorem Shape.lookup_disagrees :
    let fields : List (FieldInfo × Shape) :=
      [(.plain "a_b", .int .i64), (.plain "ab", .text), (⟨"name", "authorName", none⟩, .bool)]
    let values : List (String × Datum) :=
      [("a_b", .int .i64 1), ("ab", .text "x"), ("name", .bool true)]
    let entries : Entries := [("a_b", .int 1), ("ab", .text "x"), ("name", .bool true)]
    (fields.map (·.1.name)).Nodup ∧ (Shape.record "R" fields).Holds (.record "R" values) ∧
      (Datum.record "R" values).toValue = .ok (.map entries) ∧
      (Shape.record "R" fields).lookup "ab" = .found (.int .i64) ∧
      findEntry "ab" entries = some (.text "x") ∧
      (Shape.record "R" fields).lookup "AuthorName" = .found .bool ∧
      findEntry "AuthorName" entries = none := by
  intro fields values entries
  refine ⟨by decide, ?_, rfl, rfl, rfl, rfl, rfl⟩
  simp [fields, values, Shape.Holds, FieldsHold, FieldInfo.plain]
  decide

end SqlTemplate
