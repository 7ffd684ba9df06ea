import Mathlib
import SqlTemplate.Proofs.Shape.Typed
import SqlTemplate.Proofs.Statement.Sessions

/-!
# No column is lost

The columns of a row are stored in maps under the names that the template spells, and each field of
the destination takes the first entry that it answers to. So every column comes to the field that its
place designates, if no field answers to a spelling that stands in front of its own
(`Targets.scan_keeps`). Two spellings of the same field lose a column (`Targets.scan_loses`).
-/

set_option autoImplicit false

namespace SqlTemplate

/-! ## Values at paths -/

theorem lookup_putEntry (key k : String) (v : Value) (entries : Entries) :
    (putEntry key v entries).lookup k = if k = key then some v else entries.lookup k := by
  induction entries with
  | nil => exact lookup_cons_ite key k v []
  | cons e rest ih =>
      obtain ⟨k', w⟩ := e
      rw [putEntry]
      split
      · rename_i hkey
        rw [lookup_cons_ite, lookup_cons_ite, hkey]
        split <;> rfl
      · rename_i hkey
        rw [lookup_cons_ite, lookup_cons_ite, ih]
        by_cases hk : k = k'
        · rw [if_pos hk, if_pos hk, if_neg (hk ▸ hkey)]
        · rw [if_neg hk, if_neg hk]

namespace Value

variable {v w u : Value} {p q : List String}

theorem follow?_nil_eq_some (h : Value.nil.follow? p = some u) : p = [] := by
  cases p with
  | nil => rfl
  | cons key p => cases h

theorem follow?_cons {key : String} (h : v.follow? (key :: p) = some u) :
    ∃ entries x, v = .map entries ∧ entries.lookup key = some x ∧ x.follow? p = some u := by
  rw [follow?] at h
  cases hx : v.entries.lookup key with
  | none =>
      rw [hx] at h
      cases h
  | some x =>
      rw [hx] at h
      cases v with
      | map entries => exact ⟨entries, x, rfl, hx, h⟩
      | _ => cases hx

/-- What is stored at a path is found there. -/
theorem follow?_insertAt (v w : Value) (p : List String) : (v.insertAt p w).follow? p = some w := by
  induction p generalizing v with
  | nil => rfl
  | cons key p ih =>
      rw [insertAt, follow?, entries, lookup_putEntry, if_pos rfl]
      exact ih _

/-- Nothing changes at a path that parts from the one where something is stored. -/
theorem follow?_insertAt_of_apart (v w : Value) (hpq : ¬ p <+: q) (hqp : ¬ q <+: p) :
    (v.insertAt p w).follow? q = v.follow? q := by
  induction p generalizing v q with
  | nil => exact absurd List.nil_prefix hpq
  | cons key p ih =>
      cases q with
      | nil => exact absurd List.nil_prefix hqp
      | cons k q =>
          rw [insertAt, follow?, follow?, entries, lookup_putEntry]
          by_cases hk : k = key
          · subst hk
            rw [List.cons_prefix_cons, not_and] at hpq hqp
            have hinner := ih (v.entries.lookup k |>.getD .nil) (hpq rfl) (hqp rfl)
            rw [if_pos rfl]
            show ((v.entries.lookup k |>.getD .nil).insertAt p w).follow? q = _
            rw [hinner]
            cases hlookup : v.entries.lookup k with
            | some x => rfl
            | none =>
                -- Nothing is below NULL, and the path goes on, since it parts from the other.
                cases q with
                | nil => exact absurd List.nil_prefix (hqp rfl)
                | cons k' q => rfl
          · rw [if_neg hk]

/-- Stores values at paths, one after the other. -/
def storeAll (v : Value) (stores : List (List String × Value)) : Value :=
  stores.foldl (fun v e => v.insertAt e.1 e.2) v

variable {stores : List (List String × Value)}

theorem follow?_storeAll_of_apart (v : Value) (h : ∀ e ∈ stores, ¬ e.1 <+: q ∧ ¬ q <+: e.1) :
    (v.storeAll stores).follow? q = v.follow? q := by
  induction stores generalizing v with
  | nil => rfl
  | cons e rest ih =>
      obtain ⟨hbelow, habove⟩ := h e List.mem_cons_self
      have hrest := ih (v.insertAt e.1 e.2) fun e' he' => h e' (List.mem_cons_of_mem _ he')
      show ((v.insertAt e.1 e.2).storeAll rest).follow? q = _
      rw [hrest, follow?_insertAt_of_apart v e.2 hbelow habove]

/-- **Every value stays where it is stored**, if the paths part from each other. -/
theorem follow?_storeAll (v : Value)
    (h : stores.Pairwise fun e e' => ¬ e.1 <+: e'.1 ∧ ¬ e'.1 <+: e.1) (hmem : (p, w) ∈ stores) :
    (v.storeAll stores).follow? p = some w := by
  induction stores generalizing v with
  | nil => cases hmem
  | cons e rest ih =>
      obtain ⟨hfirst, hrest⟩ := List.pairwise_cons.mp h
      show ((v.insertAt e.1 e.2).storeAll rest).follow? p = some w
      rcases List.mem_cons.mp hmem with rfl | hmem
      · rw [follow?_storeAll_of_apart _ fun e' he' => (hfirst e' he').symm, follow?_insertAt]
      · exact ih _ hrest hmem

/-- What is found at a path was there before, or the path is on the way to something that was
stored, or leads into it. -/
theorem follow?_storeAll_eq_some (h : (v.storeAll stores).follow? q = some u) :
    v.follow? q = some u ∨ ∃ e ∈ stores, q <+: e.1 ∨ e.1 <+: q := by
  by_cases hapart : ∀ e ∈ stores, ¬ e.1 <+: q ∧ ¬ q <+: e.1
  · rw [follow?_storeAll_of_apart v hapart] at h
    exact .inl h
  · push Not at hapart
    obtain ⟨e, he, hway⟩ := hapart
    refine .inr ⟨e, he, ?_⟩
    by_cases hinto : e.1 <+: q
    · exact .inr hinto
    · exact .inl (hway hinto)

/-! ## The order of keys -/

theorem keys_putEntry (key : String) (x : Value) (entries : Entries) :
    (putEntry key x entries).map (·.1)
      = if key ∈ entries.map (·.1) then entries.map (·.1) else entries.map (·.1) ++ [key] := by
  induction entries with
  | nil => rfl
  | cons e rest ih =>
      obtain ⟨k, y⟩ := e
      rw [putEntry]
      by_cases hk : k = key
      · simp [hk]
      · have hmem : key ∈ k :: rest.map (·.1) ↔ key ∈ rest.map (·.1) := by
          simp [Ne.symm hk]
        rw [if_neg hk, List.map_cons, List.map_cons, ih]
        simp only [hmem]
        split <;> rfl

/-- The keys of the map at a path, in their order. -/
def keysAt (v : Value) (path : List String) : List String :=
  match v.follow? path with
  | some u => u.entries.map (·.1)
  | none => []

theorem keysAt_cons (v : Value) (key : String) (path : List String) :
    v.keysAt (key :: path) = (v.entries.lookup key |>.getD .nil).keysAt path := by
  rw [keysAt, follow?]
  cases hlookup : v.entries.lookup key with
  | some x => rfl
  | none => cases path <;> rfl

theorem mem_keysAt {key : String} : key ∈ v.keysAt p ↔ (v.follow? (p ++ [key])).isSome := by
  induction p generalizing v with
  | nil =>
      rw [List.nil_append, follow?]
      show key ∈ v.entries.map (·.1) ↔ _
      cases hlookup : v.entries.lookup key with
      | some x => simp [follow?, List.mem_map.mpr ⟨_, mem_of_lookup hlookup, rfl⟩]
      | none => simp [lookup_eq_none.mp hlookup]
  | cons k p ih =>
      rw [keysAt_cons, ih, List.cons_append, follow?]
      cases hlookup : v.entries.lookup k with
      | some x => rfl
      | none => cases p <;> simp [follow?, entries]

/-- Storing a value further in leaves the keys in their order. -/
theorem keysAt_insertAt (v w : Value) (hpq : ¬ p <+: q) :
    v.keysAt q <+: (v.insertAt p w).keysAt q := by
  induction p generalizing v q with
  | nil => exact absurd List.nil_prefix hpq
  | cons key p ih =>
      rw [insertAt]
      cases q with
      | nil =>
          show v.entries.map (·.1) <+: (putEntry key _ v.entries).map (·.1)
          rw [keys_putEntry]
          split
          · exact List.prefix_rfl
          · exact List.prefix_append _ _
      | cons k q =>
          rw [keysAt_cons, keysAt_cons, entries, lookup_putEntry]
          by_cases hk : k = key
          · subst hk
            rw [List.cons_prefix_cons, not_and] at hpq
            rw [if_pos rfl]
            exact ih _ (hpq rfl)
          · rw [if_neg hk]

/-- A key that is new comes behind the others. -/
theorem keysAt_insertAt_new {key : String} (hnew : key ∉ v.keysAt p) :
    (v.insertAt (p ++ key :: q) w).keysAt p = v.keysAt p ++ [key] := by
  induction p generalizing v with
  | nil =>
      have hkey : key ∉ v.entries.map (·.1) := hnew
      show (putEntry key _ v.entries).map (·.1) = v.entries.map (·.1) ++ [key]
      rw [keys_putEntry, if_neg hkey]
  | cons k p ih =>
      rw [keysAt_cons] at hnew ⊢
      rw [List.cons_append, insertAt, keysAt_cons, entries, lookup_putEntry, if_pos rfl]
      exact ih hnew

/-- **Keys stand in the order in which the paths come.** A key is behind those with which paths go
on that come before all paths that go on with it. -/
theorem keysAt_storeAll {R : List String → List String → Prop} {pre : List String} {a : String}
    (hR : stores.Pairwise fun e e' => R e.1 e'.1) (hfree : ∀ e ∈ stores, ¬ e.1 <+: pre)
    (ha : ∃ e ∈ stores, ∃ tail, e.1 = pre ++ a :: tail) :
    ∃ front back, (Value.nil.storeAll stores).keysAt pre = front ++ a :: back ∧
      ∀ k ∈ front, k ≠ a ∧ ∃ p q, R (pre ++ k :: p) (pre ++ a :: q) := by
  induction stores using List.reverseRecOn with
  | nil =>
      obtain ⟨e, he, -⟩ := ha
      cases he
  | append_singleton before last ih =>
      have hlast : Value.nil.storeAll (before ++ [last])
          = (Value.nil.storeAll before).insertAt last.1 last.2 := by
        simp [storeAll]
      obtain ⟨hbefore, -, hacross⟩ := List.pairwise_append.mp hR
      have hfree' : ∀ e ∈ before, ¬ e.1 <+: pre := fun e he => hfree e (List.mem_append_left _ he)
      rw [hlast]
      by_cases hfirst : ∃ e ∈ before, ∃ tail, e.1 = pre ++ a :: tail
      · obtain ⟨front, back, hkeys, hfront⟩ := ih hbefore hfree' hfirst
        obtain ⟨more, hmore⟩ := keysAt_insertAt (Value.nil.storeAll before) last.2
          (hfree last (by simp))
        exact ⟨front, back ++ more, by rw [← hmore, hkeys]; simp, hfront⟩
      · -- The last path is the first one that goes on with the key.
        obtain ⟨e, he, tail, htail⟩ := ha
        obtain rfl : e = last := by
          rcases List.mem_append.mp he with he | he
          · exact absurd ⟨e, he, tail, htail⟩ hfirst
          · exact List.mem_singleton.mp he
        have hthrough : ∀ k ∈ (Value.nil.storeAll before).keysAt pre,
            ∃ e ∈ before, ∃ tail, e.1 = pre ++ k :: tail := by
          intro k hk
          obtain ⟨u, hu⟩ := Option.isSome_iff_exists.mp (mem_keysAt.mp hk)
          rcases follow?_storeAll_eq_some hu with hnil | ⟨e, he, ⟨tail, htail⟩ | hinto⟩
          · exact absurd (follow?_nil_eq_some hnil) (by simp)
          · exact ⟨e, he, tail, by rw [← htail]; simp⟩
          · rcases List.prefix_concat_iff.mp hinto with heq | hshort
            · exact ⟨e, he, [], heq⟩
            · exact absurd hshort (hfree' e he)
        have hnew : a ∉ (Value.nil.storeAll before).keysAt pre := fun hin => hfirst (hthrough a hin)
        refine ⟨(Value.nil.storeAll before).keysAt pre, [], ?_, fun k hk => ⟨?_, ?_⟩⟩
        · rw [htail, keysAt_insertAt_new hnew]
        · rintro rfl
          exact hnew hk
        · obtain ⟨e', he', tail', htail'⟩ := hthrough k hk
          have hpair : R e'.1 e.1 := hacross e' he' e (by simp)
          rw [htail, htail'] at hpair
          exact ⟨tail', tail, hpair⟩

end Value

/-! ## Fields of entries -/

theorem fieldsOfEntries_cons {entries : Entries} {field : FieldInfo} {f : Shape}
    {fields : List (FieldInfo × Shape)} {values : List (String × Datum)}
    (h : fieldsOfEntries entries ((field, f) :: fields) = .ok values) :
    ∃ d ds, (match field.find? entries with
        | some v => f.ofValue v
        | none => field.missing f) = .ok d ∧
      fieldsOfEntries entries fields = .ok ds ∧ values = (field.name, d) :: ds := by
  rw [fieldsOfEntries] at h
  cases hfind : field.find? entries with
  | some v =>
      rw [hfind] at h
      obtain ⟨d, hd, h⟩ := bind_eq_ok.mp h
      obtain ⟨ds, hds, h⟩ := bind_eq_ok.mp h
      exact ⟨d, ds, hd, hds, (Except.ok.inj h).symm⟩
  | none =>
      rw [hfind] at h
      obtain ⟨d, hd, h⟩ := bind_eq_ok.mp h
      obtain ⟨ds, hds, h⟩ := bind_eq_ok.mp h
      exact ⟨d, ds, hd, hds, (Except.ok.inj h).symm⟩

/-- A field has what is read from the first entry that it answers to. -/
theorem fieldsOfEntries_lookup {entries : Entries} {f : Shape} {fields : List (FieldInfo × Shape)}
    {values : List (String × Datum)} (h : fieldsOfEntries entries fields = .ok values)
    (hnames : (fields.map (·.1.name)).Nodup) {field : FieldInfo} (hmem : (field, f) ∈ fields)
    {v : Value} (hv : field.find? entries = some v) :
    ∃ d, values.lookup field.name = some d ∧ f.ofValue v = .ok d := by
  induction fields generalizing values with
  | nil => cases hmem
  | cons e fields ih =>
      obtain ⟨first, g⟩ := e
      obtain ⟨d, ds, hd, hds, rfl⟩ := fieldsOfEntries_cons h
      rw [List.map_cons, List.nodup_cons] at hnames
      rcases List.mem_cons.mp hmem with heq | hmem
      · cases heq
        rw [hv] at hd
        exact ⟨d, by simp, hd⟩
      · obtain ⟨c, hc, hread⟩ := ih hds hnames.2 hmem
        have hne : field.name ≠ first.name := by
          intro heq
          exact hnames.1 (List.mem_map.mpr ⟨(field, f), hmem, heq⟩)
        exact ⟨c, by rw [List.lookup_cons, beq_eq_false_iff_ne.mpr hne]; exact hc, hread⟩

/-- A field finds the value of a key that it answers to, if it answers to none in front of that. -/
theorem FieldInfo.find?_eq_lookup {field : FieldInfo} {entries : Entries} {key : String} {v : Value}
    {front back : List String} (hkeys : entries.map (·.1) = front ++ key :: back)
    (hfront : ∀ k ∈ front, field.answersTo k = false) (hkey : field.answersTo key = true)
    (hv : entries.lookup key = some v) : field.find? entries = some v := by
  induction entries generalizing front with
  | nil => cases hv
  | cons e rest ih =>
      obtain ⟨k, x⟩ := e
      rw [lookup_cons_ite] at hv
      rw [FieldInfo.find?, List.find?_cons]
      cases front with
      | nil =>
          obtain rfl : k = key := (List.cons.inj hkeys).1
          rw [if_pos rfl] at hv
          rw [hkey]
          exact hv
      | cons k' front =>
          obtain ⟨hk, hrest⟩ := List.cons.inj hkeys
          have hno : field.answersTo k = false := hfront k (hk ▸ List.mem_cons_self)
          have hne : key ≠ k := by
            rintro rfl
            simp [hkey] at hno
          rw [if_neg hne] at hv
          rw [hno]
          exact ih hrest (fun k' hk' => hfront k' (List.mem_cons_of_mem _ hk')) hv

/-! ## Designated fields -/

/-- The field of a record, optional or not, that answers to a name. -/
def Shape.fieldOf? (s : Shape) (name : String) : Option (FieldInfo × Shape) :=
  match s.peel with
  | .record _ fields => fields.find? fun e => e.1.answersTo name
  | _ => none

/-- The field that a path designates, as the names of the fields on the way to it, and its type. -/
def Shape.designate? : Shape → List String → Option (List String × Shape)
  | s, [] => some ([], s)
  | s, name :: rest =>
    match s.fieldOf? name with
    | some (field, f) => (f.designate? rest).map fun e => (field.name :: e.1, e.2)
    | none => none

/-- A typed value without the layers of optionality around it. -/
def Datum.bare : Datum → Datum
  | .present d => d.bare
  | d => d

/-- The value of a field of a typed value, by the names of the fields on the way to it. -/
def Datum.at? : Datum → List String → Option Datum
  | d, [] => some d
  | d, name :: rest =>
    match d.bare with
    | .record _ fields =>
      match fields.lookup name with
      | some d => d.at? rest
      | none => none
    | _ => none

/-- Whether two paths designate different fields, of which none contains the other. -/
def Shape.Apart (s : Shape) (p q : List String) : Prop :=
  ∀ a ∈ (s.designate? p).map (·.1), ∀ b ∈ (s.designate? q).map (·.1), ¬ a <+: b ∧ ¬ b <+: a

instance (s : Shape) (p q : List String) : Decidable (s.Apart p q) :=
  inferInstanceAs (Decidable (∀ a ∈ (s.designate? p).map (·.1), ∀ b ∈ (s.designate? q).map (·.1),
    ¬ a <+: b ∧ ¬ b <+: a))

/-- Whether a path agrees with another about spelling: where it parts from the other, the field to
which it turns does not answer to the name with which the other goes on. -/
def Shape.agrees : Shape → List String → List String → Bool
  | s, a :: p, b :: q =>
    match s.fieldOf? a with
    | some (field, f) => if a = b then f.agrees p q else !field.answersTo b
    | none => true
  | _, _, _ => true

namespace Shape

variable {s t f : Shape} {p q : List String}

theorem fieldOf?_eq_some {name : String} {field : FieldInfo}
    (h : s.fieldOf? name = some (field, f)) :
    ∃ type fields, s.peel = .record type fields ∧ (field, f) ∈ fields ∧
      field.answersTo name = true ∧ s.peel.lookup name = .found f := by
  rw [fieldOf?] at h
  split at h
  · rename_i type fields hpeel
    refine ⟨type, fields, hpeel, List.mem_of_find?_eq_some h,
      by simpa using List.find?_some h, ?_⟩
    rw [hpeel, lookup, h]
  · cases h

theorem fieldOf?_of_lookup {name : String} (h : s.peel.lookup name = .found f) :
    ∃ field, s.fieldOf? name = some (field, f) := by
  obtain ⟨type, fields, field, hpeel, hfind⟩ := lookup_found h
  exact ⟨field, by rw [fieldOf?, hpeel]; exact hfind⟩

theorem designate?_cons {name : String} {a : List String}
    (h : s.designate? (name :: p) = some (a, t)) :
    ∃ field f b, s.fieldOf? name = some (field, f) ∧ f.designate? p = some (b, t) ∧
      a = field.name :: b := by
  rw [designate?] at h
  split at h
  · rename_i field f hfield
    obtain ⟨⟨b, t'⟩, hb, heq⟩ := Option.map_eq_some_iff.mp h
    cases heq
    exact ⟨field, f, b, hfield, hb, rfl⟩
  · cases h

/-- A path that goes on designates a field inside. -/
theorem designate?_inside {a b : List String} (hp : s.designate? p = some (a, f))
    (hq : s.designate? q = some (b, t)) (hbelow : p <+: q) : a <+: b := by
  induction p generalizing s q a b with
  | nil =>
      cases hp
      exact List.nil_prefix
  | cons name p ih =>
      obtain ⟨rest, rfl⟩ := hbelow
      obtain ⟨field, g, a, hfield, ha, rfl⟩ := designate?_cons hp
      obtain ⟨field', g', b, hfield', hb, rfl⟩ := designate?_cons hq
      obtain ⟨rfl, rfl⟩ : field = field' ∧ g = g' := by
        simpa using Option.some.inj (hfield.symm.trans hfield')
      rw [List.cons_prefix_cons]
      exact ⟨rfl, ih ha hb (List.prefix_append p rest)⟩

/-- Paths to fields that are apart part from each other. -/
theorem Apart.paths (h : s.Apart p q) (hp : (s.designate? p).isSome)
    (hq : (s.designate? q).isSome) : ¬ p <+: q ∧ ¬ q <+: p := by
  obtain ⟨⟨a, f⟩, hp⟩ := Option.isSome_iff_exists.mp hp
  obtain ⟨⟨b, g⟩, hq⟩ := Option.isSome_iff_exists.mp hq
  obtain ⟨hab, hba⟩ := h a (by simp [hp]) b (by simp [hq])
  exact ⟨fun hbelow => hab (designate?_inside hp hq hbelow),
    fun hbelow => hba (designate?_inside hq hp hbelow)⟩

/-- The field where paths part. -/
theorem answersTo_of_agrees {pre : List String} {a b : String} {field : FieldInfo}
    (h : s.agrees (pre ++ a :: p) (pre ++ b :: q) = true) (hne : a ≠ b)
    (hpre : s.resolve pre = some t) (ha : t.fieldOf? a = some (field, f)) :
    field.answersTo b = false := by
  induction pre generalizing s with
  | nil =>
      cases hpre
      rw [List.nil_append, List.nil_append, agrees, ha] at h
      simpa [hne] using h
  | cons name pre ih =>
      rw [resolve] at hpre
      rw [List.cons_append, List.cons_append, agrees] at h
      cases hlookup : s.peel.lookup name with
      | found g =>
          rw [hlookup] at hpre
          obtain ⟨first, hfirst⟩ := fieldOf?_of_lookup hlookup
          rw [hfirst] at h
          exact ih (by simpa using h) hpre
      | dynamic =>
          rw [hlookup] at hpre
          cases hpre
      | missing =>
          rw [hlookup] at hpre
          cases hpre

/-! ## Reading records -/

theorem EveryRecord.peel {P : List (FieldInfo × Shape) → Prop} (h : s.EveryRecord P) :
    s.peel.EveryRecord P := by
  induction s using Shape.peel.induct with
  | case1 inner ih => exact ih h
  | case2 s hs => rwa [Shape.peel.eq_2 s hs]

/-- What is read for an optional type is read for the type under the layers. -/
theorem ofValue_peel {v : Value} {d : Datum} (h : s.ofValue v = .ok d) (hv : v.isNil = false) :
    ∃ d', s.peel.ofValue v = .ok d' ∧ d.bare = d'.bare := by
  induction s using Shape.peel.induct generalizing d with
  | case1 inner ih =>
      rw [Shape.ofValue, hv, if_neg Bool.false_ne_true] at h
      obtain ⟨inside, hd, hpresent⟩ := map_eq_ok.mp h
      obtain ⟨d', hd', hbare⟩ := ih hd
      exact ⟨d', hd', by rw [← hpresent]; exact hbare⟩
  | case2 s hs => exact ⟨d, by rwa [Shape.peel.eq_2 s hs], rfl⟩

/-- **What stands at the path is what the field holds**, if on the way no field answers to a key in
front of that of the path. -/
theorem ofValue_at {v w : Value} {d : Datum} {names : List String}
    (hnames : s.EveryRecord fun fields => (fields.map (·.1.name)).Nodup) (hd : s.ofValue v = .ok d)
    (hpath : s.designate? p = some (names, f)) (hw : v.follow? p = some w)
    (hfirst : ∀ pre a rest, p = pre ++ a :: rest → ∀ t field g, s.resolve pre = some t →
      t.fieldOf? a = some (field, g) → ∃ front back, v.keysAt pre = front ++ a :: back ∧
        ∀ k ∈ front, field.answersTo k = false) :
    ∃ c, f.ofValue w = .ok c ∧ d.at? names = some c := by
  induction p generalizing s v d names with
  | nil =>
      cases hpath
      cases hw
      exact ⟨d, hd, rfl⟩
  | cons a rest ih =>
      obtain ⟨field, g, names, hfield, hrest, rfl⟩ := designate?_cons hpath
      obtain ⟨type, fields, hpeel, hmem, hanswers, hfound⟩ := fieldOf?_eq_some hfield
      obtain ⟨entries, x, rfl, hx, hw⟩ := Value.follow?_cons hw
      obtain ⟨d', hd', hbare⟩ := ofValue_peel hd rfl
      have hpeeled := hnames.peel
      rw [hpeel] at hd' hpeeled
      obtain ⟨values, hvalues, rfl⟩ := map_eq_ok.mp hd'
      obtain ⟨front, back, hkeys, hfront⟩ := hfirst [] a rest rfl s field g rfl hfield
      have hfind : field.find? entries = some x :=
        FieldInfo.find?_eq_lookup hkeys hfront hanswers hx
      obtain ⟨c', hc', hread⟩ := fieldsOfEntries_lookup hvalues hpeeled.1 hmem hfind
      have hfirst' : ∀ pre b tail, rest = pre ++ b :: tail → ∀ t field g', g.resolve pre = some t →
          t.fieldOf? b = some (field, g') → ∃ front back, x.keysAt pre = front ++ b :: back ∧
            ∀ k ∈ front, field.answersTo k = false := by
        intro pre b tail htail t field' g' hpre hb
        have hresolve : s.resolve (a :: pre) = some t := by
          rw [resolve, hfound]
          exact hpre
        have hinner : (Value.map entries).keysAt (a :: pre) = x.keysAt pre := by
          rw [Value.keysAt_cons, Value.entries, hx]
          rfl
        rw [← hinner]
        exact hfirst (a :: pre) b tail (by rw [htail, List.cons_append]) t field' g' hresolve hb
      obtain ⟨c, hc, hat⟩ := ih (hpeeled.2.mem hmem) hread hrest hw hfirst'
      refine ⟨c, hc, ?_⟩
      rw [Datum.at?, hbare]
      show (match values.lookup field.name with | some d => d.at? names | none => none) = _
      rw [hc']
      exact hat

/-- **What is stored is read.** Values that are stored at paths to fields that are apart come to
these fields, if every path agrees with those in front of it. -/
theorem ofValue_storeAll {stores : List (List String × Value)} {w : Value} {d : Datum}
    {names : List String} (hnames : s.EveryRecord fun fields => (fields.map (·.1.name)).Nodup)
    (hapart : stores.Pairwise fun e e' => ¬ e.1 <+: e'.1 ∧ ¬ e'.1 <+: e.1)
    (hagrees : stores.Pairwise fun e e' => s.agrees e'.1 e.1 = true)
    (hd : s.ofValue (Value.nil.storeAll stores) = .ok d) (hmem : (p, w) ∈ stores)
    (hpath : s.designate? p = some (names, f)) :
    ∃ c, f.ofValue w = .ok c ∧ d.at? names = some c := by
  refine ofValue_at hnames hd hpath (Value.follow?_storeAll _ hapart hmem) ?_
  rintro pre a rest rfl t field g hpre ha
  -- Nothing is stored further up, since this path goes through there.
  have hfree : ∀ e ∈ stores, ¬ e.1 <+: pre := by
    intro e he hshort
    have hthrough : e.1 <+: pre ++ a :: rest := hshort.trans (List.prefix_append pre _)
    have hsame : e = (pre ++ a :: rest, w) := by
      by_contra hdistinct
      have hsymm : Std.Symm fun e e' : List String × Value => ¬ e.1 <+: e'.1 ∧ ¬ e'.1 <+: e.1 :=
        ⟨fun _ _ h => h.symm⟩
      exact (hapart.forall he hmem hdistinct).1 hthrough
    rw [hsame] at hshort
    have hlength := hshort.length_le
    simp at hlength
  obtain ⟨front, back, hkeys, hfront⟩ := Value.keysAt_storeAll
    (R := fun earlier later => s.agrees later earlier = true) hagrees hfree ⟨_, hmem, rest, rfl⟩
  refine ⟨front, back, hkeys, fun k hk => ?_⟩
  obtain ⟨hne, q, p, hagree⟩ := hfront k hk
  exact answersTo_of_agrees hagree (Ne.symm hne) hpre ha

end Shape

/-! ## Rows -/

namespace Targets

variable {targets : Targets} {transforms : Transforms} {row : Row} {position : Nat}
  {events later : List Event}

/-- What a mapper makes of the value of a column. -/
def applied (transforms : Transforms) (mapper : Option Mapper) (v : Value) : Except Cause Value :=
  match mapper with
  | none => .ok v
  | some mapper => mapper.apply transforms v

theorem mapCell_ok {cell : Cell} {w : Value}
    (h : (mapCell transforms row position cell).run.run events = (.ok w, later)) :
    applied transforms cell.mapper cell.value = .ok w := by
  rw [mapCell] at h
  cases hmapper : cell.mapper with
  | none =>
      rw [hmapper] at h
      cases h
      rfl
  | some mapper =>
      rw [hmapper, Step.run_bind] at h
      rw [applied]
      cases happly : mapper.apply transforms cell.value with
      | ok v =>
          simp only [happly] at h
          cases h
          rfl
      | error cause =>
          simp only [happly] at h
          cases h

/-- The columns are stored one after the other, each as its mapper makes it. -/
theorem storeCells_ok {cells : List Cell} {stored v : Value}
    (h : (storeCells transforms row position cells stored).run.run events = (.ok v, later)) :
    ∃ values,
      List.Forall₂ (fun cell w => applied transforms cell.mapper cell.value = .ok w) cells values ∧
      v = stored.storeAll ((cells.map fun cell => cell.path.segments).zip values) := by
  induction cells generalizing stored events with
  | nil =>
      cases h
      exact ⟨[], .nil, rfl⟩
  | cons cell rest ih =>
      rw [storeCells] at h
      obtain ⟨w, between, hcell, hrest⟩ := Step.run_bind_eq_ok.mp h
      obtain ⟨values, hvalues, rfl⟩ := ih hrest
      exact ⟨w :: values, .cons (mapCell_ok hcell) hvalues, rfl⟩

/-- The places of the columns of a row that has one for each. -/
theorem cells_paths (hlength : row.values.length = targets.dests.length) :
    ((targets.cells row).map fun cell => cell.path.segments) = targets.dests.map (·.segments) := by
  apply List.ext_getElem
  · simp [cells, hlength]
  · intro i _ _
    simp [cells]

/-- A row that is put together has a column for each place, and they are stored one after the
other. -/
theorem assemble_ok {v : Value} (hsome : targets.dests.isEmpty = false)
    (h : (targets.assemble transforms position row).run.run events = (.ok v, later)) :
    row.values.length = targets.dests.length ∧ ∃ values,
      List.Forall₂ (fun cell w => applied transforms cell.mapper cell.value = .ok w)
        (targets.cells row) values ∧
      v = Value.nil.storeAll ((targets.dests.map (·.segments)).zip values) := by
  rw [assemble, hsome, if_neg Bool.false_ne_true] at h
  by_cases hlength : row.values.length = targets.dests.length
  · rw [if_neg (not_not.mpr hlength)] at h
    obtain ⟨values, hvalues, hv⟩ := storeCells_ok h
    rw [cells_paths hlength] at hv
    exact ⟨hlength, values, hvalues, hv⟩
  · rw [if_pos hlength] at h
    cases h

/-- A row that is scanned is put together and read. -/
theorem scan_ok {dest : Shape} {d : Datum} (hsome : targets.dests.isEmpty = false)
    (h : (targets.scan transforms dest position row).run.run events = (.ok d, later)) :
    ∃ v mid, (targets.assemble transforms position row).run.run events = (.ok v, mid) ∧
      dest.ofValue v = .ok d := by
  rw [scan, hsome, Bool.false_and, if_neg Bool.false_ne_true] at h
  obtain ⟨v, mid, hassemble, hread⟩ := Step.run_bind_eq_ok.mp h
  refine ⟨v, mid, hassemble, ?_⟩
  rw [Step.ofReflection, Step.run_ofExcept] at hread
  cases hvalue : dest.ofValue v with
  | ok d' =>
      rw [hvalue] at hread
      cases hread
      rfl
  | error fault =>
      rw [hvalue] at hread
      cases hread

/-- **No column is lost.** Let the places of the columns designate fields of the destination that
are apart, and let each agree with those in front of it about spelling. If a row is scanned, then
every place has a column, and the field that it designates holds what is read from what the mapper
makes of that column. -/
theorem scan_keeps {dest : Shape} {d : Datum}
    (hnames : dest.EveryRecord fun fields => (fields.map (·.1.name)).Nodup)
    (hplaces : ∀ path ∈ targets.dests, (dest.designate? path.segments).isSome)
    (hapart : targets.dests.Pairwise fun p q => dest.Apart p.segments q.segments)
    (hagrees : targets.dests.Pairwise fun p q => dest.agrees q.segments p.segments = true)
    (hscan : (targets.scan transforms dest position row).run.run events = (.ok d, later))
    {i : Nat} {path : DestPath} (hpath : targets.dests[i]? = some path) :
    ∃ value w names f c, row.values[i]? = some value ∧
      applied transforms (targets.mappers[i]?).join value = .ok w ∧
      dest.designate? path.segments = some (names, f) ∧ f.ofValue w = .ok c ∧
      d.at? names = some c := by
  have hmem : path ∈ targets.dests := List.mem_of_getElem? hpath
  have hsome : targets.dests.isEmpty = false := by
    rw [List.isEmpty_eq_false_iff_exists_mem]
    exact ⟨path, hmem⟩
  obtain ⟨v, mid, hassemble, hread⟩ := scan_ok hsome hscan
  obtain ⟨hlength, values, hvalues, rfl⟩ := assemble_ok hsome hassemble
  obtain ⟨hi, hget⟩ := List.getElem?_eq_some_iff.mp hpath
  -- The column of the place, and what its mapper makes of it.
  have hcells : (targets.cells row).length = targets.dests.length := by simp [cells, hlength]
  have hcount : values.length = targets.dests.length := by rw [← hvalues.length_eq, hcells]
  have hvalue : i < row.values.length := by omega
  have happlied : applied transforms (targets.mappers[i]?).join row.values[i] = .ok values[i] := by
    have hcell := hvalues.get (i := i) (by omega) (by omega)
    simpa [cells] using hcell
  -- The stores are at the paths of the places.
  have hpaths : (((targets.dests.map (·.segments)).zip values).map (·.1))
      = targets.dests.map (·.segments) := List.map_fst_zip (by simp [hcount])
  have hstored : (path.segments, values[i]) ∈ (targets.dests.map (·.segments)).zip values := by
    refine List.mem_of_getElem? (i := i) ?_
    rw [List.getElem?_zip_eq_some]
    exact ⟨by simp [hpath], List.getElem?_eq_getElem (by omega)⟩
  have hparts : ((targets.dests.map (·.segments)).zip values).Pairwise
      fun e e' => ¬ e.1 <+: e'.1 ∧ ¬ e'.1 <+: e.1 := by
    rw [← List.pairwise_map (R := fun p q : List String => ¬ p <+: q ∧ ¬ q <+: p), hpaths,
      List.pairwise_map]
    exact hapart.imp_of_mem fun hp hq h => h.paths (hplaces _ hp) (hplaces _ hq)
  have hagree : ((targets.dests.map (·.segments)).zip values).Pairwise
      fun e e' => dest.agrees e'.1 e.1 = true := by
    rw [← List.pairwise_map (R := fun p q : List String => dest.agrees q p = true), hpaths,
      List.pairwise_map]
    exact hagrees
  obtain ⟨⟨names, f⟩, hdesignated⟩ := Option.isSome_iff_exists.mp (hplaces path hmem)
  obtain ⟨c, hc, hat⟩ := Shape.ofValue_storeAll hnames hparts hagree hread hstored hdesignated
  exact ⟨row.values[i], values[i], names, f, c, List.getElem?_eq_getElem hvalue, happlied,
    hdesignated, hc, hat⟩

/-- The columns of a book and of its author come to their fields, in whatever spelling. -/
theorem scan_keeps_spelled :
    let author : Shape :=
      .record "Author" [(.plain "name", .text), (.plain "born", .option (.int .i32))]
    let dest : Shape := .record "Book" [(.plain "id", .int .i64),
      (⟨"title", "book_title", none⟩, .text), (.plain "author", .option author)]
    let targets : Targets :=
      ⟨[⟨["Author", "Name"]⟩, ⟨["ID"]⟩, ⟨["Author", "BORN"]⟩, ⟨["BookTitle"]⟩],
        [some (.custom "upper"), none, none, none]⟩
    let row : Row := ⟨["a", "b", "c", "d"], [.text "ann", .int 7, .int 1920, .text "x"]⟩
    let transforms : Transforms := fun _ _ => .ok (.text "ANN")
    let d : Datum := .record "Book" [("id", .int .i64 7), ("title", .text "x"),
      ("author", .present (.record "Author"
        [("name", .text "ANN"), ("born", .present (.int .i32 1920))]))]
    ∃ later, (targets.scan transforms dest 0 row).run.run [] = (.ok d, later) ∧
      d.at? ["author", "name"] = some (.text "ANN") := by
  intro author dest targets row transforms d
  have hnames : dest.EveryRecord fun fields => (fields.map (·.1.name)).Nodup := by
    simp [dest, author, Shape.EveryRecord, FieldsEveryRecord, FieldInfo.plain]
  have hplaces : ∀ path ∈ targets.dests, (dest.designate? path.segments).isSome := by
    decide +kernel
  have hapart : targets.dests.Pairwise fun p q => dest.Apart p.segments q.segments := by
    decide +kernel
  have hagrees : targets.dests.Pairwise fun p q => dest.agrees q.segments p.segments = true := by
    decide +kernel
  have hscan : (targets.scan transforms dest 0 row).run.run []
      = (.ok d, [.mapped 0 0 (.text "ann")]) := by
    simp only [targets, dest, author]
    rfl
  have hname : dest.designate? ["Author", "Name"] = some (["author", "name"], .text) := by
    simp only [dest, author]
    rfl
  have hpath : targets.dests[0]? = some ⟨["Author", "Name"]⟩ := rfl
  refine ⟨_, hscan, ?_⟩
  obtain ⟨value, w, names, f, c, hvalue, hw, hplace, hc, hat⟩ :=
    scan_keeps hnames hplaces hapart hagrees hscan hpath
  obtain ⟨rfl, rfl⟩ : names = ["author", "name"] ∧ f = .text := by
    simpa using Option.some.inj (hplace.symm.trans hname)
  cases hw
  cases hc
  exact hat

/-- Two spellings of the field of the author: what is stored under the second is not read. -/
theorem scan_loses :
    let author : Shape :=
      .record "Author" [(.plain "name", .text), (.plain "born", .option (.int .i32))]
    let dest : Shape := .record "Book" [(.plain "id", .int .i64), (.plain "author", author)]
    let targets : Targets := ⟨[⟨["Author", "Name"]⟩, ⟨["author", "Born"]⟩], [none, none]⟩
    let row : Row := ⟨["a", "b"], [.text "ann", .int 1920]⟩
    let transforms : Transforms := fun _ v => .ok v
    (dest.EveryRecord fun fields => (fields.map fun e => squash e.1.name).Nodup) ∧
      targets.dests.Pairwise (fun p q => dest.Apart p.segments q.segments) ∧
      dest.designate? ["author", "Born"] = some (["author", "born"], .option (.int .i32)) ∧
      (Shape.option (.int .i32)).ofValue (.int 1920) = .ok (.present (.int .i32 1920)) ∧
      ∃ d later, (targets.scan transforms dest 0 row).run.run [] = (.ok d, later) ∧
        d.at? ["author", "born"] = some .absent := by
  intro author dest targets row transforms
  have hnames : dest.EveryRecord fun fields => (fields.map fun e => squash e.1.name).Nodup := by
    simp only [dest, author, Shape.EveryRecord, FieldsEveryRecord, and_true]
    decide +kernel
  have hapart : targets.dests.Pairwise fun p q => dest.Apart p.segments q.segments := by
    decide +kernel
  have hborn : dest.designate? ["author", "Born"]
      = some (["author", "born"], .option (.int .i32)) := by
    simp only [dest, author]
    rfl
  have hscan : (targets.scan transforms dest 0 row).run.run [] = (.ok (.record "Book"
      [("id", .int .i64 0),
        ("author", .record "Author" [("name", .text "ann"), ("born", .absent)])]), []) := by
    simp only [targets, dest, author]
    rfl
  exact ⟨hnames, hapart, hborn, rfl, _, _, hscan, rfl⟩

end Targets

end SqlTemplate
