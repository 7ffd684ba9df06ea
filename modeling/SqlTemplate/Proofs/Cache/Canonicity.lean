import Mathlib
import SqlTemplate.Proofs.Cache.Encoding
import SqlTemplate.Proofs.Shape.Typed
import SqlTemplate.Value.Order

/-!
# Keys and the order of entries

Maps are equal whatever the order of their entries, but the canonical encoding writes the entries as
they stand. So values that are equal share a key if their maps list their keys in the same order, at
every depth, for then they are one and the same value (`Value.eq_of_same`). Records do, since they
list their fields in the order of the type (`Shape.Mapless.sameOrder`). If maps do not, the encodings
differ, and only a collision of digests could give them one key (`Key.of_eq_of_same`).
-/

set_option autoImplicit false

namespace SqlTemplate

/-! ## Values that are compared exactly -/

/-- Whether a value is no float, fragment or destination, and has each key once if it is a map. -/
def Value.Exact : Value → Prop
  | .float _ | .fragment _ | .dest _ => False
  | .map entries => (entries.map (·.1)).Nodup
  | _ => True

mutual

/-- Whether the maps of two values, at corresponding places, list the same keys in the same order. -/
def Value.SameOrder : Value → Value → Prop
  | .list items, .list others => SameOrderItems items others
  | .map entries, .map others => SameOrderEntries entries others
  | _, _ => True

/-- Whether items of lists at the same position list keys in the same order. -/
def SameOrderItems : List Value → List Value → Prop
  | v :: items, w :: others => v.SameOrder w ∧ SameOrderItems items others
  | _, _ => True

/-- Whether entries have the same keys one by one, and list keys in the same order. -/
def SameOrderEntries : List (String × Value) → List (String × Value) → Prop
  | [], [] => True
  | (key, v) :: entries, (name, w) :: others =>
    key = name ∧ v.SameOrder w ∧ SameOrderEntries entries others
  | _, _ => False

end

mutual

theorem Value.sameOrder_refl (v : Value) : v.SameOrder v := by
  match v with
  | .list items => exact sameOrderItems_refl items
  | .map entries => exact sameOrderEntries_refl entries
  | .nil | .bool _ | .int _ | .float _ | .text _ | .bytes _ | .instant _ => trivial
  | .fragment _ | .dest _ => trivial

theorem sameOrderItems_refl (items : List Value) : SameOrderItems items items := by
  match items with
  | [] => trivial
  | v :: rest => exact ⟨v.sameOrder_refl, sameOrderItems_refl rest⟩

theorem sameOrderEntries_refl (entries : List (String × Value)) :
    SameOrderEntries entries entries := by
  match entries with
  | [] => trivial
  | (_, v) :: rest => exact ⟨rfl, v.sameOrder_refl, sameOrderEntries_refl rest⟩

end

/-! ## Equal values in the same order -/

mutual

/-- **Equal values that list their keys in the same order are one value.** -/
theorem Value.eq_of_same {v w : Value} (hv : v.Every Value.Exact) (hw : w.Every Value.Exact)
    (hsame : v.same w = true) (horder : v.SameOrder w) : v = w := by
  match v with
  | .nil =>
    cases w with
    | nil => rfl
    | _ => simp [Value.same] at hsame
  | .bool b =>
    cases w with
    | bool c => simpa [Value.same] using hsame
    | _ => simp [Value.same] at hsame
  | .int n =>
    cases w with
    | int m => simpa [Value.same] using hsame
    | _ => simp [Value.same] at hsame
  | .text s =>
    cases w with
    | text t => simpa [Value.same] using hsame
    | _ => simp [Value.same] at hsame
  | .bytes data =>
    cases w with
    | bytes other => simpa [Value.same] using hsame
    | _ => simp [Value.same] at hsame
  | .instant t =>
    cases w with
    | instant u => simpa [Value.same] using hsame
    | _ => simp [Value.same] at hsame
  | .list items =>
    cases w with
    | list others =>
        rw [Value.same] at hsame
        rw [items_eq_of_same hv.2 hw.2 hsame horder]
    | _ => simp [Value.same] at hsame
  | .map entries =>
    cases w with
    | map others =>
        rw [Value.same, Bool.and_eq_true] at hsame
        have hfound : ∀ e ∈ others, others.lookup e.1 = some e.2 := fun e he =>
          lookup_of_mem hw.1 he
        rw [entries_eq_of_same hv.2 hw.2 hfound hsame.2 horder]
    | _ => simp [Value.same] at hsame
  | .float _ | .fragment _ | .dest _ => exact hv.elim

theorem items_eq_of_same {items others : List Value} (hitems : EveryItem Value.Exact items)
    (hothers : EveryItem Value.Exact others) (hsame : sameItems items others = true)
    (horder : SameOrderItems items others) : items = others := by
  match items, others with
  | [], [] => rfl
  | [], _ :: _ | _ :: _, [] => simp [sameItems] at hsame
  | v :: items, w :: others =>
    rw [sameItems, Bool.and_eq_true] at hsame
    rw [Value.eq_of_same hitems.1 hothers.1 hsame.1 horder.1,
      items_eq_of_same hitems.2 hothers.2 hsame.2 horder.2]

/-- Partners are looked up among all entries `whole` of the other map, of which those that have not
been passed yet are `others`. -/
theorem entries_eq_of_same {entries others whole : List (String × Value)}
    (hentries : EveryEntry Value.Exact entries) (hothers : EveryEntry Value.Exact others)
    (hwhole : ∀ e ∈ others, whole.lookup e.1 = some e.2)
    (hsame : sameEntries entries whole = true) (horder : SameOrderEntries entries others) :
    entries = others := by
  match entries, others with
  | [], [] => rfl
  | [], _ :: _ | _ :: _, [] => exact horder.elim
  | (key, v) :: entries, (name, w) :: others =>
    obtain ⟨rfl, hvalues, hrest⟩ := horder
    rw [List.forall_mem_cons] at hwhole
    rw [sameEntries, hwhole.1, Bool.and_eq_true] at hsame
    rw [Value.eq_of_same hentries.1 hothers.1 hsame.1 hvalues,
      entries_eq_of_same hentries.2 hothers.2 hwhole.2 hsame.2 hrest]

end

/-! ## Parameters without maps -/

mutual

/-- Whether no map but a record is in the values of a type. -/
def Shape.Mapless : Shape → Prop
  | .option inner => inner.Mapless
  | .list item | .array item _ => item.Mapless
  | .map _ _ => False
  | .record _ fields => FieldsMapless fields
  | _ => True

/-- Whether no map but a record is in the values of fields. -/
def FieldsMapless : List (FieldInfo × Shape) → Prop
  | [] => True
  | (_, s) :: fields => s.Mapless ∧ FieldsMapless fields

end

theorem putEntry_sameOrder {key : String} {v w : Value} {entries others : Entries}
    (hvalues : v.SameOrder w) (h : SameOrderEntries entries others) :
    SameOrderEntries (putEntry key v entries) (putEntry key w others) := by
  match entries, others with
  | [], [] => exact ⟨rfl, hvalues, trivial⟩
  | [], _ :: _ | _ :: _, [] => exact h.elim
  | (k, _) :: entries, (name, _) :: others =>
    obtain ⟨rfl, hfirst, hrest⟩ := h
    rw [putEntry, putEntry]
    by_cases hk : k = key
    · rw [if_pos hk, if_pos hk]
      exact ⟨rfl, hvalues, hrest⟩
    · rw [if_neg hk, if_neg hk]
      exact ⟨rfl, hfirst, putEntry_sameOrder hvalues hrest⟩

theorem ofEntries_sameOrder {entries others : Entries} (h : SameOrderEntries entries others) :
    (Value.ofEntries entries).SameOrder (Value.ofEntries others) := by
  have hput : ∀ front front', SameOrderEntries front front' → SameOrderEntries entries others →
      SameOrderEntries (entries.foldl (fun m e => putEntry e.1 e.2 m) front)
        (others.foldl (fun m e => putEntry e.1 e.2 m) front') := by
    induction entries generalizing others with
    | nil =>
        intro front front' hfront h
        cases others with
        | nil => exact hfront
        | cons e others => exact h.elim
    | cons e entries ih =>
        intro front front' hfront h
        cases others with
        | nil => exact h.elim
        | cons e' others =>
            obtain ⟨hkey, hvalues, hrest⟩ := h
            rw [List.foldl_cons, List.foldl_cons, ← hkey]
            exact ih hrest _ _ (putEntry_sameOrder hvalues hfront) hrest
  exact hput [] [] trivial h

mutual

/-- Typed values of one type without maps list their keys in the same order: that of the fields. -/
theorem Shape.Mapless.sameOrder {s : Shape} (h : s.Mapless) {d d' : Datum} (hd : s.Holds d)
    (hd' : s.Holds d') {v w : Value} (hv : d.toValue = .ok v) (hw : d'.toValue = .ok w) :
    v.SameOrder w := by
  match d with
  | .bool _ | .float32 _ | .float64 _ | .text _ | .bytes _ | .instant _ | .absent | .marker _ =>
    cases hv
    trivial
  | .int type n =>
    rw [Datum.toValue] at hv
    repeat' split at hv
    all_goals cases hv
    trivial
  | .present d =>
    cases s with
    | option inner =>
        cases d' with
        | absent =>
            cases hw
            cases v <;> trivial
        | present d' => exact Shape.Mapless.sameOrder (s := inner) h hd hd' hv hw
        | _ => exact hd'.elim
    | _ => exact hd.elim
  | .list items =>
    cases s with
    | list item =>
        cases d' with
        | list others =>
            obtain ⟨vs, hvs, rfl⟩ := map_eq_ok.mp hv
            obtain ⟨ws, hws, rfl⟩ := map_eq_ok.mp hw
            exact valuesOfData_sameOrder (s := item) h hd hd' hvs hws
        | _ => exact hd'.elim
    | _ => exact hd.elim
  | .array items =>
    cases s with
    | array item size =>
        cases d' with
        | array others =>
            obtain ⟨vs, hvs, rfl⟩ := map_eq_ok.mp hv
            obtain ⟨ws, hws, rfl⟩ := map_eq_ok.mp hw
            exact valuesOfData_sameOrder (s := item) h hd.2 hd'.2 hvs hws
        | _ => exact hd'.elim
    | _ => exact hd.elim
  | .record _ values =>
    cases s with
    | record name fields =>
        cases d' with
        | record _ others =>
            obtain ⟨vs, hvs, rfl⟩ := map_eq_ok.mp hv
            obtain ⟨ws, hws, rfl⟩ := map_eq_ok.mp hw
            exact ofEntries_sameOrder (entriesOfFields_sameOrder h hd.2 hd'.2 hvs hws)
        | _ => exact hd'.elim
    | _ => exact hd.elim
  | .map _ =>
    cases s with
    | map key value => exact h.elim
    | _ => exact hd.elim
  | .unit | .char _ | .borrowed _ | .tuple _ | .boxed _ | .variant _ _ => cases hv

theorem valuesOfData_sameOrder {s : Shape} (h : s.Mapless) {items others : List Datum}
    (hitems : ∀ d ∈ items, s.Holds d) (hothers : ∀ d ∈ others, s.Holds d) {vs ws : List Value}
    (hvs : valuesOfData items = .ok vs) (hws : valuesOfData others = .ok ws) :
    SameOrderItems vs ws := by
  match items, others with
  | [], _ =>
    cases hvs
    trivial
  | _ :: _, [] =>
    cases hws
    cases vs <;> trivial
  | d :: items, d' :: others =>
    rw [List.forall_mem_cons] at hitems hothers
    obtain ⟨v, hv, hvs⟩ := bind_eq_ok.mp hvs
    obtain ⟨vs, hrest, hvs⟩ := bind_eq_ok.mp hvs
    obtain ⟨w, hw, hws⟩ := bind_eq_ok.mp hws
    obtain ⟨ws, hrest', hws⟩ := bind_eq_ok.mp hws
    cases hvs
    cases hws
    exact ⟨Shape.Mapless.sameOrder h hitems.1 hothers.1 hv hw,
      valuesOfData_sameOrder h hitems.2 hothers.2 hrest hrest'⟩

theorem entriesOfFields_sameOrder {fields : List (FieldInfo × Shape)} (h : FieldsMapless fields)
    {values others : List (String × Datum)} (hvalues : FieldsHold fields values)
    (hothers : FieldsHold fields others) {vs ws : Entries} (hvs : entriesOfFields values = .ok vs)
    (hws : entriesOfFields others = .ok ws) : SameOrderEntries vs ws := by
  match fields, values, others with
  | [], [], [] =>
    cases hvs
    cases hws
    trivial
  | (_, s) :: fields, (_, d) :: values, (_, d') :: others =>
    obtain ⟨rfl, hd, hvalues⟩ := hvalues
    obtain ⟨rfl, hd', hothers⟩ := hothers
    obtain ⟨v, vs, hv, hrest, rfl⟩ := entriesOfFields_cons hvs
    obtain ⟨w, ws, hw, hrest', rfl⟩ := entriesOfFields_cons hws
    exact ⟨rfl, Shape.Mapless.sameOrder (s := s) h.1 hd hd' hv hw,
      entriesOfFields_sameOrder h.2 hvalues hothers hrest hrest'⟩

end

/-! ## Keys -/

mutual

theorem Value.Every.mono {P Q : Value → Prop} (hPQ : ∀ v, P v → Q v) {v : Value}
    (h : v.Every P) : v.Every Q := by
  match v with
  | .list items => exact ⟨hPQ _ h.1, everyItem_mono hPQ h.2⟩
  | .map entries => exact ⟨hPQ _ h.1, everyEntry_mono hPQ h.2⟩
  | .nil | .bool _ | .int _ | .float _ | .text _ | .bytes _ | .instant _ => exact hPQ _ h
  | .fragment _ | .dest _ => exact hPQ _ h

theorem everyItem_mono {P Q : Value → Prop} (hPQ : ∀ v, P v → Q v) {items : List Value}
    (h : EveryItem P items) : EveryItem Q items := by
  match items with
  | [] => trivial
  | _ :: _ => exact ⟨Value.Every.mono hPQ h.1, everyItem_mono hPQ h.2⟩

theorem everyEntry_mono {P Q : Value → Prop} (hPQ : ∀ v, P v → Q v)
    {entries : List (String × Value)} (h : EveryEntry P entries) : EveryEntry Q entries := by
  match entries with
  | [] => trivial
  | _ :: _ => exact ⟨Value.Every.mono hPQ h.1, everyEntry_mono hPQ h.2⟩

end

theorem Value.Exact.plain {v : Value} (h : v.Exact) : v.Plain := by
  cases v with
  | fragment _ => exact h.elim
  | dest _ => exact h.elim
  | _ => trivial

/-- **When equal values share a key.** If their maps list their keys in the same order, equal values
have the same key; it is so for all parameters of one type without maps. And they have the same key
only if that is so, or if the digests of two different encodings collide. -/
theorem Key.of_eq_of_same {v w : Value} (hv : v.Every Value.Exact) (hw : w.Every Value.Exact)
    (hsame : v.same w = true) :
    (v.SameOrder w → Key.of v = Key.of w) ∧
    (∀ s : Shape, ∀ d d' : Datum, s.Mapless → s.Holds d → s.Holds d' → d.toValue = .ok v →
      d'.toValue = .ok w → Key.of v = Key.of w) ∧
    (v.Every Value.Fits → w.Every Value.Fits → Key.of v = Key.of w →
      v.SameOrder w ∨
        (v.encode ≠ w.encode ∧ Blake3.digest v.encode = Blake3.digest w.encode)) := by
  have hkeys : v.SameOrder w → Key.of v = Key.of w := by
    intro horder
    have heq : v = w := Value.eq_of_same hv hw hsame horder
    exact congrArg Key.of heq
  refine ⟨hkeys, ?_, ?_⟩
  · intro s d d' hs hd hd' hvalue hvalue'
    exact hkeys (hs.sameOrder hd hd' hvalue hvalue')
  · intro hfits hfits' hkey
    have hdigest : Blake3.digest v.encode = Blake3.digest w.encode := congrArg Key.bytes hkey
    by_cases hencode : v.encode = w.encode
    · have hdata : v.IsData := ⟨hv.mono fun _ => Value.Exact.plain, hfits⟩
      have hdata' : w.IsData := ⟨hw.mono fun _ => Value.Exact.plain, hfits'⟩
      have hempty : v.encode ++ [] = w.encode ++ [] := by rw [hencode]
      have heq : v = w := (Value.encode_append_inj hdata hdata' hempty).1
      exact .inl (heq ▸ v.sameOrder_refl)
    · exact .inr ⟨hencode, hdigest⟩

/-- A key that is put again keeps its place, and so the map its key; entries in another order need a
collision. -/
theorem Key.of_eq_of_same_put :
    let v := Value.ofEntries [("b", .int 1), ("a", .nil), ("b", .int 2)]
    let w := Value.ofEntries [("b", .int 2), ("a", .nil)]
    let u := Value.ofEntries [("a", .nil), ("b", .int 2)]
    v.Every Value.Exact ∧ w.Every Value.Exact ∧ u.Every Value.Exact ∧
      v.same w = true ∧ v.same u = true ∧ Key.of v = Key.of w ∧
      (Key.of v = Key.of u → Blake3.digest v.encode = Blake3.digest u.encode ∧ v.encode ≠ u.encode) := by
  intro v w u
  have hv : v.Every Value.Exact := by
    simp [v, Value.ofEntries, putEntry, Value.Every, EveryEntry, Value.Exact]
  have hw : w.Every Value.Exact := by
    simp [w, Value.ofEntries, putEntry, Value.Every, EveryEntry, Value.Exact]
  have hu : u.Every Value.Exact := by
    simp [u, Value.ofEntries, putEntry, Value.Every, EveryEntry, Value.Exact]
  have hsame : v.same w = true := by decide +kernel
  have hsame' : v.same u = true := by decide +kernel
  have horder : v.SameOrder w := ⟨rfl, trivial, rfl, trivial, trivial⟩
  have hkey : Key.of v = Key.of w := (Key.of_eq_of_same hv hw hsame).1 horder
  have hfits : v.Every Value.Fits := by
    simp [v, Value.ofEntries, putEntry, Value.Every, EveryEntry, Value.Fits]
    decide
  have hfits' : u.Every Value.Fits := by
    simp [u, Value.ofEntries, putEntry, Value.Every, EveryEntry, Value.Fits]
    decide
  refine ⟨hv, hw, hu, hsame, hsame', hkey, fun hother => ?_⟩
  rcases (Key.of_eq_of_same hv hu hsame').2.2 hfits hfits' hother with hsameOrder | ⟨hne, hdigest⟩
  · exact absurd hsameOrder.1 (by decide)
  · exact ⟨hdigest, hne⟩

/-- Maps with the same two entries are equal, but have different keys. -/
theorem Key.of_reordered :
    let v : Value := .map [("a", .nil), ("b", .nil)]
    let w : Value := .map [("b", .nil), ("a", .nil)]
    v.Every Value.Exact ∧ w.Every Value.Exact ∧ v.same w = true ∧ Key.of v ≠ Key.of w := by
  intro v w
  refine ⟨?_, ?_, by decide +kernel, by decide +kernel⟩
  · simp [v, Value.Every, EveryEntry, Value.Exact]
  · simp [w, Value.Every, EveryEntry, Value.Exact]

end SqlTemplate
