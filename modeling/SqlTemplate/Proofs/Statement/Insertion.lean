import Mathlib
import SqlTemplate.Proofs.Statement.Columns
import SqlTemplate.Proofs.Value.Document

/-!
# The order of insertions

Values that are stored at paths of which none leads to another do not disturb each other: each is
found at its path, and in whatever order they come the maps that are built have the same entries at
every depth (`Value.storeAll_parted`). Only the order of entries tells two such maps apart, and
equality does not look at that.
-/

set_option autoImplicit false

namespace SqlTemplate

/-- Whether neither path leads to the other. -/
def Parted (p q : List String) : Prop :=
  ¬ p <+: q ∧ ¬ q <+: p

theorem Parted.symm {p q : List String} (h : Parted p q) : Parted q p :=
  ⟨h.2, h.1⟩

theorem parted_cons {key k : String} {p q : List String} :
    Parted (key :: p) (k :: q) ↔ (key = k → Parted p q) := by
  unfold Parted
  rw [List.cons_prefix_cons, List.cons_prefix_cons]
  constructor
  · rintro ⟨hpq, hqp⟩ rfl
    exact ⟨fun h => hpq ⟨rfl, h⟩, fun h => hqp ⟨rfl, h⟩⟩
  · intro h
    exact ⟨fun hpq => (h hpq.1).1 hpq.2, fun hqp => (h hqp.1.symm).2 hqp.2⟩

/-! ## Maps with the same entries -/

/-- Whether two values are the same but for the order of entries in maps. -/
inductive Value.Reordered : Value → Value → Prop
  | same (v : Value) : Reordered v v
  | map {entries others : Entries} (keys : (entries.map (·.1)).Perm (others.map (·.1)))
      (values : ∀ key v w, entries.lookup key = some v → others.lookup key = some w →
        Reordered v w) : Reordered (.map entries) (.map others)

/-- The last value that is put under a key is the one that stays. -/
theorem putEntry_putEntry (key : String) (v w : Value) (entries : Entries) :
    putEntry key v (putEntry key w entries) = putEntry key v entries := by
  induction entries with
  | nil => simp [putEntry]
  | cons e rest ih =>
      obtain ⟨k, x⟩ := e
      by_cases hk : k = key
      · simp [putEntry, hk]
      · simp [putEntry, hk, ih]

namespace Value

variable {u v w : Value} {p q : List String}

namespace Reordered

theorem trans (huv : u.Reordered v) (hvw : v.Reordered w) : u.Reordered w := by
  induction huv generalizing w with
  | same v => exact hvw
  | @map entries others keys values ih =>
      cases hvw with
      | same => exact .map keys values
      | @map _ last keys' values' =>
          refine .map (keys.trans keys') fun key x z hx hz => ?_
          have hkey : key ∈ others.map (·.1) := keys.mem_iff.mp (exists_lookup.mpr ⟨x, hx⟩)
          obtain ⟨y, hy⟩ := exists_lookup.mp hkey
          exact ih key x y hx hy (values' key y z hy hz)

theorem keys_perm (h : u.Reordered v) : (u.entries.map (·.1)).Perm (v.entries.map (·.1)) := by
  cases h with
  | same => exact .refl _
  | map keys _ => exact keys

/-- The same is found under a key, NULL where there is none. -/
theorem lookup (h : u.Reordered v) (key : String) :
    ((u.entries.lookup key).getD .nil).Reordered ((v.entries.lookup key).getD .nil) := by
  cases h with
  | same => exact .same _
  | @map entries others keys values =>
      by_cases hkey : key ∈ entries.map (·.1)
      · obtain ⟨x, hx⟩ := exists_lookup.mp hkey
        obtain ⟨y, hy⟩ := exists_lookup.mp (keys.mem_iff.mp hkey)
        show ((entries.lookup key).getD .nil).Reordered ((others.lookup key).getD .nil)
        rw [hx, hy]
        exact values key x y hx hy
      · have hother : key ∉ others.map (·.1) := fun h => hkey (keys.mem_iff.mpr h)
        show ((entries.lookup key).getD .nil).Reordered ((others.lookup key).getD .nil)
        rw [lookup_eq_none.mpr hkey, lookup_eq_none.mpr hother]
        exact .same _

/-- Maps are the same if they have the same keys, and under each of them the same. -/
theorem of_lookup {entries others : Entries}
    (keys : (entries.map (·.1)).Perm (others.map (·.1)))
    (values : ∀ key, ((entries.lookup key).getD .nil).Reordered ((others.lookup key).getD .nil)) :
    Reordered (.map entries) (.map others) := by
  refine .map keys fun key x y hx hy => ?_
  have hxy := values key
  rwa [hx, hy] at hxy

theorem putEntry {x y : Value} (h : u.Reordered v) (hxy : x.Reordered y) (key : String) :
    Reordered (.map (putEntry key x u.entries)) (.map (putEntry key y v.entries)) := by
  refine of_lookup ?_ fun k => ?_
  · have hmem : key ∈ u.entries.map (·.1) ↔ key ∈ v.entries.map (·.1) := h.keys_perm.mem_iff
    rw [keys_putEntry, keys_putEntry]
    simp only [hmem]
    split
    · exact h.keys_perm
    · exact h.keys_perm.append_right [key]
  · rw [lookup_putEntry, lookup_putEntry]
    split
    · exact hxy
    · exact h.lookup k

/-- Under different keys the order of two insertions does not matter. -/
theorem putEntry_comm {key k : String} (hk : key ≠ k) (x y : Value) (entries : Entries) :
    Reordered (.map (SqlTemplate.putEntry k y (SqlTemplate.putEntry key x entries)))
      (.map (SqlTemplate.putEntry key x (SqlTemplate.putEntry k y entries))) := by
  refine of_lookup ?_ fun j => ?_
  · rw [keys_putEntry, keys_putEntry, keys_putEntry, keys_putEntry]
    by_cases hkey : key ∈ entries.map (·.1)
    · rw [if_pos hkey]
      by_cases hother : k ∈ entries.map (·.1)
      · rw [if_pos hother, if_pos hkey]
      · rw [if_neg hother, if_pos (List.mem_append_left _ hkey)]
    · rw [if_neg hkey]
      by_cases hother : k ∈ entries.map (·.1)
      · rw [if_pos hother, if_neg hkey, if_pos (List.mem_append_left _ hother)]
      · rw [if_neg hother, if_neg (by simp [hother, Ne.symm hk]), if_neg (by simp [hkey, hk]),
          List.append_assoc, List.append_assoc]
        exact (List.Perm.swap k key []).append_left _
  · rw [lookup_putEntry, lookup_putEntry, lookup_putEntry, lookup_putEntry]
    by_cases hj : j = k
    · rw [if_pos hj, if_pos hj, if_neg (by rintro rfl; exact hk hj)]
      exact .same y
    · rw [if_neg hj, if_neg hj]
      exact .same _

/-- Insertion does not tell maps apart that have the same entries. -/
theorem insertAt (h : u.Reordered v) (p : List String) (w : Value) :
    (u.insertAt p w).Reordered (v.insertAt p w) := by
  induction p generalizing u v with
  | nil => exact .same w
  | cons key p ih =>
      rw [Value.insertAt, Value.insertAt]
      exact h.putEntry (ih (h.lookup key)) key

/-- **The order of two insertions does not matter**, if neither path leads to the other. -/
theorem insertAt_comm (v x y : Value) (h : Parted p q) :
    ((v.insertAt p x).insertAt q y).Reordered ((v.insertAt q y).insertAt p x) := by
  induction p generalizing v q with
  | nil => exact absurd List.nil_prefix h.1
  | cons key p ih =>
      cases q with
      | nil => exact absurd List.nil_prefix h.2
      | cons k q =>
          simp only [Value.insertAt, entries, lookup_putEntry]
          by_cases hk : key = k
          · subst hk
            rw [if_pos rfl, if_pos rfl, putEntry_putEntry, putEntry_putEntry]
            exact (same v).putEntry (ih _ (parted_cons.mp h rfl)) key
          · rw [if_neg (Ne.symm hk), if_neg hk]
            exact putEntry_comm hk _ _ v.entries

theorem storeAll (h : u.Reordered v) (stores : List (List String × Value)) :
    (u.storeAll stores).Reordered (v.storeAll stores) := by
  induction stores generalizing u v with
  | nil => exact h
  | cons e rest ih => exact ih (h.insertAt e.1 e.2)

/-- **The order of insertions does not matter**, if no path leads to another. -/
theorem storeAll_perm {stores others : List (List String × Value)} (hperm : stores.Perm others)
    (hparted : stores.Pairwise fun e e' => Parted e.1 e'.1) (v : Value) :
    (v.storeAll stores).Reordered (v.storeAll others) := by
  induction hperm generalizing v with
  | nil => exact .same v
  | cons e _ ih => exact ih (List.pairwise_cons.mp hparted).2 (v.insertAt e.1 e.2)
  | swap e e' rest =>
      have hpair : Parted e'.1 e.1 := (List.pairwise_cons.mp hparted).1 e List.mem_cons_self
      exact (insertAt_comm v e'.2 e.2 hpair).storeAll rest
  | @trans first middle last hfirst _ ih ih' =>
      have hmiddle : middle.Pairwise fun e e' => Parted e.1 e'.1 :=
        (hfirst.pairwise_iff Parted.symm).mp hparted
      exact (ih hparted v).trans (ih' hmiddle v)

end Reordered

/-! ## Equality -/

/-- Whether a value is equal to itself, which doubles that are no number are not, and has each key
once if it is a map. -/
def Proper (v : Value) : Prop :=
  v.same v = true ∧ (v.entries.map (·.1)).Nodup

theorem proper_nil : nil.Every Proper :=
  ⟨by rw [same], .nil⟩

theorem nodup_keys_putEntry (key : String) (x : Value) {entries : Entries}
    (h : (entries.map (·.1)).Nodup) : ((putEntry key x entries).map (·.1)).Nodup := by
  rw [keys_putEntry]
  split
  · exact h
  · rename_i hkey
    rw [← List.concat_eq_append]
    exact h.concat hkey

theorem Every.of_mem {P : Value → Prop} {entries : Entries} (h : EveryEntry P entries)
    {e : String × Value} (he : e ∈ entries) : e.2.Every P := by
  induction entries with
  | nil => cases he
  | cons first rest ih =>
      rcases List.mem_cons.mp he with rfl | he
      · exact h.1
      · exact ih h.2 he

theorem Every.entries {P : Value → Prop} (h : v.Every P) : EveryEntry P v.entries := by
  cases v with
  | map entries => exact h.2
  | _ => trivial

/-- A map of values that are proper at every depth is proper. -/
theorem every_proper_map {entries : Entries} (hkeys : (entries.map (·.1)).Nodup)
    (h : EveryEntry Proper entries) : (Value.map entries).Every Proper :=
  ⟨⟨same_map hkeys rfl fun e he => ⟨e.2, he, (Every.of_mem h he).self.1⟩, hkeys⟩, h⟩

theorem insertAt_proper (hv : v.Every Proper) (hw : w.Every Proper) (p : List String) :
    (v.insertAt p w).Every Proper := by
  induction p generalizing v with
  | nil => exact hw
  | cons key p ih =>
      have hinner : ((v.entries.lookup key).getD .nil).Every Proper := by
        cases hx : v.entries.lookup key with
        | none => exact proper_nil
        | some x => exact Every.of_mem hv.entries (mem_of_lookup hx)
      exact every_proper_map (nodup_keys_putEntry key _ hv.self.2)
        (putEntry_every hv.entries (ih hinner))

theorem storeAll_proper {stores : List (List String × Value)} (hv : v.Every Proper)
    (h : ∀ e ∈ stores, e.2.Every Proper) : (v.storeAll stores).Every Proper := by
  induction stores generalizing v with
  | nil => exact hv
  | cons e rest ih =>
      obtain ⟨he, hrest⟩ := List.forall_mem_cons.mp h
      exact ih (insertAt_proper hv he e.1) hrest

/-- Equality does not look at the order of entries. -/
theorem Reordered.same_eq_true (h : v.Reordered w) (hv : v.Every Proper) : v.same w = true := by
  induction h with
  | same v => exact hv.self.1
  | @map entries others keys values ih =>
      have hkeys : (entries.map (·.1)).Nodup := hv.self.2
      refine same_map (keys.nodup_iff.mp hkeys) (by simpa using keys.length_eq) fun e he => ?_
      have hkey : e.1 ∈ others.map (·.1) := keys.mem_iff.mp (List.mem_map_of_mem he)
      obtain ⟨y, hy⟩ := exists_lookup.mp hkey
      exact ⟨y, mem_of_lookup hy, ih e.1 e.2 y (lookup_of_mem hkeys he) hy (Every.of_mem hv.2 he)⟩

/-- **Nested insertion.** Values that are stored in NULL at paths of which none leads to another are
found there exactly, and any other order gives the same but for the order of entries, which is equal
to it if the stored values are equal to themselves. Whatever is stored wherever changes nothing at a
path that parts from there. -/
theorem storeAll_parted :
    (∀ stores : List (List String × Value), (stores.Pairwise fun e e' => Parted e.1 e'.1) →
      (∀ e ∈ stores, (nil.storeAll stores).follow? e.1 = some e.2) ∧
        ∀ others, others.Perm stores →
          (nil.storeAll others).Reordered (nil.storeAll stores) ∧
            ((∀ e ∈ stores, e.2.Every Proper) →
              (nil.storeAll others).same (nil.storeAll stores) = true)) ∧
      ∀ (v w : Value) (p q : List String), Parted p q →
        (v.insertAt p w).follow? q = v.follow? q := by
  constructor
  · intro stores hparted
    constructor
    · intro e he
      exact follow?_storeAll nil hparted he
    · intro others hperm
      have hothers : others.Pairwise fun e e' => Parted e.1 e'.1 :=
        (hperm.pairwise_iff Parted.symm).mpr hparted
      have hreordered := Reordered.storeAll_perm hperm hothers nil
      refine ⟨hreordered, fun hproper => hreordered.same_eq_true ?_⟩
      exact storeAll_proper proper_nil fun e he => hproper e (hperm.mem_iff.mp he)
  · intro v w p q hpq
    exact follow?_insertAt_of_apart v w hpq.1 hpq.2

/-- Two paths through the same key, with another one between them or in front of both. -/
theorem storeAll_parted_author :
    let stores : List (List String × Value) :=
      [(["author", "name"], .text "ann"), (["id"], .int 7), (["author", "born"], .int 1920)]
    let others : List (List String × Value) :=
      [(["id"], .int 7), (["author", "born"], .int 1920), (["author", "name"], .text "ann")]
    (nil.storeAll stores).follow? ["author", "name"] = some (.text "ann") ∧
      (nil.storeAll others).Reordered (nil.storeAll stores) ∧
      (nil.storeAll others).same (nil.storeAll stores) = true ∧
      ((nil.storeAll stores).insertAt ["author", "born"] nil).follow? ["author", "name"]
        = some (.text "ann") := by
  intro stores others
  have hparted : stores.Pairwise fun e e' => Parted e.1 e'.1 := by
    unfold Parted
    decide
  have hperm : others.Perm stores := List.perm_append_singleton _ [_, _]
  have hproper : ∀ e ∈ stores, e.2.Every Proper := by
    simp [stores, Every, Proper, same, entries]
  obtain ⟨hstores, hapart⟩ := storeAll_parted
  obtain ⟨hfound, horder⟩ := hstores stores hparted
  obtain ⟨hreordered, hsame⟩ := horder others hperm
  have hname : (nil.storeAll stores).follow? ["author", "name"] = some (.text "ann") :=
    hfound _ List.mem_cons_self
  have hkept := hapart (nil.storeAll stores) nil ["author", "born"] ["author", "name"]
    (by unfold Parted; decide)
  exact ⟨hname, hreordered, hsame hproper, hkept.trans hname⟩

end Value

end SqlTemplate
