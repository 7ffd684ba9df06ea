import Mathlib
import SqlTemplate.Cache.Store
import SqlTemplate.Proofs.Basic

/-!
# What stores keep

What is documented of bounded stores, and nothing else, is what the cache relies on (`LawfulLru`):
what a look and a put do to the values and to the order of the last uses, and which entry has to go
when there is no room. A list of entries is a store of this kind. For the stores of caches it
follows what is found after a look and after a put.
-/

set_option autoImplicit false

namespace SqlTemplate

/-! ## Bounded stores -/

/-- Whether a bounded store does what is documented. -/
class LawfulLru (κ ν : Type) [Lru κ ν] : Prop where
  room_pos (s : Lru.State κ ν) : 0 < Lru.room s
  room_new {n : Nat} : 0 < n → Lru.room (Lru.new n : Lru.State κ ν) = n
  room_get (s : Lru.State κ ν) (key : κ) : Lru.room (Lru.get s key).2 = Lru.room s
  room_put (s : Lru.State κ ν) (key : κ) (v : ν) : Lru.room (Lru.put s key v) = Lru.room s
  room_clear (s : Lru.State κ ν) : Lru.room (Lru.clear s) = Lru.room s
  /-- The entries are counted by their keys. -/
  size_eq {s : Lru.State κ ν} {keys : List κ} : keys.Nodup →
    (∀ k, k ∈ keys ↔ Lru.peek s k ≠ none) → Lru.size s = keys.length
  size_le (s : Lru.State κ ν) : Lru.size s ≤ Lru.room s
  peek_new (n : Nat) (k : κ) : Lru.peek (Lru.new n : Lru.State κ ν) k = none
  peek_clear (s : Lru.State κ ν) (k : κ) : Lru.peek (Lru.clear s) k = none
  get_fst (s : Lru.State κ ν) (key : κ) : (Lru.get s key).1 = Lru.peek s key
  get_missing {s : Lru.State κ ν} {key : κ} : Lru.peek s key = none → (Lru.get s key).2 = s
  peek_get (s : Lru.State κ ν) (key k : κ) : Lru.peek (Lru.get s key).2 k = Lru.peek s k
  peek_put_self (s : Lru.State κ ν) (key : κ) (v : ν) : Lru.peek (Lru.put s key v) key = some v
  peek_put {s : Lru.State κ ν} {key k : κ} {v : ν} : k ≠ key →
    Lru.peek (Lru.put s key v) k ≠ none → Lru.peek (Lru.put s key v) k = Lru.peek s k
  /-- An entry has to go only for a new one for which there is no room, and only if all others have
  been used since its last use. -/
  put_drops {s : Lru.State κ ν} {key k : κ} {v : ν} : k ≠ key → Lru.peek s k ≠ none →
    Lru.peek (Lru.put s key v) k = none → Lru.peek s key = none ∧ Lru.size s = Lru.room s ∧
      ∀ j, j ≠ k → Lru.peek s j ≠ none → Lru.Newer s j k
  newer_asymm {s : Lru.State κ ν} {j k : κ} : Lru.Newer s j k → ¬ Lru.Newer s k j
  newer_get_self {s : Lru.State κ ν} {key k : κ} : k ≠ key → Lru.peek s key ≠ none →
    Lru.peek s k ≠ none → Lru.Newer (Lru.get s key).2 key k
  newer_get {s : Lru.State κ ν} {key j k : κ} : j ≠ key → k ≠ key → Lru.Newer s j k →
    Lru.Newer (Lru.get s key).2 j k
  newer_put_self {s : Lru.State κ ν} {key k : κ} {v : ν} : k ≠ key →
    Lru.peek (Lru.put s key v) k ≠ none → Lru.Newer (Lru.put s key v) key k
  newer_put {s : Lru.State κ ν} {key j k : κ} {v : ν} : j ≠ key → k ≠ key →
    Lru.peek (Lru.put s key v) j ≠ none → Lru.peek (Lru.put s key v) k ≠ none →
    Lru.Newer s j k → Lru.Newer (Lru.put s key v) j k

/-! ## Entries in a list -/

section Front

variable {κ ν : Type} [DecidableEq κ] {key k : κ} {v : ν} {entries : List (κ × ν)}

theorem lookup_front (key k : κ) (v : ν) (entries : List (κ × ν)) :
    ((key, v) :: without key entries).lookup k
      = if k = key then some v else entries.lookup k := by
  rw [lookup_cons_ite, without, lookup_filter_ne]
  by_cases hk : k = key
  · rw [if_pos hk, if_pos hk]
  · rw [if_neg hk, if_neg hk, if_neg hk]

theorem without_of_not_mem (h : key ∉ entries.map (·.1)) : without key entries = entries := by
  refine List.filter_eq_self.mpr fun e he => ?_
  have hne : e.1 ≠ key := fun heq => h (heq ▸ List.mem_map_of_mem he)
  simpa using hne

/-- Taking out a key that is there makes the list shorter. -/
theorem length_without_lt (h : key ∈ entries.map (·.1)) :
    (without key entries).length < entries.length := by
  obtain ⟨e, he, rfl⟩ := List.mem_map.mp h
  exact List.length_filter_lt_length_iff_exists.mpr ⟨e, he, by simp⟩

/-- What is found in the first entries is found in all of them. -/
theorem lookup_take {n : Nat} (h : (entries.take n).lookup k ≠ none) :
    (entries.take n).lookup k = entries.lookup k := by
  obtain ⟨v, hv⟩ := Option.ne_none_iff_exists'.mp h
  rw [hv]
  conv_rhs => rw [← List.take_append_drop n entries, List.lookup_append, hv, Option.some_or]

/-- The order of other keys stays when a key is taken out. -/
theorem idxOf_filter_lt {j : κ} {keys : List κ} (hj : j ≠ key) (hk : k ≠ key)
    (h : keys.idxOf j < keys.idxOf k) :
    (keys.filter fun x => x ≠ key).idxOf j < (keys.filter fun x => x ≠ key).idxOf k := by
  induction keys with
  | nil => exact h
  | cons x keys ih =>
      by_cases hjx : x = j
      · subst hjx
        rw [List.filter_cons_of_pos (by simpa using hj), List.idxOf_cons_self,
          List.idxOf_cons_ne _ ?_]
        · exact Nat.succ_pos _
        · rintro rfl
          exact lt_irrefl _ h
      · have hkx : x ≠ k := by
          rintro rfl
          rw [List.idxOf_cons_self] at h
          exact absurd h (Nat.not_lt_zero _)
        rw [List.idxOf_cons_ne _ hjx, List.idxOf_cons_ne _ hkx, Nat.succ_lt_succ_iff] at h
        by_cases hx : x = key
        · rw [List.filter_cons_of_neg (by simpa using hx)]
          exact ih h
        · rw [List.filter_cons_of_pos (by simpa using hx), List.idxOf_cons_ne _ hjx,
            List.idxOf_cons_ne _ hkx]
          exact Nat.succ_lt_succ (ih h)

theorem idxOf_take {keys : List κ} {n : Nat} (h : k ∈ keys.take n) :
    (keys.take n).idxOf k = keys.idxOf k := by
  conv_rhs => rw [← List.take_append_drop n keys, List.idxOf_append_of_mem h]

end Front

namespace LruList

variable {κ ν : Type} [DecidableEq κ] {s : LruList κ ν} {key j k : κ} {v : ν}

theorem put_entries (s : LruList κ ν) (key : κ) (v : ν) :
    (s.put key v).entries = (key, v) :: (without key s.entries).take (s.room - 1) := by
  have hroom : s.room = s.room - 1 + 1 := (Nat.sub_add_cancel s.pos).symm
  show ((key, v) :: without key s.entries).take s.room = _
  rw [hroom, List.take_succ_cons, Nat.add_sub_cancel]

/-- Nothing is dropped while there is room. -/
theorem entries_put (h : (without key s.entries).length < s.room) :
    (s.put key v).entries = (key, v) :: without key s.entries :=
  List.take_of_length_le h

/-- A key that is there finds room for its entry. -/
theorem entries_put_of_mem (h : key ∈ s.entries.map (·.1)) :
    (s.put key v).entries = (key, v) :: without key s.entries :=
  entries_put ((length_without_lt h).trans_le s.fits)

theorem get_of_some (h : s.entries.lookup key = some v) : s.get key = (some v, s.put key v) := by
  rw [get, h]

theorem get_of_none (h : s.entries.lookup key = none) : s.get key = (none, s) := by
  rw [get, h]

theorem lookup_put_self (s : LruList κ ν) (key : κ) (v : ν) :
    (s.put key v).entries.lookup key = some v := by
  rw [put_entries, List.lookup_cons_self]

theorem lookup_put (hk : k ≠ key) (h : (s.put key v).entries.lookup k ≠ none) :
    (s.put key v).entries.lookup k = s.entries.lookup k := by
  have htake : (s.put key v).entries.lookup k = ((key, v) :: without key s.entries).lookup k :=
    lookup_take h
  rw [htake, lookup_front, if_neg hk]

/-- What is found after a look is what was found before. -/
theorem lookup_get (s : LruList κ ν) (key k : κ) :
    (s.get key).2.entries.lookup k = s.entries.lookup k := by
  cases hfound : s.entries.lookup key with
  | none => rw [get_of_none hfound]
  | some v =>
      rw [get_of_some hfound, entries_put_of_mem (exists_lookup.mpr ⟨v, hfound⟩), lookup_front]
      split
      · rename_i hk
        rw [hk, hfound]
      · rfl

/-- An entry is dropped for a new one if it is the last and there is no room. -/
theorem put_drops (hk : k ≠ key) (hthere : s.entries.lookup k ≠ none)
    (hgone : (s.put key v).entries.lookup k = none) :
    s.entries.lookup key = none ∧ s.entries.length = s.room ∧
      ∀ j, j ≠ k → s.entries.lookup j ≠ none → s.place j < s.place k := by
  have hfull : ¬ (without key s.entries).length < s.room := by
    intro hroom
    rw [entries_put hroom, lookup_front, if_neg hk] at hgone
    exact hthere hgone
  have habsent : key ∉ s.entries.map (·.1) := fun hmem =>
    hfull ((length_without_lt hmem).trans_le s.fits)
  rw [without_of_not_mem habsent] at hfull
  have hlength : s.entries.length = s.room := le_antisymm s.fits (not_lt.mp hfull)
  refine ⟨lookup_eq_none.mpr habsent, hlength, fun j hj hjthere => ?_⟩
  -- The first entries, all but one, are kept, and the key that is gone is none of theirs.
  have hkept : k ∉ (s.entries.map (·.1)).take (s.room - 1) := by
    rw [put_entries, without_of_not_mem habsent, lookup_cons_ite, if_neg hk] at hgone
    rwa [← List.map_take, ← lookup_eq_none]
  have hkmem : k ∈ s.entries.map (·.1) := by
    by_contra hno
    exact hthere (lookup_eq_none.mpr hno)
  have hjmem : j ∈ s.entries.map (·.1) := by
    by_contra hno
    exact hjthere (lookup_eq_none.mpr hno)
  have hjlt : s.place j < s.room := by
    rw [← hlength, ← List.length_map (·.1)]
    exact List.idxOf_lt_length_of_mem hjmem
  have hkge : s.room - 1 ≤ s.place k := by
    by_contra hlt
    refine hkept (List.mem_take_iff_getElem.mpr ⟨s.place k, ?_, List.getElem_idxOf _⟩)
    rw [List.length_map, hlength]
    omega
  have hne : s.place j ≠ s.place k := fun heq => hj (List.idxOf_inj hjmem |>.mp heq)
  omega

/-- The key of a put stands in front. -/
theorem place_put_self (s : LruList κ ν) (key : κ) (v : ν) : (s.put key v).place key = 0 := by
  rw [place, put_entries, List.map_cons, List.idxOf_cons_self]

theorem place_put_pos (hk : k ≠ key) : 0 < (s.put key v).place k := by
  rw [place, put_entries, List.map_cons, List.idxOf_cons_ne _ (Ne.symm hk)]
  exact Nat.succ_pos _

/-- A put does not change the order of the other keys that are kept. -/
theorem place_put_lt (hj : j ≠ key) (hk : k ≠ key)
    (hjkept : j ∈ (s.put key v).entries.map (·.1)) (hkkept : k ∈ (s.put key v).entries.map (·.1))
    (h : s.place j < s.place k) : (s.put key v).place j < (s.put key v).place k := by
  have hkeys : (s.put key v).entries.map (·.1) =
      (((key, v) :: without key s.entries).map (·.1)).take s.room := List.map_take
  rw [hkeys] at hjkept hkkept
  rw [place, place, hkeys, idxOf_take hjkept, idxOf_take hkkept, List.map_cons,
    List.idxOf_cons_ne _ (Ne.symm hj), List.idxOf_cons_ne _ (Ne.symm hk), map_without]
  exact Nat.succ_lt_succ (idxOf_filter_lt hj hk h)

/-- A list of entries does what is documented. -/
instance : LawfulLru κ ν where
  room_pos s := s.pos
  room_new hn := max_eq_left hn
  room_get s key := by
    show (s.get key).2.room = s.room
    cases hfound : s.entries.lookup key with
    | none => rw [get_of_none hfound]
    | some v =>
        rw [get_of_some hfound]
        rfl
  room_put _ _ _ := rfl
  room_clear _ := rfl
  size_eq {s keys} hkeys hmem := by
    have hperm : (s.entries.map (·.1)).Perm keys := by
      refine (List.perm_ext_iff_of_nodup s.nodup hkeys).mpr fun k => ?_
      rw [hmem k]
      exact not_iff_not.mp (lookup_eq_none.symm.trans not_not.symm)
    exact (List.length_map (·.1)).symm.trans hperm.length_eq
  size_le s := s.fits
  peek_new _ _ := rfl
  peek_clear _ _ := rfl
  get_fst s key := by
    show (s.get key).1 = s.entries.lookup key
    cases hfound : s.entries.lookup key with
    | none => rw [get_of_none hfound]
    | some v => rw [get_of_some hfound]
  get_missing h := congrArg Prod.snd (get_of_none h)
  peek_get := lookup_get
  peek_put_self := lookup_put_self
  peek_put := lookup_put
  put_drops := put_drops
  newer_asymm := lt_asymm
  newer_get_self {s key k} hk hthere _ := by
    obtain ⟨v, hfound⟩ := Option.ne_none_iff_exists'.mp hthere
    show (s.get key).2.place key < (s.get key).2.place k
    rw [get_of_some hfound, place_put_self]
    exact place_put_pos hk
  newer_get {s key j k} hj hk h := by
    show (s.get key).2.place j < (s.get key).2.place k
    cases hfound : s.entries.lookup key with
    | none =>
        rw [get_of_none hfound]
        exact h
    | some v =>
        rw [get_of_some hfound, place, place,
          entries_put_of_mem (exists_lookup.mpr ⟨v, hfound⟩), List.map_cons,
          List.idxOf_cons_ne _ (Ne.symm hj), List.idxOf_cons_ne _ (Ne.symm hk), map_without]
        exact Nat.succ_lt_succ (idxOf_filter_lt hj hk h)
  newer_put_self {s key k v} hk _ := by
    show (s.put key v).place key < (s.put key v).place k
    rw [place_put_self]
    exact place_put_pos hk
  newer_put hj hk hjthere hkthere h :=
    place_put_lt hj hk (not_not.mp (mt lookup_eq_none.mpr hjthere))
      (not_not.mp (mt lookup_eq_none.mpr hkthere)) h

end LruList

/-! ## The stores of caches -/

namespace Store

variable {κ ν : Type} [Lru κ ν]

/-- How many values a store has room for, if it is bounded. -/
def capacity : Store κ ν → Option Nat
  | .unbounded _ => none
  | .bounded lru => some (Lru.room lru)

@[simp] theorem capacity_clear [LawfulLru κ ν] {store : Store κ ν} :
    store.clear.capacity = store.capacity := by
  cases store with
  | unbounded entries => rfl
  | bounded lru => exact congrArg some (LawfulLru.room_clear lru)

variable [DecidableEq κ]

/-- The value of a key, which does not count as a use of it. -/
def find? (store : Store κ ν) (key : κ) : Option ν :=
  match store with
  | .unbounded entries => entries.lookup key
  | .bounded lru => Lru.peek lru key

/-- Whether there is a value for a key. -/
def Has (store : Store κ ν) (key : κ) : Prop := (store.find? key).isSome

variable {store : Store κ ν} {key k : κ} {v w : ν}

/-- An unbounded store keeps what there is. -/
theorem has_put (hcapacity : store.capacity = none) (h : store.Has k) :
    (store.put key v).Has k := by
  cases store with
  | bounded lru => cases hcapacity
  | unbounded entries =>
      rw [Has, find?] at h
      rw [Has, put, find?, lookup_front]
      split
      · rfl
      · exact h

variable [LawfulLru κ ν]

theorem find?_empty (capacity : Option Nat) (k : κ) :
    (empty capacity : Store κ ν).find? k = none := by
  cases capacity with
  | none => rfl
  | some n => exact LawfulLru.peek_new n k

theorem find?_clear (store : Store κ ν) (k : κ) : store.clear.find? k = none := by
  cases store with
  | unbounded entries => rfl
  | bounded lru => exact LawfulLru.peek_clear lru k

theorem get_fst (store : Store κ ν) (key : κ) : (store.get key).1 = store.find? key := by
  cases store with
  | unbounded entries => rfl
  | bounded lru => exact LawfulLru.get_fst lru key

theorem get_of_none (h : store.find? key = none) : (store.get key).2 = store := by
  cases store with
  | unbounded entries => rfl
  | bounded lru => exact congrArg bounded (LawfulLru.get_missing h)

/-- Looking into a store changes what was used last, but not what there is. -/
theorem find?_get (store : Store κ ν) (key k : κ) :
    (store.get key).2.find? k = store.find? k := by
  cases store with
  | unbounded entries => rfl
  | bounded lru => exact LawfulLru.peek_get lru key k

@[simp] theorem has_get : (store.get key).2.Has k ↔ store.Has k := by
  rw [Has, find?_get, Has]

@[simp] theorem capacity_get : (store.get key).2.capacity = store.capacity := by
  cases store with
  | unbounded entries => rfl
  | bounded lru => exact congrArg some (LawfulLru.room_get lru key)

@[simp] theorem capacity_put : (store.put key v).capacity = store.capacity := by
  cases store with
  | unbounded entries => rfl
  | bounded lru => exact congrArg some (LawfulLru.room_put lru key v)

/-- What was put last is there. -/
theorem find?_put_self (store : Store κ ν) (key : κ) (v : ν) :
    (store.put key v).find? key = some v := by
  cases store with
  | unbounded entries => exact List.lookup_cons_self
  | bounded lru => exact LawfulLru.peek_put_self lru key v

/-- What is found after a put was put, or was there before. -/
theorem find?_put (h : (store.put key v).find? k = some w) :
    (k = key ∧ w = v) ∨ store.find? k = some w := by
  by_cases hk : k = key
  · subst hk
    rw [find?_put_self] at h
    exact .inl ⟨rfl, (Option.some.inj h).symm⟩
  · refine .inr ?_
    cases store with
    | unbounded entries =>
        rw [put, find?, lookup_front, if_neg hk] at h
        exact h
    | bounded lru =>
        have hkept : Lru.peek (Lru.put lru key v) k ≠ none := Option.ne_none_iff_exists'.mpr ⟨w, h⟩
        exact (LawfulLru.peek_put hk hkept).symm.trans h

end Store

end SqlTemplate
