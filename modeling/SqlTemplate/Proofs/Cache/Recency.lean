import Mathlib
import SqlTemplate.Cache.Options
import SqlTemplate.Proofs.Cache.Sequential

/-!
# What a bounded cache keeps

A cache with a capacity, used by nobody else between two uses: somebody looks for a key, calls for
one with a load that succeeds or fails, or clears the cache. Which entries it keeps is said without
it, by a list of entries with the last used one in front and by what each use makes of that list
(`Recent`). After every history the entries of the cache are that list, and the answers are those
that the list gives (`Cache.useAll_recent`). This is so for every bounded store that does what is
documented: a look brings a key to the front (`Lists.get`), and what a put drops for want of room is
the last entry (`Lists.put`).
-/

set_option autoImplicit false

namespace SqlTemplate

/-! ## Uses -/

/-- A use of a cache: a look for a key, a call for one with the result of its load if it loads, or
a clearance. -/
inductive CacheUse (κ ν : Type)
  | get (key : κ)
  | call (key : κ) (load : Except Error ν)
  | clear

/-- What a use gives: the value that was found, or whether the load ran, and the result of the
call. -/
inductive CacheAnswer (ν : Type)
  | found (v : Option ν)
  | ended (loads : Bool) (result : Option (Except Error ν))
  | cleared

/-- What a use makes of a list of entries, the last used one in front, and what it gives. -/
inductive Recent {κ ν : Type} (capacity : Nat) :
    CacheUse κ ν → List (κ × ν) → CacheAnswer ν → List (κ × ν) → Prop
  | found {key : κ} {v : ν} {front behind : List (κ × ν)} :
    Recent capacity (.get key) (front ++ (key, v) :: behind) (.found (some v))
      ((key, v) :: (front ++ behind))
  | missing {key : κ} {entries : List (κ × ν)} : key ∉ entries.map (·.1) →
    Recent capacity (.get key) entries (.found none) entries
  | hit {key : κ} {load : Except Error ν} {v : ν} {front behind : List (κ × ν)} :
    Recent capacity (.call key load) (front ++ (key, v) :: behind) (.ended false (some (.ok v)))
      ((key, v) :: (front ++ behind))
  | loaded {key : κ} {v : ν} {entries : List (κ × ν)} : key ∉ entries.map (·.1) →
    Recent capacity (.call key (.ok v)) entries (.ended true (some (.ok v)))
      (((key, v) :: entries).take capacity)
  | failed {key : κ} {e : Error} {entries : List (κ × ν)} : key ∉ entries.map (·.1) →
    Recent capacity (.call key (.error e)) entries (.ended true (some (.error (.shared e))))
      entries
  | cleared {entries : List (κ × ν)} : Recent capacity .clear entries .cleared []

/-- What uses, one after the other, make of a list of entries. -/
inductive RecentAll {κ ν : Type} (capacity : Nat) :
    List (CacheUse κ ν) → List (κ × ν) → List (CacheAnswer ν) → List (κ × ν) → Prop
  | nil {entries : List (κ × ν)} : RecentAll capacity [] entries [] entries
  | cons {use : CacheUse κ ν} {uses : List (CacheUse κ ν)} {entries mid last : List (κ × ν)}
      {answer : CacheAnswer ν} {answers : List (CacheAnswer ν)} :
    Recent capacity use entries answer mid → RecentAll capacity uses mid answers last →
      RecentAll capacity (use :: uses) entries (answer :: answers) last

namespace Recent

variable {κ ν : Type}

/-- Every use makes something of every list. -/
theorem exists_recent (capacity : Nat) (use : CacheUse κ ν) (entries : List (κ × ν)) :
    ∃ answer next, Recent capacity use entries answer next := by
  have hsplit : ∀ key ∈ entries.map (·.1), ∃ v front behind,
      entries = front ++ (key, v) :: behind := by
    intro key hkey
    obtain ⟨⟨key, v⟩, hmem, rfl⟩ := List.mem_map.mp hkey
    obtain ⟨front, behind, hentries⟩ := List.append_of_mem hmem
    exact ⟨v, front, behind, hentries⟩
  cases use with
  | get key =>
      by_cases hkey : key ∈ entries.map (·.1)
      · obtain ⟨v, front, behind, rfl⟩ := hsplit key hkey
        exact ⟨_, _, .found⟩
      · exact ⟨_, _, .missing hkey⟩
  | call key load =>
      by_cases hkey : key ∈ entries.map (·.1)
      · obtain ⟨v, front, behind, rfl⟩ := hsplit key hkey
        exact ⟨_, _, .hit⟩
      · cases load with
        | ok v => exact ⟨_, _, .loaded hkey⟩
        | error e => exact ⟨_, _, .failed hkey⟩
  | clear => exact ⟨_, _, .cleared⟩

end Recent

/-- Uses make something of every list. -/
theorem RecentAll.exists_recentAll {κ ν : Type} (capacity : Nat) (uses : List (CacheUse κ ν))
    (entries : List (κ × ν)) : ∃ answers last, RecentAll capacity uses entries answers last := by
  induction uses generalizing entries with
  | nil => exact ⟨[], entries, .nil⟩
  | cons u uses ih =>
      obtain ⟨answer, mid, hu⟩ := Recent.exists_recent capacity u entries
      obtain ⟨answers, last, huses⟩ := ih mid
      exact ⟨answer :: answers, last, .cons hu huses⟩

/-! ## Bounded stores -/

/-- Whether a list has the entries of a bounded store, the last used one in front. -/
structure Lists {κ ν : Type} [DecidableEq κ] [Lru κ ν] (lru : Lru.State κ ν)
    (entries : List (κ × ν)) : Prop where
  keys : (entries.map (·.1)).Nodup
  peek (k : κ) : Lru.peek lru k = entries.lookup k
  newer : (entries.map (·.1)).Pairwise (Lru.Newer lru)

namespace Lists

variable {κ ν : Type} [DecidableEq κ] [Lru κ ν] {lru : Lru.State κ ν} {key k : κ} {v : ν}
  {entries others kept : List (κ × ν)}

theorem mem_iff (h : Lists lru entries) : k ∈ entries.map (·.1) ↔ Lru.peek lru k ≠ none := by
  rw [h.peek, Ne, lookup_eq_none, not_not]

variable [LawfulLru κ ν]

/-- The order of the last uses leaves no choice. -/
theorem unique (h : Lists lru entries) (h' : Lists lru others) : entries = others := by
  have hmem : ∀ e, e ∈ entries ↔ e ∈ others := by
    rintro ⟨k, v⟩
    have hlookup : entries.lookup k = others.lookup k := (h.peek k).symm.trans (h'.peek k)
    exact ⟨fun he => mem_of_lookup (hlookup ▸ lookup_of_mem h.keys he),
      fun he => mem_of_lookup (hlookup ▸ lookup_of_mem h'.keys he)⟩
  have hperm : entries.Perm others :=
    (List.perm_ext_iff_of_nodup h.keys.of_map h'.keys.of_map).mpr hmem
  have horder : ∀ a b, a ∈ entries → b ∈ others → Lru.Newer lru a.1 b.1 →
      Lru.Newer lru b.1 a.1 → a = b :=
    fun _ _ _ _ hab hba => absurd hba (LawfulLru.newer_asymm hab)
  exact hperm.eq_of_pairwise horder (List.pairwise_map.mp h.newer)
    (List.pairwise_map.mp h'.newer)

theorem size (h : Lists lru entries) : Lru.size lru = entries.length :=
  (LawfulLru.size_eq h.keys fun _ => h.mem_iff).trans (List.length_map _)

theorem length_le (h : Lists lru entries) : entries.length ≤ Lru.room lru :=
  h.size ▸ LawfulLru.size_le lru

theorem new (n : Nat) : Lists (Lru.new n : Lru.State κ ν) [] :=
  ⟨List.nodup_nil, LawfulLru.peek_new n, .nil⟩

theorem clear (lru : Lru.State κ ν) : Lists (Lru.clear lru) [] :=
  ⟨List.nodup_nil, LawfulLru.peek_clear lru, .nil⟩

/-- A key that is looked for and found comes to the front. -/
theorem get {front behind : List (κ × ν)} (h : Lists lru (front ++ (key, v) :: behind)) :
    Lists (Lru.get lru key).2 ((key, v) :: (front ++ behind)) := by
  have hkeys : (((key, v) :: (front ++ behind)).map (·.1)).Nodup := by
    have hmiddle := h.keys
    rwa [List.map_append, List.map_cons, List.nodup_middle, ← List.map_append] at hmiddle
  have hlookup : (front ++ (key, v) :: behind).lookup key = some v :=
    lookup_of_mem h.keys List.mem_append_cons_self
  have hothers : ∀ k ∈ (front ++ behind).map (·.1), k ≠ key := by
    rintro k hk rfl
    exact (List.nodup_cons.mp hkeys).1 hk
  have hsub : (front ++ behind).Sublist (front ++ (key, v) :: behind) :=
    (List.sublist_cons_self _ _).append_left front
  refine ⟨hkeys, fun k => ?_, List.pairwise_cons.mpr ⟨fun k hk => ?_, ?_⟩⟩
  · rw [LawfulLru.peek_get, h.peek]
    by_cases hk : k = key
    · rw [hk, hlookup, List.lookup_cons_self]
    · simp only [List.lookup_append, lookup_cons_ite, if_neg hk]
  · refine LawfulLru.newer_get_self (hothers k hk) (by simp [h.peek, hlookup]) (h.mem_iff.mp ?_)
    exact (hsub.map _).subset hk
  · refine (h.newer.sublist (hsub.map _)).imp_of_mem fun hj hk hnewer => ?_
    exact LawfulLru.newer_get (hothers _ hj) (hothers _ hk) hnewer

/-- What a put of a new key keeps stays in its order behind that key. -/
theorem put_kept (h : Lists lru entries) (habsent : key ∉ entries.map (·.1))
    (hsub : kept.Sublist entries)
    (hkept : ∀ k, k ≠ key → Lru.peek (Lru.put lru key v) k = kept.lookup k) :
    Lists (Lru.put lru key v) ((key, v) :: kept) := by
  have hothers : ∀ k ∈ kept.map (·.1), k ≠ key := by
    rintro k hk rfl
    exact habsent ((hsub.map _).subset hk)
  have hstays : ∀ k ∈ kept.map (·.1), Lru.peek (Lru.put lru key v) k ≠ none := by
    intro k hk
    rw [hkept k (hothers k hk), Ne, lookup_eq_none, not_not]
    exact hk
  refine ⟨List.nodup_cons.mpr ⟨fun hk => hothers key hk rfl, h.keys.sublist (hsub.map _)⟩,
    fun k => ?_, List.pairwise_cons.mpr ⟨fun k hk => ?_, ?_⟩⟩
  · rw [lookup_cons_ite]
    split
    · rename_i hk
      rw [hk, LawfulLru.peek_put_self]
    · exact hkept k ‹_›
  · exact LawfulLru.newer_put_self (hothers k hk) (hstays k hk)
  · refine (h.newer.sublist (hsub.map _)).imp_of_mem fun hj hk hnewer => ?_
    exact LawfulLru.newer_put (hothers _ hj) (hothers _ hk) (hstays _ hj) (hstays _ hk) hnewer

/-- Of another key, a put keeps the value or nothing. -/
theorem peek_put (h : Lists lru entries) (hk : k ≠ key) :
    Lru.peek (Lru.put lru key v) k = none ∨
      Lru.peek (Lru.put lru key v) k = entries.lookup k := by
  by_cases hgone : Lru.peek (Lru.put lru key v) k = none
  · exact .inl hgone
  · exact .inr ((LawfulLru.peek_put hk hgone).trans (h.peek k))

/-- While there is room, nothing has to go. -/
theorem put_of_lt (h : Lists lru entries) (habsent : key ∉ entries.map (·.1))
    (hroom : entries.length < Lru.room lru) :
    Lists (Lru.put lru key v) ((key, v) :: entries) := by
  refine h.put_kept habsent (.refl _) fun k hk => (h.peek_put hk).elim (fun hgone => ?_) id
  rw [hgone, eq_comm, lookup_eq_none]
  intro hmem
  obtain ⟨-, hfull, -⟩ := LawfulLru.put_drops hk (h.mem_iff.mp hmem) hgone
  exact hroom.ne (h.size.symm.trans hfull)

/-- When there is no room, the last entry has to go. -/
theorem put_of_full {last : κ × ν} (h : Lists lru (entries ++ [last]))
    (habsent : key ∉ (entries ++ [last]).map (·.1))
    (hfull : (entries ++ [last]).length = Lru.room lru) :
    Lists (Lru.put lru key v) ((key, v) :: entries) := by
  have hsplit : (entries ++ [last]).map (·.1) = entries.map (·.1) ++ [last.1] := by simp
  have hkeys := h.keys
  have hnewer := h.newer
  rw [hsplit, List.nodup_append] at hkeys
  rw [hsplit, List.pairwise_append] at hnewer
  rw [hsplit, List.mem_append, not_or] at habsent
  -- Nothing but the last entry goes: the others are newer.
  have hstays : ∀ k ∈ entries.map (·.1), Lru.peek (Lru.put lru key v) k ≠ none := by
    intro k hk hgone
    have hkey : k ≠ key := fun heq => habsent.1 (heq ▸ hk)
    have hmem : ∀ j ∈ entries.map (·.1) ++ [last.1], Lru.peek lru j ≠ none := fun j hj =>
      h.mem_iff.mp (hsplit ▸ hj)
    obtain ⟨-, -, hnewest⟩ :=
      LawfulLru.put_drops hkey (hmem k (List.mem_append_left _ hk)) hgone
    have hlast : last.1 ≠ k := (hkeys.2.2 k hk last.1 (List.mem_singleton_self _)).symm
    exact LawfulLru.newer_asymm (hnewest last.1 hlast (hmem _ (by simp)))
      (hnewer.2.2 k hk last.1 (List.mem_singleton_self _))
  -- If it stayed too, there would be more entries than there is room for.
  have hdropped : Lru.peek (Lru.put lru key v) last.1 = none := by
    by_contra hlast
    have hall : ∀ k, k ≠ key →
        Lru.peek (Lru.put lru key v) k = (entries ++ [last]).lookup k := by
      intro k hk
      refine (h.peek_put hk).elim (fun hgone => ?_) id
      rw [hgone, eq_comm, lookup_eq_none, hsplit, List.mem_append, List.mem_singleton]
      rintro (hmem | rfl)
      · exact hstays k hmem hgone
      · exact hlast hgone
    have hmore := (h.put_kept (v := v) (by simpa using habsent) (.refl _) hall).length_le
    rw [LawfulLru.room_put, ← hfull] at hmore
    simp at hmore
  refine h.put_kept (by simpa using habsent) (List.sublist_append_left _ _) fun k hk => ?_
  rcases h.peek_put (v := v) hk with hgone | hstill
  · rw [hgone, eq_comm, lookup_eq_none]
    exact fun hmem => hstays k hmem hgone
  · by_cases hlast : k = last.1
    · rw [hlast, hdropped, eq_comm, lookup_eq_none]
      exact fun hmem => hkeys.2.2 _ hmem last.1 (List.mem_singleton_self _) rfl
    · rw [hstill, List.lookup_append, lookup_cons_ite, if_neg hlast]
      exact Option.or_none

/-- A new key comes to the front, and what there is no room for goes from the end. -/
theorem put (h : Lists lru entries) (habsent : key ∉ entries.map (·.1)) :
    Lists (Lru.put lru key v) (((key, v) :: entries).take (Lru.room lru)) := by
  rcases h.length_le.lt_or_eq with hroom | hfull
  · rw [List.take_of_length_le (Nat.succ_le_of_lt hroom)]
    exact h.put_of_lt habsent hroom
  · have hpos := LawfulLru.room_pos lru
    rcases List.eq_nil_or_concat entries with rfl | ⟨front, last, rfl⟩
    · exact absurd hfull hpos.ne
    · rw [List.concat_eq_append] at h habsent hfull ⊢
      have htake : ((key, v) :: (front ++ [last])).take (Lru.room lru) = (key, v) :: front := by
        rw [← hfull]
        simp
      rw [htake]
      exact h.put_of_full habsent hfull

end Lists

namespace Cache

variable {κ ν : Type} [Lru κ ν] [DecidableEq κ]

/-! ## Single uses -/

/-- Uses the cache while nobody else does: what comes of it, and the cache. -/
def use (cache : Cache κ ν) : CacheUse κ ν → CacheAnswer ν × Cache κ ν
  | .get key =>
    let (v, cache) := cache.lookUp key
    (.found v, cache)
  | .call key load =>
    let (number, cache) := cache.begin key
    let next := cache.resume number load
    (.ended (cache.isLoading number) (next.result? number), next)
  | .clear => (.cleared, cache.clear)

/-- Uses the cache several times. -/
def useAll : List (CacheUse κ ν) → Cache κ ν → List (CacheAnswer ν) × Cache κ ν
  | [], cache => ([], cache)
  | use :: uses, cache =>
    let (answer, cache) := cache.use use
    let (answers, cache) := useAll uses cache
    (answer :: answers, cache)

section Uses

variable [LawfulLru κ ν] {store : Store κ ν} {flights : List (Flight ν)}
  {calls : List (CacheCall κ ν)} {key : κ} {v : ν}

theorem use_get (cache : Cache κ ν) (key : κ) : cache.use (.get key) =
    (.found (cache.store.find? key), { cache with store := (cache.store.get key).2 }) := by
  simp only [use, lookUp_eq]

/-- A call for a key that is stored is over when it begins. -/
theorem use_hit (h : store.find? key = some v) (load : Except Error ν) :
    use ⟨store, [], flights, calls⟩ (.call key load) = (.ended false (some (.ok v)),
      ⟨(store.get key).2, [], flights, calls ++ [⟨key, .finished (.ok v)⟩]⟩) := by
  have hstop : step ⟨(store.get key).2, [], flights, calls ++ [⟨key, .finished (.ok v)⟩]⟩
      calls.length = none := by
    simp [step]
  have hloaded : loaded ⟨(store.get key).2, [], flights, calls ++ [⟨key, .finished (.ok v)⟩]⟩
      calls.length load = none := by
    simp [loaded]
  simp [use, begin_hit h, resume, hloaded, settle, advance_stop hstop, isLoading, result?]

/-- A call for a key that is not stored loads. -/
theorem use_miss (h : store.find? key = none) (load : Except Error ν) :
    use ⟨store, [], flights, calls⟩ (.call key load) =
      (.ended true (some (load.mapError .shared)), loadedAlone store flights calls key load) := by
  have hloads : (loadingAlone store flights calls key).isLoading calls.length = true := by
    simp [isLoading, loadingAlone]
  have hresult : (loadedAlone store flights calls key load).result? calls.length =
      some (load.mapError .shared) := by
    simp [result?, loadedAlone]
  simp only [use, begin_miss h, resume_alone, hloads, hresult]

end Uses

/-- A cache that nobody uses, with room for a number of entries, and its entries, the last used one
in front. -/
structure Tidy (capacity : Nat) (cache : Cache κ ν) (entries : List (κ × ν)) : Prop where
  board : cache.board = []
  store : ∃ lru, cache.store = .bounded lru ∧ Lru.room lru = capacity ∧ Lists lru entries

namespace Tidy

variable {capacity : Nat} {cache : Cache κ ν} {entries next : List (κ × ν)}

theorem find? (h : Tidy capacity cache entries) (key : κ) :
    cache.store.find? key = entries.lookup key := by
  obtain ⟨lru, hstore, -, hlists⟩ := h.store
  rw [hstore]
  exact hlists.peek key

theorem keys (h : Tidy capacity cache entries) : (entries.map (·.1)).Nodup := by
  obtain ⟨_, -, -, hlists⟩ := h.store
  exact hlists.keys

variable [LawfulLru κ ν]

theorem empty (hcapacity : 0 < capacity) :
    Tidy capacity (.empty (some capacity) : Cache κ ν) [] :=
  ⟨rfl, Lru.new capacity, rfl, LawfulLru.room_new hcapacity, .new capacity⟩

theorem unique (h : Tidy capacity cache entries) (h' : Tidy capacity cache next) :
    entries = next := by
  obtain ⟨lru, hstore, -, hlists⟩ := h.store
  obtain ⟨lru', hstore', -, hlists'⟩ := h'.store
  obtain rfl : lru = lru' := Store.bounded.inj (hstore.symm.trans hstore')
  exact hlists.unique hlists'

theorem size (h : Tidy capacity cache entries) :
    cache.size = entries.length ∧ entries.length ≤ capacity := by
  obtain ⟨lru, hstore, rfl, hlists⟩ := h.store
  refine ⟨?_, hlists.length_le⟩
  rw [Cache.size, hstore]
  exact hlists.size

/-- **A use of the cache is one of the list of its entries.** What can be made of the list is what
the use makes of the cache. -/
theorem use (h : Tidy capacity cache entries) {u : CacheUse κ ν} {answer : CacheAnswer ν}
    (hrecent : Recent capacity u entries answer next) :
    answer = (cache.use u).1 ∧ Tidy capacity (cache.use u).2 next := by
  have hfind := h.find?
  obtain ⟨store, board, flights, calls⟩ := cache
  obtain rfl : board = [] := h.board
  obtain ⟨lru, hstore, hroom, hlists⟩ := h.store
  obtain rfl : store = .bounded lru := hstore
  cases hrecent with
  | @found key v front behind =>
      have hfound : (Store.bounded lru).find? key = some v :=
        (hfind key).trans (lookup_of_mem hlists.keys List.mem_append_cons_self)
      rw [use_get, hfound]
      exact ⟨rfl, rfl, _, rfl, (LawfulLru.room_get lru key).trans hroom, hlists.get⟩
  | @missing key _ habsent =>
      have hnone : (Store.bounded lru).find? key = none :=
        (hfind key).trans (lookup_eq_none.mpr habsent)
      rw [use_get, hnone, Store.get_of_none hnone]
      exact ⟨rfl, h⟩
  | @hit key load v front behind =>
      have hfound : (Store.bounded lru).find? key = some v :=
        (hfind key).trans (lookup_of_mem hlists.keys List.mem_append_cons_self)
      rw [use_hit hfound]
      exact ⟨rfl, rfl, _, rfl, (LawfulLru.room_get lru key).trans hroom, hlists.get⟩
  | @loaded key v _ habsent =>
      have hnone : (Store.bounded lru).find? key = none :=
        (hfind key).trans (lookup_eq_none.mpr habsent)
      rw [use_miss hnone]
      refine ⟨rfl, rfl, _, rfl, (LawfulLru.room_put lru key v).trans hroom, ?_⟩
      exact hroom ▸ hlists.put habsent
  | @failed key e _ habsent =>
      have hnone : (Store.bounded lru).find? key = none :=
        (hfind key).trans (lookup_eq_none.mpr habsent)
      rw [use_miss hnone]
      exact ⟨rfl, rfl, lru, rfl, hroom, hlists⟩
  | cleared =>
      exact ⟨rfl, rfl, _, rfl, (LawfulLru.room_clear lru).trans hroom, .clear lru⟩

/-- Whether a call loads. -/
theorem isLoading_iff (h : Tidy capacity cache entries) (key : κ) :
    (cache.begin key).2.isLoading (cache.begin key).1 = true ↔ key ∉ entries.map (·.1) := by
  have hfind := h.find? key
  obtain ⟨store, board, flights, calls⟩ := cache
  obtain rfl : board = [] := h.board
  rw [← lookup_eq_none, ← hfind]
  cases hlookup : store.find? key with
  | none => simp [begin_miss hlookup, isLoading, loadingAlone]
  | some v => simp [begin_hit hlookup, isLoading]

/-! ## Histories -/

/-- What can be made of the list of entries by uses is what the uses make of the cache. -/
theorem useAll (h : Tidy capacity cache entries) {uses : List (CacheUse κ ν)}
    {answers : List (CacheAnswer ν)} (hall : RecentAll capacity uses entries answers next) :
    answers = (cache.useAll uses).1 ∧ Tidy capacity (cache.useAll uses).2 next := by
  induction hall generalizing cache with
  | nil => exact ⟨rfl, h⟩
  | cons hu _ ih =>
      obtain ⟨rfl, hmid⟩ := h.use hu
      obtain ⟨rfl, hlast⟩ := ih hmid
      exact ⟨rfl, hlast⟩

end Tidy

/-- **A bounded cache keeps what was used last.** Of the list that begins empty, a history makes one
list of entries only, and the answers to it are those that the cache has given. What is stored are
the entries of that list; its keys are distinct, there are not more of them than the capacity, and a
further call loads if its key is none of them. -/
theorem useAll_recent [LawfulLru κ ν] {capacity : Nat} (hcapacity : 1 ≤ capacity)
    (uses : List (CacheUse κ ν)) :
    let start : Cache κ ν := .empty (CacheOptions.bounded capacity).capacity
    let last := (start.useAll uses).2
    ∃ entries,
      (∀ answers next, RecentAll capacity uses [] answers next ↔
        answers = (start.useAll uses).1 ∧ next = entries) ∧
      (∀ key, last.store.find? key = entries.lookup key) ∧ (entries.map (·.1)).Nodup ∧
      last.size = entries.length ∧ entries.length ≤ capacity ∧
      ∀ key, (last.begin key).2.isLoading (last.begin key).1 = true ↔
        key ∉ entries.map (·.1) := by
  intro start last
  have hstart : Tidy capacity start [] := by
    have hbounded : (CacheOptions.bounded capacity).capacity = some capacity :=
      if_neg (Nat.one_le_iff_ne_zero.mp hcapacity)
    show Tidy capacity (.empty (CacheOptions.bounded capacity).capacity) []
    rw [hbounded]
    exact .empty hcapacity
  obtain ⟨answers, entries, hall⟩ := RecentAll.exists_recentAll capacity uses ([] : List (κ × ν))
  obtain ⟨rfl, hlast⟩ := hstart.useAll hall
  refine ⟨entries, fun answers next => ⟨fun hother => ?_, ?_⟩, hlast.find?, hlast.keys,
    hlast.size.1, hlast.size.2, hlast.isLoading_iff⟩
  · obtain ⟨rfl, hnext⟩ := hstart.useAll hother
    exact ⟨rfl, hnext.unique hlast⟩
  · rintro ⟨rfl, rfl⟩
    exact hall

/-- Room for two: by the look for the first key it is the second one that is dropped, and not before
a load of the third one succeeds. -/
theorem useAll_recent_two :
    let uses : List (CacheUse Nat Nat) := [.call 5 (.ok 50), .clear, .call 1 (.ok 10),
      .call 2 (.ok 20), .get 1, .call 3 (.error .notFound), .call 3 (.ok 30), .get 2,
      .call 1 (.ok 11)]
    let answers : List (CacheAnswer Nat) := [.ended true (some (.ok 50)), .cleared,
      .ended true (some (.ok 10)), .ended true (some (.ok 20)), .found (some 10),
      .ended true (some (.error (.shared .notFound))), .ended true (some (.ok 30)), .found none,
      .ended false (some (.ok 10))]
    let start : Cache Nat Nat := .empty (CacheOptions.bounded 2).capacity
    let last := (start.useAll uses).2
    1 ≤ 2 ∧ RecentAll 2 uses [] answers [(1, 10), (3, 30)] ∧ (start.useAll uses).1 = answers ∧
      last.store.find? 1 = some 10 ∧ last.store.find? 2 = none ∧ last.store.find? 3 = some 30 ∧
      last.size = 2 ∧ (last.begin 2).2.isLoading (last.begin 2).1 = true := by
  intro uses answers start last
  have hcapacity : 1 ≤ 2 := by decide
  have hall : RecentAll 2 uses [] answers [(1, 10), (3, 30)] := by
    refine .cons (show Recent 2 _ [] _ [(5, 50)] from .loaded (by decide)) ?_
    refine .cons (show Recent 2 _ [(5, 50)] _ [] from .cleared) ?_
    refine .cons (show Recent 2 _ [] _ [(1, 10)] from .loaded (by decide)) ?_
    refine .cons (show Recent 2 _ [(1, 10)] _ [(2, 20), (1, 10)] from .loaded (by decide)) ?_
    refine .cons (show Recent 2 _ ([(2, 20)] ++ [(1, 10)]) _ [(1, 10), (2, 20)] from .found) ?_
    refine .cons (show Recent 2 _ [(1, 10), (2, 20)] _ _ from .failed (by decide)) ?_
    refine .cons (show Recent 2 _ [(1, 10), (2, 20)] _ [(3, 30), (1, 10)] from
      .loaded (by decide)) ?_
    refine .cons (show Recent 2 _ [(3, 30), (1, 10)] _ _ from .missing (by decide)) ?_
    exact .cons (show Recent 2 _ ([(3, 30)] ++ [(1, 10)]) _ _ from .hit) .nil
  obtain ⟨stored, hrecent, hfind, -, hsize, -, hloads⟩ := useAll_recent hcapacity uses
  obtain ⟨hanswers, rfl⟩ := (hrecent answers _).mp hall
  dsimp only [start, last]
  exact ⟨hcapacity, hall, hanswers.symm, hfind 1, hfind 2, hfind 3, hsize,
    (hloads 2).mpr (by decide)⟩

end Cache

end SqlTemplate
