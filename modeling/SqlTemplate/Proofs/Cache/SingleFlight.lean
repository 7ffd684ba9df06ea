import Mathlib
import SqlTemplate.Proofs.Cache.Results

/-!
# Single flight

Calls for the same key share their loads. Whatever calls there are and however their steps come one
after the other: no two loads for a key run at the same time, results and stored values come from
loads for their own key, and as long as the first load for a key succeeds and its value stays in the
store, there is no second one and every call gets its value (`Cache.single_flight`).
-/

set_option autoImplicit false

namespace SqlTemplate

variable {κ ν : Type}

/-- Whether a call loads, or has a result that it has not stored yet. -/
def Phase.Busy : Phase ν → Prop
  | .loading _ | .landing _ _ => True
  | _ => False

theorem Phase.Busy.leads {p : Phase ν} (h : p.Busy) : ∃ f, p.Leads f := by
  cases p <;> simp_all [Busy, Leads]

namespace Cache

/-! ## The loads for a key -/

section Loads

variable [DecidableEq κ] {key k : κ} {log : List (κ × LoadEvent ν)}

/-- What was noticed of a key. -/
def loads (key : κ) (log : List (κ × LoadEvent ν)) : List (LoadEvent ν) :=
  log.filterMap fun e => if e.1 = key then some e.2 else none

/-- The results of the loads that have ended. -/
def endings (events : List (LoadEvent ν)) : List (Except Error ν) :=
  events.filterMap fun
    | .ended r => some r
    | _ => none

/-- What a turn does to other keys is not noticed of this one. -/
theorem loads_of_ne {e : LoadEvent ν} (h : k ≠ key) : loads key (some (k, e)).toList = [] := by
  simp [loads, h]

theorem loads_self (e : LoadEvent ν) : loads key (some (key, e)).toList = [e] := by
  simp [loads]

theorem loads_append (key : κ) (log log' : List (κ × LoadEvent ν)) :
    loads key (log ++ log') = loads key log ++ loads key log' :=
  List.filterMap_append

theorem mem_loads {e : LoadEvent ν} : e ∈ loads key log ↔ (key, e) ∈ log := by
  simp [loads]

theorem endings_append (events events' : List (LoadEvent ν)) :
    endings (events ++ events') = endings events ++ endings events' :=
  List.filterMap_append

end Loads

variable [Lru κ ν]

/-- A call moves that is for another key, or not busy before and after. -/
theorem Moves.busy_iff {cache next : Cache κ ν} {n : Nat} {key k : κ} {q : Phase ν}
    (h : Moves cache next n k q) (hbefore : ∀ p, cache.At n key p → ¬ p.Busy)
    (hafter : k = key → ¬ q.Busy) (m : Nat) (p : Phase ν) (hp : p.Busy) :
    next.At m key p ↔ cache.At m key p := by
  rw [h]
  constructor
  · rintro (⟨rfl, rfl, rfl⟩ | ⟨-, hat⟩)
    · exact absurd hp (hafter rfl)
    · exact hat
  · intro hat
    refine .inr ⟨?_, hat⟩
    rintro rfl
    exact hbefore p hat hp

variable [DecidableEq κ]

/-! ## Where results come from -/

/-- Whether all results for a key are in `R`: what is stored, what the listed flights have and those
that calls are aboard of, what calls hold, and what calls have returned, except for the first
ones. -/
structure Honest (first : Nat) (R : κ → Except Error ν → Prop) (cache : Cache κ ν) : Prop where
  stored {k : κ} {v : ν} : cache.store.find? k = some v → R k (.ok v)
  listed {k : κ} {f : Nat} {r : Except Error ν} : cache.board.lookup k = some f →
    cache.resultOf f = some r → R k r
  aboard {n f : Nat} {k : κ} {p : Phase ν} {r : Except Error ν} : cache.At n k p →
    p.flight? = some f → cache.resultOf f = some r → R k r
  held {n : Nat} {k : κ} {p : Phase ν} {r : Except Error ν} : cache.At n k p →
    p.held? = some r → R k r
  finished {n : Nat} {k : κ} {r : Except Error ν} : first ≤ n → cache.At n k (.finished r) →
    ∃ r', R k r' ∧ r = r'.mapError .shared

section Honest

variable {cache next : Cache κ ν} {first : Nat} {R R' : κ → Except Error ν → Prop}

theorem honest_empty [LawfulLru κ ν] (capacity : Option Nat) :
    Honest first R (empty capacity : Cache κ ν) := by
  constructor <;> simp [empty, At, Store.find?_empty]

/-- All calls are seen, and leaders are calls. -/
theorem honest_iff :
    Honest first R cache ↔ Offers (fun _ => True) (fun n => first ≤ n) R cache := by
  constructor
  · intro h
    exact ⟨h.stored, h.listed, fun hat _ => h.held hat, fun _ => h.aboard, fun _ => h.held,
      h.finished⟩
  · intro h
    exact ⟨h.stored, h.listed, h.aboard trivial, h.held trivial, h.finished⟩

/-- **Results come from loads.** If `R` takes in the results of the loads that end, then it has all
results after every turn. -/
theorem Honest.turn [LawfulLru κ ν] {e : CacheEvent κ ν} {note : Option (κ × LoadEvent ν)} (h : Honest first R cache)
    (hsound : Sound cache) (hturn : Turn cache e note next) (hR : ∀ k r, R k r → R' k r)
    (hnote : ∀ k r, note = some (k, .ended r) → R' k r) : Honest first R' next := by
  have hoffers := honest_iff.mp h
  exact honest_iff.mpr (hoffers.turn (fun _ _ => trivial) hsound hturn hR hnote)

end Honest

/-! ## The first load for a key -/

/-- Where the calls for a key are with their first load, whose value is `v`, if nothing is noticed
of the key but that load: before it, while it runs, when its value is not stored yet, and when it
is. -/
inductive Stage (key : κ) (v : ν) (cache : Cache κ ν) : List (LoadEvent ν) → Prop
  | before (hstore : ¬ cache.store.Has key) (hidle : ∀ n p, cache.At n key p → ¬ p.Busy) :
      Stage key v cache []
  | loading {n f : Nat} (h : cache.At n key (.loading f)) : Stage key v cache [.began]
  | landing {n f : Nat} (h : cache.At n key (.landing f (.ok v))) :
      Stage key v cache [.began, .ended (.ok v)]
  | stored (hstore : cache.store.Has key) (hidle : ∀ n p, cache.At n key p → ¬ p.Busy) :
      Stage key v cache [.began, .ended (.ok v)]

section Stage

variable {cache next : Cache κ ν} {n : Nat} {key k : κ} {v : ν} {p q : Phase ν}
  {e : CacheEvent κ ν} {note : Option (κ × LoadEvent ν)} {events : List (LoadEvent ν)}

theorem Stage.keep (h : Stage key v cache events)
    (hbusy : ∀ m p, p.Busy → (next.At m key p ↔ cache.At m key p))
    (hstore : next.store.Has key ↔ cache.store.Has key) : Stage key v next events := by
  have hidle : (∀ n p, cache.At n key p → ¬ p.Busy) → ∀ n p, next.At n key p → ¬ p.Busy :=
    fun hidle m p hat hp => hidle m p ((hbusy m p hp).mp hat) hp
  cases h with
  | before hempty hold => exact .before (mt hstore.mp hempty) (hidle hold)
  | @loading m f hat => exact .loading ((hbusy m (.loading f) trivial).mpr hat)
  | @landing m f hat => exact .landing ((hbusy m (.landing f _) trivial).mpr hat)
  | stored hhas hold => exact .stored (hstore.mpr hhas) (hidle hold)

/-- A busy call is the only leader for its key, so a stage says what phase it is in. -/
theorem Stage.of_leader {f : Nat} (h : Stage key v cache events) (hsound : Sound cache)
    (hat : cache.At n key p) (hp : p.Leads f) :
    (¬ p.Busy ∧ ¬ cache.store.Has key ∧ events = []) ∨
    (∃ g, p = .loading g ∧ events = [.began]) ∨
    (∃ g, p = .landing g (.ok v) ∧ events = [.began, .ended (.ok v)]) ∨
    (¬ p.Busy ∧ cache.store.Has key ∧ events = [.began, .ended (.ok v)]) := by
  cases h with
  | before hempty hidle => exact .inl ⟨hidle n p hat, hempty, rfl⟩
  | @loading m g hm =>
      obtain rfl := hsound.leader_eq hat hm hp (f := f) (g := g) rfl
      exact .inr (.inl ⟨g, (hm.unique hat).2, rfl⟩)
  | @landing m g hm =>
      obtain rfl := hsound.leader_eq hat hm hp (f := f) (g := g) rfl
      exact .inr (.inr (.inl ⟨g, (hm.unique hat).2, rfl⟩))
  | stored hhas hidle => exact .inr (.inr (.inr ⟨hidle n p hat, hhas, rfl⟩))

/-- A call for the key that is not busy moves on to a phase that is not. -/
theorem Stage.move (h : Stage key v cache events) (hat : cache.At n k p) (hmoves : Moves cache next n k q)
    (hp : k = key → ¬ p.Busy ∧ ¬ q.Busy) (hstore : next.store.Has key ↔ cache.store.Has key) :
    Stage key v next events := by
  refine h.keep (hmoves.busy_iff (fun o ho => ?_) fun hk => (hp hk).2) hstore
  obtain ⟨rfl, rfl⟩ := hat.unique ho
  exact (hp rfl).1

/-- The leader for the key starts a load: it is the first one. -/
theorem Stage.start {f : Nat} (h : Stage key v cache events) (hsound : Sound cache)
    (hat : cache.At n key (.leading f)) (hstored : cache.store.find? key = none)
    (hnext : next.At n key (.loading f)) : Stage key v next (events ++ [.began]) := by
  have hempty : ¬ cache.store.Has key := by simp [Store.Has, hstored]
  rcases h.of_leader hsound hat (f := f) rfl with ⟨-, -, rfl⟩ | ⟨g, hg, -⟩ | ⟨g, hg, -⟩ | ⟨-, hhas, -⟩
  · exact .loading hnext
  · cases hg
  · cases hg
  · exact absurd hhas hempty

/-- The load ends with its value. -/
theorem Stage.loaded {f : Nat} (h : Stage key v cache events) (hsound : Sound cache)
    (hat : cache.At n key (.loading f)) (hnext : next.At n key (.landing f (.ok v))) :
    Stage key v next (events ++ [.ended (.ok v)]) := by
  rcases h.of_leader hsound hat (f := f) rfl with ⟨hp, -⟩ | ⟨g, hg, rfl⟩ | ⟨g, hg, -⟩ | ⟨hp, -⟩
  · exact absurd trivial hp
  · exact .landing hnext
  · cases hg
  · exact absurd trivial hp

/-- The value is stored. -/
theorem Stage.land [LawfulLru κ ν] {f : Nat} {r : Except Error ν} (h : Stage key v cache events)
    (hsound : Sound cache) (hat : cache.At n key (.landing f r)) :
    Stage key v (cache.land n ⟨key, .landing f r⟩ f r) events := by
  rcases h.of_leader hsound hat (f := f) rfl with ⟨hp, -⟩ | ⟨g, hg, -⟩ | ⟨g, hg, rfl⟩ | ⟨hp, -⟩
  · exact absurd trivial hp
  · cases hg
  · cases hg
    refine .stored (by simp [Store.Has, Cache.land, enter, Store.find?_put_self]) fun m p hm hp => ?_
    -- Whoever is busy was so before, and is the leader that has just landed.
    rcases (moves_enter hat rfl _ _ _).mp hm with ⟨-, -, rfl⟩ | ⟨hne, hm⟩
    · exact hp
    · obtain ⟨g', hleads⟩ := hp.leads
      exact hne (hsound.leader_eq hm hat hleads (g := f) rfl)
  · exact absurd trivial hp

/-- **A stage leads to the next.** As long as no call for the key is cancelled, its first load gives
`v`, and what is stored for it stays in the store. -/
theorem Stage.turn [LawfulLru κ ν] (h : Stage key v cache events) (hsound : Sound cache)
    (hturn : Turn cache e note next)
    (hretain : cache.store.Has key → next.store.Has key) (hcancel : note ≠ some (key, .cancelled))
    (hended : ∀ r, note = some (key, .ended r) → r = .ok v) :
    Stage key v next (events ++ loads key note.toList) := by
  have hquiet : ∀ {events' : List (LoadEvent ν)}, Stage key v next events →
      events' = [] → Stage key v next (events ++ events') := by
    rintro _ h rfl
    rwa [List.append_nil]
  cases hturn with
  | request k =>
      refine hquiet (h.keep (Moves.busy_iff (moves_request cache k) (fun p hat => ?_) (by simp [Phase.Busy]))
        Iff.rfl) rfl
      simp [At] at hat
  | look k => exact hquiet (h.keep (fun _ _ _ => Iff.rfl) Store.has_get) rfl
  | clear =>
      refine hquiet (h.keep (fun _ _ _ => Iff.rfl) ⟨fun hhas => ?_, hretain⟩) rfl
      simp [Cache.clear, Store.Has, Store.find?_clear] at hhas
  | @quit n k p hat hp =>
      have hk : k ≠ key := fun hk => hcancel (by rw [hk])
      exact hquiet (h.move hat (moves_enter hat rfl) (fun hk' => absurd hk' hk) Iff.rfl)
        (loads_of_ne hk)
  | @abandon n f k hat =>
      have hk : k ≠ key := fun hk => hcancel (by rw [hk])
      exact hquiet (h.move hat (moves_enter hat rfl) (fun hk' => absurd hk' hk) Iff.rfl)
        (loads_of_ne hk)
  | hit hat hstored =>
      exact hquiet (h.move hat (moves_enter hat rfl) (fun _ => ⟨id, id⟩) Store.has_get) rfl
  | miss hat =>
      exact hquiet (h.move hat (moves_enter hat rfl) (fun _ => ⟨id, id⟩) Store.has_get) rfl
  | join hat hlisted =>
      exact hquiet (h.move hat (moves_enter hat rfl) (fun _ => ⟨id, id⟩) Iff.rfl) rfl
  | found hat hlisted =>
      exact hquiet (h.move hat (moves_enter hat rfl) (fun _ => ⟨id, id⟩) Iff.rfl) rfl
  | receive hat hresult =>
      exact hquiet (h.move hat (moves_enter hat rfl) (fun _ => ⟨id, id⟩) Iff.rfl) rfl
  | lead hat hfree =>
      exact hquiet (h.move hat (moves_enter hat rfl) (fun _ => ⟨id, id⟩) Iff.rfl) rfl
  | recheck hat hstored =>
      exact hquiet (h.move hat (moves_enter hat rfl) (fun _ => ⟨id, id⟩) Store.has_get) rfl
  | @start n f k hat hstored =>
      have hmoves : Moves cache ((cache.lookUp k).2.enter n ⟨k, .leading f⟩ (.loading f)) n k
          (.loading f) := moves_enter hat rfl
      by_cases hk : k = key
      · subst hk
        rw [loads_self]
        exact h.start hsound hat hstored ((hmoves _ _ _).mpr (.inl ⟨rfl, rfl, rfl⟩))
      · exact hquiet (h.move hat hmoves (fun hk' => absurd hk' hk) Store.has_get) (loads_of_ne hk)
  | @loaded n f k r hat =>
      have hmoves : Moves cache (cache.enter n ⟨k, .loading f⟩ (.landing f r)) n k (.landing f r) :=
        moves_enter hat rfl
      by_cases hk : k = key
      · subst hk
        obtain rfl := hended r rfl
        rw [loads_self]
        exact h.loaded hsound hat ((hmoves _ _ _).mpr (.inl ⟨rfl, rfl, rfl⟩))
      · exact hquiet (h.move hat hmoves (fun hk' => absurd hk' hk) Iff.rfl) (loads_of_ne hk)
  | @land n f k r hat =>
      by_cases hk : k = key
      · subst hk
        exact hquiet (h.land hsound hat) rfl
      · refine hquiet (h.move hat (moves_enter hat rfl) (fun hk' => absurd hk' hk)
          ⟨fun hhas => ?_, hretain⟩) rfl
        cases r with
        | error e => exact hhas
        | ok u =>
            obtain ⟨w, hw⟩ := Option.isSome_iff_exists.mp hhas
            rcases Store.find?_put hw with ⟨rfl, -⟩ | hw
            · exact absurd rfl hk
            · exact Option.isSome_iff_exists.mpr ⟨w, hw⟩
  | publish hat =>
      exact hquiet (h.move hat (moves_enter hat rfl) (fun _ => ⟨id, id⟩) Iff.rfl) rfl
  | leave hat =>
      exact hquiet (h.move hat (moves_enter hat rfl) (fun _ => ⟨id, id⟩) Iff.rfl) rfl

end Stage

/-! ## Runs -/

section Runs

variable {cache next : Cache κ ν} {e : CacheEvent κ ν} {note : Option (κ × LoadEvent ν)}
  {log : List (κ × LoadEvent ν)}

theorem Turn.cancelled {n : Nat} {k : κ} (h : Turn cache e note next) (hat : next.At n k .cancelled) :
    cache.At n k .cancelled ∨ note = some (k, .cancelled) := by
  rcases h.moves with hcalls | ⟨m, l, q, hmoves, hq⟩
  · exact .inl (by rwa [At, ← hcalls])
  · rcases (hmoves _ _ _).mp hat with ⟨-, rfl, rfl⟩ | ⟨-, hat⟩
    · exact .inr (hq.1 rfl)
    · exact .inl hat

/-- What is known of a run: the board and the calls agree, and results come from the loads that have
been noticed. -/
structure Recorded (log : List (κ × LoadEvent ν)) (cache : Cache κ ν) : Prop where
  sound : Sound cache
  honest : Honest 0 (fun k r => (k, .ended r) ∈ log) cache

theorem run_recorded [LawfulLru κ ν] {capacity : Option Nat} {events : List (CacheEvent κ ν)}
    (h : run events (empty capacity) = some cache) :
    Recorded ((empty capacity).log events) cache := by
  have hstart : Recorded [] (empty capacity : Cache κ ν) :=
    ⟨sound_empty capacity, honest_empty capacity⟩
  refine run_induction (P := Recorded) (fun {log cache _ note next} hP hturn _ => ?_) hstart
    (always_true events _) h
  obtain ⟨hsound, hhonest⟩ := hP
  refine ⟨hsound.turn hturn, ?_⟩
  refine hhonest.turn hsound hturn (fun k r hr => List.mem_append_left _ hr) fun k r hr => ?_
  simp [hr]

/-- What is known in the course of a run of the calls for a key that arrived after the first ones, if
none of them is cancelled and the first load for the key gives `v`. -/
structure Window (key : κ) (first : Nat) (v : ν) (log : List (κ × LoadEvent ν))
    (cache : Cache κ ν) : Prop where
  honest : Honest first (fun k r => k = key → (k, .ended r) ∈ log) cache
  cancelled {n : Nat} : cache.At n key .cancelled → n < first
  stage : Stage key v cache (loads key log)

/-- In a stage, a load that ends is the first one. -/
theorem Window.ended {key : κ} {first : Nat} {v : ν} {r : Except Error ν}
    (h : Window key first v log cache) (hsound : Sound cache)
    (hturn : Turn cache e (some (key, .ended r)) next) : endings (loads key log) = [] := by
  cases hturn with
  | @loaded n f k r hat =>
      rcases h.stage.of_leader hsound hat (f := f) rfl with ⟨hp, -⟩ | ⟨g, -, hevents⟩ | ⟨g, hg, -⟩ | ⟨hp, -⟩
      · exact absurd trivial hp
      · rw [hevents]
        rfl
      · cases hg
      · exact absurd trivial hp

/-- While no call for the key is on its way and nothing is stored for it, it has no results. -/
theorem window_start {key : κ} (v : ν) (hsound : Sound cache)
    (hdone : ∀ n p, cache.At n key p → p.Done) (hempty : ¬ cache.store.Has key) :
    Window key cache.calls.length v [] cache := by
  have hlate : ∀ {n p}, cache.At n key p → n < cache.calls.length :=
    fun hat => (List.getElem?_eq_some_iff.mp hat).1
  refine ⟨⟨?_, ?_, ?_, ?_, ?_⟩, fun hat => hlate hat, .before hempty fun n p hat => ?_⟩
  · rintro k v hv rfl
    exact absurd (Option.isSome_iff_exists.mpr ⟨v, hv⟩) hempty
  · rintro k f r hf hr rfl
    obtain ⟨-, owner, hboarded⟩ := hsound
    obtain ⟨n, hat⟩ := hboarded.closing hf hr
    exact (hdone n _ hat).elim
  · rintro n f k p r hat hf hr rfl
    have hp := hdone n p hat
    cases p <;> simp_all [Phase.Done, Phase.flight?]
  · rintro n k p r hat hr rfl
    have hp := hdone n p hat
    cases p <;> simp_all [Phase.Done, Phase.held?]
  · intro n k r hn hat
    have hin : n < cache.calls.length := (List.getElem?_eq_some_iff.mp hat).1
    omega
  · have hp := hdone n p hat
    cases p <;> simp_all [Phase.Done, Phase.Busy]

theorem run_window [LawfulLru κ ν] {key : κ} {first : Nat} {v : ν} {events : List (CacheEvent κ ν)}
    (hsound : Sound cache) (hstart : Window key first v [] cache) (hrun : run events cache = some next)
    (hretain : Always (fun c d => c.store.Has key → d.store.Has key) events cache)
    (hcancel : (key, .cancelled) ∉ cache.log events)
    (hended : (endings (loads key (cache.log events))).head? = some (.ok v)) :
    Sound next ∧ Window key first v (cache.log events) next := by
  -- Along the run, no load has ended yet, or the first one with `v`.
  let P (log : List (κ × LoadEvent ν)) (cache : Cache κ ν) : Prop :=
    Sound cache ∧ ((key, .cancelled) ∉ log →
      (∀ r, (endings (loads key log)).head? = some r → r = .ok v) → Window key first v log cache)
  have hP : P ([] ++ cache.log events) next := by
    refine run_induction (P := P) (fun {log cache _ note next} hP hturn hretain => ?_)
      ⟨hsound, fun _ _ => hstart⟩ hretain hrun
    obtain ⟨hsound, hwindow⟩ := hP
    refine ⟨hsound.turn hturn, fun hcancel hended => ?_⟩
    rw [List.mem_append, not_or] at hcancel
    rw [loads_append, endings_append] at hended
    have hbefore := hwindow hcancel.1 fun r hr => hended r (by simp [List.head?_append, hr])
    refine ⟨hbefore.honest.turn hsound hturn (fun k r hr hk => ?_) (fun k r hr _ => ?_),
      fun {n} hat => ?_, ?_⟩
    · exact List.mem_append_left _ (hr hk)
    · simp [hr]
    · rcases hturn.cancelled hat with hat | hnote
      · exact hbefore.cancelled hat
      · exact absurd (by simp [hnote]) hcancel.2
    · rw [loads_append]
      refine hbefore.stage.turn hsound hturn hretain (fun hnote => ?_) fun r hnote => ?_
      · exact hcancel.2 (by simp [hnote])
      · subst hnote
        refine hended r ?_
        rw [hbefore.ended hsound hturn, loads_self]
        rfl
  obtain ⟨hsound, hwindow⟩ := hP
  rw [List.nil_append] at hwindow
  exact ⟨hsound, hwindow hcancel fun r hr => Option.some.inj (hr.symm.trans hended)⟩

/-- Behind the first load, a call has its value, or some call for the key can go on. -/
theorem Window.finished {key : κ} {first n : Nat} {v : ν} {p : Phase ν}
    (h : Window key first v log cache) (hsound : Sound cache)
    (hloads : loads key log = [.began, .ended (.ok v)]) (hfirst : first ≤ n)
    (hat : cache.At n key p) :
    p = .finished (.ok v) ∨ ∃ m q, cache.At m key q ∧ (cache.step m).isSome := by
  have hnone : ∀ m f, ¬ cache.At m key (.loading f) := by
    intro m f hm
    rcases h.stage.of_leader hsound hm (f := f) rfl with ⟨hp, -⟩ | ⟨g, -, hevents⟩ | ⟨g, hg, -⟩ | ⟨hp, -⟩
    · exact hp trivial
    · simp [hevents] at hloads
    · cases hg
    · exact hp trivial
  by_cases hp : p.Done
  · cases p with
    | finished r =>
        obtain ⟨r', hr, rfl⟩ := h.honest.finished hfirst hat
        have hmem := mem_loads.mpr (hr rfl)
        simp [hloads] at hmem
        subst hmem
        exact .inl rfl
    | cancelled => exact absurd (h.cancelled hat) (by omega)
    | _ => exact hp.elim
  · obtain ⟨m, q, hm, ⟨f, rfl⟩ | hstep⟩ := hsound.awake hat hp
    · exact (hnone m f hm).elim
    · exact .inr ⟨m, q, hm, hstep⟩

/-- **Single flight.** After any history of a cache: at most one load per key is running; a value
that a call returns, or that is stored, is the result of a load for the same key that has ended.
And if from here on, while no call for a key is on its way and nothing is stored for it, no call for
the key is cancelled, what is stored for it stays, and the first load for it that ends gives `v`,
then this load is the only one, and every call for the key that has arrived since returns `v`: as
long as one has not, some call for the key can go on. -/
theorem single_flight [LawfulLru κ ν] {capacity : Option Nat} {history : List (CacheEvent κ ν)}
    (h : run history (empty capacity) = some cache) :
    (∀ n m k f g, cache.At n k (.loading f) → cache.At m k (.loading g) → n = m) ∧
    (∀ n k v, cache.At n k (.finished (.ok v)) →
      (k, .ended (.ok v)) ∈ (empty capacity).log history) ∧
    (∀ k v, cache.store.find? k = some v → (k, .ended (.ok v)) ∈ (empty capacity).log history) ∧
    ∀ key events next v, run events cache = some next →
      (∀ n p, cache.At n key p → p.Done) → ¬ cache.store.Has key →
      (key, .cancelled) ∉ cache.log events →
      Always (fun c d => c.store.Has key → d.store.Has key) events cache →
      (endings (loads key (cache.log events))).head? = some (.ok v) →
      loads key (cache.log events) = [.began, .ended (.ok v)] ∧
      ∀ n p, cache.calls.length ≤ n → next.At n key p →
        p = .finished (.ok v) ∨ ∃ m q, next.At m key q ∧ (next.step m).isSome := by
  obtain ⟨hsound, hhonest⟩ := run_recorded h
  refine ⟨fun n m k f g hn hm => hsound.leader_eq hn hm (f := f) (g := g) rfl rfl,
    fun n k v hat => ?_, fun k v => hhonest.stored, ?_⟩
  · obtain ⟨r, hr, heq⟩ := hhonest.finished (Nat.zero_le n) hat
    cases r with
    | error e => cases heq
    | ok w =>
        cases heq
        exact hr
  · intro key events next v hrun hdone hempty hcancel hretain hended
    have hstart := window_start v hsound hdone hempty
    obtain ⟨hsound, hwindow⟩ := run_window hsound hstart hrun hretain hcancel hended
    have hloads : loads key (cache.log events) = [.began, .ended (.ok v)] := by
      have hstage := hwindow.stage
      generalize loads key (cache.log events) = noticed at hstage hended
      cases hstage with
      | before => simp [endings] at hended
      | loading => simp [endings] at hended
      | landing => rfl
      | stored => rfl
    exact ⟨hloads, fun n p hn hat => hwindow.finished hsound hloads hn hat⟩

/-- A leader that was cancelled leaves its flight to the calls that come after it: they share one
load. -/
theorem single_flight_after_cancel :
    let history : List (CacheEvent Nat Nat) :=
      [.request 5, .step 0, .step 0, .step 0, .step 0, .cancel 0]
    let events : List (CacheEvent Nat Nat) := [.request 5, .request 5, .step 1, .step 2, .step 1,
      .step 2, .step 2, .step 2, .loaded 2 (.ok 7), .step 2, .step 2, .step 1, .step 2, .step 1]
    ∃ cache next, run history (empty none) = some cache ∧ run events cache = some next ∧
      loads 5 (cache.log events) = [.began, .ended (.ok 7)] ∧
      ∀ n p, 1 ≤ n → next.At n 5 p → p = .finished (.ok 7) := by
  intro history events
  have hhistory : run history (empty none) = some
      ⟨.unbounded [], [(5, 0)], [⟨false, none⟩], [⟨5, .cancelled⟩]⟩ := by
    rfl
  obtain ⟨-, -, -, hflight⟩ := single_flight hhistory
  have hrun : run events ⟨.unbounded [], [(5, 0)], [⟨false, none⟩], [⟨5, .cancelled⟩]⟩ = some
      ⟨.unbounded [(5, 7)], [], [⟨false, some (.ok 7)⟩],
        [⟨5, .cancelled⟩, ⟨5, .finished (.ok 7)⟩, ⟨5, .finished (.ok 7)⟩]⟩ := by
    rfl
  have hlog : Cache.log events ⟨.unbounded [], [(5, 0)], [⟨false, none⟩], [⟨5, .cancelled⟩]⟩
      = [(5, .began), (5, .ended (.ok 7))] := by
    rfl
  have hdone : ∀ n p, (⟨.unbounded [], [(5, 0)], [⟨false, none⟩], [⟨5, .cancelled⟩]⟩ :
      Cache Nat Nat).At n 5 p → p.Done := by
    intro n p hat
    have hcall := List.mem_of_getElem? hat
    simp only [List.mem_singleton, CacheCall.mk.injEq, true_and] at hcall
    exact hcall ▸ trivial
  obtain ⟨hloads, hfinished⟩ := hflight 5 events _ 7 hrun hdone (by simp [Store.Has, Store.find?])
    (by simp [hlog]) (always_retains (by simp [events]) rfl) (by rw [hlog]; rfl)
  refine ⟨_, _, hhistory, hrun, hloads, fun n p hn hat => ?_⟩
  rcases hfinished n p hn hat with hp | ⟨m, q, hm, hstep⟩
  · exact hp
  · rcases m with _ | _ | _ | m <;> simp [step] at hstep

end Runs

end Cache

end SqlTemplate
