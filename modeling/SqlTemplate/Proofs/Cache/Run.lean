import Mathlib
import SqlTemplate.Cache.Flight
import SqlTemplate.Proofs.Cache.Stores

/-!
# Runs of a cache

What happens to a cache, one event after the other, in any order: calls arrive, take their steps,
get the results of their loads or are cancelled, and others look into the store or clear it. `Turn`
says once what a single event can do (`Cache.apply_turn`); what holds of every run follows from it
by one induction (`Cache.run_induction`).
-/

set_option autoImplicit false

namespace SqlTemplate

/-! ## Events -/

/-- What can happen to a cache: a call arrives, takes its next step, gets the result of its load, or
is cancelled; somebody looks into the store, or clears it. -/
inductive CacheEvent (κ ν : Type)
  | request (key : κ)
  | step (number : Nat)
  | loaded (number : Nat) (result : Except Error ν)
  | cancel (number : Nat)
  | lookUp (key : κ)
  | clear

/-- What is noticed of a call for a key: its load begins or ends, or it is cancelled. -/
inductive LoadEvent (ν : Type)
  | began
  | ended (result : Except Error ν)
  | cancelled

namespace Cache

variable {κ ν : Type} [Lru κ ν] [DecidableEq κ]

/-- The cache after an event, if the event can happen. -/
def apply (cache : Cache κ ν) : CacheEvent κ ν → Option (Cache κ ν)
  | .request key => some (cache.request key)
  | .step number => cache.step number
  | .loaded number result => cache.loaded number result
  | .cancel number => cache.cancel number
  | .lookUp key => some (cache.lookUp key).2
  | .clear => some cache.clear

/-- What is noticed at an event, and of which key. -/
def notice (cache : Cache κ ν) : CacheEvent κ ν → Option (κ × LoadEvent ν)
  | .step number =>
    match cache.calls[number]? with
    | some ⟨key, .leading _⟩ =>
      match cache.store.find? key with
      | some _ => none
      | none => some (key, .began)
    | _ => none
  | .loaded number result =>
    match cache.calls[number]? with
    | some ⟨key, .loading _⟩ => some (key, .ended result)
    | _ => none
  | .cancel number => cache.calls[number]?.map fun call => (call.key, .cancelled)
  | .request _ | .lookUp _ | .clear => none

/-- The cache after events, one after the other. -/
def run : List (CacheEvent κ ν) → Cache κ ν → Option (Cache κ ν)
  | [], cache => some cache
  | e :: rest, cache => (cache.apply e).bind (run rest)

/-- What is noticed in the course of events. -/
def log : List (CacheEvent κ ν) → Cache κ ν → List (κ × LoadEvent ν)
  | [], _ => []
  | e :: rest, cache =>
    (cache.notice e).toList ++
      match cache.apply e with
      | some cache => log rest cache
      | none => []

/-- Whether a relation holds between the caches before and after each of the events. -/
def Always (Q : Cache κ ν → Cache κ ν → Prop) : List (CacheEvent κ ν) → Cache κ ν → Prop
  | [], _ => True
  | e :: rest, cache => ∀ next, cache.apply e = some next → Q cache next ∧ Always Q rest next

/-! ## Turns -/

/-- Whether a call has a key and has come to a phase. -/
def At (cache : Cache κ ν) (number : Nat) (key : κ) (phase : Phase ν) : Prop :=
  cache.calls[number]? = some ⟨key, phase⟩

/-- What a single event can do to a cache, and what is noticed of it. -/
inductive Turn (cache : Cache κ ν) :
    CacheEvent κ ν → Option (κ × LoadEvent ν) → Cache κ ν → Prop
  | request (key : κ) : Turn cache (.request key) none (cache.request key)
  | look (key : κ) : Turn cache (.lookUp key) none (cache.lookUp key).2
  | clear : Turn cache .clear none cache.clear
  | quit {n : Nat} {k : κ} {p : Phase ν} (h : cache.At n k p)
      (hp : p = .arriving ∨ ∃ f, p = .aboard f) :
      Turn cache (.cancel n) (some (k, .cancelled)) (cache.enter n ⟨k, p⟩ .cancelled)
  | abandon {n f : Nat} {k : κ} (h : cache.At n k (.loading f)) :
      Turn cache (.cancel n) (some (k, .cancelled))
        ({ cache with flights := cache.flights.set f ⟨false, none⟩ }.enter n ⟨k, .loading f⟩
          .cancelled)
  | hit {n : Nat} {k : κ} {v : ν} (h : cache.At n k .arriving)
      (hstored : cache.store.find? k = some v) :
      Turn cache (.step n) none ((cache.lookUp k).2.enter n ⟨k, .arriving⟩ (.finished (.ok v)))
  | miss {n : Nat} {k : κ} (h : cache.At n k .arriving) :
      Turn cache (.step n) none ((cache.lookUp k).2.enter n ⟨k, .arriving⟩ .boarding)
  | join {n f : Nat} {k : κ} (h : cache.At n k .boarding)
      (hlisted : cache.board.lookup k = some f) :
      Turn cache (.step n) none (cache.enter n ⟨k, .boarding⟩ (.aboard f))
  | found {n : Nat} {k : κ} (h : cache.At n k .boarding) (hlisted : cache.board.lookup k = none) :
      Turn cache (.step n) none ({ cache with
        board := (k, cache.flights.length) :: cache.board
        flights := cache.flights ++ [(⟨false, none⟩ : Flight ν)] }.enter n ⟨k, .boarding⟩
          (.aboard cache.flights.length))
  | receive {n f : Nat} {k : κ} {led : Bool} {r : Except Error ν} (h : cache.At n k (.aboard f))
      (hresult : cache.flights[f]? = some ⟨led, some r⟩) :
      Turn cache (.step n) none (cache.enter n ⟨k, .aboard f⟩ (.leaving f r))
  | lead {n f : Nat} {k : κ} (h : cache.At n k (.aboard f))
      (hfree : cache.flights[f]? = some ⟨false, none⟩) :
      Turn cache (.step n) none ({ cache with flights := cache.flights.set f ⟨true, none⟩ }.enter n
        ⟨k, .aboard f⟩ (.leading f))
  | recheck {n f : Nat} {k : κ} {v : ν} (h : cache.At n k (.leading f))
      (hstored : cache.store.find? k = some v) :
      Turn cache (.step n) none ((cache.lookUp k).2.enter n ⟨k, .leading f⟩ (.publishing f (.ok v)))
  | start {n f : Nat} {k : κ} (h : cache.At n k (.leading f))
      (hstored : cache.store.find? k = none) :
      Turn cache (.step n) (some (k, .began))
        ((cache.lookUp k).2.enter n ⟨k, .leading f⟩ (.loading f))
  | loaded {n f : Nat} {k : κ} {r : Except Error ν} (h : cache.At n k (.loading f)) :
      Turn cache (.loaded n r) (some (k, .ended r)) (cache.enter n ⟨k, .loading f⟩ (.landing f r))
  | land {n f : Nat} {k : κ} {r : Except Error ν} (h : cache.At n k (.landing f r)) :
      Turn cache (.step n) none (cache.land n ⟨k, .landing f r⟩ f r)
  | publish {n f : Nat} {k : κ} {r : Except Error ν} (h : cache.At n k (.publishing f r)) :
      Turn cache (.step n) none (cache.publish n ⟨k, .publishing f r⟩ f r)
  | leave {n f : Nat} {k : κ} {r : Except Error ν} (h : cache.At n k (.leaving f r)) :
      Turn cache (.step n) none (cache.leave n ⟨k, .leaving f r⟩ f r)

section Turns

variable {cache next : Cache κ ν}

theorem turn_embark {n : Nat} {k : κ} (h : cache.At n k .boarding) :
    Turn cache (.step n) none (cache.embark n ⟨k, .boarding⟩) := by
  rw [embark]
  split
  · rename_i f hlisted
    exact .join h hlisted
  · rename_i hlisted
    exact .found h hlisted

theorem turn_sit {n f : Nat} {k : κ} (h : cache.At n k (.aboard f))
    (hsit : cache.sit n ⟨k, .aboard f⟩ f = some next) :
    Turn cache (.step n) none next := by
  rw [sit] at hsit
  split at hsit
  · rename_i hresult
    exact Option.some.inj hsit ▸ .receive h hresult
  · rename_i hfree
    exact Option.some.inj hsit ▸ .lead h hfree
  · cases hsit

variable [LawfulLru κ ν]

theorem lookUp_eq (cache : Cache κ ν) (key : κ) : cache.lookUp key
    = (cache.store.find? key, { cache with store := (cache.store.get key).2 }) := by
  rw [lookUp, ← Store.get_fst]

theorem turn_arrive {n : Nat} {k : κ} (h : cache.At n k .arriving) :
    Turn cache (.step n) none (cache.arrive n ⟨k, .arriving⟩) := by
  rw [arrive, lookUp_eq]
  cases hstored : cache.store.find? k with
  | some v => exact .hit h hstored
  | none => exact .miss h

theorem turn_lead {n f : Nat} {k : κ} (h : cache.At n k (.leading f)) :
    Turn cache (.step n) (cache.notice (.step n)) (cache.lead n ⟨k, .leading f⟩ f) := by
  have hcall : cache.calls[n]? = some ⟨k, .leading f⟩ := h
  rw [notice, hcall, lead, lookUp_eq]
  dsimp only
  cases hstored : cache.store.find? k with
  | some v => exact .recheck h hstored
  | none => exact .start h hstored

theorem turn_step {n : Nat} (h : cache.step n = some next) :
    Turn cache (.step n) (cache.notice (.step n)) next := by
  rw [step] at h
  split at h
  · cases h
  rename_i call hcall
  obtain ⟨k, phase⟩ := call
  have hat : cache.At n k phase := hcall
  cases phase with
  | leading f => exact Option.some.inj h ▸ turn_lead hat
  | arriving =>
      rw [notice, hcall]
      exact Option.some.inj h ▸ turn_arrive hat
  | boarding =>
      rw [notice, hcall]
      exact Option.some.inj h ▸ turn_embark hat
  | aboard f =>
      rw [notice, hcall]
      exact turn_sit hat h
  | landing f r =>
      rw [notice, hcall]
      exact Option.some.inj h ▸ .land hat
  | publishing f r =>
      rw [notice, hcall]
      exact Option.some.inj h ▸ .publish hat
  | leaving f r =>
      rw [notice, hcall]
      exact Option.some.inj h ▸ .leave hat
  | loading f => cases h
  | finished r => cases h
  | cancelled => cases h

/-- **One event is one turn.** -/
theorem apply_turn {e : CacheEvent κ ν} (h : cache.apply e = some next) :
    Turn cache e (cache.notice e) next := by
  cases e with
  | request key => exact Option.some.inj h ▸ .request key
  | lookUp key => exact Option.some.inj h ▸ .look key
  | clear => exact Option.some.inj h ▸ .clear
  | step n => exact turn_step h
  | loaded n r =>
      rw [apply, loaded] at h
      split at h
      · rename_i k f hcall
        rw [notice, hcall]
        exact Option.some.inj h ▸ .loaded hcall
      · cases h
  | cancel n =>
      rw [apply, cancel] at h
      split at h
      · rename_i k hcall
        rw [notice, hcall]
        exact Option.some.inj h ▸ .quit hcall (.inl rfl)
      · rename_i k f hcall
        rw [notice, hcall]
        exact Option.some.inj h ▸ .quit hcall (.inr ⟨f, rfl⟩)
      · rename_i k f hcall
        rw [notice, hcall]
        exact Option.some.inj h ▸ .abandon hcall
      · cases h

/-- A cache without a capacity forgets nothing unless it is cleared. -/
theorem Turn.retains {e : CacheEvent κ ν} {note : Option (κ × LoadEvent ν)} {key : κ}
    (h : Turn cache e note next) (he : e ≠ .clear) (hcapacity : cache.store.capacity = none)
    (hstored : cache.store.Has key) : next.store.Has key := by
  cases h with
  | clear => exact absurd rfl he
  | look | hit | miss | recheck | start => exact Store.has_get.mpr hstored
  | @land n f k r hat =>
      cases r with
      | error e => exact hstored
      | ok v => exact Store.has_put hcapacity hstored
  | _ => exact hstored

theorem Turn.capacity {e : CacheEvent κ ν} {note : Option (κ × LoadEvent ν)}
    (h : Turn cache e note next) : next.store.capacity = cache.store.capacity := by
  cases h with
  | @land n f k r hat =>
      cases r with
      | error e => rfl
      | ok v => exact Store.capacity_put
  | look | hit | miss | recheck | start => exact Store.capacity_get
  | clear => exact Store.capacity_clear
  | _ => rfl

end Turns

/-! ## Runs -/

section Runs

variable {cache next : Cache κ ν} {Q : Cache κ ν → Cache κ ν → Prop}
  {P : List (κ × LoadEvent ν) → Cache κ ν → Prop}

theorem run_append (events events' : List (CacheEvent κ ν)) (cache : Cache κ ν) :
    run (events ++ events') cache = (run events cache).bind (run events') := by
  induction events generalizing cache with
  | nil => rfl
  | cons e rest ih =>
      rw [List.cons_append, run, run, Option.bind_assoc]
      exact congrArg _ (funext ih)

theorem log_append {events : List (CacheEvent κ ν)} (hrun : run events cache = some next)
    (events' : List (CacheEvent κ ν)) :
    cache.log (events ++ events') = cache.log events ++ next.log events' := by
  induction events generalizing cache with
  | nil =>
      obtain rfl := Option.some.inj hrun
      rfl
  | cons e rest ih =>
      obtain ⟨mid, happly, hrest⟩ := Option.bind_eq_some_iff.mp hrun
      simp only [List.cons_append, Cache.log, happly, ih hrest, List.append_assoc]

theorem always_true (events : List (CacheEvent κ ν)) (cache : Cache κ ν) :
    Always (fun _ _ => True) events cache := by
  induction events generalizing cache with
  | nil => trivial
  | cons e rest ih => exact fun next _ => ⟨trivial, ih next⟩

theorem advance_run (number count : Nat) (cache : Cache κ ν) :
    ∃ events, run events cache = some (advance number count cache) := by
  induction count generalizing cache with
  | zero => exact ⟨[], rfl⟩
  | succ count ih =>
      rw [advance]
      cases hstep : cache.step number with
      | none => exact ⟨[], rfl⟩
      | some mid =>
          obtain ⟨events, hrun⟩ := ih mid
          exact ⟨.step number :: events, by rw [run, apply, hstep]; exact hrun⟩

/-- A call that arrives and goes on until it has to wait is a run. -/
theorem begin_run (cache : Cache κ ν) (key : κ) :
    ∃ events, run events cache = some (cache.begin key).2 := by
  obtain ⟨events, hrun⟩ := advance_run cache.calls.length longest (cache.request key)
  exact ⟨.request key :: events, hrun⟩

/-- A call that goes on with the result of its load is a run. -/
theorem resume_run (cache : Cache κ ν) (number : Nat) (result : Except Error ν) :
    ∃ events, run events cache = some (cache.resume number result) := by
  rw [resume]
  cases hloaded : cache.loaded number result with
  | none => exact advance_run number longest cache
  | some mid =>
      obtain ⟨events, hrun⟩ := advance_run number longest mid
      exact ⟨.loaded number result :: events, by rw [run, apply, hloaded]; exact hrun⟩

variable [LawfulLru κ ν]

/-- **What every turn keeps, a run keeps.** The property may be about what was noticed up to now. -/
theorem run_induction
    (hturn : ∀ {log cache e note next}, P log cache → Turn cache e note next → Q cache next →
      P (log ++ note.toList) next)
    {events : List (CacheEvent κ ν)} {log : List (κ × LoadEvent ν)} (hstart : P log cache)
    (halways : Always Q events cache) (hrun : run events cache = some next) :
    P (log ++ cache.log events) next := by
  induction events generalizing cache log with
  | nil =>
      obtain rfl := Option.some.inj hrun
      simpa [Cache.log] using hstart
  | cons e rest ih =>
      obtain ⟨mid, happly, hrest⟩ := Option.bind_eq_some_iff.mp hrun
      obtain ⟨hQ, halways⟩ := halways mid happly
      have hmid := ih (hturn hstart (apply_turn happly) hQ) halways hrest
      simpa [Cache.log, happly, List.append_assoc] using hmid

/-- The same for a property that is about the events up to now. -/
theorem run_prefix_induction {P : List (CacheEvent κ ν) → Cache κ ν → Prop} (hstart : P [] cache)
    (hturn : ∀ {front mid e next}, run front cache = some mid → P front mid →
      Turn mid e (mid.notice e) next → P (front ++ [e]) next)
    {events : List (CacheEvent κ ν)} (hrun : run events cache = some next) : P events next := by
  induction events using List.reverseRecOn generalizing next with
  | nil =>
      obtain rfl := Option.some.inj hrun
      exact hstart
  | append_singleton front e ih =>
      rw [run_append] at hrun
      obtain ⟨mid, hfront, hlast⟩ := Option.bind_eq_some_iff.mp hrun
      obtain ⟨last, happly, hend⟩ := Option.bind_eq_some_iff.mp hlast
      obtain rfl := Option.some.inj hend
      exact hturn hfront (ih hfront) (apply_turn happly)

theorem always_retains {key : κ} {events : List (CacheEvent κ ν)} (hclear : .clear ∉ events)
    (hcapacity : cache.store.capacity = none) :
    Always (fun c d => c.store.Has key → d.store.Has key) events cache := by
  induction events generalizing cache with
  | nil => trivial
  | cons e rest ih =>
      rw [List.mem_cons, not_or] at hclear
      intro next happly
      have hturn := apply_turn happly
      exact ⟨hturn.retains (Ne.symm hclear.1) hcapacity, ih hclear.2 (hturn.capacity.trans hcapacity)⟩

end Runs

end Cache

end SqlTemplate
