import Mathlib
import SqlTemplate.Proofs.Cache.Results

/-!
# Invalidation

Clearing a cache forgets what is stored, but neither the flights that are listed nor the loads that
run. What a call returns that arrives after that, or what is stored from then on, is the result of a
load that began and ended after the cache was cleared, unless it was under way for its key when that
happened (`Cache.clear_invalidates`). What was under way does get through
(`Cache.clear_overtaken`).
-/

set_option autoImplicit false

namespace SqlTemplate

namespace Cache

variable {κ ν : Type} [Lru κ ν] [DecidableEq κ]

/-! ## Loads in the course of events -/

/-- Whether one of the events is noticed, of a key. -/
def Noticed (start : Cache κ ν) (events : List (CacheEvent κ ν)) (e : CacheEvent κ ν) (k : κ)
    (l : LoadEvent ν) : Prop :=
  ∃ front mid, front ++ [e] <+: events ∧ run front start = some mid ∧ mid.notice e = some (k, l)

/-- Whether a load for a key has begun and ended in the course of events, with a result. -/
def LoadedIn (start : Cache κ ν) (events : List (CacheEvent κ ν)) (k : κ) (r : Except Error ν) :
    Prop :=
  ∃ n, start.Noticed events (.step n) k .began ∧ start.Noticed events (.loaded n r) k (.ended r)

/-- Whether a result is under way for a key when the events begin: its flight is listed, and the
result is that of the flight, or its leader holds it, or it is that of the load that its leader
runs. -/
def UnderWay (start : Cache κ ν) (events : List (CacheEvent κ ν)) (k : κ) (r : Except Error ν) :
    Prop :=
  ∃ f, start.board.lookup k = some f ∧ (start.resultOf f = some r ∨
    ∃ n p, start.At n k p ∧ p.Leads f ∧ (p.held? = some r ∨
      (p = .loading f ∧ start.Noticed events (.loaded n r) k (.ended r))))

/-- What is known of a cache when events have happened: results come from loads since they began, or
were under way then, and so do the loads that run. -/
structure Since (start : Cache κ ν) (events : List (CacheEvent κ ν)) (cache : Cache κ ν) : Prop where
  sound : Sound cache
  offers : Offers (fun n => start.calls.length ≤ n) (fun n => start.calls.length ≤ n)
    (fun k r => start.LoadedIn events k r ∨ start.UnderWay events k r) cache
  loading {n f : Nat} {k : κ} : cache.At n k (.loading f) →
    start.Noticed events (.step n) k .began ∨ start.At n k (.loading f)

section Since

variable {start cache next : Cache κ ν} {front events : List (CacheEvent κ ν)} {e : CacheEvent κ ν}
  {n f : Nat} {k : κ} {l : LoadEvent ν} {p : Phase ν} {r : Except Error ν}

theorem Noticed.mono (h : start.Noticed front e k l) (hfront : front <+: events) :
    start.Noticed events e k l := by
  obtain ⟨first, mid, hfirst, hrun, hnotice⟩ := h
  exact ⟨first, mid, hfirst.trans hfront, hrun, hnotice⟩

theorem Noticed.mem_log (h : start.Noticed events e k l) : (k, l) ∈ start.log events := by
  obtain ⟨front, mid, ⟨rest, rfl⟩, hrun, hnotice⟩ := h
  rw [List.append_assoc, log_append hrun, List.singleton_append, Cache.log, hnotice]
  simp

/-- What is noticed of the event that comes next. -/
theorem noticed_last (hrun : run front start = some cache) (hnotice : cache.notice e = some (k, l)) :
    start.Noticed (front ++ [e]) e k l :=
  ⟨front, cache, List.prefix_rfl, hrun, hnotice⟩

theorem LoadedIn.mono (h : start.LoadedIn front k r) (hfront : front <+: events) :
    start.LoadedIn events k r := by
  obtain ⟨n, hbegan, hended⟩ := h
  exact ⟨n, hbegan.mono hfront, hended.mono hfront⟩

theorem UnderWay.mono (h : start.UnderWay front k r) (hfront : front <+: events) :
    start.UnderWay events k r := by
  obtain ⟨f, hlisted, hresult | ⟨n, p, hat, hp, hheld | ⟨hloading, hended⟩⟩⟩ := h
  · exact ⟨f, hlisted, .inl hresult⟩
  · exact ⟨f, hlisted, .inr ⟨n, p, hat, hp, .inl hheld⟩⟩
  · exact ⟨f, hlisted, .inr ⟨n, p, hat, hp, .inr ⟨hloading, hended.mono hfront⟩⟩⟩

/-- The flight that a call leads is listed for its key. -/
theorem Sound.listed_of_leads (h : Sound cache) (hat : cache.At n k p) (hp : p.Leads f) :
    cache.board.lookup k = some f := by
  obtain ⟨hled, owner, hboarded⟩ := h
  have hopen : cache.resultOf f = none := hled.no_result (n := n) (hat.leads_iff.mpr hp)
  exact (hboarded.aboard hat hp.flight).2.2 hopen

/-- Before anything happens to a cache whose store is empty, results are under way only. -/
theorem since_start (hsound : Sound start) (hempty : ∀ k, start.store.find? k = none) :
    Since start [] start := by
  have hlate : ∀ {n k p}, start.calls.length ≤ n → ¬ start.At n k p := by
    intro n k p hn hat
    have hin : n < start.calls.length := (List.getElem?_eq_some_iff.mp hat).1
    omega
  refine ⟨hsound, ⟨?_, ?_, ?_, ?_, ?_, ?_⟩, fun hat => .inr hat⟩
  · intro k v hv
    simp [hempty] at hv
  · intro k f r hlisted hr
    exact .inr ⟨f, hlisted, .inl hr⟩
  · intro n f k p r hat hp hr
    exact .inr ⟨f, hsound.listed_of_leads hat hp, .inr ⟨n, p, hat, hp, .inl hr⟩⟩
  · intro n f k p r hn hat
    exact absurd hat (hlate hn)
  · intro n k p r hn hat
    exact absurd hat (hlate hn)
  · intro n k r hn hat
    exact absurd hat (hlate hn)

/-- The result of a load that ends comes from a load since the events began, or was under way. -/
theorem Since.ended (h : Since start front cache) (hstart : Sound start)
    (hrun : run front start = some cache) (hturn : Turn cache e (some (k, .ended r)) next)
    (hnotice : cache.notice e = some (k, .ended r)) :
    start.LoadedIn (front ++ [e]) k r ∨ start.UnderWay (front ++ [e]) k r := by
  cases hturn with
  | @loaded n f k r hat =>
      have hended : start.Noticed (front ++ [.loaded n r]) (.loaded n r) k (.ended r) :=
        noticed_last hrun hnotice
      rcases h.loading hat with hbegan | hbefore
      · exact .inl ⟨n, hbegan.mono (List.prefix_append _ _), hended⟩
      · have hlisted : start.board.lookup k = some f := hstart.listed_of_leads hbefore rfl
        exact .inr ⟨f, hlisted, .inr ⟨n, _, hbefore, rfl, .inr ⟨rfl, hended⟩⟩⟩

theorem Since.turn [LawfulLru κ ν] (h : Since start front cache) (hstart : Sound start)
    (hrun : run front start = some cache) (hturn : Turn cache e (cache.notice e) next) :
    Since start (front ++ [e]) next := by
  have hfront : front <+: front ++ [e] := List.prefix_append _ _
  refine ⟨h.sound.turn hturn, ?_, ?_⟩
  · refine h.offers.turn (fun _ hn => hn) h.sound hturn (fun k r hr => ?_) fun k r hnote => ?_
    · exact hr.imp (fun hloaded => hloaded.mono hfront) fun hway => hway.mono hfront
    · exact h.ended hstart hrun (hnote ▸ hturn) hnote
  · intro n f k hat
    have hold : cache.At n k (.loading f) →
        start.Noticed (front ++ [e]) (.step n) k .began ∨ start.At n k (.loading f) :=
      fun hat => (h.loading hat).imp_left fun hbegan => hbegan.mono hfront
    rcases hturn.moves with hcalls | ⟨m, l, q, hmoves, -, hbegins⟩
    · exact hold (by rwa [At, ← hcalls])
    · rcases (hmoves _ _ _).mp hat with ⟨rfl, rfl, rfl⟩ | ⟨-, hat⟩
      · obtain ⟨rfl, hnote⟩ := hbegins f rfl
        exact .inl (noticed_last hrun hnote)
      · exact hold hat

theorem run_since [LawfulLru κ ν] (hsound : Sound start)
    (hempty : ∀ k, start.store.find? k = none) (hrun : run events start = some cache) :
    Since start events cache :=
  run_prefix_induction (P := Since start) (since_start hsound hempty)
    (fun hfront h hturn => h.turn hsound hfront hturn) hrun

end Since

/-! ## After a clear -/

theorem run_sound [LawfulLru κ ν] {capacity : Option Nat} {events : List (CacheEvent κ ν)}
    {cache : Cache κ ν} (h : run events (empty capacity) = some cache) : Sound cache :=
  run_prefix_induction (P := fun _ => Sound) (sound_empty capacity)
    (fun _ hsound hturn => hsound.turn hturn) h

/-- **Invalidation.** Whatever has happened to a cache up to when it is cleared, and whatever happens
then: a value that a call returns that has arrived since, or that is looked up, is the result of a
load for its key that began and ended since, unless it was under way for that key when the cache was
cleared. -/
theorem clear_invalidates [LawfulLru κ ν] {capacity : Option Nat}
    {history events : List (CacheEvent κ ν)} {cache next : Cache κ ν}
    (h : run (history ++ [.clear]) (empty capacity) = some cache)
    (hrun : run events cache = some next) :
    (∀ n k v, cache.calls.length ≤ n → next.At n k (.finished (.ok v)) →
      cache.LoadedIn events k (.ok v) ∨ cache.UnderWay events k (.ok v)) ∧
    ∀ k v, (next.lookUp k).1 = some v →
      cache.LoadedIn events k (.ok v) ∨ cache.UnderWay events k (.ok v) := by
  have hempty : ∀ k, cache.store.find? k = none := by
    rw [run_append] at h
    obtain ⟨before, -, hclear⟩ := Option.bind_eq_some_iff.mp h
    obtain rfl : before.clear = cache := Option.some.inj hclear
    exact Store.find?_clear before.store
  have hsince : Since cache events next := run_since (run_sound h) hempty hrun
  constructor
  · intro n k v hn hat
    obtain ⟨r, hr, heq⟩ := hsince.offers.finished hn hat
    cases r with
    | error e => cases heq
    | ok w =>
        obtain rfl : v = w := Except.ok.inj heq
        exact hr
  · intro k v hv
    rw [lookUp_eq] at hv
    exact hsince.offers.stored hv

/-- Whoever comes after a clear loads again what is stored, when nothing is under way. -/
theorem clear_invalidates_stored :
    let history : List (CacheEvent Nat Nat) := [.request 5, .step 0, .step 0, .step 0, .step 0,
      .loaded 0 (.ok 7), .step 0, .step 0, .step 0]
    let events : List (CacheEvent Nat Nat) := [.request 5, .step 1, .step 1, .step 1, .step 1,
      .loaded 1 (.ok 8), .step 1, .step 1, .step 1]
    ∃ cache next, run (history ++ [.clear]) (empty none) = some cache ∧ run events cache = some next ∧
      cache.calls.length ≤ 1 ∧ next.At 1 5 (.finished (.ok 8)) ∧ cache.LoadedIn events 5 (.ok 8) := by
  intro history events
  have hhistory : run (history ++ [.clear]) (empty none) = some
      ⟨.unbounded [], [], [⟨false, some (.ok 7)⟩], [⟨5, .finished (.ok 7)⟩]⟩ := by
    rfl
  have hevents : run events ⟨.unbounded [], [], [⟨false, some (.ok 7)⟩], [⟨5, .finished (.ok 7)⟩]⟩ = some
      ⟨.unbounded [(5, 8)], [], [⟨false, some (.ok 7)⟩, ⟨false, some (.ok 8)⟩],
        [⟨5, .finished (.ok 7)⟩, ⟨5, .finished (.ok 8)⟩]⟩ := by
    rfl
  refine ⟨_, _, hhistory, hevents, le_rfl, rfl, ?_⟩
  rcases (clear_invalidates hhistory hevents).1 1 5 8 le_rfl rfl with hloaded | ⟨f, hlisted, -⟩
  · exact hloaded
  · cases hlisted

/-- A load that runs when the cache is cleared stores its value after that, and a call that arrives
then returns it. -/
theorem clear_overtaken :
    let history : List (CacheEvent Nat Nat) := [.request 5, .step 0, .step 0, .step 0, .step 0]
    let events : List (CacheEvent Nat Nat) := [.loaded 0 (.ok 7), .step 0, .request 5, .step 1]
    ∃ cache next, run (history ++ [.clear]) (empty none) = some cache ∧ run events cache = some next ∧
      cache.calls.length ≤ 1 ∧ next.At 1 5 (.finished (.ok 7)) ∧
      (empty none).log history = [(5, .began)] ∧ cache.log events = [(5, .ended (.ok 7))] ∧
      ¬ cache.LoadedIn events 5 (.ok 7) := by
  intro history events
  have hhistory : run (history ++ [.clear]) (empty none) = some
      ⟨.unbounded [], [(5, 0)], [⟨true, none⟩], [⟨5, .loading 0⟩]⟩ := by
    rfl
  have hevents : run events ⟨.unbounded [], [(5, 0)], [⟨true, none⟩], [⟨5, .loading 0⟩]⟩ = some
      ⟨.unbounded [(5, 7)], [(5, 0)], [⟨true, none⟩],
        [⟨5, .publishing 0 (.ok 7)⟩, ⟨5, .finished (.ok 7)⟩]⟩ := by
    rfl
  have hlog : Cache.log events ⟨.unbounded [], [(5, 0)], [⟨true, none⟩], [⟨5, .loading 0⟩]⟩
      = [(5, .ended (.ok 7))] := by
    rfl
  refine ⟨_, _, hhistory, hevents, le_rfl, rfl, rfl, hlog, ?_⟩
  rintro ⟨n, hbegan, -⟩
  have hmem := hbegan.mem_log
  rw [hlog] at hmem
  simp at hmem

end Cache

end SqlTemplate
