import Mathlib
import SqlTemplate.Proofs.Cache.Invalidation

/-!
# Abandoned flights

A call that returns, with a value or an error, takes its flight off the board. A call that is
cancelled does not. So when no call is under way any more, the flights that are still listed are
those whose last call was cancelled (`Cache.listed_abandoned`): each stays on the board until
somebody asks for its key again.
-/

set_option autoImplicit false

namespace SqlTemplate

variable {κ ν : Type}

theorem Phase.Done.flight?_eq_none {p : Phase ν} (h : p.Done) : p.flight? = none := by
  cases p with
  | finished r => rfl
  | cancelled => rfl
  | _ => exact h.elim

namespace Cache

variable [Lru κ ν]

/-! ## Flights with somebody aboard -/

/-- Whether a call is aboard of a flight. -/
def Manned (cache : Cache κ ν) (f : Nat) : Prop := ∃ n k p, cache.At n k p ∧ p.flight? = some f

/-- Whether a call for a key is aboard of a flight, and nobody else is. -/
def Alone (cache : Cache κ ν) (n : Nat) (k : κ) (f : Nat) : Prop :=
  (∃ p, cache.At n k p ∧ p.flight? = some f) ∧
    ∀ m l q, cache.At m l q → q.flight? = some f → m = n

/-- Whether all calls have come to their end. -/
def AllDone (cache : Cache κ ν) : Prop := ∀ call ∈ cache.calls, call.phase.Done

/-- When all calls have come to their end, nobody is aboard of a flight. -/
theorem AllDone.not_manned {cache : Cache κ ν} (h : cache.AllDone) (f : Nat) :
    ¬ cache.Manned f := by
  rintro ⟨n, k, p, hat, hp⟩
  have hend : p.Done := h ⟨k, p⟩ (List.mem_of_getElem? hat)
  rw [hend.flight?_eq_none] at hp
  cases hp

section Moves

variable {cache next : Cache κ ν} {n f : Nat} {k : κ} {p q : Phase ν}

/-- A call that stays aboard keeps its flight manned. -/
theorem Moves.manned (h : Moves cache next n k q) (hat : cache.At n k p)
    (hflight : p.flight? = some f → q.flight? = some f) (hmanned : cache.Manned f) :
    next.Manned f := by
  obtain ⟨m, l, o, hm, ho⟩ := hmanned
  by_cases hmn : m = n
  · subst hmn
    obtain ⟨rfl, rfl⟩ := hat.unique hm
    exact ⟨m, l, q, (h m l q).mpr (.inl ⟨rfl, rfl, rfl⟩), hflight ho⟩
  · exact ⟨m, l, o, (h m l o).mpr (.inr ⟨hmn, hm⟩), ho⟩

/-- When a call goes, its flight stays manned, or it was alone aboard. -/
theorem Moves.manned_or_alone (h : Moves cache next n k q) (hat : cache.At n k p)
    (hmanned : cache.Manned f) : next.Manned f ∨ cache.Alone n k f := by
  by_cases hstays : next.Manned f
  · exact .inl hstays
  · have hother : ∀ m l o, cache.At m l o → o.flight? = some f → m = n := by
      intro m l o hm ho
      by_contra hmn
      exact hstays ⟨m, l, o, (h m l o).mpr (.inr ⟨hmn, hm⟩), ho⟩
    obtain ⟨m, l, o, hm, ho⟩ := hmanned
    obtain rfl := hother m l o hm ho
    obtain ⟨rfl, rfl⟩ := hat.unique hm
    exact .inr ⟨⟨o, hm, ho⟩, hother⟩

end Moves

variable [DecidableEq κ]

section Turns

variable {cache next : Cache κ ν} {e : CacheEvent κ ν} {note : Option (κ × LoadEvent ν)} {f : Nat}
  {k : κ}

/-- What a turn does to a flight with somebody aboard: somebody stays aboard; or the only one aboard
is cancelled, or leaves and takes it off the board. -/
theorem Turn.manned (h : Turn cache e note next) (hmanned : cache.Manned f) :
    next.Manned f ∨ (∃ n k, e = .cancel n ∧ cache.Alone n k f) ∨
      ∃ n k r, cache.At n k (.leaving f r) ∧ next.board = unlist k f cache.board := by
  cases h with
  | request k =>
      obtain ⟨m, l, o, hm, ho⟩ := hmanned
      refine .inl ⟨m, l, o, (moves_request cache k m l o).mpr (.inr ⟨?_, hm⟩), ho⟩
      exact (List.getElem?_eq_some_iff.mp hm).1.ne
  | look | clear => exact .inl hmanned
  | quit hat | abandon hat =>
      refine ((moves_enter hat rfl).manned_or_alone hat hmanned).imp_right fun halone => ?_
      exact .inl ⟨_, _, rfl, halone⟩
  | @leave n g k r hat =>
      by_cases hgf : g = f
      · subst hgf
        exact .inr (.inr ⟨n, k, r, hat, rfl⟩)
      · refine .inl ((moves_enter hat rfl).manned hat (fun hg => ?_) hmanned)
        exact absurd (Option.some.inj hg) hgf
  | hit hat | miss hat | join hat | found hat =>
      exact .inl ((moves_enter hat rfl).manned hat nofun hmanned)
  | receive hat | lead hat | recheck hat | start hat | loaded hat | land hat | publish hat =>
      refine .inl ((moves_enter hat rfl).manned hat (fun hg => ?_) hmanned)
      exact hg

/-- What is listed was listed before, or is a new flight with its first call aboard. -/
theorem Turn.board (h : Turn cache e note next) (hlisted : (k, f) ∈ next.board) :
    (k, f) ∈ cache.board ∨ next.Manned f := by
  cases h with
  | @found n l hat hnew =>
      rcases List.mem_cons.mp hlisted with hself | hold
      · obtain ⟨-, rfl⟩ := Prod.mk.inj hself
        exact .inr ⟨n, l, _, (moves_enter hat rfl n l _).mpr (.inl ⟨rfl, rfl, rfl⟩), rfl⟩
      · exact .inl hold
  | @leave n g l r hat =>
      refine .inl (?_ : (k, f) ∈ cache.board)
      have hin : (k, f) ∈ unlist l g cache.board := hlisted
      rw [unlist] at hin
      split at hin
      · exact List.mem_of_mem_filter hin
      · exact hin
  | _ => exact .inl hlisted

/-- There is one flight for a key at most. -/
theorem Turn.nodup (h : Turn cache e note next) (hnodup : (cache.board.map (·.1)).Nodup) :
    (next.board.map (·.1)).Nodup := by
  cases h with
  | @found n l hat hnew => exact List.nodup_cons.mpr ⟨lookup_eq_none.mp hnew, hnodup⟩
  | @leave n g l r hat =>
      show ((unlist l g cache.board).map (·.1)).Nodup
      rw [unlist]
      split
      · exact hnodup.sublist (List.filter_sublist.map _)
      · exact hnodup
  | _ => exact hnodup

end Turns

/-! ## Flights that are given up -/

/-- Whether in the course of events a call was cancelled that was alone aboard of a flight. -/
def GivenUp (start : Cache κ ν) (events : List (CacheEvent κ ν)) (k : κ) (f : Nat) : Prop :=
  ∃ front mid n, front ++ [.cancel n] <+: events ∧ run front start = some mid ∧ mid.Alone n k f

/-- What is known of the board when events have happened: there is one flight for a key at most, and
somebody is aboard of it, or it was given up. -/
structure Tended (start : Cache κ ν) (events : List (CacheEvent κ ν)) (cache : Cache κ ν) :
    Prop where
  sound : Sound cache
  nodup : (cache.board.map (·.1)).Nodup
  manned {k : κ} {f : Nat} : (k, f) ∈ cache.board → cache.Manned f ∨ start.GivenUp events k f

section Tended

variable {start cache next : Cache κ ν} {front events : List (CacheEvent κ ν)} {e : CacheEvent κ ν}
  {n f : Nat} {k l : κ} {p : Phase ν} {r : Except Error ν}

theorem GivenUp.mono (h : start.GivenUp front k f) (hfront : front <+: events) :
    start.GivenUp events k f := by
  obtain ⟨first, mid, n, hfirst, hrun, halone⟩ := h
  exact ⟨first, mid, n, hfirst.trans hfront, hrun, halone⟩

/-- Whoever is aboard of a flight is a call for the key under which it is listed. -/
theorem Tended.key_eq (h : Tended start events cache) (hlisted : (k, f) ∈ cache.board)
    (hat : cache.At n l p) (hp : p.flight? = some f) : l = k := by
  obtain ⟨owner, hboarded⟩ := h.sound.boarded
  have hk := (hboarded.listed (lookup_of_mem h.nodup hlisted)).2
  have hl := (hboarded.aboard hat hp).2.1
  exact Option.some.inj (hl.symm.trans hk)

theorem Tended.turn (h : Tended start front cache) (hrun : run front start = some cache)
    (hturn : Turn cache e (cache.notice e) next) : Tended start (front ++ [e]) next := by
  have hfront : front <+: front ++ [e] := List.prefix_append _ _
  refine ⟨h.sound.turn hturn, hturn.nodup h.nodup, fun {k f} hnext => ?_⟩
  rcases hturn.board hnext with hlisted | hmanned
  · rcases h.manned hlisted with hmanned | hgiven
    · rcases hturn.manned hmanned with hstays | ⟨n, l, rfl, halone⟩ | ⟨n, l, r, hat, hboard⟩
      · exact .inl hstays
      · obtain ⟨⟨p, hat, hp⟩, -⟩ := id halone
        obtain rfl := h.key_eq hlisted hat hp
        exact .inr ⟨front, cache, n, List.prefix_rfl, hrun, halone⟩
      · -- A call that leaves has just taken the flight off the board.
        obtain rfl := h.key_eq hlisted hat rfl
        rw [hboard, unlist, if_pos (lookup_of_mem h.nodup hlisted)] at hnext
        simp at hnext
    · exact .inr (hgiven.mono hfront)
  · exact .inl hmanned

/-- Nobody leads a flight that is listed when nobody is aboard, and it has no result. -/
theorem Sound.free_of_not_manned (h : Sound cache) (hlisted : cache.board.lookup k = some f)
    (hnobody : ¬ cache.Manned f) : cache.flights[f]? = some ⟨false, none⟩ := by
  obtain ⟨hled, owner, hboarded⟩ := h
  obtain ⟨⟨led, result⟩, hget⟩ : ∃ flight, cache.flights[f]? = some flight :=
    ⟨_, List.getElem?_eq_getElem (hboarded.listed hlisted).1⟩
  cases result with
  | some r =>
      have hr : cache.resultOf f = some r := by
        rw [resultOf, hget]
        rfl
      obtain ⟨n, hat⟩ := hboarded.closing hlisted hr
      exact absurd ⟨n, k, _, hat, rfl⟩ hnobody
  | none =>
      cases led with
      | false => exact hget
      | true =>
          obtain ⟨n, l, p, hat, hleads⟩ := hled.leader hget
          exact absurd ⟨n, l, p, hat, hleads.flight⟩ hnobody

theorem tended_empty (capacity : Option Nat) :
    Tended (empty capacity : Cache κ ν) [] (empty capacity) :=
  ⟨sound_empty capacity, List.nodup_nil, nofun⟩

theorem run_tended [LawfulLru κ ν] {capacity : Option Nat} (h : run events (empty capacity) = some cache) :
    Tended (empty capacity) events cache :=
  run_prefix_induction (P := Tended (empty capacity)) (tended_empty capacity)
    (fun hfront htended hturn => htended.turn hfront hturn) h

end Tended

/-! ## When nothing is under way -/

/-- **Only what was given up stays on the board.** Whatever has happened to a cache, and in whatever
order, let all calls have come to their end, with a value, with an error, or because they were
cancelled. A flight that is still listed is one of which the last call aboard was cancelled while it
waited or loaded; nobody leads it and it has no result, so the next call for its key would lead it;
and there is one for each key at most. Without such cancellations the board is empty. -/
theorem listed_abandoned [LawfulLru κ ν] {capacity : Option Nat}
    {events : List (CacheEvent κ ν)} {cache : Cache κ ν}
    (hrun : run events (empty capacity) = some cache) (hdone : cache.AllDone) :
    (∀ k f, (k, f) ∈ cache.board → (empty capacity).GivenUp events k f ∧
        cache.flights[f]? = some ⟨false, none⟩) ∧
      (cache.board.map (·.1)).Nodup ∧
      ((∀ k f, ¬ (empty capacity).GivenUp events k f) → cache.board = []) := by
  have htended := run_tended hrun
  have hgiven : ∀ k f, (k, f) ∈ cache.board → (empty capacity).GivenUp events k f :=
    fun k f hlisted => (htended.manned hlisted).resolve_left (hdone.not_manned f)
  refine ⟨fun k f hlisted => ⟨hgiven k f hlisted, ?_⟩, htended.nodup, fun hnone => ?_⟩
  · exact htended.sound.free_of_not_manned (lookup_of_mem htended.nodup hlisted)
      (hdone.not_manned f)
  · refine List.eq_nil_iff_forall_not_mem.mpr ?_
    rintro ⟨k, f⟩ hlisted
    exact hnone k f (hgiven k f hlisted)

/-- A call whose load fails takes its flight off the board, also when another has waited for it. -/
theorem listed_abandoned_error :
    let events : List (CacheEvent Nat Nat) := [.request 5, .request 5, .step 0, .step 0, .step 1,
      .step 1, .step 0, .step 0, .loaded 0 (.error .notFound), .step 0, .step 0, .step 1, .step 0,
      .step 1]
    ∃ cache, run events (empty none) = some cache ∧ cache.AllDone ∧ cache.board = [] := by
  intro events
  have hrun : run events (empty none) = some ⟨.unbounded [], [], [⟨false, some (.error .notFound)⟩],
      [⟨5, .finished (.error (.shared .notFound))⟩,
        ⟨5, .finished (.error (.shared .notFound))⟩]⟩ := by
    rfl
  have hdone : (⟨.unbounded [], [], [⟨false, some (.error .notFound)⟩],
      [⟨5, .finished (.error (.shared .notFound))⟩,
        ⟨5, .finished (.error (.shared .notFound))⟩]⟩ : Cache Nat Nat).AllDone := by
    simp [AllDone, Phase.Done]
  refine ⟨_, hrun, hdone, (listed_abandoned hrun hdone).2.2 ?_⟩
  rintro k f ⟨front, mid, n, hfront, -⟩
  have hcancel : .cancel n ∈ events := hfront.subset (List.mem_append_right front (by simp))
  simp [events] at hcancel

/-- A call that is cancelled while it loads leaves its flight on the board, although nothing is
under way any more. -/
theorem listed_abandoned_leader :
    let events : List (CacheEvent Nat Nat) :=
      [.request 5, .step 0, .step 0, .step 0, .step 0, .cancel 0]
    ∃ cache, run events (empty none) = some cache ∧ cache.AllDone ∧ cache.board = [(5, 0)] := by
  intro events
  have hrun : run events (empty none) = some
      ⟨.unbounded [], [(5, 0)], [⟨false, none⟩], [⟨5, .cancelled⟩]⟩ := by
    rfl
  exact ⟨_, hrun, by simp [AllDone, Phase.Done], rfl⟩

end Cache

end SqlTemplate
