import Mathlib
import SqlTemplate.Proofs.Cache.Run

/-!
# Flights

The board and the calls agree about the flights, whatever happens and in whatever order
(`Cache.Sound`, kept by every turn): a flight is for one key, a flight without a result is listed if
somebody is aboard, it has at most one leader, and while it is led its leader is there. So the loads
that run are for different keys (`Cache.Sound.leader_eq`), and a call that waits has somebody to wait
for (`Cache.Sound.awake`).
-/

set_option autoImplicit false

namespace SqlTemplate

variable {κ ν : Type}

/-! ## Calls that move -/

/-- The flight that a call is aboard of. -/
def Phase.flight? : Phase ν → Option Nat
  | .aboard f | .leading f | .loading f => some f
  | .landing f _ | .publishing f _ | .leaving f _ => some f
  | .arriving | .boarding | .finished _ | .cancelled => none

/-- Whether a call leads a flight. -/
def Phase.Leads (f : Nat) : Phase ν → Prop
  | .leading g | .loading g => g = f
  | .landing g _ | .publishing g _ => g = f
  | _ => False

/-- Whether a call has come to its end. -/
def Phase.Done : Phase ν → Prop
  | .finished _ | .cancelled => True
  | _ => False

/-- How far a phase is from the beginning of a call. -/
def Phase.rank : Phase ν → Nat
  | .arriving => 0
  | .boarding => 1
  | .aboard _ => 2
  | .leading _ => 3
  | .loading _ => 4
  | .landing _ _ => 5
  | .publishing _ _ => 6
  | .leaving _ _ => 7
  | .finished _ | .cancelled => 8

theorem Phase.Leads.flight {p : Phase ν} {f : Nat} (h : p.Leads f) : p.flight? = some f := by
  cases p <;> simp_all [Leads, flight?]

namespace Cache

variable [Lru κ ν]

/-- Whether the call of a number leads a flight. -/
def Leads (cache : Cache κ ν) (n f : Nat) : Prop := ∃ k p, cache.At n k p ∧ p.Leads f

/-- The result of a flight, once it is published. -/
def resultOf (cache : Cache κ ν) (f : Nat) : Option (Except Error ν) :=
  cache.flights[f]?.bind (·.result)

/-- Whether the call of a number comes into a phase, and all other calls stay as they are. -/
def Moves (cache next : Cache κ ν) (n : Nat) (k : κ) (q : Phase ν) : Prop :=
  ∀ m l o, next.At m l o ↔ (m = n ∧ l = k ∧ o = q) ∨ (m ≠ n ∧ cache.At m l o)

section Moves

variable {cache next : Cache κ ν} {n m f : Nat} {k l : κ} {p q o : Phase ν}

theorem At.unique (h : cache.At n k p) (h' : cache.At n l o) : l = k ∧ o = p := by
  have hcall := Option.some.inj (h.symm.trans h')
  exact ⟨(congrArg CacheCall.key hcall).symm, (congrArg CacheCall.phase hcall).symm⟩

theorem At.leads_iff (h : cache.At n k p) : cache.Leads n f ↔ p.Leads f := by
  refine ⟨fun ⟨l, o, hat, hleads⟩ => ?_, fun hleads => ⟨k, p, h, hleads⟩⟩
  obtain ⟨-, rfl⟩ := h.unique hat
  exact hleads

theorem moves_enter (h : cache.At n k p) (hcalls : next.calls = cache.calls.set n ⟨k, q⟩) :
    Moves cache next n k q := by
  intro m l o
  have hn : n < cache.calls.length := (List.getElem?_eq_some_iff.mp h).1
  rw [At, At, hcalls]
  by_cases hm : m = n
  · subst hm
    simp [List.getElem?_set_self hn, eq_comm]
  · simp [List.getElem?_set_ne (Ne.symm hm), hm]

theorem moves_request [DecidableEq κ] (cache : Cache κ ν) (k : κ) :
    Moves cache (cache.request k) cache.calls.length k .arriving := by
  intro m l o
  rw [At, At, request, List.getElem?_append]
  rcases Nat.lt_trichotomy m cache.calls.length with hm | rfl | hm
  · simp [hm, hm.ne]
  · simp [eq_comm]
  · have hout : m - cache.calls.length ≠ 0 := by omega
    simp [hm.ne', hm.not_gt, hout]

theorem Moves.leads (h : Moves cache next n k q) :
    next.Leads m f ↔ (m = n ∧ q.Leads f) ∨ (m ≠ n ∧ cache.Leads m f) := by
  constructor
  · rintro ⟨l, o, hat, hleads⟩
    rcases (h m l o).mp hat with ⟨rfl, rfl, rfl⟩ | ⟨hm, hat⟩
    · exact .inl ⟨rfl, hleads⟩
    · exact .inr ⟨hm, l, o, hat, hleads⟩
  · rintro (⟨rfl, hleads⟩ | ⟨hm, l, o, hat, hleads⟩)
    · exact ⟨k, q, (h m k q).mpr (.inl ⟨rfl, rfl, rfl⟩), hleads⟩
    · exact ⟨l, o, (h m l o).mpr (.inr ⟨hm, hat⟩), hleads⟩

/-- A call that leads no flight any more. -/
theorem Moves.leads_of_not (h : Moves cache next n k q) (hq : ∀ f, ¬ q.Leads f) :
    next.Leads m f ↔ m ≠ n ∧ cache.Leads m f := by
  rw [h.leads]
  simp [hq]

end Moves

/-! ## Results of flights -/

section Results

variable {cache next : Cache κ ν} {f : Nat}

/-- A flight that changes hands gets no result. -/
theorem resultOf_handOver {old new : Bool} (hflight : cache.flights[f]? = some ⟨old, none⟩)
    (hflights : next.flights = cache.flights.set f ⟨new, none⟩) (g : Nat) :
    next.resultOf g = cache.resultOf g := by
  have hlength : f < cache.flights.length := (List.getElem?_eq_some_iff.mp hflight).1
  rw [resultOf, hflights, resultOf]
  by_cases hg : f = g
  · subst hg
    rw [List.getElem?_set_self hlength, hflight]
    rfl
  · rw [List.getElem?_set_ne hg]

/-- A flight that is new has no result. -/
theorem resultOf_found (hflights : next.flights = cache.flights ++ [⟨false, none⟩]) (g : Nat) :
    next.resultOf g = cache.resultOf g := by
  rw [resultOf, hflights, resultOf, List.getElem?_append]
  split
  · rfl
  · rename_i hg
    rw [List.getElem?_eq_none (not_lt.mp hg), List.getElem?_singleton]
    split <;> rfl

end Results

/-! ## Leaders -/

/-- Whether flights are led by exactly the calls that are marked to lead them. -/
structure Led (cache : Cache κ ν) : Prop where
  marked {n f : Nat} : cache.Leads n f → cache.flights[f]? = some ⟨true, none⟩
  leader {f : Nat} : cache.flights[f]? = some ⟨true, none⟩ → ∃ n, cache.Leads n f
  single {n m f : Nat} : cache.Leads n f → cache.Leads m f → n = m

section Led

variable {cache next : Cache κ ν} {n f : Nat}

theorem Led.no_result (h : Led cache) (hleads : cache.Leads n f) : cache.resultOf f = none := by
  rw [resultOf, h.marked hleads]
  rfl

theorem Led.keep (h : Led cache)
    (hflights : ∀ g : Nat, next.flights[g]? = some ⟨true, none⟩ ↔ cache.flights[g]? = some ⟨true, none⟩)
    (hleads : ∀ m g, next.Leads m g ↔ cache.Leads m g) : Led next where
  marked hm := (hflights _).mpr (h.marked ((hleads _ _).mp hm))
  leader hg := by
    obtain ⟨m, hm⟩ := h.leader ((hflights _).mp hg)
    exact ⟨m, (hleads _ _).mpr hm⟩
  single hn hm := h.single ((hleads _ _).mp hn) ((hleads _ _).mp hm)

/-- A call comes to lead a flight that nobody leads. -/
theorem Led.take (h : Led cache) (hfree : cache.flights[f]? = some ⟨false, none⟩)
    (hflights : next.flights = cache.flights.set f ⟨true, none⟩)
    (hleads : ∀ m g, next.Leads m g ↔ (m = n ∧ f = g) ∨ cache.Leads m g) : Led next := by
  have hlength : f < cache.flights.length := (List.getElem?_eq_some_iff.mp hfree).1
  have hnobody : ∀ m, ¬ cache.Leads m f := fun m hm => by
    simp [h.marked hm] at hfree
  refine ⟨fun {m g} hm => ?_, fun {g} hg => ?_, fun {m m' g} hm hm' => ?_⟩
  · rw [hflights]
    rcases (hleads _ _).mp hm with ⟨rfl, rfl⟩ | hm
    · exact List.getElem?_set_self hlength
    · have hne : f ≠ g := by
        rintro rfl
        exact hnobody _ hm
      rw [List.getElem?_set_ne hne]
      exact h.marked hm
  · by_cases hfg : f = g
    · exact ⟨n, (hleads _ _).mpr (.inl ⟨rfl, hfg⟩)⟩
    · rw [hflights, List.getElem?_set_ne hfg] at hg
      obtain ⟨m, hm⟩ := h.leader hg
      exact ⟨m, (hleads _ _).mpr (.inr hm)⟩
  · rcases (hleads _ _).mp hm with ⟨rfl, rfl⟩ | hm <;> rcases (hleads _ _).mp hm' with ⟨rfl, hfg⟩ | hm'
    · rfl
    · exact absurd hm' (hnobody _)
    · exact absurd (hfg ▸ hm) (hnobody _)
    · exact h.single hm hm'

/-- A leader gives its flight up, or hands its result over. -/
theorem Led.drop (h : Led cache) (hlead : cache.Leads n f) {left : Flight ν}
    (hleft : left ≠ ⟨true, none⟩) (hflights : next.flights = cache.flights.set f left)
    (hleads : ∀ m g, next.Leads m g ↔ m ≠ n ∧ cache.Leads m g)
    (honly : ∀ g, cache.Leads n g → g = f) : Led next := by
  have hlength : f < cache.flights.length := (List.getElem?_eq_some_iff.mp (h.marked hlead)).1
  refine ⟨fun {m g} hm => ?_, fun {g} hg => ?_, fun {m m' g} hm hm' => ?_⟩
  · obtain ⟨hmn, hm⟩ := (hleads _ _).mp hm
    have hne : f ≠ g := by
      rintro rfl
      exact hmn (h.single hm hlead)
    rw [hflights, List.getElem?_set_ne hne]
    exact h.marked hm
  · have hne : f ≠ g := by
      rintro rfl
      rw [hflights, List.getElem?_set_self hlength] at hg
      exact hleft (Option.some.inj hg)
    rw [hflights, List.getElem?_set_ne hne] at hg
    obtain ⟨m, hm⟩ := h.leader hg
    refine ⟨m, (hleads _ _).mpr ⟨?_, hm⟩⟩
    rintro rfl
    exact hne (honly g hm).symm
  · exact h.single ((hleads _ _).mp hm).2 ((hleads _ _).mp hm').2

end Led

/-! ## The board -/

/-- Whether the board is right about the flights: they are for the keys of their calls, a flight
without a result is listed if somebody is aboard, and somebody is about to take off the board what
has a result. -/
structure Boarded [DecidableEq κ] (owner : Nat → Option κ) (cache : Cache κ ν) : Prop where
  listed {k : κ} {f : Nat} : cache.board.lookup k = some f →
    f < cache.flights.length ∧ owner f = some k
  aboard {n f : Nat} {k : κ} {p : Phase ν} : cache.At n k p → p.flight? = some f →
    f < cache.flights.length ∧ owner f = some k ∧
      (cache.resultOf f = none → cache.board.lookup k = some f)
  leaving {n f : Nat} {k : κ} {r : Except Error ν} : cache.At n k (.leaving f r) →
    cache.resultOf f = some r
  closing {f : Nat} {k : κ} {r : Except Error ν} : cache.board.lookup k = some f →
    cache.resultOf f = some r → ∃ n, cache.At n k (.leaving f r)

section Boarded

variable [DecidableEq κ] {cache next : Cache κ ν} {owner : Nat → Option κ} {n f : Nat} {k : κ} {q : Phase ν}
  {r : Except Error ν}

/-- A call moves, and neither the board changes nor any result. -/
theorem Boarded.move (h : Boarded owner cache) (hmoves : Moves cache next n k q)
    (hboard : next.board = cache.board) (hlength : next.flights.length = cache.flights.length)
    (hresult : ∀ f, next.resultOf f = cache.resultOf f)
    (hflight : ∀ f, q.flight? = some f → f < cache.flights.length ∧ owner f = some k ∧
      (cache.resultOf f = none → cache.board.lookup k = some f))
    (hleaving : ∀ f r, q = .leaving f r → cache.resultOf f = some r)
    (hclosing : ∀ l f r, ¬ cache.At n l (.leaving f r)) : Boarded owner next where
  listed := by
    rw [hboard, hlength]
    exact h.listed
  aboard := by
    intro m f l o hat hf
    rw [hboard, hlength, hresult]
    rcases (hmoves m l o).mp hat with ⟨rfl, rfl, rfl⟩ | ⟨-, hat⟩
    · exact hflight f hf
    · exact h.aboard hat hf
  leaving := by
    intro m f l r hat
    rw [hresult]
    rcases (hmoves _ _ _).mp hat with ⟨rfl, rfl, hq⟩ | ⟨-, hat⟩
    · exact hleaving f r hq.symm
    · exact h.leaving hat
  closing := by
    intro f l r
    rw [hboard, hresult]
    intro hlisted hr
    obtain ⟨m, hm⟩ := h.closing hlisted hr
    refine ⟨m, (hmoves _ _ _).mpr (.inr ⟨?_, hm⟩)⟩
    rintro rfl
    exact hclosing _ _ _ hm

/-- The leader of a flight hands its result over. -/
theorem Boarded.publish (h : Boarded owner cache) (hat : cache.At n k (.publishing f r))
    (hopen : cache.resultOf f = none) (hmoves : Moves cache next n k (.leaving f r))
    (hboard : next.board = cache.board)
    (hflights : next.flights = cache.flights.set f ⟨false, some r⟩) : Boarded owner next := by
  obtain ⟨hlength, howner, -⟩ := h.aboard hat rfl
  have hself : next.resultOf f = some r := by
    rw [resultOf, hflights, List.getElem?_set_self hlength]
    rfl
  have hothers : ∀ g, g ≠ f → next.resultOf g = cache.resultOf g := fun g hg => by
    rw [resultOf, hflights, List.getElem?_set_ne (Ne.symm hg), resultOf]
  refine ⟨fun hlisted => ?_, fun {m g l o} hm hg => ?_, fun {m g l r'} hm => ?_,
    fun {g l r'} hlisted hr => ?_⟩
  · rw [hflights, List.length_set]
    exact h.listed (hboard ▸ hlisted)
  · rw [hflights, List.length_set, hboard]
    rcases (hmoves _ _ _).mp hm with ⟨rfl, rfl, rfl⟩ | ⟨-, hm⟩
    · obtain rfl : f = g := Option.some.inj hg
      exact ⟨hlength, howner, fun hnone => by simp [hself] at hnone⟩
    · obtain ⟨hg, howner, hlisted⟩ := h.aboard hm hg
      refine ⟨hg, howner, fun hnone => hlisted ?_⟩
      rwa [← hothers]
      rintro rfl
      simp [hself] at hnone
  · rcases (hmoves _ _ _).mp hm with ⟨rfl, rfl, hq⟩ | ⟨-, hm⟩
    · cases hq
      exact hself
    · have hr := h.leaving hm
      rwa [hothers]
      rintro rfl
      simp [hopen] at hr
  · rw [hboard] at hlisted
    by_cases hg : g = f
    · subst hg
      obtain rfl : r = r' := Option.some.inj (hself.symm.trans hr)
      obtain rfl : k = l := Option.some.inj (howner.symm.trans (h.listed hlisted).2)
      exact ⟨n, (hmoves _ _ _).mpr (.inl ⟨rfl, rfl, rfl⟩)⟩
    · obtain ⟨m, hm⟩ := h.closing hlisted (hothers g hg ▸ hr)
      refine ⟨m, (hmoves _ _ _).mpr (.inr ⟨?_, hm⟩)⟩
      rintro rfl
      cases (hat.unique hm).2

theorem lookup_unlist (key k : κ) (f : Nat) (board : List (κ × Nat)) :
    (unlist key f board).lookup k
      = if board.lookup key = some f ∧ k = key then none else board.lookup k := by
  rw [unlist]
  by_cases hlisted : board.lookup key = some f
  · simp only [hlisted, if_true, true_and]
    exact lookup_filter_ne k key board
  · simp [hlisted]

/-- A call leaves, and takes its flight off the board. -/
theorem Boarded.leave (h : Boarded owner cache) (hat : cache.At n k (.leaving f r))
    (hmoves : Moves cache next n k q) (hq : q.Done) (hboard : next.board = unlist k f cache.board)
    (hflights : next.flights = cache.flights) : Boarded owner next := by
  have hresult : ∀ g, next.resultOf g = cache.resultOf g := fun g => by
    rw [resultOf, hflights, resultOf]
  have hlookup : ∀ {l g}, next.board.lookup l = some g →
      ¬ (cache.board.lookup k = some f ∧ l = k) ∧ cache.board.lookup l = some g := by
    intro l g hlisted
    rw [hboard, lookup_unlist] at hlisted
    split at hlisted
    · cases hlisted
    · exact ⟨‹_›, hlisted⟩
  refine ⟨fun hlisted => ?_, fun {m g l o} hm hg => ?_, fun {m g l r'} hm => ?_,
    fun {g l r'} hlisted hr => ?_⟩
  · rw [hflights]
    exact h.listed (hlookup hlisted).2
  · rw [hflights, hresult]
    rcases (hmoves _ _ _).mp hm with ⟨rfl, rfl, rfl⟩ | ⟨-, hm⟩
    · cases o <;> simp_all [Phase.Done, Phase.flight?]
    · obtain ⟨hlength, howner, hlisted⟩ := h.aboard hm hg
      refine ⟨hlength, howner, fun hnone => ?_⟩
      -- A flight without a result is not the one that is taken off.
      rw [hboard, lookup_unlist, if_neg, hlisted hnone]
      rintro ⟨hf, rfl⟩
      obtain rfl : f = g := Option.some.inj (hf.symm.trans (hlisted hnone))
      simp [h.leaving hat] at hnone
  · rw [hresult]
    rcases (hmoves _ _ _).mp hm with ⟨rfl, rfl, rfl⟩ | ⟨-, hm⟩
    · exact hq.elim
    · exact h.leaving hm
  · rw [hresult] at hr
    obtain ⟨hkept, hlisted⟩ := hlookup hlisted
    obtain ⟨m, hm⟩ := h.closing hlisted hr
    refine ⟨m, (hmoves _ _ _).mpr (.inr ⟨?_, hm⟩)⟩
    rintro rfl
    obtain ⟨rfl, hphase⟩ := hat.unique hm
    cases hphase
    exact hkept ⟨hlisted, rfl⟩

/-- A call boards a flight that is new. -/
theorem Boarded.found (h : Boarded owner cache) (hat : cache.At n k .boarding)
    (hlisted : cache.board.lookup k = none)
    (hmoves : Moves cache next n k (.aboard cache.flights.length))
    (hboard : next.board = (k, cache.flights.length) :: cache.board)
    (hflights : next.flights = cache.flights ++ [⟨false, none⟩]) :
    Boarded (Function.update owner cache.flights.length (some k)) next := by
  have hresult := resultOf_found hflights
  have hold : ∀ {g l}, g < cache.flights.length ∧ owner g = some l →
      g < next.flights.length ∧ Function.update owner cache.flights.length (some k) g = some l := by
    rintro g l ⟨hg, howner⟩
    rw [Function.update_of_ne hg.ne, hflights, List.length_append]
    exact ⟨hg.trans (Nat.lt_succ_self _), howner⟩
  have hnew : cache.flights.length < next.flights.length ∧
      Function.update owner cache.flights.length (some k) cache.flights.length = some k := by
    simp [hflights]
  have hlookup : ∀ l, next.board.lookup l
      = if l = k then some cache.flights.length else cache.board.lookup l := by
    intro l
    rw [hboard, List.lookup_cons]
    by_cases hl : l = k
    · simp [hl]
    · rw [beq_eq_false_iff_ne.mpr hl, if_neg hl]
  refine ⟨fun {l g} hl => ?_, fun {m g l o} hm hg => ?_, fun {m g l r'} hm => ?_,
    fun {g l r'} hl hr => ?_⟩
  · rw [hlookup] at hl
    split at hl
    · rename_i hlk
      obtain rfl := Option.some.inj hl
      exact hlk ▸ hnew
    · exact hold (h.listed hl)
  · rw [hresult]
    rcases (hmoves _ _ _).mp hm with ⟨rfl, rfl, rfl⟩ | ⟨-, hm⟩
    · obtain rfl : cache.flights.length = g := Option.some.inj hg
      exact ⟨hnew.1, hnew.2, fun _ => by simp [hlookup]⟩
    · obtain ⟨hlength, howner, hopen⟩ := h.aboard hm hg
      obtain ⟨hlength, howner⟩ := hold ⟨hlength, howner⟩
      refine ⟨hlength, howner, fun hnone => ?_⟩
      rw [hlookup, if_neg, hopen hnone]
      rintro rfl
      simp [hlisted] at hopen
      exact hopen hnone
  · rw [hresult]
    rcases (hmoves _ _ _).mp hm with ⟨-, -, hq⟩ | ⟨-, hm⟩
    · cases hq
    · exact h.leaving hm
  · rw [hresult] at hr
    rw [hlookup] at hl
    split at hl
    · obtain rfl := Option.some.inj hl
      simp [resultOf] at hr
    · obtain ⟨m, hm⟩ := h.closing hl hr
      refine ⟨m, (hmoves _ _ _).mpr (.inr ⟨?_, hm⟩)⟩
      rintro rfl
      cases (hat.unique hm).2

end Boarded

/-! ## Every turn -/

/-- Whether the board and the calls agree about the flights. -/
structure Sound [DecidableEq κ] (cache : Cache κ ν) : Prop where
  led : Led cache
  boarded : ∃ owner, Boarded owner cache

section Sound

variable [DecidableEq κ] {cache next : Cache κ ν} {n m f : Nat} {k : κ} {p q : Phase ν}

theorem sound_empty (capacity : Option Nat) : Sound (empty capacity : Cache κ ν) := by
  have hat : ∀ n (k : κ) (p : Phase ν), ¬ (empty capacity : Cache κ ν).At n k p := by
    simp [At, empty]
  refine ⟨⟨?_, ?_, ?_⟩, fun _ => none, ?_, ?_, ?_, ?_⟩
  · rintro n f ⟨k, p, h, -⟩
    exact (hat _ _ _ h).elim
  · simp [empty]
  · rintro n m f ⟨k, p, h, -⟩
    exact (hat _ _ _ h).elim
  · simp [empty]
  · exact fun h => (hat _ _ _ h).elim
  · exact fun h => (hat _ _ _ h).elim
  · simp [empty]

/-- A call goes on with its flight, if it is aboard of one, and changes neither board nor
flights. -/
theorem Sound.move (h : Sound cache) (hat : cache.At n k p)
    (hcalls : next.calls = cache.calls.set n ⟨k, q⟩) (hboard : next.board = cache.board)
    (hflights : next.flights = cache.flights) (hleads : ∀ f, q.Leads f ↔ p.Leads f)
    (hflight : ∀ f, q.flight? = some f → p.flight? = some f ∨ cache.board.lookup k = some f)
    (hleaving : ∀ f r, q = .leaving f r → cache.resultOf f = some r)
    (hp : ∀ f r, p ≠ .leaving f r) : Sound next := by
  obtain ⟨hled, owner, hboarded⟩ := h
  have hmoves := moves_enter hat hcalls
  refine ⟨hled.keep (by simp [hflights]) fun m g => ?_, owner, ?_⟩
  · rw [hmoves.leads, hleads, ← hat.leads_iff]
    by_cases hm : m = n <;> simp [hm]
  · refine hboarded.move hmoves hboard (by rw [hflights]) (fun g => by simp [resultOf, hflights])
      (fun g hg => ?_) hleaving fun l g r hl => hp g r (hat.unique hl).2.symm
    rcases hflight g hg with hg | hg
    · exact hboarded.aboard hat hg
    · obtain ⟨hlength, howner⟩ := hboarded.listed hg
      exact ⟨hlength, howner, fun _ => hg⟩

/-- A flight changes hands, but gets no result. -/
theorem Boarded.handOver {owner : Nat → Option κ} {old new : Bool} (h : Boarded owner cache)
    (hat : cache.At n k p) (hcalls : next.calls = cache.calls.set n ⟨k, q⟩)
    (hboard : next.board = cache.board) (hold : cache.flights[f]? = some ⟨old, none⟩)
    (hflights : next.flights = cache.flights.set f ⟨new, none⟩)
    (hflight : ∀ g, q.flight? = some g → p.flight? = some g) (hp : ∀ f r, p ≠ .leaving f r)
    (hq : ∀ f r, q ≠ .leaving f r) : Boarded owner next := by
  exact h.move (moves_enter hat hcalls) hboard (by rw [hflights, List.length_set])
    (resultOf_handOver hold hflights) (fun g hg => h.aboard hat (hflight g hg)) (fun g r hr => absurd hr (hq g r))
    fun l g r hl => hp g r (hat.unique hl).2.symm

/-- Neither the board nor the calls depend on what is stored. -/
theorem Sound.restock (h : Sound cache) (store : Store κ ν) :
    Sound { cache with store := store } := by
  obtain ⟨hled, owner, hboarded⟩ := h
  exact ⟨hled.keep (fun _ => Iff.rfl) fun _ _ => Iff.rfl, owner, hboarded.listed, hboarded.aboard,
    hboarded.leaving, hboarded.closing⟩

theorem Sound.request (h : Sound cache) (k : κ) : Sound (cache.request k) := by
  obtain ⟨hled, owner, hboarded⟩ := h
  have hmoves := moves_request cache k
  have hfresh : ∀ l o, ¬ cache.At cache.calls.length l o := by simp [At]
  refine ⟨hled.keep (fun _ => Iff.rfl) fun m g => ?_, owner, ?_⟩
  · rw [hmoves.leads]
    refine ⟨fun hm => hm.elim (fun hm => hm.2.elim) fun hm => hm.2, fun hm => .inr ⟨?_, hm⟩⟩
    rintro rfl
    obtain ⟨l, o, hat, -⟩ := hm
    exact hfresh l o hat
  · exact hboarded.move hmoves rfl rfl (fun _ => rfl) (by simp [Phase.flight?]) (by simp)
      fun l g r => hfresh l _

theorem Sound.lead (h : Sound cache) (hat : cache.At n k (.aboard f))
    (hfree : cache.flights[f]? = some ⟨false, none⟩)
    (hcalls : next.calls = cache.calls.set n ⟨k, .leading f⟩) (hboard : next.board = cache.board)
    (hflights : next.flights = cache.flights.set f ⟨true, none⟩) : Sound next := by
  obtain ⟨hled, owner, hboarded⟩ := h
  refine ⟨hled.take (n := n) hfree hflights fun m g => ?_, owner, ?_⟩
  · rw [(moves_enter hat hcalls).leads]
    by_cases hm : m = n
    · subst hm
      simp [hat.leads_iff, Phase.Leads]
    · simp [hm]
  · exact hboarded.handOver hat hcalls hboard hfree hflights (by simp [Phase.flight?]) (by simp)
      (by simp)

theorem Sound.abandon (h : Sound cache) (hat : cache.At n k (.loading f))
    (hcalls : next.calls = cache.calls.set n ⟨k, .cancelled⟩) (hboard : next.board = cache.board)
    (hflights : next.flights = cache.flights.set f ⟨false, none⟩) : Sound next := by
  obtain ⟨hled, owner, hboarded⟩ := h
  have hleads : cache.Leads n f := hat.leads_iff.mpr rfl
  refine ⟨hled.drop hleads (by simp) hflights (fun m g => ?_) fun g hg => ?_, owner, ?_⟩
  · exact (moves_enter hat hcalls).leads_of_not fun _ => id
  · exact (hat.leads_iff.mp hg).symm
  · exact hboarded.handOver hat hcalls hboard (hled.marked hleads) hflights (by simp [Phase.flight?])
      (by simp) (by simp)

theorem Sound.publish {r : Except Error ν} (h : Sound cache) (hat : cache.At n k (.publishing f r))
    (hcalls : next.calls = cache.calls.set n ⟨k, .leaving f r⟩) (hboard : next.board = cache.board)
    (hflights : next.flights = cache.flights.set f ⟨false, some r⟩) : Sound next := by
  obtain ⟨hled, owner, hboarded⟩ := h
  have hleads : cache.Leads n f := hat.leads_iff.mpr rfl
  have hmoves := moves_enter hat hcalls
  refine ⟨hled.drop hleads (by simp) hflights (fun m g => ?_) fun g hg => ?_, owner, ?_⟩
  · exact hmoves.leads_of_not fun _ => id
  · exact (hat.leads_iff.mp hg).symm
  · exact hboarded.publish hat (hled.no_result hleads) hmoves hboard hflights

theorem Sound.leave {r r' : Except Error ν} (h : Sound cache) (hat : cache.At n k (.leaving f r))
    (hcalls : next.calls = cache.calls.set n ⟨k, .finished r'⟩)
    (hboard : next.board = unlist k f cache.board) (hflights : next.flights = cache.flights) :
    Sound next := by
  obtain ⟨hled, owner, hboarded⟩ := h
  have hmoves := moves_enter hat hcalls
  refine ⟨hled.keep (by simp [hflights]) fun m g => ?_, owner, ?_⟩
  · rw [hmoves.leads_of_not fun _ => id, and_iff_right_iff_imp]
    rintro hm rfl
    exact hat.leads_iff.mp hm
  · exact hboarded.leave hat hmoves trivial hboard hflights

theorem Sound.found (h : Sound cache) (hat : cache.At n k .boarding)
    (hlisted : cache.board.lookup k = none)
    (hcalls : next.calls = cache.calls.set n ⟨k, .aboard cache.flights.length⟩)
    (hboard : next.board = (k, cache.flights.length) :: cache.board)
    (hflights : next.flights = cache.flights ++ [⟨false, none⟩]) : Sound next := by
  obtain ⟨hled, owner, hboarded⟩ := h
  have hmoves := moves_enter hat hcalls
  refine ⟨hled.keep (fun g => ?_) fun m g => ?_, _, hboarded.found hat hlisted hmoves hboard hflights⟩
  · rw [hflights, List.getElem?_append]
    split
    · rfl
    · rename_i hg
      rw [List.getElem?_eq_none (not_lt.mp hg), List.getElem?_singleton]
      split <;> simp
  · rw [hmoves.leads_of_not fun _ => id, and_iff_right_iff_imp]
    rintro hm rfl
    exact hat.leads_iff.mp hm

/-- **The board and the calls agree after every turn.** -/
theorem Sound.turn {e : CacheEvent κ ν} {note : Option (κ × LoadEvent ν)} (h : Sound cache)
    (hturn : Turn cache e note next) : Sound next := by
  cases hturn with
  | request k => exact h.request k
  | look k => exact h.restock _
  | clear => exact h.restock _
  | quit hat hp =>
      rcases hp with rfl | ⟨f, rfl⟩ <;>
        exact h.move hat rfl rfl rfl (fun _ => Iff.rfl) (by simp [Phase.flight?]) (by simp) (by simp)
  | abandon hat => exact h.abandon hat rfl rfl rfl
  | hit hat | miss hat | recheck hat | start hat | loaded hat | land hat =>
      exact h.move hat rfl rfl rfl (fun _ => Iff.rfl) (by simp [Phase.flight?]) (by simp) (by simp)
  | join hat hlisted =>
      exact h.move hat rfl rfl rfl (fun _ => Iff.rfl) (by simp [Phase.flight?, hlisted]) (by simp)
        (by simp)
  | found hat hlisted => exact h.found hat hlisted rfl rfl rfl
  | receive hat hresult =>
      exact h.move hat rfl rfl rfl (fun _ => Iff.rfl) (by simp [Phase.flight?])
        (by simp [resultOf, hresult]) (by simp)
  | lead hat hfree => exact h.lead hat hfree rfl rfl rfl
  | publish hat => exact h.publish hat rfl rfl rfl
  | leave hat => exact h.leave hat rfl rfl rfl

/-- Leaders of flights for the same key are the same call. -/
theorem Sound.leader_eq {g : Nat} (h : Sound cache) (hn : cache.At n k p) (hm : cache.At m k q)
    (hp : p.Leads f) (hq : q.Leads g) : n = m := by
  obtain ⟨hled, owner, hboarded⟩ := h
  have hnf : cache.Leads n f := ⟨k, p, hn, hp⟩
  have hmg : cache.Leads m g := ⟨k, q, hm, hq⟩
  -- Both flights are the one that is listed for the key.
  have hf := (hboarded.aboard hn hp.flight).2.2 (hled.no_result hnf)
  have hg := (hboarded.aboard hm hq.flight).2.2 (hled.no_result hmg)
  obtain rfl : f = g := Option.some.inj (hf.symm.trans hg)
  exact hled.single hnf hmg

/-- A turn moves a call at most, and it is noticed if that is cancelled or begins to load. -/
theorem Turn.moves {e : CacheEvent κ ν} {note : Option (κ × LoadEvent ν)}
    (h : Turn cache e note next) : next.calls = cache.calls ∨
    ∃ n k q, Moves cache next n k q ∧ (q = .cancelled → note = some (k, .cancelled)) ∧
      ∀ f, q = .loading f → e = .step n ∧ note = some (k, .began) := by
  cases h with
  | request k => exact .inr ⟨_, _, _, moves_request cache k, by simp⟩
  | look k => exact .inl rfl
  | clear => exact .inl rfl
  | quit hat | abandon hat | hit hat | miss hat | join hat | found hat | receive hat | lead hat
  | recheck hat | start hat | loaded hat | land hat | publish hat | leave hat =>
      exact .inr ⟨_, _, _, moves_enter hat rfl, by simp⟩

/-- A step brings its call further. -/
theorem Turn.advances {note : Option (κ × LoadEvent ν)} (h : Turn cache (.step n) note next) :
    ∃ k p q, cache.At n k p ∧ Moves cache next n k q ∧ p.rank < q.rank := by
  cases h with
  | hit hat | miss hat | join hat | found hat | receive hat | lead hat | recheck hat | start hat
  | land hat | publish hat | leave hat =>
      exact ⟨_, _, _, hat, moves_enter hat rfl, by simp [Phase.rank]⟩

theorem step_of_done (hat : cache.At n k p) (hp : p.Done) : cache.step n = none := by
  have hcall : cache.calls[n]? = some ⟨k, p⟩ := hat
  rw [step, hcall]
  cases p <;> first | rfl | exact hp.elim

theorem done_of_rank (h : longest ≤ p.rank) : p.Done := by
  cases p with
  | finished r | cancelled => trivial
  | _ => simp [longest, Phase.rank] at h

/-- A call has no step left once it could have taken one for each phase that is before it. -/
theorem advance_stops [LawfulLru κ ν] (hat : cache.At n k p) {count : Nat}
    (hcount : longest ≤ count + p.rank) : (advance n count cache).step n = none := by
  induction count generalizing cache k p with
  | zero => exact step_of_done hat (done_of_rank (by omega))
  | succ count ih =>
      rw [advance]
      cases hstep : cache.step n with
      | none => exact hstep
      | some mid =>
          obtain ⟨l, o, q, hold, hmoves, hrank⟩ := (turn_step hstep).advances
          obtain ⟨rfl, rfl⟩ := hat.unique hold
          exact ih ((hmoves n l q).mpr (.inl ⟨rfl, rfl, rfl⟩)) (by omega)

/-- **A call that settles has no step left**: it waits for a load or for a leader, or has come to
its end. -/
theorem settle_stops [LawfulLru κ ν] (cache : Cache κ ν) (n : Nat) :
    (cache.settle n).step n = none := by
  cases hcall : cache.calls[n]? with
  | some call => exact advance_stops (k := call.key) (p := call.phase) hcall (Nat.le_add_right ..)
  | none =>
      have hnone : cache.step n = none := by rw [step, hcall]
      rw [settle, longest, advance, hnone]
      exact hnone

/-- While a call for a key has not come to its end, some call for the key loads or can take a
step. -/
theorem Sound.awake (h : Sound cache) (hat : cache.At n k p) (hp : ¬ p.Done) :
    ∃ m q, cache.At m k q ∧ ((∃ f, q = .loading f) ∨ (cache.step m).isSome) := by
  have hstep : ∀ {m q}, cache.At m k q → ¬ q.Done → (∀ f, q ≠ .aboard f) →
      (∃ f, q = .loading f) ∨ (cache.step m).isSome := by
    intro m q hm hq haboard
    have hcall : cache.calls[m]? = some ⟨k, q⟩ := hm
    rw [step, hcall]
    cases q <;> simp_all [Phase.Done]
  by_cases haboard : ∃ f, p = .aboard f
  · obtain ⟨f, rfl⟩ := haboard
    obtain ⟨hled, owner, hboarded⟩ := h
    obtain ⟨hlength, howner, -⟩ := hboarded.aboard hat rfl
    have hcall : cache.calls[n]? = some ⟨k, .aboard f⟩ := hat
    obtain ⟨⟨led, result⟩, hget⟩ : ∃ flight, cache.flights[f]? = some flight :=
      ⟨_, List.getElem?_eq_getElem hlength⟩
    cases result with
    | some r => exact ⟨n, _, hat, .inr (by simp [step, hcall, sit, hget])⟩
    | none =>
        cases led with
        | false => exact ⟨n, _, hat, .inr (by simp [step, hcall, sit, hget])⟩
        | true =>
            -- Somebody leads the flight, and is not aboard only.
            obtain ⟨m, l, q, hm, hleads⟩ := hled.leader hget
            obtain rfl : l = k :=
              Option.some.inj ((hboarded.aboard hm hleads.flight).2.1.symm.trans howner)
            refine ⟨m, q, hm, hstep hm ?_ ?_⟩
            · cases q <;> simp_all [Phase.Leads, Phase.Done]
            · rintro g rfl
              exact hleads
  · exact ⟨n, p, hat, hstep hat hp fun f hf => haboard ⟨f, hf⟩⟩

end Sound

end Cache

end SqlTemplate
