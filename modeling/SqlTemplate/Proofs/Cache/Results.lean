import Mathlib
import SqlTemplate.Proofs.Cache.Flights

/-!
# Where results come from

What a call of a cache can get comes from few places: the store, the flights that are listed, and the
leaders, which store and publish the results they have. If the results in these places have a
property, and so have those of the calls that are looked at, then it stays so after every turn, as
long as the loads that end give results with the property (`Cache.Offers.turn`).
-/

set_option autoImplicit false

namespace SqlTemplate

variable {κ ν : Type}

/-- The result that a call holds, before it comes to its end. -/
def Phase.held? : Phase ν → Option (Except Error ν)
  | .landing _ r | .publishing _ r | .leaving _ r => some r
  | _ => none

namespace Cache

variable [Lru κ ν] [DecidableEq κ]

/-- Whether the results that calls can come by are in `R`: what is stored, what the listed flights
have, and what leaders hold. For the calls that are `seen` it is also what their flights have and
what they hold, and for those that are `told` what they have returned. -/
structure Offers (seen told : Nat → Prop) (R : κ → Except Error ν → Prop) (cache : Cache κ ν) :
    Prop where
  stored {k : κ} {v : ν} : cache.store.find? k = some v → R k (.ok v)
  listed {k : κ} {f : Nat} {r : Except Error ν} : cache.board.lookup k = some f →
    cache.resultOf f = some r → R k r
  led {n f : Nat} {k : κ} {p : Phase ν} {r : Except Error ν} : cache.At n k p → p.Leads f →
    p.held? = some r → R k r
  aboard {n f : Nat} {k : κ} {p : Phase ν} {r : Except Error ν} : seen n → cache.At n k p →
    p.flight? = some f → cache.resultOf f = some r → R k r
  held {n : Nat} {k : κ} {p : Phase ν} {r : Except Error ν} : seen n → cache.At n k p →
    p.held? = some r → R k r
  finished {n : Nat} {k : κ} {r : Except Error ν} : told n → cache.At n k (.finished r) →
    ∃ r', R k r' ∧ r = r'.mapError .shared

section Offers

variable {cache next : Cache κ ν} {seen told : Nat → Prop} {n f : Nat} {k : κ} {p q : Phase ν}
  {R R' : κ → Except Error ν → Prop} {r : Except Error ν}

theorem Offers.mono (h : Offers seen told R cache) (hR : ∀ k r, R k r → R' k r) :
    Offers seen told R' cache where
  stored hv := hR _ _ (h.stored hv)
  listed hf hr := hR _ _ (h.listed hf hr)
  led hat hp hr := hR _ _ (h.led hat hp hr)
  aboard hn hat hf hr := hR _ _ (h.aboard hn hat hf hr)
  held hn hat hr := hR _ _ (h.held hn hat hr)
  finished hn hat := by
    obtain ⟨r', hr, heq⟩ := h.finished hn hat
    exact ⟨r', hR _ _ hr, heq⟩

/-- What is looked up or forgotten was stored. -/
theorem Offers.restock (h : Offers seen told R cache) {store : Store κ ν}
    (hstore : ∀ k v, store.find? k = some v → cache.store.find? k = some v) :
    Offers seen told R { cache with store := store } where
  stored hv := h.stored (hstore _ _ hv)
  listed := h.listed
  led := h.led
  aboard := h.aboard
  held := h.held
  finished := h.finished

/-- A call moves, and no flight gets a result. -/
theorem Offers.move (h : Offers seen told R cache) (hmoves : Moves cache next n k q)
    (hstore : ∀ l v, next.store.find? l = some v → R l (.ok v))
    (hboard : ∀ l f r, next.board.lookup l = some f → cache.resultOf f = some r →
      cache.board.lookup l = some f)
    (hresult : ∀ f, next.resultOf f = cache.resultOf f)
    (hled : ∀ f r, q.Leads f → q.held? = some r → R k r)
    (hflight : seen n → ∀ f r, q.flight? = some f → cache.resultOf f = some r → R k r)
    (hheld : seen n → ∀ r, q.held? = some r → R k r)
    (hfinished : told n → ∀ r, q = .finished r → ∃ r', R k r' ∧ r = r'.mapError .shared) :
    Offers seen told R next where
  stored hv := hstore _ _ hv
  listed hf hr := by
    rw [hresult] at hr
    exact h.listed (hboard _ _ _ hf hr) hr
  led := by
    intro m f l o r hat hleads hr
    rcases (hmoves _ _ _).mp hat with ⟨rfl, rfl, rfl⟩ | ⟨-, hat⟩
    · exact hled f r hleads hr
    · exact h.led hat hleads hr
  aboard := by
    intro m f l o r hm hat hf hr
    rw [hresult] at hr
    rcases (hmoves _ _ _).mp hat with ⟨rfl, rfl, rfl⟩ | ⟨-, hat⟩
    · exact hflight hm f r hf hr
    · exact h.aboard hm hat hf hr
  held := by
    intro m l o r hm hat hr
    rcases (hmoves _ _ _).mp hat with ⟨rfl, rfl, rfl⟩ | ⟨-, hat⟩
    · exact hheld hm r hr
    · exact h.held hm hat hr
  finished := by
    intro m l r hm hat
    rcases (hmoves _ _ _).mp hat with ⟨rfl, rfl, hq⟩ | ⟨-, hat⟩
    · exact hfinished hm r hq.symm
    · exact h.finished hm hat

/-- The leader of a flight hands its result over to those who are aboard, for the same key. -/
theorem Offers.publish (h : Offers seen told R cache) (hsound : Sound cache)
    (hat : cache.At n k (.publishing f r)) :
    Offers seen told R (cache.publish n ⟨k, .publishing f r⟩ f r) := by
  obtain ⟨-, owner, hboarded⟩ := hsound
  obtain ⟨hlength, howner, -⟩ := hboarded.aboard hat rfl
  have hmoves : Moves cache (cache.publish n ⟨k, .publishing f r⟩ f r) n k (.leaving f r) :=
    moves_enter hat rfl
  have hr : R k r := h.led hat rfl rfl
  have hresult : ∀ {l g r'}, (cache.publish n ⟨k, .publishing f r⟩ f r).resultOf g = some r' →
      owner g = some l → R l r' ∨ cache.resultOf g = some r' := by
    intro l g r' hg hl
    rw [resultOf, Cache.publish, enter] at hg
    by_cases hgf : f = g
    · subst hgf
      rw [List.getElem?_set_self hlength] at hg
      obtain rfl : r = r' := Option.some.inj hg
      obtain rfl : k = l := Option.some.inj (howner.symm.trans hl)
      exact .inl hr
    · rw [List.getElem?_set_ne hgf] at hg
      exact .inr hg
  refine ⟨h.stored, fun {l g r'} hl hg => ?_, fun {m g l o r'} hm hleads hr' => ?_,
    fun {m g l o r'} hseen hm hg hr' => ?_, fun {m l o r'} hseen hm hr' => ?_,
    fun {m l r'} htold hm => ?_⟩
  · exact (hresult hg (hboarded.listed hl).2).elim id fun hold => h.listed hl hold
  · rcases (hmoves _ _ _).mp hm with ⟨rfl, rfl, rfl⟩ | ⟨-, hm⟩
    · exact hleads.elim
    · exact h.led hm hleads hr'
  · rcases (hmoves _ _ _).mp hm with ⟨rfl, rfl, rfl⟩ | ⟨-, hm⟩
    · obtain rfl : f = g := Option.some.inj hg
      exact (hresult hr' howner).elim id fun hold => h.aboard hseen hat rfl hold
    · exact (hresult hr' (hboarded.aboard hm hg).2.1).elim id fun hold => h.aboard hseen hm hg hold
  · rcases (hmoves _ _ _).mp hm with ⟨rfl, rfl, rfl⟩ | ⟨-, hm⟩
    · obtain rfl : r = r' := Option.some.inj hr'
      exact hr
    · exact h.held hseen hm hr'
  · rcases (hmoves _ _ _).mp hm with ⟨-, -, hq⟩ | ⟨-, hm⟩
    · cases hq
    · exact h.finished htold hm

/-- **Results come from loads.** If `R` takes in the results of the loads that end, then it has all
results after every turn. -/
theorem Offers.turn [LawfulLru κ ν] {e : CacheEvent κ ν} {note : Option (κ × LoadEvent ν)}
    (h : Offers seen told R cache) (htold : ∀ n, told n → seen n) (hsound : Sound cache)
    (hturn : Turn cache e note next) (hR : ∀ k r, R k r → R' k r)
    (hnote : ∀ k r, note = some (k, .ended r) → R' k r) : Offers seen told R' next := by
  have h' := h.mono hR
  have hsame : ∀ k v, cache.store.find? k = some v → R' k (.ok v) := fun _ _ => h'.stored
  have hlooked : ∀ key k v, (cache.store.get key).2.find? k = some v → R' k (.ok v) :=
    fun key k _ hv => h'.stored ((Store.find?_get _ key k).symm.trans hv)
  cases hturn with
  | request k =>
      exact h'.move (moves_request cache k) hsame (fun _ _ _ hf _ => hf) (fun _ => rfl)
        (by simp [Phase.Leads]) (by simp [Phase.flight?]) (by simp [Phase.held?]) (by simp)
  | look key => exact h'.restock fun k _ hv => (Store.find?_get _ key k).symm.trans hv
  | clear => exact h'.restock (by simp [Store.find?_clear])
  | quit hat hp =>
      exact h'.move (moves_enter hat rfl) hsame (fun _ _ _ hf _ => hf) (fun _ => rfl)
        (by simp [Phase.Leads]) (by simp [Phase.flight?]) (by simp [Phase.held?]) (by simp)
  | @abandon n f k hat =>
      have hmarked := hsound.led.marked (n := n) (f := f) (hat.leads_iff.mpr rfl)
      exact h'.move (moves_enter hat rfl) hsame (fun _ _ _ hf _ => hf)
        (resultOf_handOver hmarked rfl) (by simp [Phase.Leads]) (by simp [Phase.flight?])
        (by simp [Phase.held?]) (by simp)
  | hit hat hstored =>
      exact h'.move (moves_enter hat rfl) (hlooked _) (fun _ _ _ hf _ => hf) (fun _ => rfl)
        (by simp [Phase.Leads]) (by simp [Phase.flight?]) (by simp [Phase.held?])
        fun _ r hr => ⟨_, hsame _ _ hstored, by cases hr; rfl⟩
  | miss hat =>
      exact h'.move (moves_enter hat rfl) (hlooked _) (fun _ _ _ hf _ => hf) (fun _ => rfl)
        (by simp [Phase.Leads]) (by simp [Phase.flight?]) (by simp [Phase.held?]) (by simp)
  | join hat hlisted =>
      exact h'.move (moves_enter hat rfl) hsame (fun _ _ _ hf _ => hf) (fun _ => rfl)
        (by simp [Phase.Leads])
        (fun _ f r hf hr => h'.listed (Option.some.inj hf ▸ hlisted) hr) (by simp [Phase.held?])
        (by simp)
  | found hat hlisted =>
      refine h'.move (moves_enter hat rfl) hsame (fun l f r hf hr => ?_) (resultOf_found rfl)
        (by simp [Phase.Leads]) (fun _ f r hf hr => ?_) (by simp [Phase.held?]) (by simp)
      · have hne : f ≠ cache.flights.length := by
          rintro rfl
          simp [resultOf] at hr
        rw [enter, List.lookup_cons] at hf
        split at hf
        · exact absurd (Option.some.inj hf).symm hne
        · exact hf
      · obtain rfl := Option.some.inj hf
        simp [resultOf] at hr
  | receive hat hresult =>
      exact h'.move (moves_enter hat rfl) hsame (fun _ _ _ hf _ => hf) (fun _ => rfl)
        (by simp [Phase.Leads]) (fun hn f r hf hr => h'.aboard hn hat hf hr)
        (fun hn r hr => h'.aboard hn hat rfl (by simpa [resultOf, hresult, Phase.held?] using hr))
        (by simp)
  | lead hat hfree =>
      exact h'.move (moves_enter hat rfl) hsame (fun _ _ _ hf _ => hf) (resultOf_handOver hfree rfl)
        (by simp [Phase.held?]) (fun hn f r hf hr => h'.aboard hn hat hf hr)
        (by simp [Phase.held?]) (by simp)
  | recheck hat hstored =>
      have hfound := hsame _ _ hstored
      exact h'.move (moves_enter hat rfl) (hlooked _) (fun _ _ _ hf _ => hf) (fun _ => rfl)
        (fun f r _ hr => Option.some.inj hr ▸ hfound) (fun hn f r hf hr => h'.aboard hn hat hf hr)
        (fun _ r hr => Option.some.inj hr ▸ hfound) (by simp)
  | start hat hstored =>
      exact h'.move (moves_enter hat rfl) (hlooked _) (fun _ _ _ hf _ => hf) (fun _ => rfl)
        (by simp [Phase.held?]) (fun hn f r hf hr => h'.aboard hn hat hf hr)
        (by simp [Phase.held?]) (by simp)
  | loaded hat =>
      exact h'.move (moves_enter hat rfl) hsame (fun _ _ _ hf _ => hf) (fun _ => rfl)
        (fun f r _ hr => hnote _ _ (by rw [← Option.some.inj hr]))
        (fun hn f r hf hr => h'.aboard hn hat hf hr)
        (fun _ r hr => hnote _ _ (by rw [← Option.some.inj hr])) (by simp)
  | @land n f k r hat =>
      have hheld : R' k r := h'.led (f := f) hat rfl rfl
      refine h'.move (moves_enter hat rfl) (fun l v hv => ?_) (fun _ _ _ hf _ => hf) (fun _ => rfl)
        (fun _ r hr hr' => h'.led hat hr hr') (fun hn f r hf hr => h'.aboard hn hat hf hr)
        (fun _ r hr => Option.some.inj hr ▸ hheld) (by simp)
      cases r with
      | error e => exact h'.stored hv
      | ok w =>
          rcases Store.find?_put hv with ⟨rfl, rfl⟩ | hv
          · exact hheld
          · exact h'.stored hv
  | publish hat => exact h'.publish hsound hat
  | @leave n f k r hat =>
      refine h'.move (moves_enter hat rfl) hsame (fun l g r' hl _ => ?_) (fun _ => rfl)
        (by simp [Phase.Leads]) (by simp [Phase.flight?]) (by simp [Phase.held?])
        fun hn r' hr' => ⟨r, h'.held (htold n hn) hat rfl, (Phase.finished.inj hr').symm⟩
      rw [Cache.leave, enter, lookup_unlist] at hl
      split at hl
      · cases hl
      · exact hl

end Offers

end Cache

end SqlTemplate
