import Mathlib
import SqlTemplate.Proofs.Cache.Encoding
import SqlTemplate.Proofs.Cache.Sequential

/-!
# Caches do not show

A cached operation yields what the operation of the statement would, whatever was asked of the
statement and its caches before, and whatever the caches have forgotten since
(`CachedStatement.transparent`). Two things make this so: what an operation yields depends on the
value of its parameters only, and the keys of different values are different, unless digests
collide.
-/

set_option autoImplicit false

namespace SqlTemplate

/-- The value whose key a task uses, if it is a cached operation on parameters that have one. -/
def Task.value? : Task → Option Value
  | .cached _ params => params.toValue.toOption
  | _ => none

/-- The values whose keys tasks use. -/
def asked (tasks : List Task) : List Value :=
  tasks.filterMap Task.value?

theorem asked_plain {tasks : List Task} {v : Value} (h : v ∈ asked tasks) :
    v.Every Value.Plain := by
  obtain ⟨task, -, hvalue⟩ := List.mem_filterMap.mp h
  cases task with
  | cached op params =>
      cases hparams : params.toValue with
      | error fault => simp [Task.value?, hparams, Except.toOption] at hvalue
      | ok w =>
          obtain rfl : w = v := by simpa [Task.value?, hparams, Except.toOption] using hvalue
          exact Datum.toValue_plain hparams
  | _ => cases hvalue

namespace CachedStatement

section Caches

variable [Lru Key Output]

/-- Runs tasks one after the other, each when the one before it has finished. -/
def serve (cs : CachedStatement) (db : Driver) : List Task → Service → Service
  | [], s => s
  | task :: rest, s => serve cs db rest ((cs.runTasks db [task]).run s).2

/-- Whether an operation of the statement, on parameters of the value, yields the output. -/
def Yields (cs : CachedStatement) (db : Driver) (op : CachedOp) (v : Value) (out : Output) : Prop :=
  ∀ params s, params.toValue = .ok v → s.Clean →
    ((cs.statement.run db op.access params).run s).1 = .ok out

/-- Whether no call is on its way, and every stored output is what the operation yields for one of
the values, under the key of the value. -/
structure Faithful (cs : CachedStatement) (db : Driver) (values : List Value) (s : Service) :
    Prop where
  clean : s.session.Clean
  quiet (op : CachedOp) : (s.cache op).board = []
  stored {op : CachedOp} {key : Key} {out : Output} : (s.cache op).store.find? key = some out →
    ∃ v ∈ values, cs.keyOf v = key ∧ cs.Yields db op v out

section Faithful

variable {cs : CachedStatement} {db : Driver} {values : List Value} {s : Service} {op : CachedOp}
  {params : Datum} {v : Value}

theorem faithful_empty [LawfulLru Key Output] (capacity : Option Nat) :
    cs.Faithful db values (.empty capacity) where
  clean := Session.clean_empty
  quiet op := by cases op <;> rfl
  stored {op key _} h := by
    have hempty := Store.find?_empty (ν := Output) capacity key
    cases op <;> exact absurd (hempty.symm.trans h) nofun

/-- Nothing that happens to the session changes what is stored. -/
theorem Faithful.onSession (h : cs.Faithful db values s) {session : Session}
    (hsession : session.Clean) : cs.Faithful db values { s with session := session } where
  clean := hsession
  quiet op := by
    rw [Service.cache_onSession]
    exact h.quiet op
  stored hmem := by
    rw [Service.cache_onSession] at hmem
    exact h.stored hmem

theorem Faithful.withCache (h : cs.Faithful db values s) {cache : Cache Key Output}
    (hboard : cache.board = [])
    (hstored : ∀ key out, cache.store.find? key = some out →
      ∃ v ∈ values, cs.keyOf v = key ∧ cs.Yields db op v out) :
    cs.Faithful db values (s.withCache cache op) := by
  refine ⟨by rw [Service.session_withCache]; exact h.clean, fun op' => ?_, fun {op' key out} hmem => ?_⟩
  · by_cases hop : op' = op
    · subst hop
      rw [Service.cache_withCache, hboard]
    · rw [Service.cache_withCache_of_ne s cache op hop, h.quiet]
  · by_cases hop : op' = op
    · subst hop
      rw [Service.cache_withCache] at hmem
      exact hstored key out hmem
    · rw [Service.cache_withCache_of_ne s cache op hop] at hmem
      exact h.stored hmem

/-- What an operation yields on a clean session, it yields on all of them. -/
theorem Faithful.yields (h : cs.Faithful db values s) (hvalue : params.toValue = .ok v)
    {out : Output} (hout : ((cs.statement.run db op.access params).run s.session).1 = .ok out) :
    cs.Yields db op v out := by
  intro params' s' hvalue' hs'
  rw [← hout]
  exact Statement.run_eq hs' h.clean (hvalue'.trans hvalue.symm)

theorem Faithful.clear [LawfulLru Key Output] (h : cs.Faithful db values s) :
    cs.Faithful db values s.clear where
  clean := h.clean
  quiet op := by
    have hboard := h.quiet op
    cases op <;> exact hboard
  stored {op key _} hfound := by
    have hempty := Store.find?_clear (s.cache op).store key
    cases op <;> exact absurd (hempty.symm.trans hfound) nofun

theorem Faithful.cache_eq (h : cs.Faithful db values s) (op : CachedOp) :
    ∃ store flights calls, s.cache op = ⟨store, [], flights, calls⟩ := by
  have hboard := h.quiet op
  generalize s.cache op = cache at hboard
  obtain ⟨store, board, flights, calls⟩ := cache
  exact ⟨store, flights, calls, congrArg (Cache.mk store · flights calls) hboard⟩

/-- A cached operation stores at most what it yields itself. -/
theorem Faithful.ask [LawfulLru Key Output] (h : cs.Faithful db values s)
    (hmem : ∀ v, params.toValue = .ok v → v ∈ values) :
    cs.Faithful db values ((cs.runTasks db [.cached op params]).run s).2 := by
  cases hvalue : params.toValue with
  | error fault =>
      rw [ask_refused hvalue]
      exact h
  | ok v =>
      obtain ⟨store, flights, calls, hcache⟩ := h.cache_eq op
      have hold : ∀ key out, store.find? key = some out →
          ∃ v ∈ values, cs.keyOf v = key ∧ cs.Yields db op v out := fun key out hfound =>
        h.stored (by rwa [hcache])
      cases hstored : store.find? (cs.keyOf v) with
      | some out =>
          rw [ask_hit hvalue hcache hstored]
          refine h.withCache rfl fun key out hfound => hold key out ?_
          rwa [← Store.find?_get store (cs.keyOf v)]
      | none =>
          have hyields : ∀ out, ((cs.statement.run db op.access params).run s.session).1 = .ok out →
              cs.Yields db op v out := fun out hout => h.yields hvalue hout
          have hclean : ((cs.statement.run db op.access params).run s.session).2.Clean :=
            Statement.run_clean h.clean
          rw [ask_miss hvalue hcache hstored]
          generalize (cs.statement.run db op.access params).run s.session = outcome at hyields hclean
          obtain ⟨r, session⟩ := outcome
          refine (h.onSession hclean).withCache rfl fun key out hfound => ?_
          cases r with
          | error e => exact hold key out hfound
          | ok yielded =>
              rcases Store.find?_put hfound with ⟨rfl, rfl⟩ | hfound
              · exact ⟨v, hmem v hvalue, rfl, hyields out rfl⟩
              · exact hold key out hfound

/-- **Caches stay faithful, whatever is asked.** -/
theorem Faithful.task [LawfulLru Key Output] (h : cs.Faithful db values s) {task : Task}
    (hmem : ∀ v, task.value? = some v → v ∈ values) :
    cs.Faithful db values ((cs.runTasks db [task]).run s).2 := by
  cases task with
  | render params => exact h.onSession (Statement.render_clean h.clean)
  | access a params =>
      rw [run_access]
      exact h.onSession (Statement.run_clean h.clean)
  | cached op params =>
      exact h.ask fun v hvalue => hmem v (by rw [Task.value?, hvalue]; rfl)
  | size => exact h
  | clear => exact h.clear

theorem Faithful.serve [LawfulLru Key Output] {history : List Task} (h : cs.Faithful db values s)
    (hmem : ∀ v ∈ asked history, v ∈ values) :
    cs.Faithful db values (cs.serve db history s) := by
  induction history generalizing s with
  | nil => exact h
  | cons task rest ih =>
      refine ih (h.task fun v hv => hmem v ?_) fun v hv => hmem v ?_
      · simp [asked, hv]
      · rw [asked, List.filterMap_cons]
        split
        · exact hv
        · exact List.mem_cons_of_mem _ hv

/-- A call on faithful caches yields what the operation of the statement yields, if keys tell the
values apart. -/
theorem Faithful.reply [LawfulLru Key Output] (h : cs.Faithful db values s)
    (hkeys : ∀ v ∈ values, ∀ w ∈ values, cs.keyOf v = cs.keyOf w → v = w)
    (hvalue : params.toValue = .ok v) (hmem : v ∈ values) :
    ((cs.runTasks db [.cached op params]).run s).1
      = [some ((((cs.statement.run db op.access params).run s.session).1.mapError .shared).map
          .output)] := by
  obtain ⟨store, flights, calls, hcache⟩ := h.cache_eq op
  cases hstored : store.find? (cs.keyOf v) with
  | none =>
      rw [ask_miss hvalue hcache hstored]
  | some out =>
      have hfound : (s.cache op).store.find? (cs.keyOf v) = some out := by rwa [hcache]
      obtain ⟨w, hw, hkey, hyields⟩ := h.stored hfound
      obtain rfl := hkeys w hw v hmem hkey
      rw [ask_hit hvalue hcache hstored, hyields params s.session hvalue h.clean]
      rfl

/-- What a call yields is stored when it has ended. -/
theorem Faithful.keeps [LawfulLru Key Output] (h : cs.Faithful db values s)
    (hvalue : params.toValue = .ok v) {out : Output}
    (hout : ((cs.statement.run db op.access params).run s.session).1 = .ok out) :
    ((((cs.runTasks db [.cached op params]).run s).2).cache op).store.Has (cs.keyOf v) := by
  obtain ⟨store, flights, calls, hcache⟩ := h.cache_eq op
  cases hstored : store.find? (cs.keyOf v) with
  | some known =>
      rw [ask_hit hvalue hcache hstored, Service.cache_withCache, Store.has_get, Store.Has, hstored]
      rfl
  | none =>
      rw [ask_miss hvalue hcache hstored, Service.cache_withCache, hout, Cache.loadedAlone,
        Cache.stored, Store.Has, Store.find?_put_self]
      rfl

end Faithful

end Caches

/-- The keys of values tell them apart as far as their digests tell the encodings apart. -/
theorem key_inj {values : List Value} (hdata : ∀ v ∈ values, v.IsData)
    (hcollision : ∀ v ∈ values, ∀ w ∈ values,
      Blake3.digest v.encode = Blake3.digest w.encode → v.encode = w.encode) :
    ∀ v ∈ values, ∀ w ∈ values, Key.of v = Key.of w → v = w := by
  intro v hv w hw hkey
  have hencode := hcollision v hv w hw (congrArg Key.bytes hkey)
  exact (Value.encode_append_inj (hdata v hv) (hdata w hw) (congrArg (· ++ []) hencode)).1

/-- **Caches do not show.** Let tasks be run one after the other on a statement and its caches, of
any capacity and with the standard keys, and let the digests of the encodings that are asked for not
collide. Then a cached operation yields an output if and only if the operation of the statement
yields it on the same parameters. If that fails, and the parameters have a value, the cached
operation fails with the same error, marked as shared. Parameters that have no value are refused with
the reason for that, and nothing is touched. And if something is stored under the key of the
parameters, then nothing happens in the session: no hook is run and no driver asked, and what is
yielded is the same for any other statement and driver. -/
theorem transparent [Lru Key Output] [LawfulLru Key Output] {cs : CachedStatement}
    (hstandard : cs.keyOf = Key.of) (db : Driver) (capacity : Option Nat) (history : List Task)
    (op : CachedOp) (params : Datum)
    (hfits : ∀ v ∈ asked (history ++ [.cached op params]), v.Every Value.Fits)
    (hcollision : ∀ v ∈ asked (history ++ [.cached op params]),
      ∀ w ∈ asked (history ++ [.cached op params]),
        Blake3.digest v.encode = Blake3.digest w.encode → v.encode = w.encode) :
    let before := cs.serve db history (.empty capacity)
    let outcome := (cs.runTasks db [.cached op params]).run before
    let uncached := ((cs.statement.run db op.access params).run before.session).1
    (∀ out, outcome.1 = [some (.ok (.output out))] ↔ uncached = .ok out) ∧
    (∀ v e, params.toValue = .ok v → uncached = .error e →
      outcome.1 = [some (.error (.shared e))]) ∧
    (∀ fault, params.toValue = .error fault →
      outcome = ([some (.error (.reflection fault))], before)) ∧
    ∀ v, params.toValue = .ok v → (before.cache op).store.Has (Key.of v) →
      outcome.2.session = before.session ∧
      ∀ cs' : CachedStatement, ∀ db', cs'.keyOf = Key.of →
        (cs'.runTasks db' [.cached op params]).run before = outcome := by
  intro before outcome uncached
  have hfaithful : cs.Faithful db (asked (history ++ [.cached op params])) before :=
    (faithful_empty capacity).serve fun v hv => by
      rw [asked, List.filterMap_append]
      exact List.mem_append_left _ hv
  have hkeys := key_inj (fun v hv => ⟨asked_plain hv, hfits v hv⟩) hcollision
  have hreply : ∀ v, params.toValue = .ok v →
      outcome.1 = [some ((uncached.mapError .shared).map .output)] := by
    intro v hvalue
    refine hfaithful.reply (hstandard ▸ hkeys) hvalue ?_
    simp [asked, Task.value?, hvalue, Except.toOption]
  refine ⟨fun out => ?_, fun v e hvalue he => ?_, fun fault hvalue => ask_refused hvalue,
    fun v hvalue hstored => ?_⟩
  · cases hvalue : params.toValue with
    | error fault =>
        have hrefused : outcome.1 = [some (.error (.reflection fault))] :=
          congrArg Prod.fst (ask_refused hvalue)
        rw [hrefused]
        exact ⟨nofun, fun h => absurd h (Statement.run_refused hvalue before.session out)⟩
    | ok v =>
        rw [hreply v hvalue]
        cases uncached with
        | error e => exact ⟨nofun, nofun⟩
        | ok yielded => simp [Except.mapError, Except.map]
  · rw [hreply v hvalue, he]
    rfl
  · obtain ⟨store, flights, calls, hcache⟩ := hfaithful.cache_eq op
    rw [hcache] at hstored
    obtain ⟨out, hout⟩ := Option.isSome_iff_exists.mp hstored
    have hhit : ∀ cs' : CachedStatement, ∀ db', cs'.keyOf = Key.of →
        (cs'.runTasks db' [.cached op params]).run before = ([some (.ok (.output out))],
          before.withCache ⟨(store.get (Key.of v)).2, [], flights,
            calls ++ [⟨Key.of v, .finished (.ok out)⟩]⟩ op) := by
      intro cs' db' hstandard'
      rw [← hstandard'] at hout ⊢
      exact ask_hit hvalue hcache hout
    have houtcome := hhit cs db hstandard
    refine ⟨?_, fun cs' db' hstandard' => (hhit cs' db' hstandard').trans houtcome.symm⟩
    rw [show outcome = _ from houtcome, Service.session_withCache]

/-- Of an operation that is asked for twice, the second time is served from the cache. -/
theorem transparent_twice :
    let template : Template := ⟨"t", [.text "SELECT ", .action 1 ⟨[], false, [[.dot]]⟩]⟩
    let st : Statement := ⟨⟨template.mark, standardFunctions, .question, .invalid⟩, .int .i64,
      .int .i64, Config.standard.transforms, [], [.ok], [], 1⟩
    let cs : CachedStatement := ⟨st, Key.of⟩
    let db : Driver := fun request => .ok (.rows ⟨["n"], [request.args]⟩)
    let ask : Task := .cached .first (.int .i64 7)
    let before := cs.serve db [ask] (.empty (some 2))
    let outcome := (cs.runTasks db [ask]).run before
    outcome.1 = [some (.ok (.output (.value (.int .i64 7))))] ∧
      outcome.2.session = before.session := by
  intro template st cs db ask before outcome
  have hvalue : (Datum.int .i64 7).toValue = .ok (.int 7) := rfl
  have hrun : ((st.run db CachedOp.first.access (.int .i64 7)).run Session.empty).1
      = .ok (.value (.int .i64 7)) := rfl
  have hempty : cs.Faithful db [.int 7] (.empty (some 2)) := faithful_empty _
  have hbefore : cs.Faithful db [.int 7] before := hempty.serve fun v hv => hv
  have hstored : (before.cache .first).store.Has (Key.of (.int 7)) :=
    hempty.keeps hvalue hrun
  have huncached : ((st.run db .first (.int .i64 7)).run before.session).1
      = .ok (.value (.int .i64 7)) :=
    (Statement.run_eq hbefore.clean Session.clean_empty rfl).trans hrun
  have hvalues : asked ([ask] ++ [ask]) = [.int 7, .int 7] := rfl
  obtain ⟨hyields, -, -, hhit⟩ := @transparent _ _ cs rfl db (some 2) [ask] .first
    (.int .i64 7) (by rw [hvalues]; simp [Value.Every, Value.Fits]) (by rw [hvalues]; simp)
  refine ⟨(hyields _).mpr huncached, ?_⟩
  have hsession := (hhit (.int 7) hvalue hstored).1
  simpa only [outcome, before, ask] using hsession

/-- An integer beyond 64 bits has no value, and the error of the operation is not shared. -/
theorem refused_not_shared :
    let template : Template := ⟨"t", [.text "SELECT ", .action 1 ⟨[], false, [[.dot]]⟩]⟩
    let st : Statement := ⟨⟨template.mark, standardFunctions, .question, .invalid⟩,
      .int ⟨false, .w64⟩, .int .i64, Config.standard.transforms, [], [], [], 0⟩
    let cs : CachedStatement := ⟨st, Key.of⟩
    let db : Driver := fun request => .ok (.rows ⟨["n"], [request.args]⟩)
    let params : Datum := .int ⟨false, .w64⟩ 9223372036854775808
    let e : Error := .reflection (.tooWide 9223372036854775808)
    ((st.run db .first params).run Session.empty).1 = .error e ∧
      ((cs.runTasks db [.cached .first params]).run (.empty none)).1 ≠ [some (.error (.shared e))] := by
  intro template st cs db params e
  have hvalue : params.toValue = .error (.tooWide 9223372036854775808) := rfl
  refine ⟨rfl, ?_⟩
  rw [ask_refused hvalue]
  nofun

end CachedStatement

end SqlTemplate
