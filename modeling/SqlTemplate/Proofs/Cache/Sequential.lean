import Mathlib
import SqlTemplate.Cache.Task
import SqlTemplate.Proofs.Cache.Run
import SqlTemplate.Proofs.Statement.Sessions

/-!
# Calls one after the other

What a call does that nobody else disturbs: it finds its value in the store, or it takes all steps
from boarding a flight of its own to leaving it (`Cache.begin_hit`, `Cache.begin_miss`,
`Cache.resume_alone`). For cached statements, it yields what is stored, or what the operation of the
statement yields (`CachedStatement.ask_hit`, `CachedStatement.ask_miss`).
-/

set_option autoImplicit false

namespace SqlTemplate

/-! ## Caches -/

namespace Cache

variable {κ ν : Type} [Lru κ ν] [DecidableEq κ]

section Steps

variable {cache next : Cache κ ν} {number : Nat}

theorem advance_step (h : cache.step number = some next) (count : Nat) :
    advance number (count + 1) cache = advance number count next := by
  rw [advance, h]

theorem advance_stop (h : cache.step number = none) (count : Nat) :
    advance number count cache = cache := by
  cases count with
  | zero => rfl
  | succ count => rw [advance, h]

end Steps

section Alone

variable {store : Store κ ν} {board : List (κ × Nat)} {flights : List (Flight ν)}
  {calls : List (CacheCall κ ν)} {key : κ} {v : ν} {r : Except Error ν}

/-- A cache in which the last call loads, on the only flight that can be boarded. -/
def loadingAlone (store : Store κ ν) (flights : List (Flight ν)) (calls : List (CacheCall κ ν))
    (key : κ) : Cache κ ν :=
  ⟨store, [(key, flights.length)], flights ++ [⟨true, none⟩],
    calls ++ [⟨key, .loading flights.length⟩]⟩

/-- What a store becomes by the result of a load. -/
def stored (store : Store κ ν) (key : κ) : Except Error ν → Store κ ν
  | .ok v => store.put key v
  | .error _ => store

/-- The cache when that call has finished. -/
def loadedAlone (store : Store κ ν) (flights : List (Flight ν)) (calls : List (CacheCall κ ν))
    (key : κ) (r : Except Error ν) : Cache κ ν :=
  ⟨stored store key r, [], flights ++ [⟨false, some r⟩],
    calls ++ [⟨key, .finished (r.mapError .shared)⟩]⟩

/-- A call for a key that is stored takes the value. -/
theorem begin_hit [LawfulLru κ ν] (h : store.find? key = some v) :
    begin ⟨store, board, flights, calls⟩ key = (calls.length,
      ⟨(store.get key).2, board, flights, calls ++ [⟨key, .finished (.ok v)⟩]⟩) := by
  have harrive : step ⟨store, board, flights, calls ++ [⟨key, .arriving⟩]⟩ calls.length
      = some ⟨(store.get key).2, board, flights, calls ++ [⟨key, .finished (.ok v)⟩]⟩ := by
    simp [step, arrive, lookUp_eq, h, enter]
  have hstop : step ⟨(store.get key).2, board, flights, calls ++ [⟨key, .finished (.ok v)⟩]⟩
      calls.length = none := by
    simp [step]
  rw [begin, settle, longest, request, advance_step harrive, advance_stop hstop]

/-- A call for a key that is not stored, with no flight to board, comes to lead a new one, and
loads. -/
theorem begin_miss [LawfulLru κ ν] (h : store.find? key = none) :
    begin ⟨store, [], flights, calls⟩ key
      = (calls.length, loadingAlone store flights calls key) := by
  have hget : (store.get key).2 = store := Store.get_of_none h
  have harrive : step ⟨store, [], flights, calls ++ [⟨key, .arriving⟩]⟩ calls.length
      = some ⟨store, [], flights, calls ++ [⟨key, .boarding⟩]⟩ := by
    simp [step, arrive, lookUp_eq, h, hget, enter]
  have hembark : step ⟨store, [], flights, calls ++ [⟨key, .boarding⟩]⟩ calls.length
      = some ⟨store, [(key, flights.length)], flights ++ [⟨false, none⟩],
          calls ++ [⟨key, .aboard flights.length⟩]⟩ := by
    simp [step, embark, enter]
  have hsit : step ⟨store, [(key, flights.length)], flights ++ [⟨false, none⟩],
        calls ++ [⟨key, .aboard flights.length⟩]⟩ calls.length
      = some ⟨store, [(key, flights.length)], flights ++ [⟨true, none⟩],
          calls ++ [⟨key, .leading flights.length⟩]⟩ := by
    simp [step, sit, enter]
  have hlead : step ⟨store, [(key, flights.length)], flights ++ [⟨true, none⟩],
        calls ++ [⟨key, .leading flights.length⟩]⟩ calls.length
      = some ⟨store, [(key, flights.length)], flights ++ [⟨true, none⟩],
          calls ++ [⟨key, .loading flights.length⟩]⟩ := by
    simp [step, lead, lookUp_eq, h, hget, enter]
  have hstop : step ⟨store, [(key, flights.length)], flights ++ [⟨true, none⟩],
      calls ++ [⟨key, .loading flights.length⟩]⟩ calls.length = none := by
    simp [step]
  rw [begin, settle, longest, request, advance_step harrive, advance_step hembark,
    advance_step hsit, advance_step hlead, advance_stop hstop, loadingAlone]

/-- A call that has loaded alone stores its value, and takes its flight off the board again. -/
theorem resume_alone : (loadingAlone store flights calls key).resume calls.length r
    = loadedAlone store flights calls key r := by
  have hloaded : loaded ⟨store, [(key, flights.length)], flights ++ [⟨true, none⟩],
        calls ++ [⟨key, .loading flights.length⟩]⟩ calls.length r
      = some ⟨store, [(key, flights.length)], flights ++ [⟨true, none⟩],
          calls ++ [⟨key, .landing flights.length r⟩]⟩ := by
    simp [loaded, enter]
  have hland : step ⟨store, [(key, flights.length)], flights ++ [⟨true, none⟩],
        calls ++ [⟨key, .landing flights.length r⟩]⟩ calls.length
      = some ⟨stored store key r, [(key, flights.length)], flights ++ [⟨true, none⟩],
          calls ++ [⟨key, .publishing flights.length r⟩]⟩ := by
    cases r <;> simp [step, land, stored, enter]
  have hpublish : step ⟨stored store key r, [(key, flights.length)], flights ++ [⟨true, none⟩],
        calls ++ [⟨key, .publishing flights.length r⟩]⟩ calls.length
      = some ⟨stored store key r, [(key, flights.length)], flights ++ [⟨false, some r⟩],
          calls ++ [⟨key, .leaving flights.length r⟩]⟩ := by
    simp [step, publish, enter]
  have hleave : step ⟨stored store key r, [(key, flights.length)], flights ++ [⟨false, some r⟩],
        calls ++ [⟨key, .leaving flights.length r⟩]⟩ calls.length
      = some ⟨stored store key r, [], flights ++ [⟨false, some r⟩],
          calls ++ [⟨key, .finished (r.mapError .shared)⟩]⟩ := by
    simp [step, leave, unlist, enter]
  have hstop : step ⟨stored store key r, [], flights ++ [⟨false, some r⟩],
      calls ++ [⟨key, .finished (r.mapError .shared)⟩]⟩ calls.length = none := by
    simp [step]
  rw [resume, loadingAlone, hloaded, Option.getD_some, settle, longest, advance_step hland,
    advance_step hpublish, advance_step hleave, advance_stop hstop, loadedAlone]

end Alone

end Cache

/-! ## Cached statements -/

namespace Service

variable [Lru Key Output] (s : Service) (c c' : Cache Key Output) (op : CachedOp)

@[simp] theorem cache_withCache : (s.withCache c op).cache op = c := by
  cases op <;> rfl

theorem cache_withCache_of_ne {op' : CachedOp} (h : op' ≠ op) :
    (s.withCache c op).cache op' = s.cache op' := by
  cases op <;> cases op' <;> first | rfl | exact absurd rfl h

@[simp] theorem session_withCache : (s.withCache c op).session = s.session := by
  cases op <;> rfl

@[simp] theorem cache_onSession (session : Session) :
    ({ s with session := session } : Service).cache op = s.cache op := by
  cases op <;> rfl

@[simp] theorem withCache_onSession (session : Session) :
    ({ s.withCache c op with session := session } : Service).withCache c' op
      = ({ s with session := session } : Service).withCache c' op := by
  cases op <;> rfl

variable {s c op}

/-- Work on the session leaves the caches alone. -/
theorem onSession_run {α : Type} {action : StateM Session α} {a : α} {last : Session}
    (h : action.run s.session = (a, last)) :
    (onSession action).run s = (a, { s with session := last }) := by
  show ((action.run s.session).1, { s with session := (action.run s.session).2 }) = _
  rw [h]

/-- Work on a cache leaves the session and the other caches alone. -/
theorem onCache_run {α : Type} {f : Cache Key Output → α × Cache Key Output} {a : α}
    (h : f (s.cache op) = (a, c)) : (onCache op f).run s = (a, s.withCache c op) := by
  show ((f (s.cache op)).1, s.withCache (f (s.cache op)).2 op) = _
  rw [h]

end Service

namespace CachedStatement

variable [Lru Key Output] {cs : CachedStatement} {db : Driver} {op : CachedOp} {params : Datum} {s : Service}
  {v : Value} {out : Output} {r : Except Error Output} {store : Store Key Output}
  {board : List (Key × Nat)} {flights : List (Flight Output)} {calls : List (CacheCall Key Output)}
  {key : Key}

theorem runTasks_single (task : Task) : (cs.runTasks db [task]).run s
    = let (running, mid) := (cs.startTask task).run s
      let (reply, last) := (cs.finishTask db running).run mid
      ([reply], last) := rfl

/-- Operations that are not cached leave the caches alone. -/
theorem run_access (a : Access) : (cs.runTasks db [.access a params]).run s
    = let outcome := (cs.statement.run db a params).run s.session
      ([some (outcome.1.map .output)], { s with session := outcome.2 }) := by
  rcases hs : (cs.statement.start a params).run s.session with ⟨result | pending, session⟩
  · have hrun : (cs.statement.run db a params).run s.session = (result, session) := by
      rw [Statement.run, run_bind_of hs]
      rfl
    rw [hrun, runTasks_single, startTask, run_bind_of (Service.onSession_run hs)]
    rfl
  · have hrun : (cs.statement.run db a params).run s.session
        = (cs.statement.finish pending (db pending.request)).run session := by
      rw [Statement.run, run_bind_of hs]
    rw [hrun, runTasks_single, startTask, run_bind_of (Service.onSession_run hs)]
    rfl

theorem progress_finished {number : Nat} (h : (s.cache op).result? number = some r) :
    (progress op number).run s = (.finished r, s) := by
  have hresult : (result? op number).run s = (some r, s) := by
    rw [← h]
    rfl
  rw [progress, run_bind_of hresult]
  rfl

/-- Parameters that have no value are refused, and nothing is touched. -/
theorem ask_refused {fault : ReflectionFault} (hvalue : params.toValue = .error fault) :
    (cs.runTasks db [.cached op params]).run s = ([some (.error (.reflection fault))], s) := by
  have hstart : (cs.start op params).run s = (.finished (.error (.reflection fault)), s) := by
    rw [start, hvalue]
    rfl
  rw [runTasks_single, startTask, run_bind_of hstart]
  rfl

/-- A call for what is stored yields it, and touches nothing but the cache. -/
theorem ask_hit [LawfulLru Key Output] (hvalue : params.toValue = .ok v)
    (hcache : s.cache op = ⟨store, board, flights, calls⟩)
    (hstored : store.find? (cs.keyOf v) = some out) :
    (cs.runTasks db [.cached op params]).run s = ([some (.ok (.output out))],
      s.withCache ⟨(store.get (cs.keyOf v)).2, board, flights,
        calls ++ [⟨cs.keyOf v, .finished (.ok out)⟩]⟩ op) := by
  set next := s.withCache ⟨(store.get (cs.keyOf v)).2, board, flights,
    calls ++ [⟨cs.keyOf v, .finished (.ok out)⟩]⟩ op with hnext
  have hbegin : (Service.onCache op fun cache => cache.begin (cs.keyOf v)).run s
      = (calls.length, next) :=
    Service.onCache_run (by rw [hcache, Cache.begin_hit hstored])
  have hfinished : (next.cache op).result? calls.length = some (.ok out) := by
    simp [hnext, Cache.result?]
  have hstart : (cs.start op params).run s = (.finished (.ok out), next) := by
    rw [start, hvalue]
    refine (run_bind_of hbegin).trans ((run_bind_of (m := get) rfl).trans ?_)
    rw [if_neg (by simp [hnext, Cache.isLoading])]
    exact progress_finished hfinished
  rw [runTasks_single, startTask, run_bind_of hstart]
  rfl

/-- A call that is not stored goes on to load, while no other call is on its way. -/
theorem start_alone [LawfulLru Key Output] (hvalue : params.toValue = .ok v)
    (hcache : s.cache op = ⟨store, [], flights, calls⟩)
    (hstored : store.find? (cs.keyOf v) = none) :
    (cs.start op params).run s = (do
      match ← Service.onSession (cs.statement.start op.access params) with
      | .finished result => land op calls.length result
      | .waiting pending => return .loading calls.length pending : StateM Service Progress).run
        (s.withCache (Cache.loadingAlone store flights calls (cs.keyOf v)) op) := by
  have hbegin : (Service.onCache op fun cache => cache.begin (cs.keyOf v)).run s
      = (calls.length, s.withCache (Cache.loadingAlone store flights calls (cs.keyOf v)) op) :=
    Service.onCache_run (by rw [hcache, Cache.begin_miss hstored])
  rw [start, hvalue]
  refine (run_bind_of hbegin).trans ((run_bind_of (m := get) rfl).trans ?_)
  exact congrArg (StateT.run · _) (if_pos (by simp [Cache.loadingAlone, Cache.isLoading]))

/-- A call that has loaded alone ends with the result of its load. -/
theorem land_alone (session : Session) (r : Except Error Output) :
    (land op calls.length r).run
        { s.withCache (Cache.loadingAlone store flights calls key) op with session := session }
      = (.finished (r.mapError .shared), ({ s with session := session } : Service).withCache
          (Cache.loadedAlone store flights calls key r) op) := by
  have hresume : (Service.onCache op fun cache => ((), cache.resume calls.length r)).run
        { s.withCache (Cache.loadingAlone store flights calls key) op with session := session }
      = ((), ({ s with session := session } : Service).withCache
          (Cache.loadedAlone store flights calls key r) op) := by
    rw [Service.onCache_run (a := ()) (by rw [Service.cache_onSession, Service.cache_withCache,
      Cache.resume_alone]), Service.withCache_onSession]
  rw [land, run_bind_of hresume]
  exact progress_finished (by simp [Cache.loadedAlone, Cache.result?])

/-- A call for what is not stored, while no other call is on its way, yields what the operation of
the statement yields, and stores its value. -/
theorem ask_miss [LawfulLru Key Output] (hvalue : params.toValue = .ok v)
    (hcache : s.cache op = ⟨store, [], flights, calls⟩)
    (hstored : store.find? (cs.keyOf v) = none) :
    (cs.runTasks db [.cached op params]).run s =
      let outcome := (cs.statement.run db op.access params).run s.session
      ([some ((outcome.1.mapError .shared).map .output)],
        ({ s with session := outcome.2 } : Service).withCache
          (Cache.loadedAlone store flights calls (cs.keyOf v) outcome.1) op) := by
  have hopen := start_alone hvalue hcache hstored
  set mid := s.withCache (Cache.loadingAlone store flights calls (cs.keyOf v)) op with hmid
  have hsession : mid.session = s.session := Service.session_withCache ..
  rcases hs : (cs.statement.start op.access params).run s.session with ⟨r | pending, session⟩
  · have hrun : (cs.statement.run db op.access params).run s.session = (r, session) := by
      rw [Statement.run, run_bind_of hs]
      rfl
    have hstart := hopen.trans (run_bind_of (Service.onSession_run (hsession ▸ hs)))
    rw [hrun, runTasks_single, startTask, run_bind_of (hstart.trans (land_alone session r))]
    rfl
  · have hrun : (cs.statement.run db op.access params).run s.session
        = (cs.statement.finish pending (db pending.request)).run session := by
      rw [Statement.run, run_bind_of hs]
    have hstart := hopen.trans (run_bind_of (Service.onSession_run (hsession ▸ hs)))
    have htask : (cs.startTask (.cached op params)).run s
        = (.cached op (.loading calls.length pending), { mid with session := session }) := by
      rw [startTask, run_bind_of hstart]
      rfl
    rcases hf : (cs.statement.finish pending (db pending.request)).run session with ⟨r, last⟩
    have hproceed : (cs.proceed op (db pending.request) (.loading calls.length pending)).run
        { mid with session := session } = _ :=
      (run_bind_of (Service.onSession_run hf)).trans (land_alone last r)
    rw [hrun, hf, runTasks_single, htask]
    dsimp only
    rw [finishTask, answerTo, run_bind_of hproceed]
    rfl

end CachedStatement

end SqlTemplate
