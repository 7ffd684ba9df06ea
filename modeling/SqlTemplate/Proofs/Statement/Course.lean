import Mathlib
import SqlTemplate.Proofs.Statement.Sessions

/-!
# The course of an operation

What happens in an operation, from its start to its end, said without its steps: hooks are told
before the template, the driver is asked, mappers are applied, hooks pass on an error, and hooks are
told of the end (`Statement.run_course`). All hooks at the end are shown one and the same call, whose
text and arguments are those that the driver was sent; but if the template fails, they are shown what
it had made by then (`Statement.run_shown`).

The runner that an operation borrows is empty, which every session sees to that starts empty.
-/

set_option autoImplicit false

namespace SqlTemplate

open Step

/-! ## Steps that only tell -/

/-- A step that tells something yields and tells the same behind other events. -/
theorem Step.Tells.run_eq {α : Type} {P : Event → Prop} {m : Step α} (h : Tells P m)
    (events : List Event) :
    m.run.run events = ((m.run.run []).1, events ++ (m.run.run []).2) ∧
      ∀ event ∈ (m.run.run []).2, P event := by
  obtain ⟨result, told, htold, hrun⟩ := h
  rw [hrun, hrun, List.nil_append]
  exact ⟨rfl, htold⟩

/-- What a hook is shown at the end of an operation. -/
def Event.shown? : Event → Option Call
  | .replaced _ _ call => some call
  | .ended _ call _ => some call
  | _ => none

namespace Statement

/-! ## Without steps -/

/-- How the template is executed for an operation, if it comes to that, and what has been made. -/
def rendering (st : Statement) (op : Op) (params : Datum) : Except Error Unit × Rendering :=
  match st.scopeOf op params with
  | .error e => (.error e, .empty)
  | .ok scope =>
    ((Rendering.run st.recipe scope.params scope.vars .empty).1.mapError .eval,
      (Rendering.run st.recipe scope.params scope.vars .empty).2)

/-- What the driver is asked in an operation, unless the operation fails before. -/
def request? (st : Statement) (a : Access) (params : Datum) : Option Request :=
  match st.rendering (.access a) params with
  | (.error _, _) => none
  | (.ok _, made) => some ⟨a.isExec, made.text.text, made.args⟩

/-- What the hooks at the end of an operation are shown. -/
def shown (st : Statement) (a : Access) (params : Datum) : Call :=
  ⟨st.name, .access a, (st.rendering (.access a) params).2.text.text,
    (st.rendering (.access a) params).2.args⟩

/-- What an operation makes of what the driver answers, and the mappers that are applied for it. -/
def received (st : Statement) (a : Access) (made : Rendering) :
    Except Error Answer → Except Error Output × List Event
  | .error e => (.error e, [])
  | .ok answer => (a.finish st.transforms st.dest made.targets answer).run.run []

/-- What comes of an operation before its hooks have their say, and the mappers that are applied for
it. -/
def outcome (st : Statement) (db : Driver) (a : Access) (params : Datum) :
    Except Error Output × List Event :=
  match st.rendering (.access a) params with
  | (.error e, _) => (.error e, [])
  | (.ok _, made) => st.received a made (db ⟨a.isExec, made.text.text, made.args⟩)

section Without

variable {st : Statement} {a : Access} {op : Op} {params : Datum}

theorem rendering_of_error {e : Error} (h : st.scopeOf op params = .error e) :
    st.rendering op params = (.error e, .empty) := by
  rw [rendering, h]

theorem rendering_of_ok {scope : Scope} (h : st.scopeOf op params = .ok scope) :
    st.rendering op params =
      ((Rendering.run st.recipe scope.params scope.vars .empty).1.mapError .eval,
        (Rendering.run st.recipe scope.params scope.vars .empty).2) := by
  rw [rendering, h]

theorem scopeOf_eq_ok {scope : Scope} : st.scopeOf op params = .ok scope ↔
    ∃ v, params.toValue = .ok v ∧ passBefore st.before (st.firstScope op v) = .ok scope := by
  rw [scopeOf]
  cases params.toValue with
  | error fault =>
      constructor
      · intro h
        cases h
      · rintro ⟨v, hv, -⟩
        cases hv
  | ok v =>
      constructor
      · exact fun h => ⟨v, rfl, h⟩
      · rintro ⟨_, ⟨⟩, h⟩
        exact h

/-- The driver is asked if and only if the parameters have a value, no hook before the template
fails, and neither does the template. -/
theorem request?_eq_some {request : Request} : st.request? a params = some request ↔
    ∃ v scope made, params.toValue = .ok v ∧
      passBefore st.before (st.firstScope (.access a) v) = .ok scope ∧
      Rendering.run st.recipe scope.params scope.vars .empty = (.ok (), made) ∧
      request = ⟨a.isExec, made.text.text, made.args⟩ := by
  rw [request?]
  cases hscope : st.scopeOf (.access a) params with
  | error e =>
      rw [rendering_of_error hscope]
      constructor
      · nofun
      · rintro ⟨v, scope, made, hv, hpass, -⟩
        cases hscope.symm.trans (scopeOf_eq_ok.mpr ⟨v, hv, hpass⟩)
  | ok scope =>
      obtain ⟨v, hv, hpass⟩ := scopeOf_eq_ok.mp hscope
      rw [rendering_of_ok hscope]
      rcases hrun : Rendering.run st.recipe scope.params scope.vars .empty with ⟨result, made⟩
      constructor
      · intro h
        cases result with
        | error fault => cases h
        | ok _ => exact ⟨v, scope, made, hv, hpass, hrun, (Option.some.inj h).symm⟩
      · rintro ⟨v', scope', made', hv', hpass', hrun', rfl⟩
        cases hv.symm.trans hv'
        cases hpass.symm.trans hpass'
        cases hrun.symm.trans hrun'
        rfl

/-- Everything that is asked is shown. -/
theorem shown_of_request {request : Request} (h : st.request? a params = some request) :
    (st.shown a params).sql = request.sql ∧ (st.shown a params).args = request.args := by
  rw [request?] at h
  rw [shown]
  split at h
  · cases h
  · rename_i made hmade
    cases h
    rw [hmade]
    exact ⟨rfl, rfl⟩

end Without

/-! ## Step by step -/

section Steps

variable {st : Statement} {db : Driver} {a : Access} {op : Op} {params : Datum} {runner : Runner}

theorem acquire_events (s : Session) : (Session.acquire.run s).2.events = s.events := by
  obtain ⟨⟨idle, count⟩, events⟩ := s
  cases idle <;> rfl

theorem acquire_clean {s : Session} (hs : s.Clean) : ∃ runner lent,
    Session.acquire.run s = (runner, lent) ∧ runner.made = .empty ∧ lent.events = s.events :=
  ⟨_, _, rfl, (Session.alike_acquire s s hs hs).1.1, acquire_events s⟩

theorem step_run {α : Type} (action : Step α) (s : Session) :
    (Session.step action).run s =
      ((action.run.run s.events).1, { s with events := (action.run.run s.events).2 }) := rfl

theorem step_openScope (s : Session) : (Session.step (st.openScope op params)).run s =
    (st.scopeOf op params, { s with events := s.events ++ st.scopeEvents op params }) := by
  rw [step_run, run_openScope]

/-- On an empty runner, what is made is what can be said without steps. -/
theorem prepare_run (st : Statement) (op : Op) (params : Datum) (h : runner.made = .empty)
    (s : Session) :
    (st.prepare op params runner).run s =
      (((st.rendering op params).1, { runner with made := (st.rendering op params).2 }),
        { s with events := s.events ++ st.scopeEvents op params }) := by
  rw [prepare, run_bind_of (step_openScope s)]
  cases hscope : st.scopeOf op params with
  | error e =>
      rw [rendering_of_error hscope, ← h]
      rfl
  | ok scope =>
      rw [rendering_of_ok hscope]
      dsimp only
      rw [h]
      rfl

theorem prepare_session (st : Statement) (op : Op) (params : Datum) (runner : Runner)
    (s : Session) : ((st.prepare op params runner).run s).2 =
    { s with events := s.events ++ st.scopeEvents op params } := by
  rw [prepare, run_bind_of (step_openScope s)]
  cases st.scopeOf op params <;> rfl

theorem close_run (st : Statement) (a : Access) (runner : Runner) (result : Except Error Output)
    (s : Session) :
    ((st.close a runner result).run s).1 = st.settled (st.callOf a runner) result ∧
      ((st.close a runner result).run s).2.events =
        s.events ++ st.concludeEvents (st.callOf a runner) result := by
  have hconclude : (Session.step (st.conclude (st.callOf a runner) result)).run s =
      (st.settled (st.callOf a runner) result,
        { s with events := s.events ++ st.concludeEvents (st.callOf a runner) result }) := by
    rw [step_run, run_conclude]
  rw [close, run_bind_of hconclude]
  exact ⟨rfl, rfl⟩

/-- An operation that fails before the driver is asked is over then. -/
theorem start_refused {s : Session} (hs : s.Clean) {e : Error} {made : Rendering}
    (h : st.rendering (.access a) params = (.error e, made)) : ∃ last,
    (st.start a params).run s = (.finished (st.settled (st.shown a params) (.error e)), last) ∧
      last.events = s.events ++ st.scopeEvents (.access a) params ++
        st.concludeEvents (st.shown a params) (.error e) := by
  obtain ⟨runner, lent, hlent, hempty, hevents⟩ := acquire_clean hs
  have hprepare := prepare_run st (.access a) params hempty lent
  rw [h] at hprepare
  -- What is left in the runner is what the hooks are shown.
  have hshown : st.callOf a { runner with made := made } = st.shown a params := by
    rw [callOf, shown, h]
  have hclose := close_run st a { runner with made := made } (.error e)
    { lent with events := lent.events ++ st.scopeEvents (.access a) params }
  rw [hshown, hevents] at hclose
  refine ⟨_, ?_, hclose.2⟩
  rw [start, run_bind_of hlent, run_bind_of hprepare, hevents, ← hclose.1]
  rfl

theorem start_asked {s : Session} (hs : s.Clean) {made : Rendering}
    (h : st.rendering (.access a) params = (.ok (), made)) : ∃ runner last,
    (st.start a params).run s =
        (.waiting ⟨a, runner, ⟨a.isExec, made.text.text, made.args⟩⟩, last) ∧
      runner.made = made ∧
      last.events = s.events ++ st.scopeEvents (.access a) params ++
        [.asked ⟨a.isExec, made.text.text, made.args⟩] := by
  obtain ⟨runner, lent, hlent, hempty, hevents⟩ := acquire_clean hs
  have hprepare := prepare_run st (.access a) params hempty lent
  rw [h, hevents] at hprepare
  refine ⟨{ runner with made := made },
    { lent with events := s.events ++ st.scopeEvents (.access a) params ++
        [.asked ⟨a.isExec, made.text.text, made.args⟩] }, ?_, rfl, rfl⟩
  rw [start, run_bind_of hlent, run_bind_of hprepare]
  rfl

/-- The second half of an operation, whatever has happened since the first. -/
theorem finish_run (st : Statement) (a : Access) (runner : Runner) (request : Request)
    (answer : Except Error Answer) (s : Session) :
    ((st.finish ⟨a, runner, request⟩ answer).run s).1 =
        st.settled (st.callOf a runner) (st.received a runner.made answer).1 ∧
      ((st.finish ⟨a, runner, request⟩ answer).run s).2.events =
        s.events ++ (st.received a runner.made answer).2 ++
          st.concludeEvents (st.callOf a runner) (st.received a runner.made answer).1 := by
  cases answer with
  | error e =>
      rw [received, List.append_nil]
      exact close_run st a runner (.error e) s
  | ok answer =>
      have hmade := (a.tells_finish st.transforms st.dest runner.made.targets answer).run_eq s.events
      have hstep := step_run (a.finish st.transforms st.dest runner.made.targets answer) s
      rw [hmade.1] at hstep
      rw [finish]
      dsimp only
      rw [run_bind_of hstep]
      exact close_run st a runner _ _

theorem received_mapped (made : Rendering) (answer : Except Error Answer) :
    ∀ event ∈ (st.received a made answer).2, event.IsMapped := by
  cases answer with
  | error e => nofun
  | ok answer => exact ((a.tells_finish st.transforms st.dest made.targets answer).run_eq []).2

theorem outcome_mapped : ∀ event ∈ (st.outcome db a params).2, event.IsMapped := by
  rw [outcome]
  split
  · nofun
  · exact received_mapped _ _

theorem render_events (s : Session) :
    ((st.render params).run s).2.events = s.events ++ st.scopeEvents .render params := by
  have hevents := acquire_events s
  rcases hlent : Session.acquire.run s with ⟨runner, lent⟩
  rw [hlent] at hevents
  have hsession := prepare_session st .render params runner lent
  rcases hprepare : (st.prepare .render params runner).run lent with ⟨⟨result, runner'⟩, prepared⟩
  rw [hprepare] at hsession
  rw [render, run_bind_of hlent, run_bind_of hprepare]
  dsimp only at hsession hevents
  show prepared.events = _
  rw [hsession, ← hevents]

end Steps

/-! ## Operations -/

/-- What is told in an operation. -/
def told (st : Statement) (db : Driver) (a : Access) (params : Datum) : List Event :=
  st.scopeEvents (.access a) params ++ (st.request? a params).toList.map Event.asked ++
    (st.outcome db a params).2 ++ st.concludeEvents (st.shown a params) (st.outcome db a params).1

/-- A driver is asked at most once in an operation. -/
theorem requests_told (st : Statement) (db : Driver) (a : Access) (params : Datum) :
    requests (st.told db a params) = (st.request? a params).toList := by
  -- Of the four parts of what is told, only the second asks.
  have hscope : requests (st.scopeEvents (.access a) params) = [] :=
    List.filterMap_eq_nil_iff.mpr fun event hevent => by
      obtain ⟨hook, scope, rfl⟩ := exists_of_mem_scopeEvents hevent
      rfl
  have hasked : ∀ asked : List Request, requests (asked.map Event.asked) = asked := fun asked => by
    rw [requests, List.filterMap_map]
    exact List.filterMap_some
  have hmapped : requests (st.outcome db a params).2 = [] :=
    List.filterMap_eq_nil_iff.mpr fun event hevent => (outcome_mapped event hevent).request_eq
  have hend : requests (st.concludeEvents (st.shown a params) (st.outcome db a params).1) = [] :=
    List.filterMap_eq_nil_iff.mpr fun event hevent => by
      obtain ⟨hook, e, rfl⟩ | ⟨hook, error, rfl⟩ := of_mem_concludeEvents hevent <;> rfl
  rw [told, requests_append, requests_append, requests_append, hscope, hasked, hmapped, hend,
    List.nil_append, List.append_nil, List.append_nil]

/-- What an operation yields, and what is told in it. -/
theorem run_told (st : Statement) (db : Driver) (a : Access) (params : Datum) {s : Session}
    (hs : s.Clean) :
    ((st.run db a params).run s).1 = st.settled (st.shown a params) (st.outcome db a params).1 ∧
      ((st.run db a params).run s).2.events = s.events ++ st.told db a params := by
  rw [told, ← List.append_assoc, ← List.append_assoc, ← List.append_assoc]
  -- An operation is over before the driver is asked, or the driver has its say.
  rcases hmade : st.rendering (.access a) params with ⟨e | _, made⟩
  · obtain ⟨last, hstart, hevents⟩ := start_refused hs hmade
    rw [run, run_bind_of hstart, request?, outcome, hmade]
    simp only [Option.toList_none, List.map_nil, List.append_nil]
    exact ⟨rfl, hevents⟩
  · obtain ⟨runner, last, hstart, hrunner, hevents⟩ := start_asked hs hmade
    have hshown : st.callOf a runner = st.shown a params := by
      rw [callOf, shown, hmade, hrunner]
    have hfinish := finish_run st a runner ⟨a.isExec, made.text.text, made.args⟩
      (db ⟨a.isExec, made.text.text, made.args⟩) last
    rw [hshown, hrunner, hevents] at hfinish
    rw [run, run_bind_of hstart, request?, outcome, hmade]
    exact hfinish

/-- **The course of an operation.** Before the template, hooks are told in their order, up to the
first that fails. The driver is asked once if the parameters have a value, no such hook fails and
the template does not either, and is not asked otherwise; it is asked for a number of rows by `exec`
and for rows by every other operation. Then mappers may be applied. If this comes to an error, every
hook that may replace it is told once, in its order, of what the hooks in front of it have made of
it. Then every other hook is told once, in its order, of the error that is left, or that there is
none, and this is what the operation yields. Rendering tells hooks before the template, and nobody
else. -/
theorem run_course (st : Statement) (db : Driver) (a : Access) (params : Datum) {s : Session}
    (hs : s.Clean) :
    let call := st.shown a params
    let raw := (st.outcome db a params).1
    let mapped := (st.outcome db a params).2
    let final := raw.mapError (passError st.onError call)
    ((st.run db a params).run s).1 = final ∧
      ((st.run db a params).run s).2.events = s.events ++
        (st.scopeEvents (.access a) params ++ (st.request? a params).toList.map Event.asked ++
          mapped ++ (errorOf? raw).elim [] (errorEvents 0 st.onError call) ++
          endEvents 0 st.observers call (errorOf? final)) ∧
      requests ((st.run db a params).run s).2.events =
        requests s.events ++ (st.request? a params).toList ∧
      (∀ event ∈ mapped, event.IsMapped) ∧
      (∀ request, st.request? a params = some request ↔ ∃ v scope made,
        params.toValue = .ok v ∧ passBefore st.before (st.firstScope (.access a) v) = .ok scope ∧
        Rendering.run st.recipe scope.params scope.vars .empty = (.ok (), made) ∧
        request = ⟨a = .exec, made.text.text, made.args⟩) ∧
      (∀ s' : Session,
        ((st.render params).run s').2.events = s'.events ++ st.scopeEvents .render params) ∧
      ∀ event ∈ st.scopeEvents .render params, ∃ hook scope, event = .before hook scope := by
  intro call raw mapped final
  obtain ⟨hresult, hevents⟩ := run_told st db a params hs
  refine ⟨hresult, ?_, ?_, st.outcome_mapped, fun request => request?_eq_some, render_events,
    fun event => exists_of_mem_scopeEvents⟩
  · rw [hevents, told, concludeEvents]
    simp only [List.append_assoc]
    rfl
  · rw [hevents, requests_append, requests_told]

/-- A failed operation whose error two hooks replace, one after the other. -/
theorem run_course_failing :
    let t : Template := ⟨"t", [.text "SELECT ", .action 1 ⟨[], false, [[.variable "$n" []]]⟩]⟩
    let st : Statement :=
      ⟨⟨t.mark, [], .question, .error⟩, .text, .text, fun _ v => .ok v, ["$n"],
        [fun scope => scope.set "$n" (.int 7), fun scope => .ok scope],
        [fun e call => .withSql call.sql e, fun e _ => .shared e], 1⟩
    let db : Driver := fun _ => .error (.driver "down")
    let call := st.shown .exec (.text "x")
    let scope (v : Value) : Scope := ⟨"t", .access .exec, .text "x", [("$n", v)]⟩
    let down : Error := .driver "down"
    let shared : Error := .shared (.withSql call.sql down)
    Session.empty.Clean ∧ call.sql = "SELECT ?" ∧ call.args = [.int 7] ∧
      ((st.run db .exec (.text "x")).run .empty).1 = .error shared ∧
      ((st.run db .exec (.text "x")).run .empty).2.events =
        [.before 0 (scope .nil), .before 1 (scope (.int 7)),
          .asked ⟨true, call.sql, call.args⟩, .replaced 0 down call,
          .replaced 1 (.withSql call.sql down) call, .ended 0 call (some shared)] := by
  intro t st db call scope down shared
  obtain ⟨hresult, hevents, -⟩ := st.run_course db .exec (.text "x") Session.clean_empty
  exact ⟨Session.clean_empty, by decide +kernel, rfl, hresult.trans (by rfl),
    hevents.trans (by rfl)⟩

/-! ## What hooks are shown -/

/-- In an operation all hooks at the end are shown the same call. -/
theorem eq_shown {st : Statement} {db : Driver} {a : Access} {params : Datum} {event : Event}
    (h : event ∈ st.told db a params) {call : Call} (hcall : event.shown? = some call) :
    call = st.shown a params := by
  rw [told, List.mem_append, List.mem_append, List.mem_append] at h
  -- Only the events of the end show a call.
  rcases h with ((h | h) | h) | h
  · obtain ⟨hook, scope, rfl⟩ := exists_of_mem_scopeEvents h
    cases hcall
  · obtain ⟨request, -, rfl⟩ := List.mem_map.mp h
    cases hcall
  · have hmapped := outcome_mapped event h
    cases event with
    | mapped row column value => cases hcall
    | _ => exact hmapped.elim
  · obtain ⟨hook, e, rfl⟩ | ⟨hook, error, rfl⟩ := of_mem_concludeEvents h
    · exact (Option.some.inj hcall).symm
    · exact (Option.some.inj hcall).symm

/-- **Hooks at the end are shown what the driver was sent.** All of them are shown the same text and
the same arguments: those of the request if the driver was asked, and none if the parameters have no
value or a hook before the template has failed. If the template has failed, they are shown what it had
made until then. -/
theorem run_shown (st : Statement) (db : Driver) (a : Access) (params : Datum) {s : Session}
    (hs : s.Clean) : ∃ told, ((st.run db a params).run s).2.events = s.events ++ told ∧
      ∀ event ∈ told, ∀ call, event.shown? = some call →
        (∀ request ∈ requests told, call.sql = request.sql ∧ call.args = request.args) ∧
        (∀ e, st.scopeOf (.access a) params = .error e → call.sql = "" ∧ call.args = []) ∧
        ∀ scope fault made, st.scopeOf (.access a) params = .ok scope →
          Rendering.run st.recipe scope.params scope.vars .empty = (.error fault, made) →
          call.sql = made.text.text ∧ call.args = made.args := by
  refine ⟨st.told db a params, (run_told st db a params hs).2, ?_⟩
  intro event hevent call hcall
  obtain rfl := eq_shown hevent hcall
  refine ⟨?_, ?_, ?_⟩
  · intro request hrequest
    rw [requests_told] at hrequest
    exact shown_of_request (Option.mem_toList.mp hrequest)
  · intro e he
    rw [shown, rendering_of_error he]
    exact ⟨rfl, rfl⟩
  · intro scope fault made hscope hmade
    rw [shown, rendering_of_ok hscope, hmade]
    exact ⟨rfl, rfl⟩

/-- A hook at the end is shown the text and the arguments that the driver was sent. -/
theorem run_shown_list :
    let t : Template := ⟨"t", [.text "SELECT ", .action 1 ⟨[], false, [[.function "List", .dot]]⟩]⟩
    let st : Statement :=
      ⟨⟨t.mark, standardFunctions, .question, .error⟩, .list .text, .text, fun _ v => .ok v, [], [],
        [], 1⟩
    let params : Datum := .list [.text "x", .text "y"]
    let after := ((st.run (fun _ => .ok (.affected 1)) .exec params).run .empty).2
    Session.empty.Clean ∧ ∃ call, Event.ended 0 call none ∈ after.events ∧
      ∃ request ∈ requests after.events, call.sql = request.sql ∧ call.args = request.args ∧
        request.args = [.text "x", .text "y"] := by
  intro t st params after
  obtain ⟨told, htold, hshown⟩ :=
    st.run_shown (fun _ => .ok (.affected 1)) .exec params Session.clean_empty
  have hafter : after.events = told := htold
  have hended : Event.ended 0 (st.shown .exec params) none ∈ told := by
    rw [← hafter]
    exact List.mem_cons_of_mem _ (List.mem_cons_self ..)
  have hasked : ⟨true, (st.shown .exec params).sql, [.text "x", .text "y"]⟩ ∈ requests told := by
    rw [← hafter]
    exact List.mem_cons_self ..
  obtain ⟨hsql, hargs⟩ := (hshown _ hended _ rfl).1 _ hasked
  exact ⟨Session.clean_empty, _, hafter ▸ hended, _, hafter ▸ hasked, hsql, hargs, rfl⟩

/-- A hook at the end is shown what the template had made when it failed. -/
theorem shown_unfinished :
    let t : Template := ⟨"t", [.text "SELECT ", .action 1 ⟨[], false, [[.int 7]]⟩, .text ", ",
      .action 1 ⟨[], false, [[.function "List", .dot]]⟩]⟩
    let st : Statement :=
      ⟨⟨t.mark, standardFunctions, .question, .error⟩, .list .text, .text, fun _ v => .ok v, [], [],
        [], 1⟩
    let told := ((st.run (fun _ => .ok (.affected 1)) .exec (.list [])).run .empty).2.events
    ∃ call fault, Event.ended 0 call (some (.eval fault)) ∈ told ∧ requests told = [] ∧
      call.sql = "SELECT ?," ∧ call.args = [.int 7] := by
  intro t st told
  refine ⟨_, _, List.mem_cons_self .., rfl, ?_, rfl⟩
  decide +kernel

end Statement

end SqlTemplate
