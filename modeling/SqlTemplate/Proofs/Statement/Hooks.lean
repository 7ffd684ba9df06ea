import Mathlib
import SqlTemplate.Statement.Operation

/-!
# Steps and hooks

What a step of an operation yields, and what it tells, depends on nothing that was told before. So
the hooks of an operation can be said without its steps. Hooks before the template pass a scope on,
up to the first that fails (`Statement.run_openScope`); at the end, hooks pass an error on, and all
others are told what has come of it (`Statement.run_conclude`).
-/

set_option autoImplicit false

namespace SqlTemplate

variable {α β : Type}

/-! ## Steps -/

theorem run_bind_of {σ : Type} {m : StateM σ α} {k : α → StateM σ β} {s next : σ} {a : α}
    (h : m.run s = (a, next)) : (m >>= k).run s = (k a).run next := by
  rw [StateT.run_bind, h]
  rfl

/-- The request of an event, if a driver is asked. -/
def Event.request? : Event → Option Request
  | .asked request => some request
  | _ => none

/-- What drivers have been asked. -/
def requests (events : List Event) : List Request := events.filterMap Event.request?

theorem requests_append (events told : List Event) :
    requests (events ++ told) = requests events ++ requests told :=
  List.filterMap_append

namespace Step

/-- Whether what a step yields does not depend on the events before it. -/
def Blind (m : Step α) : Prop := ∀ events events', (m.run.run events).1 = (m.run.run events').1

theorem blind_tell (event : Event) : Blind (tell event) := fun _ _ => rfl

/-- Whether a step tells events in `P` only, and yields and tells the same whatever the events
before it. -/
def Tells (P : Event → Prop) (m : Step α) : Prop :=
  ∃ result told, (∀ event ∈ told, P event) ∧ ∀ events, m.run.run events = (result, events ++ told)

/-- Whether a step asks no driver, and yields and tells the same whatever the events before it. -/
abbrev Quiet (m : Step α) : Prop := Tells (fun event => event.request? = none) m

theorem run_bind (m : Step α) (k : α → Step β) (events : List Event) :
    (m >>= k).run.run events = match m.run.run events with
      | (.ok a, later) => (k a).run.run later
      | (.error e, later) => (.error e, later) := by
  rw [ExceptT.run_bind, StateT.run_bind]
  generalize m.run.run events = outcome
  obtain ⟨result, later⟩ := outcome
  cases result <;> rfl

/-- A step that goes on succeeds if both parts do. -/
theorem run_bind_eq_ok {m : Step α} {k : α → Step β} {b : β} {events later : List Event} :
    (m >>= k).run.run events = (.ok b, later) ↔ ∃ a between,
      m.run.run events = (.ok a, between) ∧ (k a).run.run between = (.ok b, later) := by
  rw [run_bind]
  rcases m.run.run events with ⟨result, between⟩
  cases result with
  | ok a =>
      constructor
      · intro h
        exact ⟨a, between, rfl, h⟩
      · rintro ⟨a, between, ⟨⟩, h⟩
        exact h
  | error e =>
      constructor
      · intro h
        cases h
      · rintro ⟨a, between, ⟨⟩, -⟩

section Tells

variable {P Q : Event → Prop} {m : Step α} {k : α → Step β}

theorem Tells.blind (h : Tells P m) : Blind m := by
  obtain ⟨result, told, -, hrun⟩ := h
  intro events events'
  rw [hrun, hrun]

theorem Quiet.requests_eq (h : Quiet m) (events : List Event) :
    requests (m.run.run events).2 = requests events := by
  obtain ⟨result, told, htold, hrun⟩ := h
  have hnone : requests told = [] := List.filterMap_eq_nil_iff.mpr htold
  rw [hrun, requests_append, hnone, List.append_nil]

theorem Tells.mono (h : Tells P m) (hPQ : ∀ event, P event → Q event) : Tells Q m := by
  obtain ⟨result, told, htold, hrun⟩ := h
  exact ⟨result, told, fun event hevent => hPQ event (htold event hevent), hrun⟩

theorem tells_pure (a : α) : Tells P (pure a) :=
  ⟨.ok a, [], by simp, fun events => by rw [List.append_nil]; rfl⟩

theorem tells_throw (e : Error) : Tells P (throw e : Step α) :=
  ⟨.error e, [], by simp, fun events => by rw [List.append_nil]; rfl⟩

theorem tells_tell {event : Event} (h : P event) : Tells P (tell event) :=
  ⟨.ok (), [event], by simpa using h, fun _ => rfl⟩

theorem Tells.bind (hm : Tells P m) (hk : ∀ a, Tells P (k a)) : Tells P (m >>= k) := by
  obtain ⟨result, told, htold, hrun⟩ := hm
  cases result with
  | error e => exact ⟨.error e, told, htold, fun events => by rw [run_bind, hrun]⟩
  | ok a =>
      obtain ⟨result, more, hmore, hrest⟩ := hk a
      refine ⟨result, told ++ more, List.forall_mem_append.mpr ⟨htold, hmore⟩, fun events => ?_⟩
      rw [run_bind, hrun]
      dsimp only
      rw [hrest, List.append_assoc]

theorem tells_ofExcept (result : Except Error α) : Tells P (ofExcept result) := by
  cases result with
  | ok a => exact tells_pure a
  | error e => exact tells_throw e

theorem tells_ofReflection (result : Except ReflectionFault α) : Tells P (ofReflection result) :=
  tells_ofExcept _

end Tells

theorem run_tell (event : Event) (events : List Event) :
    (tell event).run.run events = (.ok (), events ++ [event]) := rfl

theorem run_ofExcept (result : Except Error α) (events : List Event) :
    (ofExcept result).run.run events = (result, events) := by
  cases result <;> rfl

end Step

open Step

namespace Statement

/-! ## Before the template -/

/-- What hooks make of a scope, one after the other, up to the first that fails. -/
def passBefore (hooks : List BeforeHook) (scope : Scope) : Except Error Scope :=
  hooks.foldlM (fun scope hook => hook scope) scope

theorem passBefore_cons (hook : BeforeHook) (rest : List BeforeHook) (scope : Scope) :
    passBefore (hook :: rest) scope = hook scope >>= passBefore rest := by
  rw [passBefore, List.foldlM_cons]
  rfl

/-- What hooks before the template are told, each in its turn: the scope that the hooks in front of
it have left, if none of them has failed. The first hook stands at `position`. -/
def beforeEvents (position : Nat) (hooks : List BeforeHook) (scope : Scope) : List Event :=
  (List.range hooks.length).filterMap fun i =>
    match passBefore (hooks.take i) scope with
    | .ok seen => some (.before (position + i) seen)
    | .error _ => none

theorem beforeEvents_cons (position : Nat) (hook : BeforeHook) (rest : List BeforeHook)
    (scope : Scope) :
    beforeEvents position (hook :: rest) scope = .before position scope ::
      match hook scope with
      | .ok next => beforeEvents (position + 1) rest next
      | .error _ => [] := by
  rw [beforeEvents, List.length_cons, List.range_succ_eq_map, List.filterMap_cons,
    List.filterMap_map]
  show Event.before (position + 0) scope :: List.filterMap _ _ = _
  rw [Nat.add_zero]
  congr 1
  cases hhook : hook scope with
  | error e =>
      -- No hook behind one that fails is told anything.
      refine List.filterMap_eq_nil_iff.mpr fun i _ => ?_
      simp only [Function.comp, List.take_succ_cons, passBefore_cons, hhook]
      rfl
  | ok next =>
      refine List.filterMap_congr fun i _ => ?_
      simp only [Function.comp, List.take_succ_cons, passBefore_cons, hhook]
      rw [show position + i.succ = position + 1 + i by omega]
      rfl

theorem run_runBefore (position : Nat) (hooks : List BeforeHook) (scope : Scope)
    (events : List Event) :
    (runBefore position hooks scope).run.run events =
      (passBefore hooks scope, events ++ beforeEvents position hooks scope) := by
  induction hooks generalizing position scope events with
  | nil =>
      rw [beforeEvents, List.length_nil, List.range_zero, List.filterMap_nil, List.append_nil]
      rfl
  | cons hook rest ih =>
      rw [passBefore_cons, beforeEvents_cons, runBefore, run_bind, run_tell]
      dsimp only
      rw [run_bind]
      cases hhook : hook scope with
      | error e => rfl
      | ok next =>
          rw [run_ofExcept]
          dsimp only
          rw [ih, List.append_assoc]
          rfl

/-- The scope of which the first hook is told. -/
def firstScope (st : Statement) (op : Op) (params : Value) : Scope :=
  ⟨st.name, op, params, st.vars.map fun name => (name, .nil)⟩

/-- The scope with which the template is executed, if there is one: the parameters have a value, and
no hook fails. -/
def scopeOf (st : Statement) (op : Op) (params : Datum) : Except Error Scope := do
  let v ← params.toValue.mapError .reflection
  passBefore st.before (st.firstScope op v)

/-- What is told before the template is executed. -/
def scopeEvents (st : Statement) (op : Op) (params : Datum) : List Event :=
  match params.toValue with
  | .ok v => beforeEvents 0 st.before (st.firstScope op v)
  | .error _ => []

theorem run_openScope (st : Statement) (op : Op) (params : Datum) (events : List Event) :
    (st.openScope op params).run.run events =
      (st.scopeOf op params, events ++ st.scopeEvents op params) := by
  rw [openScope, run_bind, ofReflection, run_ofExcept, scopeOf, scopeEvents]
  cases params.toValue with
  | error fault =>
      rw [List.append_nil]
      rfl
  | ok v => exact run_runBefore 0 st.before _ events

/-- Only hooks before the template are told anything then. -/
theorem exists_of_mem_scopeEvents {st : Statement} {op : Op} {params : Datum} {event : Event}
    (h : event ∈ st.scopeEvents op params) : ∃ hook scope, event = .before hook scope := by
  rw [scopeEvents] at h
  split at h
  · obtain ⟨i, -, hi⟩ := List.mem_filterMap.mp h
    split at hi
    · cases hi
      exact ⟨_, _, rfl⟩
    · cases hi
  · cases h

/-! ## At the end -/

/-- What hooks make of an error, one after the other. -/
def passError (hooks : List ErrorHook) (call : Call) (e : Error) : Error :=
  hooks.foldl (fun e hook => hook e call) e

/-- What hooks are told that may replace an error, each in its turn: the error that the hooks in
front of it have left. The first hook stands at `position`. -/
def errorEvents (position : Nat) (hooks : List ErrorHook) (call : Call) (e : Error) : List Event :=
  (List.range hooks.length).map fun i =>
    .replaced (position + i) (passError (hooks.take i) call e) call

theorem errorEvents_cons (position : Nat) (hook : ErrorHook) (rest : List ErrorHook) (call : Call)
    (e : Error) :
    errorEvents position (hook :: rest) call e =
      .replaced position e call :: errorEvents (position + 1) rest call (hook e call) := by
  rw [errorEvents, List.length_cons, List.range_succ_eq_map, List.map_cons, List.map_map]
  show Event.replaced (position + 0) e call :: List.map _ _ = _
  rw [Nat.add_zero]
  congr 1
  refine List.map_congr_left fun i _ => ?_
  show Event.replaced (position + i.succ) (passError (rest.take i) call (hook e call)) call = _
  rw [show position + i.succ = position + 1 + i by omega]

theorem run_replaceError (call : Call) (position : Nat) (hooks : List ErrorHook) (e : Error)
    (events : List Event) :
    (replaceError call position hooks e).run.run events =
      (.ok (passError hooks call e), events ++ errorEvents position hooks call e) := by
  induction hooks generalizing position e events with
  | nil =>
      rw [errorEvents, List.length_nil, List.range_zero, List.map_nil, List.append_nil]
      rfl
  | cons hook rest ih =>
      rw [errorEvents_cons, replaceError, run_bind, run_tell]
      dsimp only
      rw [ih, List.append_assoc]
      rfl

/-- What hooks are told at the end of an operation, each in its turn. The first hook stands at
`position`. -/
def endEvents (position count : Nat) (call : Call) (error : Option Error) : List Event :=
  (List.range count).map fun i => .ended (position + i) call error

theorem run_tellEnd (call : Call) (error : Option Error) (position count : Nat)
    (events : List Event) :
    (tellEnd call error position count).run.run events =
      (.ok (), events ++ endEvents position count call error) := by
  induction count generalizing position events with
  | zero =>
      rw [endEvents, List.range_zero, List.map_nil, List.append_nil]
      rfl
  | succ count ih =>
      have hcons : endEvents position (count + 1) call error =
          .ended position call error :: endEvents (position + 1) count call error := by
        rw [endEvents, List.range_succ_eq_map, List.map_cons, List.map_map, Nat.add_zero]
        congr 1
        refine List.map_congr_left fun i _ => ?_
        show Event.ended (position + i.succ) call error = _
        rw [show position + i.succ = position + 1 + i by omega]
      rw [hcons, tellEnd, run_bind, run_tell]
      dsimp only
      rw [ih, List.append_assoc]
      rfl

/-- What comes of a result: its error, if it has one, is passed through the hooks. -/
def settled (st : Statement) (call : Call) (result : Except Error Output) : Except Error Output :=
  result.mapError (passError st.onError call)

/-- What is told at the end of an operation with a result: if it is an error, the hooks that may
replace it are told, and then all others of what has come of it. -/
def concludeEvents (st : Statement) (call : Call) (result : Except Error Output) : List Event :=
  (errorOf? result).elim [] (errorEvents 0 st.onError call) ++
    endEvents 0 st.observers call (errorOf? (st.settled call result))

/-- At the end all hooks are shown the same call. -/
theorem of_mem_concludeEvents {st : Statement} {call : Call} {result : Except Error Output}
    {event : Event} (h : event ∈ st.concludeEvents call result) :
    (∃ hook e, event = .replaced hook e call) ∨ ∃ hook error, event = .ended hook call error := by
  rcases List.mem_append.mp h with h | h
  · cases result with
    | ok output => cases h
    | error e =>
        obtain ⟨i, -, rfl⟩ := List.mem_map.mp h
        exact .inl ⟨_, _, rfl⟩
  · obtain ⟨i, -, rfl⟩ := List.mem_map.mp h
    exact .inr ⟨_, _, rfl⟩

theorem run_conclude (st : Statement) (call : Call) (result : Except Error Output)
    (events : List Event) :
    (st.conclude call result).run.run events =
      (st.settled call result, events ++ st.concludeEvents call result) := by
  rw [conclude, run_bind, concludeEvents, ← List.append_assoc]
  have hsettle : (st.settle call result).run.run events =
      (.ok (st.settled call result),
        events ++ (errorOf? result).elim [] (errorEvents 0 st.onError call)) := by
    cases result with
    | ok output =>
        show (Except.ok (Except.ok output), events) = (_, events ++ [])
        rw [List.append_nil]
        rfl
    | error e =>
        rw [settle, run_bind, run_replaceError]
        rfl
  rw [hsettle]
  dsimp only
  rw [run_bind, run_tellEnd]
  dsimp only
  rw [run_ofExcept]

end Statement

end SqlTemplate
