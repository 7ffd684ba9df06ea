import Mathlib
import SqlTemplate.Proofs.Statement.Hooks

/-!
# Operations do not see what happened before

Operations share runners and tell what happens in them, but what an operation yields depends on
neither, as long as the runners that are lent are empty (`Session.Clean`), which every operation
sees to. And it depends on the parameters only through their value (`Statement.run_eq`).
-/

set_option autoImplicit false

namespace SqlTemplate

variable {α β γ δ : Type}

open Step

/-! ## Scanning -/

/-- Whether a mapper is applied. -/
def Event.IsMapped : Event → Prop
  | .mapped .. => True
  | _ => False

theorem Event.IsMapped.request_eq {event : Event} (h : event.IsMapped) : event.request? = none := by
  cases event with
  | mapped row column value => rfl
  | _ => exact h.elim

namespace Targets

theorem tells_mapCell (transforms : Transforms) (row : Row) (position : Nat) (cell : Cell) :
    Tells Event.IsMapped (mapCell transforms row position cell) := by
  rw [mapCell]
  cases cell.mapper with
  | none => exact tells_pure _
  | some mapper =>
      refine Tells.bind (tells_tell trivial) fun _ => ?_
      cases mapper.apply transforms cell.value with
      | ok v => exact tells_pure v
      | error cause => exact tells_throw _

theorem tells_storeCells (transforms : Transforms) (row : Row) (position : Nat) (cells : List Cell)
    (stored : Value) : Tells Event.IsMapped (storeCells transforms row position cells stored) := by
  induction cells generalizing stored with
  | nil => exact tells_pure stored
  | cons cell rest ih =>
      exact Tells.bind (tells_mapCell transforms row position cell) fun value => ih _

theorem tells_assemble (targets : Targets) (transforms : Transforms) (position : Nat) (row : Row) :
    Tells Event.IsMapped (targets.assemble transforms position row) := by
  rw [assemble]
  split
  · exact tells_pure _
  · split
    · exact tells_throw _
    · exact tells_storeCells transforms row position _ _

theorem tells_scan (targets : Targets) (transforms : Transforms) (dest : Shape) (position : Nat)
    (row : Row) : Tells Event.IsMapped (targets.scan transforms dest position row) := by
  rw [scan]
  split
  · split
    · exact tells_ofReflection _
    · exact tells_throw _
  · exact Tells.bind (targets.tells_assemble transforms position row) fun _ => tells_ofReflection _

theorem tells_scanAll (targets : Targets) (transforms : Transforms) (dest : Shape) (position : Nat)
    (rows : List Row) : Tells Event.IsMapped (targets.scanAll transforms dest position rows) := by
  induction rows generalizing position with
  | nil => exact tells_pure []
  | cons row rest ih =>
      exact Tells.bind (targets.tells_scan transforms dest position row) fun _ =>
        Tells.bind (ih (position + 1)) fun _ => tells_pure _

end Targets

/-- Making something of the answer of a driver tells of mappers only. -/
theorem Access.tells_finish (a : Access) (transforms : Transforms) (dest : Shape)
    (targets : Targets) (answer : Answer) :
    Tells Event.IsMapped (a.finish transforms dest targets answer) := by
  have hvalue : ∀ row, Tells Event.IsMapped (do
      return Output.value (← targets.scan transforms dest 0 row) : Step Output) := fun row =>
    Tells.bind (targets.tells_scan transforms dest 0 row) fun _ => tells_pure _
  cases a with
  | exec => exact tells_pure _
  | query => exact tells_pure _
  | queryRow =>
      rw [Access.finish]
      split
      · exact tells_pure _
      · exact tells_throw _
  | first =>
      rw [Access.finish]
      split
      · exact hvalue _
      · exact tells_throw _
  | one =>
      rw [Access.finish]
      split
      · exact tells_throw _
      · exact hvalue _
      · exact tells_throw _
  | all => exact Tells.bind (targets.tells_scanAll transforms dest 0 _) fun _ => tells_pure _

theorem Access.quiet_finish (a : Access) (transforms : Transforms) (dest : Shape)
    (targets : Targets) (answer : Answer) : Quiet (a.finish transforms dest targets answer) :=
  (a.tells_finish transforms dest targets answer).mono fun _ h => h.request_eq

/-! ## Hooks -/

namespace Statement

theorem quiet_openScope (st : Statement) (op : Op) (params : Datum) :
    Quiet (st.openScope op params) := by
  refine ⟨_, _, fun event hevent => ?_, st.run_openScope op params⟩
  obtain ⟨hook, scope, rfl⟩ := exists_of_mem_scopeEvents hevent
  rfl

theorem quiet_conclude (st : Statement) (call : Call) (result : Except Error Output) :
    Quiet (st.conclude call result) := by
  refine ⟨_, _, fun event hevent => ?_, st.run_conclude call result⟩
  obtain ⟨hook, e, rfl⟩ | ⟨hook, error, rfl⟩ := of_mem_concludeEvents hevent
  · rfl
  · rfl

end Statement

/-! ## Sessions -/

namespace Session

/-- Whether the runners that are not on loan are empty. -/
def Clean (s : Session) : Prop := ∀ runner ∈ s.pool.idle, runner.made = .empty

theorem clean_empty : Session.empty.Clean := by
  simp [Clean, Session.empty, RunnerPool.empty]

/-- Whether two computations, on clean sessions, come to results in `R` and leave the sessions
clean. -/
def Alike (R : α → β → Prop) (m : StateM Session α) (m' : StateM Session β) : Prop :=
  ∀ s s', s.Clean → s'.Clean → R (m.run s).1 (m'.run s').1 ∧ (m.run s).2.Clean ∧ (m'.run s').2.Clean

section Alike

variable {R : α → β → Prop} {Q : γ → δ → Prop} {m : StateM Session α} {m' : StateM Session β}

theorem Alike.pure {a : α} {b : β} (h : R a b) :
    Alike R (pure a : StateM Session α) (pure b : StateM Session β) :=
  fun _ _ hs hs' => ⟨h, hs, hs'⟩

theorem Alike.bind {k : α → StateM Session γ} {k' : β → StateM Session δ} (hm : Alike R m m')
    (hk : ∀ a b, R a b → Alike Q (k a) (k' b)) : Alike Q (m >>= k) (m' >>= k') := by
  intro s s' hs hs'
  obtain ⟨hR, hclean, hclean'⟩ := hm s s' hs hs'
  exact hk _ _ hR _ _ hclean hclean'

theorem alike_acquire :
    Alike (fun r r' => r.made = .empty ∧ r'.made = .empty) Session.acquire Session.acquire := by
  have hacquire : ∀ s : Session, s.Clean →
      (Session.acquire.run s).1.made = .empty ∧ (Session.acquire.run s).2.Clean := by
    rintro ⟨⟨idle, count⟩, events⟩ hs
    cases idle with
    | nil => exact ⟨rfl, hs⟩
    | cons runner rest =>
        exact ⟨hs runner (List.mem_cons_self ..), fun r hr => hs r (List.mem_cons_of_mem _ hr)⟩
  exact fun s s' hs hs' => ⟨⟨(hacquire s hs).1, (hacquire s' hs').1⟩, (hacquire s hs).2,
    (hacquire s' hs').2⟩

theorem alike_release (runner runner' : Runner) :
    Alike (fun _ _ => True) (Session.release runner) (Session.release runner') := by
  have hrelease : ∀ (runner : Runner) (s : Session), s.Clean →
      ((Session.release runner).run s).2.Clean := by
    intro runner s hs r hr
    rcases List.mem_cons.mp hr with rfl | hr
    · rfl
    · exact hs r hr
  exact fun s s' hs hs' => ⟨trivial, hrelease runner s hs, hrelease runner' s' hs'⟩

theorem alike_step {action : Step α} (h : action.Blind) :
    Alike (· = ·) (Session.step action) (Session.step action) :=
  fun s s' hs hs' => ⟨h s.events s'.events, hs, hs'⟩

end Alike

end Session

/-! ## Operations -/

namespace Statement

open Session

/-- Whether two operations have come equally far. -/
inductive Started.Like : Started → Started → Prop
  | finished (result : Except Error Output) : Like (.finished result) (.finished result)
  | waiting (a : Access) (request : Request) {runner runner' : Runner}
      (h : runner.made = runner'.made) :
      Like (.waiting ⟨a, runner, request⟩) (.waiting ⟨a, runner', request⟩)

section Operations

variable {st : Statement} {db : Driver} {a : Access} {op : Op} {params : Datum}
  {runner runner' : Runner}

theorem prepare_alike (h : runner.made = runner'.made) :
    Alike (fun p p' => p.1 = p'.1 ∧ p.2.made = p'.2.made) (st.prepare op params runner)
      (st.prepare op params runner') := by
  refine Alike.bind (alike_step (st.quiet_openScope op params).blind) ?_
  rintro (e | scope) _ rfl
  · exact Alike.pure ⟨rfl, h⟩
  · dsimp only
    rw [h]
    exact Alike.pure ⟨rfl, rfl⟩

theorem close_alike (h : runner.made = runner'.made) (result : Except Error Output) :
    Alike (· = ·) (st.close a runner result) (st.close a runner' result) := by
  have hcall : st.callOf a runner = st.callOf a runner' := by
    rw [callOf, callOf, h]
  rw [close, close, hcall]
  refine Alike.bind (alike_step (st.quiet_conclude _ result).blind) ?_
  rintro result _ rfl
  exact Alike.bind (alike_release runner runner') fun _ _ _ => Alike.pure rfl

theorem start_alike : Alike Started.Like (st.start a params) (st.start a params) := by
  refine Alike.bind alike_acquire ?_
  rintro runner runner' ⟨hmade, hmade'⟩
  refine Alike.bind (prepare_alike (hmade.trans hmade'.symm)) ?_
  rintro ⟨result, runner⟩ ⟨_, runner'⟩ ⟨rfl, hmade⟩
  dsimp only at hmade
  cases result with
  | error e =>
      refine Alike.bind (close_alike hmade (.error e)) ?_
      rintro result _ rfl
      exact Alike.pure (.finished result)
  | ok _ =>
      dsimp only
      rw [hmade]
      refine Alike.bind (alike_step (Step.blind_tell _)) fun _ _ _ => Alike.pure ?_
      exact .waiting a _ hmade

theorem finish_alike {request : Request} (h : runner.made = runner'.made)
    (answer : Except Error Answer) :
    Alike (· = ·) (st.finish ⟨a, runner, request⟩ answer) (st.finish ⟨a, runner', request⟩ answer) := by
  cases answer with
  | error e => exact close_alike h (.error e)
  | ok answer =>
      rw [finish, finish]
      dsimp only
      rw [h]
      refine Alike.bind (alike_step (a.quiet_finish _ _ _ answer).blind) ?_
      rintro result _ rfl
      exact close_alike h result

theorem run_alike : Alike (· = ·) (st.run db a params) (st.run db a params) := by
  refine Alike.bind start_alike ?_
  rintro started started' (result | ⟨a, request, hmade⟩)
  · exact Alike.pure rfl
  · exact finish_alike hmade _

theorem render_alike : Alike (fun _ _ => True) (st.render params) (st.render params) := by
  refine Alike.bind alike_acquire ?_
  rintro runner runner' ⟨hmade, hmade'⟩
  refine Alike.bind (prepare_alike (hmade.trans hmade'.symm)) ?_
  rintro ⟨result, runner⟩ ⟨result', runner'⟩ -
  exact Alike.bind (alike_release runner runner') fun _ _ _ => Alike.pure trivial

/-- An operation reads its parameters only through their value. -/
theorem run_congr {params' : Datum} (h : params.toValue = params'.toValue) :
    st.run db a params = st.run db a params' := by
  have hopen : ∀ op, st.openScope op params = st.openScope op params' := fun op => by
    rw [openScope, openScope, h]
  have hprepare : ∀ op runner, st.prepare op params runner = st.prepare op params' runner :=
    fun op runner => by rw [prepare, prepare, hopen]
  have hstart : st.start a params = st.start a params' := by
    simp only [start, hprepare]
  rw [run, run, hstart]

/-- **What an operation yields depends on the value of its parameters only**, not on the operations
before it. -/
theorem run_eq {params' : Datum} {s s' : Session} (hs : s.Clean) (hs' : s'.Clean)
    (h : params.toValue = params'.toValue) :
    ((st.run db a params).run s).1 = ((st.run db a params').run s').1 := by
  rw [run_congr h]
  exact (run_alike s s' hs hs').1

theorem run_clean {s : Session} (hs : s.Clean) : ((st.run db a params).run s).2.Clean :=
  (run_alike s s hs hs).2.1

theorem render_clean {s : Session} (hs : s.Clean) : ((st.render params).run s).2.Clean :=
  (render_alike s s hs hs).2.1

/-- Hooks make another error of an error, but no output. -/
theorem conclude_error (call : Call) (e : Error) (events : List Event) (output : Output) :
    ((st.conclude call (.error e)).run.run events).1 ≠ .ok output := by
  rw [run_conclude]
  nofun

/-- An operation fails on parameters that have no value. -/
theorem run_refused {fault : ReflectionFault} (h : params.toValue = .error fault) (s : Session)
    (output : Output) : ((st.run db a params).run s).1 ≠ .ok output := by
  rcases ha : Session.acquire.run s with ⟨runner, lent⟩
  have hopen : (Session.step (st.openScope (.access a) params)).run lent
      = (.error (.reflection fault), lent) := by
    rw [openScope, h]
    rfl
  have hprepare : (st.prepare (.access a) params runner).run lent
      = ((.error (.reflection fault), runner), lent) := by
    rw [prepare, run_bind_of hopen]
    rfl
  have hclose : ((st.close a runner (.error (.reflection fault))).run lent).1 ≠ .ok output :=
    st.conclude_error _ _ lent.events output
  rcases hc : (st.close a runner (.error (.reflection fault))).run lent with ⟨result, last⟩
  have hstart : (st.start a params).run s = (.finished result, last) := by
    rw [start, run_bind_of ha, run_bind_of hprepare]
    exact run_bind_of hc
  rw [run, run_bind_of hstart]
  rwa [hc] at hclose

end Operations

end Statement

end SqlTemplate
