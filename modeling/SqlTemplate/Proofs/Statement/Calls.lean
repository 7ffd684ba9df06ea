import Mathlib
import SqlTemplate.Proofs.Statement.Sessions

/-!
# Calls, step by step

Rendering and operations in steps, between which other calls on the same statement can take theirs.
A call holds one runner, from its first step to its last, and what it has done so far is known from
its stage. Alone on a statement of which nothing has been asked, the steps of a call are those of
`Statement.run` and `Statement.render` (`Job.alone_six`).

A step depends on the session in nothing but the number of the runner, as long as runners are lent
empty. So a call stands like one that is alone, whatever other calls do between its steps
(`Standing.Along.advance`).
-/

set_option autoImplicit false

namespace SqlTemplate

/-! ## Calls -/

/-- What can be called on a statement: rendering, or an operation on a driver. -/
inductive Job
  | render (params : Datum)
  | access (a : Access) (params : Datum) (db : Driver)

/-- What a call yields. -/
inductive Yield
  | rendered (result : Except Error Rendered)
  | output (result : Except Error Output)

namespace Job

def op : Job → Op
  | .render _ => .render
  | .access a _ _ => .access a

def params : Job → Datum
  | .render params => params
  | .access _ params _ => params

/-- What a call sends to the driver if nothing has been asked of the statement before. -/
def request? (st : Statement) : Job → Option Request
  | .render _ => none
  | .access a params _ =>
    match ((st.start a params).run .empty).1 with
    | .finished _ => none
    | .waiting pending => some pending.request

/-- What a call yields if nothing has been asked of the statement before. -/
def yield (st : Statement) : Job → Yield
  | .render params => .rendered ((st.render params).run .empty).1
  | .access a params db => .output ((st.run db a params).run .empty).1

end Job

/-- What a call has done that has not come to its end. -/
inductive Stage
  /-- A runner has been lent. -/
  | lent (job : Job)
  /-- The text and the arguments have been made, or this has failed. -/
  | prepared (job : Job) (result : Except Error Unit)
  /-- The driver has been asked. -/
  | asked (a : Access) (db : Driver) (request : Request)
  /-- The driver has answered. -/
  | answered (a : Access) (request : Request) (answer : Except Error Answer)
  /-- The result is known, but no hook has been told of it. -/
  | settled (a : Access) (sent : Option Request) (result : Except Error Output)
  /-- All has been done but giving the runner back. -/
  | concluded (sent : Option Request) (yield : Yield)

/-- What a call at this stage has sent to the driver. -/
def Stage.sent : Stage → Option Request
  | .lent _ => none
  | .prepared _ _ => none
  | .asked _ _ request => some request
  | .answered _ request _ => some request
  | .settled _ sent _ => sent
  | .concluded sent _ => sent

/-- How a call stands: it holds a runner, or it is over; then it has yielded something, unless it
was given up. -/
inductive Standing
  | holding (runner : Runner) (stage : Stage)
  | ended (sent : Option Request) (yield? : Option Yield)

namespace Standing

def sent : Standing → Option Request
  | .holding _ stage => stage.sent
  | .ended sent _ => sent

def yield? : Standing → Option Yield
  | .holding _ _ => none
  | .ended _ yield? => yield?

/-- The runner that is on loan to the call. -/
def runner? : Standing → Option Runner
  | .holding runner _ => some runner
  | .ended _ _ => none

end Standing

/-! ## Steps of a call -/

/-- The first step of a call. -/
def Job.begin (job : Job) : StateM Session Standing := do
  let runner ← Session.acquire
  return .holding runner (.lent job)

/-- The step of a call that follows a stage. -/
def Stage.advance (st : Statement) (runner : Runner) : Stage → StateM Session Standing
  | .lent job => do
    let (result, runner) ← st.prepare job.op job.params runner
    return .holding runner (.prepared job result)
  | .prepared (.render _) result => do
    let rendered := result.map fun _ => ⟨runner.made.text.text, runner.made.args, runner.made.dests⟩
    return .holding runner (.concluded none (.rendered rendered))
  | .prepared (.access a _ _) (.error e) =>
    return .holding runner (.settled a none (.error e))
  | .prepared (.access a _ db) (.ok _) => do
    let request : Request := ⟨a.isExec, runner.made.text.text, runner.made.args⟩
    let _ ← Session.step (Step.tell (.asked request))
    return .holding runner (.asked a db request)
  | .asked a db request =>
    return .holding runner (.answered a request (db request))
  | .answered a request (.error e) =>
    return .holding runner (.settled a (some request) (.error e))
  | .answered a request (.ok answer) => do
    let result ← Session.step (a.finish st.transforms st.dest runner.made.targets answer)
    return .holding runner (.settled a (some request) result)
  | .settled a sent result => do
    let result ← Session.step (st.conclude (st.callOf a runner) result)
    return .holding runner (.concluded sent (.output result))
  | .concluded sent yield => do
    Session.release runner
    return .ended sent (some yield)

namespace Standing

/-- The next step of a call; there is none when it is over. -/
def advance (st : Statement) : Standing → StateM Session Standing
  | .holding runner stage => stage.advance st runner
  | .ended sent yield? => return .ended sent yield?

/-- Gives a call up: nothing is done but giving its runner back. -/
def giveUp : Standing → StateM Session Standing
  | .holding runner stage => do
    Session.release runner
    return .ended stage.sent none
  | .ended sent yield? => return .ended sent yield?

end Standing

theorem Stage.sent_advance {st : Statement} {runner : Runner} {stage : Stage} {request : Request}
    (h : stage.sent = some request) (s : Session) :
    ((stage.advance st runner).run s).1.sent = some request := by
  cases stage with
  | lent job => cases h
  | prepared job result => cases h
  | answered a request answer => cases answer <;> exact h
  | _ => exact h

theorem Standing.sent_advance {st : Statement} {standing : Standing} {request : Request}
    (h : standing.sent = some request) (s : Session) :
    ((standing.advance st).run s).1.sent = some request := by
  cases standing with
  | holding runner stage => exact Stage.sent_advance h s
  | ended sent yield? => exact h

/-! ## Alone -/

namespace Job

/-- How a call stands after its first step and `n` more, on a statement of which nothing else is
asked, and the session then. -/
def alone (st : Statement) (job : Job) : Nat → Standing × Session
  | 0 => job.begin.run .empty
  | n + 1 => ((job.alone st n).1.advance st).run (job.alone st n).2

theorem alone_succ (st : Statement) (job : Job) (n : Nat) :
    job.alone st (n + 1) = ((job.alone st n).1.advance st).run (job.alone st n).2 := rfl

/-- A call that is over stays so. -/
theorem alone_ended {st : Statement} {job : Job} {n : Nat} {sent : Option Request}
    {yield? : Option Yield} (h : (job.alone st n).1 = .ended sent yield?) (k : Nat) :
    job.alone st (n + k) = job.alone st n := by
  induction k with
  | zero => rfl
  | succ k ih =>
      rw [← Nat.add_assoc, alone_succ, ih, h]
      exact Prod.ext h.symm rfl

/-- The first two steps of a call: a runner is lent, and the text and the arguments are made. -/
theorem alone_prepared {st : Statement} {job : Job} {runner runner' : Runner}
    {lent prepared : Session} {result : Except Error Unit}
    (hlent : Session.acquire.run .empty = (runner, lent))
    (hprepared : (st.prepare job.op job.params runner).run lent = ((result, runner'), prepared)) :
    job.alone st 1 = (.holding runner' (.prepared job result), prepared) := by
  rw [alone_succ, alone, begin, run_bind_of hlent]
  exact run_bind_of hprepared

theorem alone_render (st : Statement) (params : Datum) : ((render params).alone st 3).1 =
    .ended none (some (.rendered ((st.render params).run .empty).1)) := by
  rcases hlent : Session.acquire.run .empty with ⟨runner, lent⟩
  rcases hmade : (st.prepare .render params runner).run lent with ⟨⟨result, runner'⟩, prepared⟩
  have hprepared : (render params).alone st 1 = _ := alone_prepared hlent hmade
  rw [alone_succ, alone_succ, hprepared, Statement.render, run_bind_of hlent, run_bind_of hmade]
  rfl

/-- A call that fails before the driver is asked, is over after four steps more. -/
theorem alone_refused {st : Statement} {a : Access} {params : Datum} (db : Driver)
    {result : Except Error Output} {last : Session}
    (h : (st.start a params).run .empty = (.finished result, last)) :
    (access a params db).alone st 4 = (.ended none (some (.output result)), last) := by
  rcases hlent : Session.acquire.run .empty with ⟨runner, lent⟩
  rcases hmade : (st.prepare (.access a) params runner).run lent with ⟨⟨made, runner'⟩, prepared⟩
  have hprepared : (access a params db).alone st 1 = _ := alone_prepared hlent hmade
  rw [Statement.start, run_bind_of hlent, run_bind_of hmade] at h
  cases made with
  | ok _ => cases h
  | error e =>
      rw [alone_succ, alone_succ, alone_succ, hprepared]
      cases h
      rfl

/-- A call for which the driver is asked. -/
theorem alone_asked {st : Statement} {a : Access} {params : Datum} (db : Driver)
    {pending : Statement.Pending} {asked : Session}
    (h : (st.start a params).run .empty = (.waiting pending, asked)) :
    (access a params db).alone st 2 =
      (.holding pending.runner (.asked a db pending.request), asked) ∧ pending.access = a := by
  rcases hlent : Session.acquire.run .empty with ⟨runner, lent⟩
  rcases hmade : (st.prepare (.access a) params runner).run lent with ⟨⟨made, runner'⟩, prepared⟩
  have hprepared : (access a params db).alone st 1 = _ := alone_prepared hlent hmade
  rw [Statement.start, run_bind_of hlent, run_bind_of hmade] at h
  cases made with
  | error e => cases h
  | ok _ =>
      rw [alone_succ, hprepared]
      cases h
      exact ⟨rfl, rfl⟩

theorem alone_answered {st : Statement} {a : Access} {params : Datum} {db : Driver}
    {runner : Runner} {request : Request} {asked : Session}
    (h : (access a params db).alone st 2 = (.holding runner (.asked a db request), asked)) :
    ((access a params db).alone st 6).1 = .ended (some request)
      (some (.output ((st.finish ⟨a, runner, request⟩ (db request)).run asked).1)) := by
  have hanswered : (access a params db).alone st 3 =
      (.holding runner (.answered a request (db request)), asked) := by
    rw [alone_succ, h]
    rfl
  rw [alone_succ, alone_succ, alone_succ, hanswered]
  cases db request with
  | error e => rfl
  | ok answer => rfl

/-- Alone, a call is over after its first step and six more at most, and has sent and yielded what
the operation sends and yields. -/
theorem alone_six (st : Statement) (job : Job) :
    (job.alone st 6).1 = .ended (job.request? st) (some (job.yield st)) := by
  cases job with
  | render params =>
      rw [alone_ended (alone_render st params) 3, alone_render]
      rfl
  | access a params db =>
      rcases hstart : (st.start a params).run .empty with ⟨result | pending, session⟩
      · have hrun : (st.run db a params).run .empty = (result, session) := by
          rw [Statement.run, run_bind_of hstart]
          rfl
        have hended := alone_refused db hstart
        rw [alone_ended (congrArg Prod.fst hended) 2, hended, request?, yield, hstart, hrun]
      · obtain ⟨hasked, rfl⟩ := alone_asked db hstart
        have hrun : (st.run db pending.access params).run .empty =
            (st.finish pending (db pending.request)).run session := by
          rw [Statement.run, run_bind_of hstart]
        rw [alone_answered hasked, request?, yield, hstart, hrun]

/-- What has been sent stays sent. -/
theorem alone_sent {st : Statement} {job : Job} {n : Nat} {request : Request}
    (h : (job.alone st n).1.sent = some request) (k : Nat) :
    (job.alone st (n + k)).1.sent = some request := by
  induction k with
  | zero => exact h
  | succ k ih =>
      rw [← Nat.add_assoc, alone_succ]
      exact Standing.sent_advance ih _

theorem alone_request {st : Statement} {job : Job} {n : Nat} {request : Request}
    (h : (job.alone st n).1.sent = some request) : job.request? st = some request := by
  have hlater := alone_sent h 6
  rw [Nat.add_comm, alone_ended (alone_six st job), alone_six] at hlater
  exact hlater

theorem alone_end {st : Statement} {job : Job} {n : Nat} {sent : Option Request}
    {yield? : Option Yield} (h : (job.alone st n).1 = .ended sent yield?) :
    sent = job.request? st ∧ yield? = some (job.yield st) := by
  have hsix := alone_six st job
  rw [← alone_ended (alone_six st job) n, Nat.add_comm, alone_ended h, h] at hsix
  exact ⟨congrArg Standing.sent hsix, congrArg Standing.yield? hsix⟩

end Job

/-! ## Calls on different runners -/

open Session

/-- Whether two calls stand alike: at the same stage, on runners that have made the same. -/
inductive Standing.Like : Standing → Standing → Prop
  | holding (stage : Stage) {runner runner' : Runner} (h : runner.made = runner'.made) :
      Like (.holding runner stage) (.holding runner' stage)
  | ended (sent : Option Request) (yield? : Option Yield) :
      Like (.ended sent yield?) (.ended sent yield?)

theorem Standing.Like.refl (x : Standing) : x.Like x := by
  cases x with
  | holding runner stage => exact .holding stage rfl
  | ended sent yield? => exact .ended sent yield?

theorem Standing.Like.sent_eq {x y : Standing} (h : x.Like y) : x.sent = y.sent := by
  cases h <;> rfl

theorem Job.begin_alike (job : Job) : Alike Standing.Like job.begin job.begin :=
  Alike.bind alike_acquire fun _ _ ⟨hmade, hmade'⟩ =>
    Alike.pure (.holding (.lent job) (hmade.trans hmade'.symm))

theorem Stage.advance_alike (st : Statement) (stage : Stage) {runner runner' : Runner}
    (h : runner.made = runner'.made) :
    Alike Standing.Like (stage.advance st runner) (stage.advance st runner') := by
  cases stage with
  | lent job =>
      refine Alike.bind (st.prepare_alike h) ?_
      rintro ⟨result, runner⟩ ⟨_, runner'⟩ ⟨rfl, hmade⟩
      exact Alike.pure (.holding _ hmade)
  | prepared job result =>
      cases job with
      | render params =>
          simp only [advance, h]
          exact Alike.pure (.holding _ h)
      | access a params db =>
          cases result with
          | error e => exact Alike.pure (.holding _ h)
          | ok _ =>
              simp only [advance, h]
              exact Alike.bind (alike_step (Step.blind_tell _)) fun _ _ _ =>
                Alike.pure (.holding _ h)
  | asked a db request => exact Alike.pure (.holding _ h)
  | answered a request answer =>
      cases answer with
      | error e => exact Alike.pure (.holding _ h)
      | ok answer =>
          simp only [advance, h]
          refine Alike.bind (alike_step (a.quiet_finish _ _ _ answer).blind) ?_
          rintro result _ rfl
          exact Alike.pure (.holding _ h)
  | settled a sent result =>
      have hcall : st.callOf a runner = st.callOf a runner' := by
        rw [Statement.callOf, Statement.callOf, h]
      simp only [advance, hcall]
      refine Alike.bind (alike_step (st.quiet_conclude _ result).blind) ?_
      rintro result _ rfl
      exact Alike.pure (.holding _ h)
  | concluded sent yield =>
      exact Alike.bind (alike_release runner runner') fun _ _ _ => Alike.pure (.ended sent _)

theorem Standing.advance_alike (st : Statement) {x y : Standing} (h : x.Like y) :
    Alike Like (x.advance st) (y.advance st) := by
  cases h with
  | holding stage h => exact stage.advance_alike st h
  | ended sent yield? => exact Alike.pure (.ended sent yield?)

theorem Job.begin_clean (job : Job) {s : Session} (hs : s.Clean) : (job.begin.run s).2.Clean :=
  (job.begin_alike s s hs hs).2.1

theorem Standing.advance_clean (st : Statement) (standing : Standing) {s : Session}
    (hs : s.Clean) : ((standing.advance st).run s).2.Clean :=
  (advance_alike st (.refl standing) s s hs hs).2.1

theorem Standing.giveUp_clean (standing : Standing) {s : Session} (hs : s.Clean) :
    (standing.giveUp.run s).2.Clean := by
  cases standing with
  | holding runner stage => exact (alike_release runner runner s s hs hs).2.1
  | ended sent yield? => exact hs

/-- Whether a call that stands like this has come as far as it would alone in `n` steps. -/
def Standing.Along (st : Statement) (job : Job) (n : Nat) (standing : Standing) : Prop :=
  standing.Like (job.alone st n).1

section Along

variable {st : Statement} {job : Job} {n : Nat} {standing : Standing} {s : Session}

theorem Job.alone_clean (st : Statement) (job : Job) (n : Nat) : (job.alone st n).2.Clean := by
  induction n with
  | zero => exact job.begin_clean clean_empty
  | succ n ih => exact Standing.advance_clean st _ ih

theorem Standing.along_begin (hs : s.Clean) : Along st job 0 (job.begin.run s).1 :=
  (job.begin_alike s .empty hs clean_empty).1

theorem Standing.Along.advance (h : standing.Along st job n) (hs : s.Clean) :
    Along st job (n + 1) ((standing.advance st).run s).1 :=
  (advance_alike st h s _ hs (job.alone_clean st n)).1

/-- What is over alone, is over for a call that has come as far. -/
theorem Standing.Along.of_ended {sent : Option Request} {yield? : Option Yield}
    (h : standing.Along st job n) (hended : (job.alone st n).1 = .ended sent yield?) :
    standing = .ended sent yield? := by
  rw [Along, hended] at h
  cases h
  rfl

theorem Standing.Along.end {sent : Option Request} {yield? : Option Yield}
    (h : Along st job n (.ended sent yield?)) :
    sent = job.request? st ∧ yield? = some (job.yield st) := by
  rw [Along] at h
  generalize hended : (job.alone st n).1 = last at h
  cases h
  exact Job.alone_end hended

end Along

end SqlTemplate
