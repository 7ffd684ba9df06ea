import Mathlib
import SqlTemplate.Proofs.Statement.Calls

/-!
# Histories

Calls on one statement share its runners. They take their steps in any order, fail at any of them,
and are given up between any two. Whatever they do, every runner stays in one place, with one call
or among the idle ones, and is empty when it is lent. So every call stands as it would alone, and
nothing of one call reaches another (`Statement.history_independent`).
-/

set_option autoImplicit false

namespace SqlTemplate

open Session

/-! ## Moves -/

/-- A call and how it stands. -/
structure Entry where
  job : Job
  standing : Standing

/-- What has become of a statement and the calls on it, which are listed in the order in which they
began. -/
structure History where
  session : Session
  entries : List Entry

/-- What can happen next: another call begins, or one that has begun takes its next step or is given
up. -/
inductive Move
  | call (job : Job)
  | advance (i : Nat)
  | giveUp (i : Nat)

namespace History

/-- No calls. -/
def empty : History := ⟨.empty, []⟩

/-- The runners that are on loan. -/
def lent (h : History) : List Runner :=
  h.entries.filterMap fun entry => entry.standing.runner?

/-- A step of a call. -/
def change (i : Nat) (step : Standing → StateM Session Standing) (h : History) : History :=
  match h.entries[i]? with
  | none => h
  | some entry =>
    let next := (step entry.standing).run h.session
    ⟨next.2, h.entries.set i ⟨entry.job, next.1⟩⟩

theorem change_of_get {h : History} {i : Nat} {entry : Entry}
    (hentry : h.entries[i]? = some entry) (step : Standing → StateM Session Standing) :
    h.change i step = ⟨((step entry.standing).run h.session).2,
      h.entries.set i ⟨entry.job, ((step entry.standing).run h.session).1⟩⟩ := by
  rw [change, hentry]

/-- What becomes of a history with the next move. -/
def move (st : Statement) (h : History) : Move → History
  | .call job =>
    let next := job.begin.run h.session
    ⟨next.2, h.entries ++ [⟨job, next.1⟩]⟩
  | .advance i => h.change i (Standing.advance st)
  | .giveUp i => h.change i Standing.giveUp

end History

/-- What becomes of a statement. -/
def Statement.history (st : Statement) (moves : List Move) : History :=
  moves.foldl (History.move st) .empty

/-! ## Every runner is in one place -/

/-- The numbers of the idle runners. -/
def RunnerPool.numbers (pool : RunnerPool) : List Nat :=
  pool.idle.map Runner.number

/-- The number of the runner that is on loan to a call. -/
def Standing.numbers (standing : Standing) : List Nat :=
  (standing.runner?.map Runner.number).toList

/-- The numbers of the idle runners and of those on loan. -/
def History.numbers (h : History) : List Nat :=
  (h.session.pool.idle ++ h.lent).map Runner.number

theorem History.numbers_eq (h : History) : h.numbers =
    h.session.pool.numbers ++ h.entries.flatMap fun entry => entry.standing.numbers := by
  rw [numbers, List.map_append, lent, List.map_filterMap, List.filterMap_eq_flatMap_toList]
  rfl

/-- Whether a step neither makes nor loses a runner. -/
def Standing.Balanced (standing : Standing) (step : StateM Session Standing) : Prop :=
  ∀ s, (step.run s).2.pool.count = s.pool.count ∧
    ((step.run s).2.pool.numbers ++ (step.run s).1.numbers).Perm
      (s.pool.numbers ++ standing.numbers)

namespace Standing

theorem balanced_kept {runner : Runner} {stage : Stage} {step : StateM Session Standing}
    (h : ∀ s, ∃ runner' stage', (step.run s).1 = .holding runner' stage' ∧
      runner'.number = runner.number ∧ (step.run s).2.pool = s.pool) :
    Balanced (.holding runner stage) step := by
  intro s
  obtain ⟨runner', stage', hstanding, hnumber, hpool⟩ := h s
  rw [hstanding, hpool]
  refine ⟨rfl, .of_eq ?_⟩
  simp [numbers, runner?, hnumber]

theorem balanced_released (runner : Runner) (stage : Stage) (sent : Option Request)
    (yield? : Option Yield) : Balanced (.holding runner stage) (do
      Session.release runner
      return .ended sent yield?) := by
  intro s
  refine ⟨rfl, ?_⟩
  show (runner.number :: s.pool.numbers ++ []).Perm (s.pool.numbers ++ [runner.number])
  rw [List.append_nil]
  exact List.perm_append_singleton _ _ |>.symm

end Standing

theorem Statement.prepare_keeps (st : Statement) (op : Op) (params : Datum) (runner : Runner)
    (s : Session) : ((st.prepare op params runner).run s).1.2.number = runner.number ∧
      ((st.prepare op params runner).run s).2.pool = s.pool ∧
      requests ((st.prepare op params runner).run s).2.events = requests s.events := by
  rcases hopen : (Session.step (st.openScope op params)).run s with ⟨result, opened⟩
  have hpool : opened.pool = s.pool := (congrArg (fun outcome => outcome.2.pool) hopen).symm
  have hasked : requests opened.events = requests s.events := by
    rw [← (st.quiet_openScope op params).requests_eq s.events]
    exact (congrArg (fun outcome => requests outcome.2.events) hopen).symm
  rw [prepare, run_bind_of hopen]
  cases result with
  | error e => exact ⟨rfl, hpool, hasked⟩
  | ok scope => exact ⟨rfl, hpool, hasked⟩

theorem Stage.advance_balanced (st : Statement) (runner : Runner) (stage : Stage) :
    Standing.Balanced (.holding runner stage) (stage.advance st runner) := by
  cases stage with
  | concluded sent yield => exact Standing.balanced_released runner _ sent (some yield)
  | lent job =>
      refine Standing.balanced_kept fun s => ?_
      obtain ⟨hnumber, hpool, -⟩ := st.prepare_keeps job.op job.params runner s
      exact ⟨_, _, rfl, hnumber, hpool⟩
  | prepared job result =>
      refine Standing.balanced_kept fun s => ⟨runner, ?_⟩
      cases job with
      | render params => exact ⟨_, rfl, rfl, rfl⟩
      | access a params db => cases result <;> exact ⟨_, rfl, rfl, rfl⟩
  | answered a request answer =>
      refine Standing.balanced_kept fun s => ⟨runner, ?_⟩
      cases answer <;> exact ⟨_, rfl, rfl, rfl⟩
  | asked a db request => exact Standing.balanced_kept fun s => ⟨runner, _, rfl, rfl, rfl⟩
  | settled a sent result => exact Standing.balanced_kept fun s => ⟨runner, _, rfl, rfl, rfl⟩

namespace Standing

theorem advance_balanced (st : Statement) (standing : Standing) :
    standing.Balanced (standing.advance st) := by
  cases standing with
  | holding runner stage => exact stage.advance_balanced st runner
  | ended sent yield? => exact fun s => ⟨rfl, .refl _⟩

theorem giveUp_balanced (standing : Standing) : standing.Balanced standing.giveUp := by
  cases standing with
  | holding runner stage => exact balanced_released runner stage stage.sent none
  | ended sent yield? => exact fun s => ⟨rfl, .refl _⟩

end Standing

/-! ## Every request is reported by one call -/

/-- Whether what a step asks of drivers is what the call has sent with it. -/
def Standing.Reported (standing : Standing) (step : StateM Session Standing) : Prop :=
  ∀ s, ∃ asked, requests (step.run s).2.events = requests s.events ++ asked ∧
    (step.run s).1.sent.toList = standing.sent.toList ++ asked

theorem Standing.reported_nothing {standing : Standing} {step : StateM Session Standing}
    (h : ∀ s, requests (step.run s).2.events = requests s.events ∧
      (step.run s).1.sent = standing.sent) : standing.Reported step := by
  intro s
  obtain ⟨hasked, hsent⟩ := h s
  exact ⟨[], by rw [hasked, List.append_nil], by rw [hsent, List.append_nil]⟩

theorem Stage.advance_reported (st : Statement) (runner : Runner) (stage : Stage) :
    Standing.Reported (.holding runner stage) (stage.advance st runner) := by
  cases stage with
  | lent job =>
      exact Standing.reported_nothing fun s =>
        ⟨(st.prepare_keeps job.op job.params runner s).2.2, rfl⟩
  | prepared job result =>
      cases job with
      | render params => exact Standing.reported_nothing fun s => ⟨rfl, rfl⟩
      | access a params db =>
          cases result with
          | error e => exact Standing.reported_nothing fun s => ⟨rfl, rfl⟩
          | ok _ =>
              -- Here, and in no other step, the driver is asked.
              exact fun s => ⟨_, requests_append s.events [.asked _], rfl⟩
  | asked a db request => exact Standing.reported_nothing fun s => ⟨rfl, rfl⟩
  | answered a request answer =>
      cases answer with
      | error e => exact Standing.reported_nothing fun s => ⟨rfl, rfl⟩
      | ok answer =>
          exact Standing.reported_nothing fun s =>
            ⟨(a.quiet_finish _ _ _ answer).requests_eq s.events, rfl⟩
  | settled a sent result =>
      exact Standing.reported_nothing fun s =>
        ⟨(st.quiet_conclude _ result).requests_eq s.events, rfl⟩
  | concluded sent yield => exact Standing.reported_nothing fun s => ⟨rfl, rfl⟩

namespace Standing

theorem advance_reported (st : Statement) (standing : Standing) :
    standing.Reported (standing.advance st) := by
  cases standing with
  | holding runner stage => exact stage.advance_reported st runner
  | ended sent yield? => exact reported_nothing fun s => ⟨rfl, rfl⟩

theorem giveUp_reported (standing : Standing) : standing.Reported standing.giveUp := by
  cases standing with
  | holding runner stage => exact reported_nothing fun s => ⟨rfl, rfl⟩
  | ended sent yield? => exact reported_nothing fun s => ⟨rfl, rfl⟩

end Standing

/-! ## Histories are sound -/

/-- Whether a call has come as far as it would alone in some number of steps, or was given up having
sent nothing but what it would have sent alone. -/
inductive Entry.Follows (st : Statement) : Entry → Prop
  | along {job : Job} {standing : Standing} {n : Nat} (h : standing.Along st job n) :
      Follows st ⟨job, standing⟩
  | givenUp {job : Job} {sent : Option Request}
      (h : ∀ request, sent = some request → job.request? st = some request) :
      Follows st ⟨job, .ended sent none⟩

namespace Entry.Follows

variable {st : Statement} {entry : Entry} {s : Session}

theorem sent (h : entry.Follows st) {request : Request}
    (hsent : entry.standing.sent = some request) : entry.job.request? st = some request := by
  cases h with
  | along h => exact Job.alone_request (h.sent_eq.symm.trans hsent)
  | givenUp h => exact h request hsent

theorem begin (job : Job) (hs : s.Clean) : Follows st ⟨job, (job.begin.run s).1⟩ :=
  .along (Standing.along_begin hs)

theorem advance (h : entry.Follows st) (hs : s.Clean) :
    Follows st ⟨entry.job, ((entry.standing.advance st).run s).1⟩ := by
  cases h with
  | along h => exact .along (h.advance hs)
  | givenUp h => exact .givenUp h

theorem giveUp (h : entry.Follows st) :
    Follows st ⟨entry.job, (entry.standing.giveUp.run s).1⟩ := by
  obtain ⟨job, standing⟩ := entry
  cases standing with
  | holding runner stage => exact .givenUp fun request hsent => h.sent hsent
  | ended sent yield? => exact h

end Entry.Follows

namespace History

/-- What every history keeps: idle runners are empty, every runner that was made is idle or on loan
to one call, drivers were asked what the calls have sent, and the calls follow what they would do
alone. -/
structure Sound (st : Statement) (h : History) : Prop where
  clean : h.session.Clean
  numbered : h.numbers.Perm (List.range h.session.pool.count)
  asked : (requests h.session.events).Perm
    (h.entries.flatMap fun entry => entry.standing.sent.toList)
  follows : ∀ entry ∈ h.entries, entry.Follows st

section Sound

variable {st : Statement} {h : History}

theorem sound_empty : Sound st .empty where
  clean := clean_empty
  numbered := .refl _
  asked := .refl _
  follows := by simp [empty]

theorem Sound.call (hsound : h.Sound st) (job : Job) : Sound st (h.move st (.call job)) where
  clean := job.begin_clean hsound.clean
  numbered := by
    have hold := hsound.numbered
    rw [numbers_eq] at hold ⊢
    obtain ⟨⟨⟨idle, count⟩, events⟩, entries⟩ := h
    cases idle with
    | nil =>
        -- A runner is made, and its number is the next one.
        show (List.flatMap _ (entries ++ [_])).Perm (List.range (count + 1))
        rw [List.flatMap_append, List.range_succ]
        exact hold.append_right [count]
    | cons runner rest =>
        -- The number of the runner that is lent moves from the front to the end.
        show (RunnerPool.numbers ⟨rest, count⟩ ++ List.flatMap _ (entries ++ [_])).Perm
          (List.range count)
        rw [List.flatMap_append, ← List.append_assoc]
        exact (List.perm_append_singleton runner.number _).trans hold
  asked := by
    show (requests (job.begin.run h.session).2.events).Perm
      (List.flatMap _ (h.entries ++ [⟨job, (job.begin.run h.session).1⟩]))
    rw [List.flatMap_append]
    exact hsound.asked.trans (.of_eq (List.append_nil _).symm)
  follows entry hentry := by
    rcases List.mem_append.mp hentry with hold | hnew
    · exact hsound.follows entry hold
    · obtain rfl := List.mem_singleton.mp hnew
      exact .begin job hsound.clean

theorem Sound.change (hsound : h.Sound st) (i : Nat) {step : Standing → StateM Session Standing}
    (hclean : ∀ standing s, s.Clean → ((step standing).run s).2.Clean)
    (hbalanced : ∀ standing : Standing, standing.Balanced (step standing))
    (hreported : ∀ standing : Standing, standing.Reported (step standing))
    (hfollows : ∀ (entry : Entry) s, s.Clean → entry.Follows st →
      Entry.Follows st ⟨entry.job, ((step entry.standing).run s).1⟩) :
    Sound st (h.change i step) := by
  cases hentry : h.entries[i]? with
  | none =>
      rw [History.change, hentry]
      exact hsound
  | some entry =>
      let next : Entry := ⟨entry.job, ((step entry.standing).run h.session).1⟩
      obtain ⟨before, after, hentries, hset⟩ : ∃ before after,
          h.entries = before ++ entry :: after ∧
            h.entries.set i next = before ++ next :: after := by
        obtain ⟨hi, rfl⟩ := List.getElem?_eq_some_iff.mp hentry
        obtain ⟨before, after, hentries, -, hset⟩ := List.exists_of_set hi
        exact ⟨before, after, hentries, hset⟩
      obtain ⟨hcount, hnumbers⟩ := hbalanced entry.standing h.session
      rw [change_of_get hentry step]
      refine ⟨hclean _ _ hsound.clean, ?_, ?_, fun other hother => ?_⟩
      · refine .trans ?_ (hcount ▸ hsound.numbered)
        show (History.numbers ⟨_, h.entries.set i next⟩).Perm h.numbers
        rw [numbers_eq, numbers_eq, hset, hentries]
        simp only [List.flatMap_append, List.flatMap_cons]
        rw [List.perm_iff_count] at hnumbers ⊢
        intro n
        have hn := hnumbers n
        simp only [List.count_append, next] at hn ⊢
        omega
      · obtain ⟨asked, hasked, hsent⟩ := hreported entry.standing h.session
        have hold := hsound.asked.append_right asked
        show (requests _).Perm (List.flatMap _ (h.entries.set i next))
        rw [hasked, hset]
        rw [hentries] at hold
        refine hold.trans ?_
        simp only [List.flatMap_append, List.flatMap_cons, next, hsent, List.append_assoc]
        exact (List.perm_append_comm.append_left _).append_left _
      · rw [show h.entries.set i _ = before ++ next :: after from hset] at hother
        rcases List.mem_append.mp hother with hbefore | hafter
        · exact hsound.follows other (by simp [hentries, hbefore])
        · rcases List.mem_cons.mp hafter with rfl | hafter
          · exact hfollows entry _ hsound.clean (hsound.follows entry (by simp [hentries]))
          · exact hsound.follows other (by simp [hentries, hafter])

theorem Sound.move (hsound : h.Sound st) (move : Move) : Sound st (h.move st move) := by
  cases move with
  | call job => exact hsound.call job
  | advance i =>
      exact hsound.change i (fun standing _ => standing.advance_clean st)
        (fun standing => standing.advance_balanced st)
        (fun standing => standing.advance_reported st) fun _ _ hs hentry => hentry.advance hs
  | giveUp i =>
      exact hsound.change i (fun standing _ => standing.giveUp_clean)
        (fun standing => standing.giveUp_balanced)
        (fun standing => standing.giveUp_reported) fun _ _ _ hentry => hentry.giveUp

end Sound

end History

theorem Statement.history_append (st : Statement) (moves later : List Move) :
    st.history (moves ++ later) = later.foldl (History.move st) (st.history moves) :=
  List.foldl_append

theorem Statement.history_sound (st : Statement) (moves : List Move) :
    History.Sound st (st.history moves) := by
  induction moves using List.reverseRecOn with
  | nil => exact History.sound_empty
  | append_singleton moves move ih =>
      rw [history_append]
      exact ih.move move

/-- A call that goes on while no other does, goes on as it would alone. -/
theorem History.Sound.goes_on {st : Statement} {h : History} (hsound : h.Sound st) {i n : Nat}
    {job : Job} {standing : Standing} (hentry : h.entries[i]? = some ⟨job, standing⟩)
    (halong : standing.Along st job n) (k : Nat) :
    ∃ last : Standing, last.Along st job (n + k) ∧
      ((List.replicate k (Move.advance i)).foldl (History.move st) h).entries[i]? =
        some ⟨job, last⟩ := by
  induction k generalizing h n standing with
  | zero => exact ⟨standing, halong, hentry⟩
  | succ k ih =>
      have hi := (List.getElem?_eq_some_iff.mp hentry).1
      have hnext : (h.move st (.advance i)).entries[i]? =
          some ⟨job, ((standing.advance st).run h.session).1⟩ := by
        rw [History.move, History.change_of_get hentry, List.getElem?_set_self hi]
      obtain ⟨last, hlast, hlater⟩ :=
        ih (hsound.move (.advance i)) hnext (halong.advance hsound.clean)
      exact ⟨last, by rwa [Nat.add_right_comm] at hlast, hlater⟩

/-- **Calls do not see each other.** After any history of calls on a statement, in any order of
their steps and wherever calls failed or were given up: the runner that is lent next is empty; each
runner that was ever made is either idle or on loan to one call, and to one only; drivers have been
asked what the calls have sent, and nothing else; and every call has sent what it would have sent on
a new statement, or nothing so far, and has yielded what it would have yielded there, or will after
six steps more. -/
theorem Statement.history_independent (st : Statement) (moves : List Move) :
    let h := st.history moves
    (Session.acquire.run h.session).1.made = .empty ∧
      ((h.session.pool.idle ++ h.lent).map Runner.number).Perm
        (List.range h.session.pool.count) ∧
      (requests h.session.events).Perm (h.entries.filterMap fun entry => entry.standing.sent) ∧
      ∀ i job standing, h.entries[i]? = some ⟨job, standing⟩ →
        (∀ request, standing.sent = some request → job.request? st = some request) ∧
        (∀ yield, standing.yield? = some yield →
          yield = job.yield st ∧ standing.sent = job.request? st) ∧
        (∀ runner, standing.runner? = some runner →
          (st.history (moves ++ List.replicate 6 (.advance i))).entries[i]? =
            some ⟨job, .ended (job.request? st) (some (job.yield st))⟩) := by
  intro h
  have hsound := st.history_sound moves
  have hasked : (requests h.session.events).Perm
      (h.entries.filterMap fun entry => entry.standing.sent) := by
    rw [List.filterMap_eq_flatMap_toList]
    exact hsound.asked
  refine ⟨(alike_acquire _ _ hsound.clean hsound.clean).1.1, hsound.numbered, hasked, ?_⟩
  intro i job standing hentry
  have hfollows := hsound.follows _ (List.mem_of_getElem? hentry)
  refine ⟨fun request => hfollows.sent, ?_, ?_⟩
  · intro yield hyield
    cases hfollows with
    | givenUp _ => cases hyield
    | along halong =>
        cases standing with
        | holding runner stage => cases hyield
        | ended sent yield? =>
            obtain ⟨hsent, hend⟩ := halong.end
            exact ⟨Option.some.inj (hyield.symm.trans hend), hsent⟩
  · intro runner hrunner
    cases hfollows with
    | givenUp _ => cases hrunner
    | along halong =>
        obtain ⟨last, hlast, hlater⟩ := hsound.goes_on hentry halong 6
        rw [Nat.add_comm] at hlast
        rw [st.history_append, hlater, hlast.of_ended ?_]
        rw [Job.alone_ended (job.alone_six st), job.alone_six]

/-- A call that fails leaves text on its runner, and the next call on it does not see it. -/
theorem Statement.history_independent_reused :
    let id : Pipeline := ⟨[], false, [[.field ["id"]]]⟩
    let t : Template := ⟨"find", [.text "SELECT ", .action 1 id]⟩
    let st : Statement :=
      ⟨⟨t.mark, [], .dollar, .error⟩, .text, .text, fun _ v => .ok v, [], [], [], 0⟩
    let db : Driver := fun _ => .ok (.affected 1)
    let wrong : Job := .access .exec (.record "Query" []) db
    let right : Job := .access .exec (.record "Query" [("id", .int .i64 7)]) db
    let moves : List Move := [.call wrong, .advance 0, .call right, .advance 0, .advance 0,
      .advance 0, .call right, .advance 2, .advance 2]
    ∃ standing : Standing, (st.history moves).entries[2]? = some ⟨right, standing⟩ ∧
      standing.runner?.map Runner.number = some 0 ∧
      standing.sent.map Request.sql = some "SELECT $1" ∧ standing.sent = right.request? st := by
  intro id t st db wrong right moves
  have hseen : (st.history moves).entries[2]?.map (fun entry =>
      (entry.standing.runner?.map Runner.number, entry.standing.sent.map Request.sql)) =
        some (some 0, some "SELECT $1") := by
    decide +kernel
  obtain ⟨standing, hentry⟩ : ∃ standing, (st.history moves).entries[2]? = some ⟨right, standing⟩ :=
    ⟨_, rfl⟩
  have hsent := ((st.history_independent moves).2.2.2 2 right standing hentry).1
  rw [hentry, Option.map_some, Option.some.injEq, Prod.mk.injEq] at hseen
  obtain ⟨hnumber, hsql⟩ := hseen
  obtain ⟨request, hrequest, -⟩ := Option.map_eq_some_iff.mp hsql
  exact ⟨standing, hentry, hnumber, hsql, hrequest.trans (hsent request hrequest).symm⟩

end SqlTemplate
