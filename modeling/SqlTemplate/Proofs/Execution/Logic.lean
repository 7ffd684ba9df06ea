import Mathlib
import SqlTemplate.Template.Eval

/-!
# Reasoning about steps

Two judgements about the steps of an execution, each with one rule for every way in which steps
are put together. `Exec.Spec` speaks of one step: started in a state that satisfies `P`, it ends in
`Q` if it yields a value and in `E` if it stops. `Exec.Agree` speaks of two steps in two worlds:
started with the same variables at the same line, in worlds that are related, they yield the same
value or stop for the same reason, and the worlds are related again.
-/

set_option autoImplicit false

namespace SqlTemplate

namespace Exec

variable {σ τ α β : Type}

/-- What a step makes of a state. -/
def on (m : Exec σ α) (frame : Frame σ) : Except EvalFault α × Frame σ := m.run.run frame

@[simp] theorem on_pure (a : α) (frame : Frame σ) : (pure a : Exec σ α).on frame = (.ok a, frame) :=
  rfl

theorem on_bind (m : Exec σ α) (k : α → Exec σ β) (frame : Frame σ) :
    (m >>= k).on frame =
      match m.on frame with
      | (.ok a, next) => (k a).on next
      | (.error fault, next) => (.error fault, next) := by
  show (m >>= k).run.run frame = _
  rw [ExceptT.run_bind, StateT.run_bind]
  unfold on
  generalize m.run.run frame = outcome
  obtain ⟨result, next⟩ := outcome
  cases result <;> rfl

@[simp] theorem on_throw (fault : EvalFault) (frame : Frame σ) :
    (throw fault : Exec σ α).on frame = (.error fault, frame) := rfl

@[simp] theorem on_get (frame : Frame σ) : (get : Exec σ (Frame σ)).on frame = (.ok frame, frame) :=
  rfl

@[simp] theorem on_set (frame next : Frame σ) : (set next : Exec σ Unit).on frame = (.ok (), next) :=
  rfl

@[simp] theorem on_modify (g : Frame σ → Frame σ) (frame : Frame σ) :
    (modify g : Exec σ Unit).on frame = (.ok (), g frame) := rfl

/-! ## What the single steps do -/

@[simp] theorem on_stop (reason : EvalReason) (frame : Frame σ) :
    (stop reason : Exec σ α).on frame = (.error (.at frame.line reason), frame) := rfl

@[simp] theorem on_setLine (line : Nat) (frame : Frame σ) :
    (setLine line).on frame = (.ok (), { frame with line := line }) := rfl

@[simp] theorem on_mark (frame : Frame σ) : mark.on frame = (.ok frame.vars.length, frame) := rfl

@[simp] theorem on_keepVariables (count : Nat) (frame : Frame σ) :
    (keepVariables count).on frame
      = (.ok (), { frame with vars := Variables.keep count frame.vars }) := rfl

theorem on_callWorld (env : Env σ) (name : String) (args : List Value) (frame : Frame σ) :
    (callWorld env name args).on frame
      = ((env.world.call name args frame.world).1.mapError (.function frame.line name),
          { frame with world := (env.world.call name args frame.world).2 }) := by
  rw [callWorld, on_bind]
  rcases h : env.world.call name args frame.world with ⟨answer, world⟩
  cases answer <;> simp only [on_get, h] <;> rfl

/-- Puts what was written into a state, or stops. -/
def afterWriting (frame : Frame σ) : Option σ → Except EvalFault Unit × Frame σ
  | some world => (.ok (), { frame with world := world })
  | none => (.error .write, frame)

@[simp] theorem on_literal (env : Env σ) (s : String) (frame : Frame σ) :
    (literal env s).on frame = afterWriting frame (env.world.literal s frame.world) := by
  rw [literal, on_bind, on_get]
  show (written (env.world.literal s frame.world)).on frame = _
  cases env.world.literal s frame.world <;> rfl

@[simp] theorem on_print (env : Env σ) (v : Value) (frame : Frame σ) :
    (print env v).on frame = afterWriting frame (env.world.print v frame.world) := by
  rw [print, on_bind, on_get]
  show (written (env.world.print v frame.world)).on frame = _
  cases env.world.print v frame.world <;> rfl

@[simp] theorem on_declare (name : String) (value : Value) (frame : Frame σ) :
    (bind false name value).on frame
      = (.ok (), { frame with vars := (name, value) :: frame.vars }) := rfl

theorem on_assign (name : String) (value : Value) (frame : Frame σ) :
    (bind true name value).on frame =
      match Variables.assign name value frame.vars with
      | some vars => (.ok (), { frame with vars := vars })
      | none => (.error (.at frame.line (.undefinedVariable name)), frame) := by
  rw [bind, on_bind, on_get]
  show (match Variables.assign name value frame.vars with
    | some vars => set { frame with vars := vars }
    | none => stop (.undefinedVariable name) : Exec σ Unit).on frame = _
  cases Variables.assign name value frame.vars <;> rfl

theorem on_valueOf (env : Env σ) (name : String) (frame : Frame σ) :
    (valueOf env name).on frame =
      match frame.vars.lookup name with
      | some value => (.ok value, frame)
      | none =>
        if name = "$" then (.ok env.root, frame)
        else (.error (.at frame.line (.undefinedVariable name)), frame) := by
  rw [valueOf, on_bind, on_get]
  show (match frame.vars.lookup name with
    | some value => pure value
    | none => if name = "$" then pure env.root else stop (.undefinedVariable name)
      : Exec σ Value).on frame = _
  cases frame.vars.lookup name with
  | some value => rfl
  | none => by_cases h : name = "$" <;> simp [h]

end Exec

/-! ## Commands and blocks -/

section Commands

variable {σ : Type} (env : Env σ) (dot : Value) (last : Option Value)

/-- A function that looks at its arguments one by one. -/
theorem evalCommand_shortCircuit {name : String} {goOn : Bool} (h : shortCircuit? name = some goOn)
    (args : List Operand) :
    evalCommand env dot last (.function name :: args) =
      if args.isEmpty && last.isNone then Exec.stop (.noArguments name)
      else evalUntil env dot goOn last .nil args := by
  rw [evalCommand, h]

/-- Any other function takes the values of its arguments, and behind them what was handed over. -/
theorem evalCommand_call {name : String} (h : shortCircuit? name = none) (args : List Operand) :
    evalCommand env dot last (.function name :: args) = (do
      let values ← evalOperands env dot args
      Exec.call env name (values ++ last.toList)) := by
  rw [evalCommand, h]

/-- An operand that is no function stands alone. -/
theorem evalCommand_operand {a : Operand} (h : ∀ name, a ≠ .function name) (args : List Operand) :
    evalCommand env dot last (a :: args) =
      if last.isSome || !args.isEmpty then Exec.stop (.argumentTo a) else evalOperand env dot a := by
  cases a with
  | function name => exact absurd rfl (h name)
  | _ => rfl

end Commands

/-- A block that is no range. -/
theorem walkNode_block {σ : Type} (env : Env σ) (dot : Value) {kind : BlockKind}
    (h : kind ≠ .range) (line : Nat) (pipe : Pipeline) (body : List Node)
    (otherwise : Option (List Node)) :
    walkNode env dot (.block kind line pipe body otherwise) = (do
      Exec.setLine line
      let mark ← Exec.mark
      let value ← evalPipeline env dot pipe
      if value.isTruthy then walkNodes env (if kind = .scoped then value else dot) body
      else walkOption env dot otherwise
      Exec.keepVariables mark) := by
  match kind with
  | .range => exact absurd rfl h
  | .conditional => rfl
  | .scoped => rfl

/-- A round of a range: what the round before has left is dropped, the variables of the header are
bound, and the body is executed. -/
def rangeRound {σ : Type} (env : Env σ) (mark : Nat) (pipe : Pipeline) (body : List Node)
    (key item : Value) : Exec σ Unit := do
  Exec.keepVariables mark
  bindItem pipe key item
  walkNodes env item body

/-- A range goes from round to round. -/
theorem walkNode_range {σ : Type} (env : Env σ) (dot : Value) (line : Nat) (pipe : Pipeline)
    (body : List Node) (otherwise : Option (List Node)) :
    walkNode env dot (.block .range line pipe body otherwise) = (do
      Exec.setLine line
      let mark ← Exec.mark
      let value ← evalCommands env dot none pipe.commands
      match rangeItems? value with
      | none => Exec.stop (.rangeOver value.typeName)
      | some [] => walkOption env dot otherwise
      | some items => do
        forEach (rangeRound env mark pipe body) items
        Exec.keepVariables mark) := by
  rw [walkNode]
  rfl

/-- The state in which an execution starts. -/
def Frame.start {σ : Type} (seeds : List (String × Value)) (world : σ) : Frame σ :=
  ⟨Variables.ofSeeds seeds, 0, world⟩

theorem Template.execute_eq {σ : Type} (t : Template) (world : World σ) (policy : MissingKey)
    (data : Value) (seeds : List (String × Value)) (start : σ) :
    t.execute world policy data seeds start =
      let outcome := (walkNodes ⟨world, policy, data⟩ data t.root).on (Frame.start seeds start)
      (outcome.1.mapError fun fault => ⟨t.name, fault⟩, outcome.2.world) := rfl

namespace Exec

variable {σ τ α β : Type}

/-! ## One step -/

/-- **Started in `P`, the step ends in `Q` if it yields a value and in `E` if it stops.** -/
def Spec (P : Frame σ → Prop) (m : Exec σ α) (Q : α → Frame σ → Prop)
    (E : EvalFault → Frame σ → Prop) : Prop :=
  ∀ frame, P frame →
    match m.on frame with
    | (.ok a, next) => Q a next
    | (.error fault, next) => E fault next

namespace Spec

variable {P P' : Frame σ → Prop} {m : Exec σ α} {k : α → Exec σ β}
  {Q Q' : α → Frame σ → Prop} {R : β → Frame σ → Prop} {E E' : EvalFault → Frame σ → Prop}

theorem pure {a : α} (h : ∀ frame, P frame → Q a frame) : Spec P (pure a : Exec σ α) Q E :=
  h

theorem bind (hm : Spec P m Q E) (hk : ∀ a, Spec (Q a) (k a) R E) : Spec P (m >>= k) R E := by
  intro frame hP
  have h := hm frame hP
  rw [on_bind]
  rcases hr : m.on frame with ⟨result, next⟩
  rw [hr] at h
  cases result with
  | ok a => exact hk a next h
  | error fault => exact h

/-- What follows a step that yields a value with a property may use the property. -/
theorem bind_of {V : α → Prop} (hm : Spec P m (fun a frame => V a ∧ P' frame) E)
    (hk : ∀ a, V a → Spec P' (k a) R E) : Spec P (m >>= k) R E :=
  hm.bind fun a frame h => hk a h.1 frame h.2

theorem ite {c : Prop} [Decidable c] {m' : Exec σ α} (hm : c → Spec P m Q E)
    (hm' : ¬ c → Spec P m' Q E) : Spec P (if c then m else m') Q E := by
  by_cases h : c
  · rw [if_pos h]
    exact hm h
  · rw [if_neg h]
    exact hm' h

theorem mono (h : Spec P m Q E) (hP : ∀ frame, P' frame → P frame)
    (hQ : ∀ a frame, Q a frame → Q' a frame)
    (hE : ∀ fault frame, E fault frame → E' fault frame) : Spec P' m Q' E' := by
  intro frame hP'
  have := h frame (hP frame hP')
  rcases hr : m.on frame with ⟨result, next⟩
  rw [hr] at this
  cases result with
  | ok a => exact hQ a next this
  | error fault => exact hE fault next this

theorem imp_start (h : Spec P m Q E) (hP : ∀ frame, P' frame → P frame) : Spec P' m Q E :=
  h.mono hP (fun _ _ hQ => hQ) fun _ _ hE => hE

theorem imp_result (h : Spec P m Q E) (hQ : ∀ a frame, Q a frame → Q' a frame) : Spec P m Q' E :=
  h.mono (fun _ hP => hP) hQ fun _ _ hE => hE

theorem imp_fault (h : Spec P m Q E) (hE : ∀ fault frame, E fault frame → E' fault frame) :
    Spec P m Q E' :=
  h.mono (fun _ hP => hP) (fun _ _ hQ => hQ) hE

/-- A step may start in any of several kinds of states. -/
theorem of_exists {ι : Type} {P : ι → Frame σ → Prop} (h : ∀ i, Spec (P i) m Q E) :
    Spec (fun frame => ∃ i, P i frame) m Q E :=
  fun frame ⟨i, hP⟩ => h i frame hP

theorem stop {reason : EvalReason} (h : ∀ frame, P frame → E (.at frame.line reason) frame) :
    Spec P (Exec.stop reason : Exec σ α) Q E :=
  h

end Spec

/-- A loop keeps what every round keeps. -/
theorem Spec.forEach {P : Frame σ → Prop} {step : Value → Value → Exec σ Unit}
    {E : EvalFault → Frame σ → Prop} {items : List (Value × Value)}
    (h : ∀ e ∈ items, Spec P (step e.1 e.2) (fun _ => P) E) :
    Spec P (forEach step items) (fun _ => P) E := by
  induction items with
  | nil => exact Spec.pure fun _ hP => hP
  | cons e rest ih =>
      obtain ⟨key, item⟩ := e
      rw [SqlTemplate.forEach]
      refine Spec.bind (h (key, item) (by simp)) fun _ => ?_
      exact ih fun e he => h e (List.mem_cons_of_mem _ he)

/-! ## Two steps -/

end Exec

/-- Two states of executions in related worlds that have come to the same line with the same
variables. -/
structure Frame.Alike {σ τ : Type} (R : σ → τ → Prop) (f : Frame σ) (g : Frame τ) : Prop where
  vars : f.vars = g.vars
  line : f.line = g.line
  world : R f.world g.world

namespace Exec

variable {σ τ α β : Type}

/-- **From states that are alike, the two steps come to the same result and to states that are
alike again.** -/
def Agree (R : σ → τ → Prop) (m : Exec σ α) (n : Exec τ α) : Prop :=
  ∀ f g, Frame.Alike R f g → (m.on f).1 = (n.on g).1 ∧ Frame.Alike R (m.on f).2 (n.on g).2

namespace Agree

variable {R : σ → τ → Prop} {m : Exec σ α} {n : Exec τ α}

theorem pure (a : α) : Agree R (pure a : Exec σ α) (pure a) :=
  fun _ _ h => ⟨rfl, h⟩

theorem ite {c : Prop} [Decidable c] {m' : Exec σ α} {n' : Exec τ α} (hm : Agree R m n)
    (hm' : Agree R m' n') : Agree R (if c then m else m') (if c then n else n') := by
  by_cases h : c
  · rw [if_pos h, if_pos h]
    exact hm
  · rw [if_neg h, if_neg h]
    exact hm'

theorem bind {k : α → Exec σ β} {l : α → Exec τ β} (hm : Agree R m n)
    (hk : ∀ a, Agree R (k a) (l a)) : Agree R (m >>= k) (n >>= l) := by
  intro f g h
  obtain ⟨hresult, halike⟩ := hm f g h
  rw [on_bind, on_bind]
  rcases hf : m.on f with ⟨result, f'⟩
  rcases hg : n.on g with ⟨result', g'⟩
  rw [hf, hg] at hresult halike
  subst hresult
  cases result with
  | ok a => exact hk a f' g' halike
  | error fault => exact ⟨rfl, halike⟩

/-- A failure that tells the line is the same in both. -/
theorem throwAt (fault : Nat → EvalFault) :
    Agree R (do throw (fault (← get).line) : Exec σ α) (do throw (fault (← get).line)) := by
  intro f g h
  refine ⟨?_, h⟩
  show (Except.error (fault f.line) : Except EvalFault α) = .error (fault g.line)
  rw [h.line]

theorem stop (reason : EvalReason) : Agree R (Exec.stop reason : Exec σ α) (Exec.stop reason) :=
  throwAt (.at · reason)

theorem setLine (line : Nat) : Agree R (Exec.setLine line) (Exec.setLine line) :=
  fun _ _ h => ⟨rfl, h.vars, rfl, h.world⟩

theorem mark : Agree R Exec.mark Exec.mark := by
  intro f g h
  refine ⟨?_, h⟩
  rw [on_mark, on_mark, h.vars]

theorem keepVariables (count : Nat) :
    Agree R (Exec.keepVariables count) (Exec.keepVariables count) :=
  fun _ _ h => ⟨rfl, congrArg (Variables.keep count) h.vars, h.line, h.world⟩

theorem declare (name : String) (value : Value) :
    Agree R (Exec.bind false name value) (Exec.bind false name value) :=
  fun _ _ h => ⟨rfl, congrArg ((name, value) :: ·) h.vars, h.line, h.world⟩

theorem assign (name : String) (value : Value) :
    Agree R (Exec.bind true name value) (Exec.bind true name value) := by
  intro f g h
  rw [on_assign, on_assign, h.vars, h.line]
  cases Variables.assign name value g.vars with
  | some vars => exact ⟨rfl, rfl, rfl, h.world⟩
  | none => exact ⟨rfl, h⟩

/-- Variables are bound alike in all worlds. -/
theorem bindVariable (assigns : Bool) (name : String) (value : Value) :
    Agree R (Exec.bind assigns name value) (Exec.bind assigns name value) := by
  cases assigns with
  | false => exact declare name value
  | true => exact assign name value

theorem bindAll (assigns : Bool) (value : Value) (names : List String) :
    Agree R (Exec.bindAll assigns value names) (Exec.bindAll assigns value names) := by
  induction names with
  | nil => exact pure ()
  | cons name rest ih => exact bind (bindVariable assigns name value) fun _ => ih

theorem valueOf {env : Env σ} {env' : Env τ} (hroot : env.root = env'.root) (name : String) :
    Agree R (Exec.valueOf env name) (Exec.valueOf env' name) := by
  intro f g h
  rw [on_valueOf, on_valueOf, h.vars, h.line, hroot]
  cases g.vars.lookup name with
  | some value => exact ⟨rfl, h⟩
  | none => by_cases hname : name = "$" <;> simp [hname, h]

theorem callWorld {env : Env σ} {env' : Env τ} {name : String} {args : List Value}
    (hcall : ∀ w w', R w w' → (env.world.call name args w).1 = (env'.world.call name args w').1 ∧
      R (env.world.call name args w).2 (env'.world.call name args w').2) :
    Agree R (Exec.callWorld env name args) (Exec.callWorld env' name args) := by
  intro f g h
  obtain ⟨hanswer, hworld⟩ := hcall _ _ h.world
  rw [on_callWorld, on_callWorld, h.line, hanswer]
  exact ⟨rfl, h.vars, rfl, hworld⟩

/-- Texts agree if both worlds take them. -/
theorem literal {env : Env σ} {env' : Env τ} {s : String}
    (h : ∀ w w', R w w' → ∃ u u', env.world.literal s w = some u ∧
      env'.world.literal s w' = some u' ∧ R u u') :
    Agree R (Exec.literal env s) (Exec.literal env' s) := by
  intro f g hfg
  obtain ⟨u, u', hu, hu', hR⟩ := h _ _ hfg.world
  rw [on_literal, on_literal, hu, hu']
  exact ⟨rfl, hfg.vars, hfg.line, hR⟩

/-- Printing what a call answers agrees with printing if all of it succeeds. -/
theorem printCall {env : Env σ} {env' : Env τ} {name : String} {args : List Value} {v : Value}
    (h : ∀ w w', R w w' → ∃ answer w₁ u u', env.world.call name args w = (.ok answer, w₁) ∧
      env.world.print answer w₁ = some u ∧ env'.world.print v w' = some u' ∧ R u u') :
    Agree R (do Exec.print env (← Exec.callWorld env name args)) (Exec.print env' v) := by
  intro f g hfg
  obtain ⟨answer, w₁, u, u', hcall, hu, hu', hR⟩ := h _ _ hfg.world
  -- The line and the variables stay as they were; only the world goes through two steps.
  have hprint : (Exec.print env answer).on { f with world := w₁ }
      = (.ok (), { f with world := u }) := by
    rw [on_print, hu]
    rfl
  have hboth : (do Exec.print env (← Exec.callWorld env name args) : Exec σ Unit).on f
      = (.ok (), { f with world := u }) := by
    rw [on_bind, on_callWorld, hcall]
    exact hprint
  rw [hboth, on_print, hu']
  exact ⟨rfl, hfg.vars, hfg.line, hR⟩

/-- A loop agrees with another if their rounds do. -/
theorem forEach {step : Value → Value → Exec σ Unit} {step' : Value → Value → Exec τ Unit}
    (h : ∀ key item, Agree R (step key item) (step' key item)) (items : List (Value × Value)) :
    Agree R (forEach step items) (forEach step' items) := by
  induction items with
  | nil => exact pure ()
  | cons e rest ih => exact bind (h e.1 e.2) fun _ => ih

end Agree

end Exec

end SqlTemplate
