import Mathlib
import SqlTemplate.Proofs.Execution.Marker

/-!
# Executions side by side

An execution puts together a few single steps: it stops, sets the line, drops and binds variables,
reads one, follows fields, calls a function of the world, and writes. A relation between steps that
holds of these, one in each of two environments, and passes from steps to what is put together of
them, therefore holds of whole executions (`walkNodes_congruent`). Steps that agree are an example
(`Exec.Agree.congruent`): a world that keeps a trace does in everything else what it does without
(`Template.execute_traced`).
-/

set_option autoImplicit false

namespace SqlTemplate

variable {σ τ : Type}

namespace Exec

/-- A relation between the steps of executions in two environments that passes through everything by
which an execution puts single steps together. -/
structure Congruent (Rel : (α : Type) → Exec σ α → Exec τ α → Prop) (env : Env σ) (env' : Env τ) :
    Prop where
  pure : ∀ {α : Type} (a : α), Rel α (pure a) (pure a)
  bind : ∀ {α β : Type} {m : Exec σ α} {n : Exec τ α} {k : α → Exec σ β} {l : α → Exec τ β},
    Rel α m n → (∀ a, Rel β (k a) (l a)) → Rel β (m >>= k) (n >>= l)
  stop : ∀ {α : Type} (reason : EvalReason), Rel α (Exec.stop reason) (Exec.stop reason)
  setLine : ∀ line, Rel Unit (Exec.setLine line) (Exec.setLine line)
  mark : Rel Nat Exec.mark Exec.mark
  keepVariables : ∀ count, Rel Unit (Exec.keepVariables count) (Exec.keepVariables count)
  bindVariable : ∀ assigns name value,
    Rel Unit (Exec.bind assigns name value) (Exec.bind assigns name value)
  valueOf : ∀ name, Rel Value (Exec.valueOf env name) (Exec.valueOf env' name)
  fields : ∀ names v, Rel Value (Exec.fields env names v) (Exec.fields env' names v)
  callWorld : ∀ name args, Rel Value (Exec.callWorld env name args) (Exec.callWorld env' name args)
  literal : ∀ s, Rel Unit (Exec.literal env s) (Exec.literal env' s)
  print : ∀ v, Rel Unit (Exec.print env v) (Exec.print env' v)

namespace Congruent

variable {Rel : (α : Type) → Exec σ α → Exec τ α → Prop} {env : Env σ} {env' : Env τ}

theorem ite {α : Type} {c : Prop} [Decidable c] {m m' : Exec σ α} {n n' : Exec τ α}
    (hm : Rel α m n) (hm' : Rel α m' n') :
    Rel α (if c then m else m') (if c then n else n') := by
  by_cases hc : c
  · rw [if_pos hc, if_pos hc]
    exact hm
  · rw [if_neg hc, if_neg hc]
    exact hm'

theorem bindAll (h : Congruent Rel env env') (assigns : Bool) (value : Value)
    (names : List String) :
    Rel Unit (Exec.bindAll assigns value names) (Exec.bindAll assigns value names) := by
  induction names with
  | nil => exact h.pure ()
  | cons name rest ih => exact h.bind (h.bindVariable assigns name value) fun _ => ih

theorem call (h : Congruent Rel env env') (name : String) (args : List Value) :
    Rel Value (Exec.call env name args) (Exec.call env' name args) := by
  rw [Exec.call, Exec.call]
  cases Builtin.ofName? name with
  | none => exact h.callWorld name args
  | some f =>
      dsimp only
      cases f.call args with
      | ok value => exact h.pure value
      | error fault => exact h.stop _

theorem bindItem (h : Congruent Rel env env') (p : Pipeline) (key item : Value) :
    Rel Unit (SqlTemplate.bindItem p key item) (SqlTemplate.bindItem p key item) := by
  rw [SqlTemplate.bindItem, SqlTemplate.bindItem]
  rcases p.declared with _ | ⟨index, _ | ⟨name, _⟩⟩
  · exact h.pure ()
  · exact h.bindVariable p.assigns index item
  · exact h.bind (h.bindVariable p.assigns index key) fun _ => h.bindVariable p.assigns name item

theorem forEach (h : Congruent Rel env env') {step : Value → Value → Exec σ Unit}
    {step' : Value → Value → Exec τ Unit}
    (hstep : ∀ key item, Rel Unit (step key item) (step' key item)) (items : List (Value × Value)) :
    Rel Unit (SqlTemplate.forEach step items) (SqlTemplate.forEach step' items) := by
  induction items with
  | nil => exact h.pure ()
  | cons e rest ih => exact h.bind (hstep e.1 e.2) fun _ => ih

end Congruent

end Exec

open Exec

section Congruence

variable {Rel : (α : Type) → Exec σ α → Exec τ α → Prop} {env : Env σ} {env' : Env τ}

/-! ## Operands and pipelines -/

mutual

/-- Evaluating an operand in the one environment is related to evaluating it in the other. -/
theorem evalOperand_congruent (h : Congruent Rel env env') (dot : Value) (a : Operand) :
    Rel Value (evalOperand env dot a) (evalOperand env' dot a) := by
  match a with
  | .dot => exact h.pure dot
  | .nil => exact h.pure _
  | .bool b => exact h.pure _
  | .int n => exact h.pure _
  | .float x => exact h.pure _
  | .text s => exact h.pure _
  | .field names => exact h.fields names dot
  | .variable name names =>
    rw [evalOperand, evalOperand]
    exact h.bind (h.valueOf name) fun v => h.fields names v
  | .function name =>
    rw [evalOperand, evalOperand]
    exact Congruent.ite (h.stop _) (h.call name [])
  | .chain base names =>
    rw [evalOperand, evalOperand]
    exact h.bind (evalOperand_congruent h dot base) fun v => h.fields names v
  | .pipe declared assigns commands =>
    rw [evalOperand, evalOperand]
    refine h.bind (evalCommands_congruent h dot none commands) fun v => ?_
    exact h.bind (h.bindAll assigns v declared) fun _ => h.pure v

theorem evalOperands_congruent (h : Congruent Rel env env') (dot : Value)
    (operands : List Operand) :
    Rel (List Value) (evalOperands env dot operands) (evalOperands env' dot operands) := by
  match operands with
  | [] => exact h.pure []
  | a :: rest =>
    rw [evalOperands, evalOperands]
    refine h.bind (evalOperand_congruent h dot a) fun v => ?_
    exact h.bind (evalOperands_congruent h dot rest) fun vs => h.pure (v :: vs)

theorem evalUntil_congruent (h : Congruent Rel env env') (dot : Value) (goOn : Bool)
    (last : Option Value) (value : Value) (operands : List Operand) :
    Rel Value (evalUntil env dot goOn last value operands)
      (evalUntil env' dot goOn last value operands) := by
  match operands with
  | [] => exact h.pure _
  | a :: rest =>
    rw [evalUntil, evalUntil]
    refine h.bind (evalOperand_congruent h dot a) fun v => ?_
    exact Congruent.ite (h.pure v) (evalUntil_congruent h dot goOn last v rest)

theorem evalCommand_congruent (h : Congruent Rel env env') (dot : Value) (last : Option Value)
    (command : List Operand) :
    Rel Value (evalCommand env dot last command) (evalCommand env' dot last command) := by
  match command with
  | [] => exact h.stop _
  | a :: args =>
    by_cases ha : ∃ name, a = .function name
    · obtain ⟨name, rfl⟩ := ha
      cases hs : shortCircuit? name with
      | some goOn =>
          rw [evalCommand_shortCircuit env dot last hs, evalCommand_shortCircuit env' dot last hs]
          exact Congruent.ite (h.stop _) (evalUntil_congruent h dot goOn last .nil args)
      | none =>
          rw [evalCommand_call env dot last hs, evalCommand_call env' dot last hs]
          exact h.bind (evalOperands_congruent h dot args) fun vs => h.call name _
    · have hne : ∀ name, a ≠ .function name := fun name hname => ha ⟨name, hname⟩
      rw [evalCommand_operand env dot last hne, evalCommand_operand env' dot last hne]
      exact Congruent.ite (h.stop _) (evalOperand_congruent h dot a)

theorem evalCommands_congruent (h : Congruent Rel env env') (dot : Value) (last : Option Value)
    (commands : List (List Operand)) :
    Rel Value (evalCommands env dot last commands) (evalCommands env' dot last commands) := by
  match commands with
  | [] => exact h.pure _
  | command :: rest =>
    rw [evalCommands, evalCommands]
    refine h.bind (evalCommand_congruent h dot last command) fun v => ?_
    exact evalCommands_congruent h dot (some v) rest

end

theorem evalPipeline_congruent (h : Congruent Rel env env') (dot : Value) (p : Pipeline) :
    Rel Value (evalPipeline env dot p) (evalPipeline env' dot p) := by
  refine h.bind (evalCommands_congruent h dot none p.commands) fun v => ?_
  exact h.bind (h.bindAll p.assigns v p.declared) fun _ => h.pure v

/-! ## Nodes -/

mutual

/-- Walking a node in the one environment is related to walking it in the other. -/
theorem walkNode_congruent (h : Congruent Rel env env') (dot : Value) (node : Node) :
    Rel Unit (walkNode env dot node) (walkNode env' dot node) := by
  match node with
  | .text s => exact h.literal s
  | .action line pipe =>
    rw [walkNode, walkNode]
    refine h.bind (h.setLine line) fun _ => ?_
    refine h.bind (evalPipeline_congruent h dot pipe) fun v => ?_
    exact Congruent.ite (h.print v) (h.pure ())
  | .block kind line pipe body otherwise =>
    by_cases hkind : kind = .range
    · subst hkind
      rw [walkNode_range, walkNode_range]
      refine h.bind (h.setLine line) fun _ => h.bind h.mark fun mark => ?_
      refine h.bind (evalCommands_congruent h dot none pipe.commands) fun v => ?_
      cases rangeItems? v with
      | none => exact h.stop _
      | some items =>
          cases items with
          | nil => exact walkOption_congruent h dot otherwise
          | cons e rest =>
              refine h.bind (h.forEach (fun key item => ?_) (e :: rest)) fun _ =>
                h.keepVariables mark
              refine h.bind (h.keepVariables mark) fun _ => ?_
              exact h.bind (h.bindItem pipe key item) fun _ => walkNodes_congruent h item body
    · rw [walkNode_block env dot hkind, walkNode_block env' dot hkind]
      refine h.bind (h.setLine line) fun _ => h.bind h.mark fun mark => ?_
      refine h.bind (evalPipeline_congruent h dot pipe) fun v => ?_
      have hbody := walkNodes_congruent h (if kind = .scoped then v else dot) body
      have hotherwise := walkOption_congruent h dot otherwise
      exact Congruent.ite (h.bind hbody fun _ => h.keepVariables mark)
        (h.bind hotherwise fun _ => h.keepVariables mark)

theorem walkNodes_congruent (h : Congruent Rel env env') (dot : Value) (nodes : List Node) :
    Rel Unit (walkNodes env dot nodes) (walkNodes env' dot nodes) := by
  match nodes with
  | [] => exact h.pure ()
  | node :: rest =>
    rw [walkNodes, walkNodes]
    exact h.bind (walkNode_congruent h dot node) fun _ => walkNodes_congruent h dot rest

theorem walkOption_congruent (h : Congruent Rel env env') (dot : Value)
    (otherwise : Option (List Node)) :
    Rel Unit (walkOption env dot otherwise) (walkOption env' dot otherwise) := by
  match otherwise with
  | none => exact h.pure ()
  | some nodes => exact walkNodes_congruent h dot nodes

end

end Congruence

/-! ## Worlds that do the same -/

/-- Two worlds that answer every call alike, and take and refuse the same texts and values. -/
structure World.Same (R : σ → τ → Prop) (world : World σ) (world' : World τ) : Prop where
  call : ∀ name args w w', R w w' → (world.call name args w).1 = (world'.call name args w').1 ∧
    R (world.call name args w).2 (world'.call name args w').2
  literal : ∀ s w w', R w w' → Option.Rel R (world.literal s w) (world'.literal s w')
  print : ∀ v w w', R w w' → Option.Rel R (world.print v w) (world'.print v w')

section Worlds

variable {R : σ → τ → Prop} {world : World σ} {world' : World τ}

theorem Exec.Agree.congruent (h : World.Same R world world') (policy : MissingKey) (data : Value) :
    Congruent (fun _ => Agree R) ⟨world, policy, data⟩ ⟨world', policy, data⟩ where
  pure := Agree.pure
  bind := Agree.bind
  stop := Agree.stop
  setLine := Agree.setLine
  mark := Agree.mark
  keepVariables := Agree.keepVariables
  bindVariable := Agree.bindVariable
  valueOf := Agree.valueOf rfl
  fields := Agree.fields rfl
  callWorld name args := Agree.callWorld (h.call name args)
  literal s := Agree.literal_of_rel (h.literal s)
  print v := Agree.print_of_rel (h.print v)

/-- In worlds that do the same a template comes to the same result. -/
theorem Template.execute_same (h : World.Same R world world') (t : Template) (policy : MissingKey)
    (data : Value) (seeds : List (String × Value)) {start : σ} {start' : τ}
    (hstart : R start start') :
    (t.execute world policy data seeds start).1 = (t.execute world' policy data seeds start').1 ∧
      R (t.execute world policy data seeds start).2
        (t.execute world' policy data seeds start').2 := by
  obtain ⟨hresult, halike⟩ := walkNodes_congruent (Agree.congruent h policy data) data t.root
    (Frame.start seeds start) (Frame.start seeds start') ⟨rfl, rfl, hstart⟩
  rw [Template.execute_eq, Template.execute_eq]
  exact ⟨congrArg (Except.mapError _) hresult, halike.world⟩

end Worlds

/-- A world does the same when it keeps a trace. -/
theorem World.same_traced (world : World σ) :
    World.Same (fun w state => w = state.1) world world.traced := by
  have hmap : ∀ (taken : Option σ) (trace : List Interaction),
      Option.Rel (fun w (state : σ × List Interaction) => w = state.1) taken
        (taken.map (·, trace)) := by
    intro taken trace
    cases taken with
    | none => exact .none
    | some w => exact .some rfl
  refine ⟨?_, ?_, ?_⟩
  · rintro name args w ⟨_, trace⟩ rfl
    exact ⟨rfl, rfl⟩
  · rintro s w ⟨_, trace⟩ rfl
    exact hmap _ _
  · rintro v w ⟨_, trace⟩ rfl
    exact hmap _ _

/-- What an execution does to its world, in order: the functions it calls, and what it writes. -/
def Template.interactions (t : Template) (world : World σ) (policy : MissingKey) (data : Value)
    (seeds : List (String × Value)) (start : σ) : List Interaction :=
  (t.execute world.traced policy data seeds (start, [])).2.2

/-- Keeping a trace changes neither the result of an execution nor its world. -/
theorem Template.execute_traced (t : Template) (world : World σ) (policy : MissingKey)
    (data : Value) (seeds : List (String × Value)) (start : σ) :
    t.execute world.traced policy data seeds (start, []) =
      ((t.execute world policy data seeds start).1, (t.execute world policy data seeds start).2,
        t.interactions world policy data seeds start) := by
  have hstart : start = (start, ([] : List Interaction)).1 := rfl
  obtain ⟨hresult, hworld⟩ := t.execute_same world.same_traced policy data seeds hstart
  rw [hresult, hworld, interactions]

end SqlTemplate
