import Mathlib
import SqlTemplate.Proofs.Execution.Logic
import SqlTemplate.Proofs.Template.Parts

/-!
# Executions in two worlds

An execution learns of its world only through the answers to the functions it calls, and does
nothing to it but write. So it can be followed from one world into another: if the two answer the
calls of a template alike and take what is written alike, the two executions come to the same
result. A marked template agrees in this sense with the unmarked one if the second world does at
once what the first does in two steps, classifying a value and printing what is left of it.
-/

set_option autoImplicit false

namespace SqlTemplate

open Exec

variable {σ τ : Type}

/-! ## Environments -/

/-- Two environments that differ in their worlds only, which answer the functions in `Called`
alike. -/
structure Env.Alike (R : σ → τ → Prop) (Called : String → Prop) (env : Env σ) (env' : Env τ) :
    Prop where
  policy : env.policy = env'.policy
  root : env.root = env'.root
  call : ∀ name args w w', Called name → Builtin.ofName? name = none → R w w' →
    (env.world.call name args w).1 = (env'.world.call name args w').1 ∧
      R (env.world.call name args w).2 (env'.world.call name args w').2

variable {R : σ → τ → Prop} {Called : String → Prop} {env : Env σ} {env' : Env τ}

namespace Exec

theorem Agree.fields (hpolicy : env.policy = env'.policy) (names : List String) (v : Value) :
    Agree R (Exec.fields env names v) (Exec.fields env' names v) := by
  induction names generalizing v with
  | nil => exact Agree.pure v
  | cons name rest ih =>
      cases v with
      | map entries =>
          rw [Exec.fields, Exec.fields]
          cases hfind : findEntry name entries with
          | some w => exact ih w
          | none =>
              rw [← hpolicy]
              cases hp : env.policy with
              | invalid => exact ih .nil
              | zero => exact ih _
              | error => exact Agree.throwAt (.missingKey · name)
      | dest path => exact Agree.pure _
      | nil => exact Agree.stop _
      | _ => exact Agree.stop _

theorem Agree.call (henv : Env.Alike R Called env env') {name : String} (hname : Called name)
    (args : List Value) : Agree R (Exec.call env name args) (Exec.call env' name args) := by
  rw [Exec.call, Exec.call]
  cases hb : Builtin.ofName? name with
  | some f =>
      dsimp only
      cases f.call args with
      | ok value => exact Agree.pure value
      | error fault => exact Agree.stop _
  | none => exact Agree.callWorld fun w w' hR => henv.call name args w w' hname hb hR

end Exec

/-! ## Operands and pipelines -/

mutual

/-- An operand has the same value in worlds that answer its functions alike. -/
theorem evalOperand_agree (henv : Env.Alike R Called env env') (dot : Value) (a : Operand)
    (hcalls : ∀ f, .function f ∈ a.parts → Called f) :
    Agree R (evalOperand env dot a) (evalOperand env' dot a) := by
  match a with
  | .dot => exact Agree.pure _
  | .nil => exact Agree.pure _
  | .bool b => exact Agree.pure _
  | .int n => exact Agree.pure _
  | .float x => exact Agree.pure _
  | .text s => exact Agree.pure _
  | .field names => exact Agree.fields henv.policy names dot
  | .variable name names =>
    rw [evalOperand, evalOperand]
    exact Agree.bind (Agree.valueOf henv.root name) fun v => Agree.fields henv.policy names v
  | .function name =>
    rw [evalOperand, evalOperand]
    exact Agree.ite (Agree.stop _) (Agree.call henv (hcalls name (Operand.mem_parts_self _)) [])
  | .chain base names =>
    rw [evalOperand, evalOperand]
    refine Agree.bind (evalOperand_agree henv dot base fun f hf => hcalls f ?_) fun v =>
      Agree.fields henv.policy names v
    exact List.mem_cons_of_mem _ hf
  | .pipe declared assigns commands =>
    rw [evalOperand, evalOperand]
    refine Agree.bind (evalCommands_agree henv dot none commands fun f hf => hcalls f ?_)
      fun v => Agree.bind (Agree.bindAll assigns v declared) fun _ => Agree.pure v
    exact List.mem_cons_of_mem _ hf

theorem evalOperands_agree (henv : Env.Alike R Called env env') (dot : Value)
    (operands : List Operand) (hcalls : ∀ f, .function f ∈ operandsParts operands → Called f) :
    Agree R (evalOperands env dot operands) (evalOperands env' dot operands) := by
  match operands with
  | [] => exact Agree.pure _
  | a :: rest =>
    rw [evalOperands, evalOperands]
    refine Agree.bind (evalOperand_agree henv dot a fun f hf =>
      hcalls f (List.mem_append_left _ hf)) fun v => ?_
    refine Agree.bind (evalOperands_agree henv dot rest fun f hf =>
      hcalls f (List.mem_append_right _ hf)) fun vs => Agree.pure _

theorem evalUntil_agree (henv : Env.Alike R Called env env') (dot : Value) (goOn : Bool)
    (last : Option Value) (value : Value) (operands : List Operand)
    (hcalls : ∀ f, .function f ∈ operandsParts operands → Called f) :
    Agree R (evalUntil env dot goOn last value operands)
      (evalUntil env' dot goOn last value operands) := by
  match operands with
  | [] => exact Agree.pure _
  | a :: rest =>
    rw [evalUntil, evalUntil]
    refine Agree.bind (evalOperand_agree henv dot a fun f hf =>
      hcalls f (List.mem_append_left _ hf)) fun v => ?_
    exact Agree.ite (Agree.pure v) (evalUntil_agree henv dot goOn last v rest fun f hf =>
      hcalls f (List.mem_append_right _ hf))

theorem evalCommand_agree (henv : Env.Alike R Called env env') (dot : Value)
    (last : Option Value) (command : List Operand)
    (hcalls : ∀ f, .function f ∈ operandsParts command → Called f) :
    Agree R (evalCommand env dot last command) (evalCommand env' dot last command) := by
  match command with
  | [] => exact Agree.stop _
  | a :: args =>
    have hargs : ∀ f, .function f ∈ operandsParts args → Called f := fun f hf =>
      hcalls f (List.mem_append_right _ hf)
    by_cases ha : ∃ name, a = .function name
    · obtain ⟨name, rfl⟩ := ha
      have hname : Called name := hcalls name (List.mem_append_left _ (Operand.mem_parts_self _))
      cases hs : shortCircuit? name with
      | some goOn =>
          rw [evalCommand_shortCircuit env dot last hs, evalCommand_shortCircuit env' dot last hs]
          exact Agree.ite (Agree.stop _) (evalUntil_agree henv dot goOn last .nil args hargs)
      | none =>
          rw [evalCommand_call env dot last hs, evalCommand_call env' dot last hs]
          exact Agree.bind (evalOperands_agree henv dot args hargs) fun vs =>
            Agree.call henv hname _
    · have hne : ∀ name, a ≠ .function name := fun name h => ha ⟨name, h⟩
      rw [evalCommand_operand env dot last hne, evalCommand_operand env' dot last hne]
      exact Agree.ite (Agree.stop _) (evalOperand_agree henv dot a fun f hf =>
        hcalls f (List.mem_append_left _ hf))

theorem evalCommands_agree (henv : Env.Alike R Called env env') (dot : Value)
    (last : Option Value) (commands : List (List Operand))
    (hcalls : ∀ f, .function f ∈ commandsParts commands → Called f) :
    Agree R (evalCommands env dot last commands) (evalCommands env' dot last commands) := by
  match commands with
  | [] => exact Agree.pure _
  | command :: rest =>
    rw [evalCommands, evalCommands]
    refine Agree.bind (evalCommand_agree henv dot last command fun f hf =>
      hcalls f (List.mem_append_left _ hf)) fun v => ?_
    exact evalCommands_agree henv dot (some v) rest fun f hf =>
      hcalls f (List.mem_append_right _ hf)

end

/-- A pipeline has the same value in worlds that answer its functions alike. -/
theorem evalPipeline_agree (henv : Env.Alike R Called env env') (dot : Value) (p : Pipeline)
    (hcalls : ∀ f, p.Calls f → Called f) :
    Agree R (evalPipeline env dot p) (evalPipeline env' dot p) := by
  refine Agree.bind (evalCommands_agree henv dot none p.commands hcalls) fun v => ?_
  exact Agree.bind (Agree.bindAll p.assigns v p.declared) fun _ => Agree.pure v

theorem bindItem_agree (p : Pipeline) (key item : Value) :
    Agree R (bindItem p key item) (bindItem p key item) := by
  rw [bindItem, bindItem]
  rcases p.declared with _ | ⟨index, _ | ⟨name, _⟩⟩
  · exact Agree.pure ()
  · exact Agree.bindVariable p.assigns index item
  · exact Agree.bind (Agree.bindVariable p.assigns index key) fun _ =>
      Agree.bindVariable p.assigns name item

/-! ## Marked nodes -/

/-- The last command of a marked pipeline hands the value to the marker. -/
theorem evalCommands_marked (env : Env σ) (dot : Value) (last : Option Value)
    {commands : List Command} (h : commands ≠ []) :
    evalCommands env dot last (commands ++ [markerCall]) = (do
      let value ← evalCommands env dot last commands
      Exec.callWorld env markerName [value]) := by
  -- Handed a value, the marker's call takes it as its only argument.
  have hmarker : ∀ v, evalCommands env dot (some v) [markerCall]
      = Exec.callWorld env markerName [v] := by
    intro v
    rw [evalCommands, markerCall, evalCommand_call env dot (some v) (by decide)]
    show (Exec.call env markerName [v] >>= fun w => pure w) = _
    rw [bind_pure]
    rfl
  induction commands generalizing last with
  | nil => exact absurd rfl h
  | cons command rest ih =>
      rw [List.cons_append, evalCommands, evalCommands, bind_assoc]
      congr 1
      funext v
      cases rest with
      | nil =>
          rw [List.nil_append, hmarker, evalCommands, pure_bind]
          rfl
      | cons next rest => exact ih (some v) (by simp)

/-- Two environments of which the second prints at once what the first hands to its marker and
prints then. -/
structure PrintsThrough (R : σ → τ → Prop) (Called : String → Prop) (env : Env σ) (env' : Env τ) :
    Prop extends Env.Alike R Called env env' where
  marker : ¬ Called markerName
  literal : ∀ s, Agree R (Exec.literal env s) (Exec.literal env' s)
  print : ∀ v, Agree R (do Exec.print env (← Exec.callWorld env markerName [v]))
    (Exec.print env' v)

/-- Whether a pipeline can be followed from one environment to the other: its functions are among
those that are answered alike, and if it has no commands, so that it stays unmarked, then NULL is
printed alike. -/
structure Pipeline.Followed (R : σ → τ → Prop) (Called : String → Prop) (env : Env σ)
    (env' : Env τ) (p : Pipeline) : Prop where
  calls : ∀ f, p.Calls f → Called f
  empty : p.commands = [] → Agree R (Exec.print env .nil) (Exec.print env' .nil)

/-- What an action does with its pipeline. -/
def printPipeline (env : Env σ) (dot : Value) (p : Pipeline) : Exec σ Unit := do
  let value ← evalPipeline env dot p
  if p.declared.isEmpty then Exec.print env value

theorem printPipeline_undeclared (env : Env σ) (dot : Value) {p : Pipeline} (h : p.declared = []) :
    printPipeline env dot p = (do Exec.print env (← evalCommands env dot none p.commands)) := by
  rw [printPipeline, evalPipeline, h]
  show ((evalCommands env dot none p.commands >>= fun v => pure () >>= fun _ => pure v) >>= fun v =>
    Exec.print env v) = _
  simp only [pure_bind, bind_pure]

/-- A pipeline that calls no marker is marked at its end if it is printed and has commands. -/
theorem Pipeline.mark_eq {p : Pipeline} (hmarker : ¬ p.Calls markerName) :
    p.mark = if p.declared = [] ∧ p.commands ≠ []
      then { p with commands := p.commands ++ [markerCall] } else p := by
  rw [Pipeline.mark]
  cases hd : p.declared with
  | cons x rest => simp
  | nil =>
      cases hl : p.commands.getLast? with
      | none => simp [List.getLast?_eq_none_iff.mp hl]
      | some last =>
          have hmem : last ∈ p.commands := List.mem_of_getLast? hl
          have hne : p.commands ≠ [] := List.ne_nil_of_mem hmem
          -- A last command that calls the marker would be a call of the marker by the pipeline.
          have hlast : isMarkerCall last = false := by
            unfold isMarkerCall
            split
            · rename_i name
              refine decide_eq_false fun hname => hmarker ?_
              subst hname
              exact mem_commandsParts.mpr ⟨_, hmem, by simp [operandsParts, Operand.parts]⟩
            · rfl
          simp [hne, hlast]

/-- A marked pipeline is printed as the pipeline is in the other world. -/
theorem printPipeline_mark_agree (henv : PrintsThrough R Called env env') (dot : Value)
    (p : Pipeline) (hp : p.Followed R Called env env') :
    Agree R (printPipeline env dot p.mark) (printPipeline env' dot p) := by
  have hcommands := evalCommands_agree henv.toAlike dot none p.commands hp.calls
  rw [Pipeline.mark_eq fun h => henv.marker (hp.calls _ h)]
  by_cases hd : p.declared = []
  · rw [printPipeline_undeclared env' dot hd]
    by_cases hc : p.commands = []
    · -- Without commands the value is NULL, and there is nothing to mark.
      rw [if_neg fun h => h.2 hc, printPipeline_undeclared env dot hd, hc]
      exact hp.empty hc
    · let marked : Pipeline := { p with commands := p.commands ++ [markerCall] }
      -- The value that the second world prints is the one that the first hands to its marker.
      have hmarked : marked.declared = [] := hd
      rw [if_pos ⟨hd, hc⟩, printPipeline_undeclared env dot hmarked,
        evalCommands_marked env dot none hc, bind_assoc]
      exact Agree.bind hcommands henv.print
  -- What is bound is not printed, and is not marked either.
  · rw [if_neg fun h => hd h.1]
    refine Agree.bind (evalPipeline_agree henv.toAlike dot p hp.calls) fun v => ?_
    rw [if_neg (by simpa using hd), if_neg (by simpa using hd)]
    exact Agree.pure ()

mutual

/-- **A marked node agrees with the node in a world that prints as the marker and the first world
do together.** -/
theorem walkNode_mark_agree (henv : PrintsThrough R Called env env') (dot : Value) (node : Node)
    (hall : ∀ p ∈ node.pipelines, p.Followed R Called env env') :
    Agree R (walkNode env dot node.mark) (walkNode env' dot node) := by
  match node with
  | .text s => exact henv.literal s
  | .action line pipe =>
    exact Agree.bind (Agree.setLine line) fun _ =>
      printPipeline_mark_agree henv dot pipe (hall pipe (by simp [Node.pipelines]))
  | .block kind line pipe body otherwise =>
    have hpipe : ∀ f, pipe.Calls f → Called f := (hall pipe (by simp [Node.pipelines])).calls
    have hbody : ∀ p ∈ nodesPipelines body, p.Followed R Called env env' := fun p hp =>
      hall p (by simp [Node.pipelines, hp])
    have hother : ∀ p ∈ optionPipelines otherwise, p.Followed R Called env env' := fun p hp =>
      hall p (by simp [Node.pipelines, hp])
    by_cases hrange : kind = .range
    · subst hrange
      rw [Node.mark, walkNode, walkNode]
      refine Agree.bind (Agree.setLine line) fun _ => Agree.bind Agree.mark fun mark => ?_
      refine Agree.bind (evalCommands_agree henv.toAlike dot none pipe.commands hpipe) fun v => ?_
      cases rangeItems? v with
      | none => exact Agree.stop _
      | some items =>
          cases items with
          | nil => exact walkOption_mark_agree henv dot otherwise hother
          | cons e rest =>
              refine Agree.bind (Agree.forEach (fun key item => ?_) (e :: rest)) fun _ =>
                Agree.keepVariables mark
              refine Agree.bind (Agree.keepVariables mark) fun _ => ?_
              exact Agree.bind (bindItem_agree pipe key item) fun _ =>
                walkNodes_mark_agree henv item body hbody
    · rw [Node.mark, walkNode_block env dot hrange, walkNode_block env' dot hrange]
      refine Agree.bind (Agree.setLine line) fun _ => Agree.bind Agree.mark fun mark => ?_
      refine Agree.bind (evalPipeline_agree henv.toAlike dot pipe hpipe) fun v => ?_
      have hthen := walkNodes_mark_agree henv (if kind = .scoped then v else dot) body hbody
      have helse := walkOption_mark_agree henv dot otherwise hother
      exact Agree.ite (Agree.bind hthen fun _ => Agree.keepVariables mark)
        (Agree.bind helse fun _ => Agree.keepVariables mark)

theorem walkNodes_mark_agree (henv : PrintsThrough R Called env env') (dot : Value)
    (nodes : List Node) (hall : ∀ p ∈ nodesPipelines nodes, p.Followed R Called env env') :
    Agree R (walkNodes env dot (markNodes nodes)) (walkNodes env' dot nodes) := by
  match nodes with
  | [] => exact Agree.pure ()
  | node :: rest =>
    rw [markNodes, walkNodes, walkNodes]
    refine Agree.bind (walkNode_mark_agree henv dot node fun p hp => hall p ?_) fun _ =>
      walkNodes_mark_agree henv dot rest fun p hp => hall p ?_
    · exact List.mem_append_left _ hp
    · exact List.mem_append_right _ hp

theorem walkOption_mark_agree (henv : PrintsThrough R Called env env') (dot : Value)
    (otherwise : Option (List Node))
    (hall : ∀ p ∈ optionPipelines otherwise, p.Followed R Called env env') :
    Agree R (walkOption env dot (markOption otherwise)) (walkOption env' dot otherwise) := by
  match otherwise with
  | none => exact Agree.pure ()
  | some nodes => exact walkNodes_mark_agree henv dot nodes hall

end

/-- **Executing a marked template in one world and the template in the other comes to the same
result, and to worlds that are related.** -/
theorem Template.execute_mark_agree (t : Template) {world : World σ} {world' : World τ}
    {policy : MissingKey} {data : Value}
    (henv : PrintsThrough R Called ⟨world, policy, data⟩ ⟨world', policy, data⟩)
    (hall : ∀ p ∈ nodesPipelines t.root,
      p.Followed R Called ⟨world, policy, data⟩ ⟨world', policy, data⟩)
    (seeds : List (String × Value)) {start : σ} {start' : τ}
    (hstart : R start start') :
    (t.mark.execute world policy data seeds start).1
        = (t.execute world' policy data seeds start').1 ∧
      R (t.mark.execute world policy data seeds start).2
        (t.execute world' policy data seeds start').2 := by
  have h := walkNodes_mark_agree henv data t.root hall (Frame.start seeds start)
    (Frame.start seeds start') ⟨rfl, rfl, hstart⟩
  rw [Template.execute_eq, Template.execute_eq, Template.mark]
  exact ⟨congrArg (Except.mapError _) h.1, h.2.world⟩

end SqlTemplate
