import Mathlib
import SqlTemplate.Proofs.Basic
import SqlTemplate.Proofs.Execution.Logic
import SqlTemplate.Proofs.Template.Parts

/-!
# What executions keep

An execution takes its values from the data, the variables and the answers of the world; all
others it builds itself, out of parts of these. So a property of values that holds at the start and
of every answer holds of every value in between, if it passes from a value to its parts and holds
of the plain values. `Keeps` collects what has to be known of the variables, the calls and the
bindings of an operand for that, together with a property of states; `evalOperand_keeps` and
`walkNodes_keeps` conclude it for operands and nodes.
-/

set_option autoImplicit false

namespace SqlTemplate

/-! ## Properties of values -/

/-- A property of values that passes to what templates make of a value: its fields, items and zero,
and plain values. -/
structure ValueClosed (V : Value → Prop) : Prop where
  nil : V .nil
  bool : ∀ b, V (.bool b)
  int : ∀ n, V (.int n)
  float : ∀ x, V (.float x)
  text : ∀ s, V (.text s)
  dest : ∀ path, V (.dest path)
  zero : ∀ v, V (Value.zeroLike v)
  item : ∀ items, V (.list items) → ∀ v ∈ items, V v
  entry : ∀ entries, V (.map entries) → ∀ e ∈ entries, V e.2

namespace ValueClosed

theorem all : ValueClosed fun _ => True := by
  constructor <;> intros <;> trivial

variable {V : Value → Prop}

theorem item? (hV : ValueClosed V) {v key w : Value} (hv : V v) (h : v.item? key = .ok w) : V w := by
  unfold Value.item? at h
  split at h
  · rename_i items n
    split at h
    · cases h
    · split at h
      · rename_i hget
        cases h
        exact hV.item items hv _ (List.mem_of_getElem? hget)
      · cases h
  · rename_i entries key
    cases h
    cases hl : entries.lookup key with
    | none => exact hV.nil
    | some w => exact hV.entry entries hv _ (mem_of_lookup hl)
  · cases h
  · cases h

theorem items? (hV : ValueClosed V) {keys : List Value} {v w : Value} (hv : V v)
    (h : keys.foldlM Value.item? v = .ok w) : V w := by
  induction keys generalizing v with
  | nil => cases h; exact hv
  | cons key rest ih =>
      rw [List.foldlM_cons] at h
      obtain ⟨u, hitem, h⟩ := bind_eq_ok.mp h
      exact ih (hV.item? hv hitem) h

theorem order_eq_bool {f : Builtin} {accept : Ordering → Bool} {args : List Value} {w : Value}
    (h : f.order accept args = .ok w) : ∃ b, w = .bool b := by
  obtain ⟨⟨a, b⟩, _, h⟩ := bind_eq_ok.mp h
  obtain ⟨_, _, h⟩ := bind_eq_ok.mp h
  cases h
  exact ⟨_, rfl⟩

/-- What a function of every template yields is plain, or inside of its first argument. -/
theorem builtin (hV : ValueClosed V) {f : Builtin} {args : List Value} {w : Value}
    (hargs : ∀ v ∈ args, V v) (h : f.call args = .ok w) : V w := by
  unfold Builtin.call at h
  cases f with
  | conjunction => cases h
  | disjunction => cases h
  | index =>
      cases args with
      | nil => cases h
      | cons v keys => exact hV.items? (hargs v (by simp)) h
  | length =>
      obtain ⟨_, _, h⟩ := bind_eq_ok.mp h
      obtain ⟨_, _, h⟩ := bind_eq_ok.mp h
      cases h
      exact hV.int _
  | negation =>
      obtain ⟨_, _, h⟩ := bind_eq_ok.mp h
      cases h
      exact hV.bool _
  | equal =>
      obtain ⟨_, _, h⟩ := bind_eq_ok.mp h
      cases h
      exact hV.bool _
  | notEqual =>
      obtain ⟨⟨a, b⟩, _, h⟩ := bind_eq_ok.mp h
      obtain ⟨_, _, h⟩ := bind_eq_ok.mp h
      cases h
      exact hV.bool _
  | _ =>
      obtain ⟨b, rfl⟩ := order_eq_bool h
      exact hV.bool b

/-- A range goes through items of its value. -/
theorem rangeItems (hV : ValueClosed V) {v : Value} {items : List (Value × Value)} (hv : V v)
    (h : rangeItems? v = some items) : ∀ e ∈ items, V e.1 ∧ V e.2 := by
  unfold rangeItems? at h
  split at h
  · rename_i values
    cases h
    intro e he
    obtain ⟨i, hi, rfl⟩ := List.mem_mapIdx.mp he
    exact ⟨hV.int _, hV.item values hv _ (List.getElem_mem hi)⟩
  · rename_i entries
    cases h
    intro e he
    obtain ⟨entry, hentry, rfl⟩ := List.mem_map.mp he
    exact ⟨hV.text _, hV.entry entries hv entry hentry⟩
  · split at h
    · cases h
      intro e he
      obtain ⟨i, _, rfl⟩ := List.mem_map.mp he
      exact ⟨hV.int _, hV.int _⟩
    · cases h
  · cases h
    simp
  · cases h

end ValueClosed

/-! ## Operands -/

open Exec

variable {σ : Type}

/-- Whether a failure says that a variable is not bound. -/
def EvalFault.IsUndefined : EvalFault → Prop
  | .at _ (.undefinedVariable _) => True
  | _ => False

/-- What has to be known so that the operands in `Occurs` keep `P`, have values in `V` and fail
with `E`: the values are closed, and reading a variable, calling a function of the world and
binding inside parentheses behave. Failures of other kinds are all in `E`. -/
structure Keeps (env : Env σ) (P : Frame σ → Prop) (V : Value → Prop)
    (E : EvalFault → Frame σ → Prop) (Occurs : Operand → Prop) : Prop where
  closed : ValueClosed V
  fails : ∀ fault frame, P frame → ¬ fault.IsUndefined → E fault frame
  read : ∀ x fields, Occurs (.variable x fields) →
    Spec P (Exec.valueOf env x) (fun v frame => V v ∧ P frame) E
  call : ∀ f args, Occurs (.function f) → Builtin.ofName? f = none → (∀ v ∈ args, V v) →
    Spec P (Exec.callWorld env f args) (fun v frame => V v ∧ P frame) E
  bind : ∀ declared assigns commands v, Occurs (.pipe declared assigns commands) → V v →
    Spec P (Exec.bindAll assigns v declared) (fun _ => P) E

section Operands

variable {env : Env σ} {P : Frame σ → Prop} {V : Value → Prop} {E : EvalFault → Frame σ → Prop}
  {Occurs : Operand → Prop}

theorem Keeps.stop {α : Type} (h : Keeps env P V E Occurs) {reason : EvalReason}
    {Q : α → Frame σ → Prop} (hreason : ∀ line, ¬ (EvalFault.at line reason).IsUndefined) :
    Spec P (Exec.stop reason) Q E :=
  Spec.stop fun frame hP => h.fails _ frame hP (hreason _)

/-- A value that is at hand. -/
theorem Keeps.pure (v : Value) (hv : V v) :
    Spec P (Pure.pure v : Exec σ Value) (fun v frame => V v ∧ P frame) E :=
  Spec.pure fun _ hP => ⟨hv, hP⟩

theorem Keeps.fields (h : Keeps env P V E Occurs) (names : List String) {v : Value} (hv : V v) :
    Spec P (Exec.fields env names v) (fun v frame => V v ∧ P frame) E := by
  induction names generalizing v with
  | nil => exact Keeps.pure v hv
  | cons name rest ih =>
      match v with
      | .map entries =>
        rw [Exec.fields]
        cases hfind : findEntry name entries with
        | some w =>
            obtain ⟨e, he, rfl⟩ := mem_of_findEntry hfind
            exact ih (h.closed.entry entries hv e he)
        | none =>
            -- What stands for a missing field is NULL or the zero of an entry.
            cases env.policy with
            | invalid => exact ih h.closed.nil
            | zero =>
                refine ih ?_
                cases entries with
                | nil => exact h.closed.nil
                | cons e rest => exact h.closed.zero e.2
            | error => exact fun frame hP => h.fails _ frame hP id
      | .dest path => exact Keeps.pure _ (h.closed.dest _)
      | .nil => exact h.stop fun _ => id
      | .bool b => exact h.stop fun _ => id
      | .int n => exact h.stop fun _ => id
      | .float x => exact h.stop fun _ => id
      | .text s => exact h.stop fun _ => id
      | .bytes data => exact h.stop fun _ => id
      | .instant t => exact h.stop fun _ => id
      | .list items => exact h.stop fun _ => id
      | .fragment f => exact h.stop fun _ => id

theorem Keeps.callFunction (h : Keeps env P V E Occurs) {f : String} (hf : Occurs (.function f))
    {args : List Value} (hargs : ∀ v ∈ args, V v) :
    Spec P (Exec.call env f args) (fun v frame => V v ∧ P frame) E := by
  rw [Exec.call]
  cases hb : Builtin.ofName? f with
  | none => exact h.call f args hf hb hargs
  | some b =>
      dsimp only
      cases hcall : b.call args with
      | ok v => exact Keeps.pure v (h.closed.builtin hargs hcall)
      | error fault => exact h.stop fun _ => id

mutual

/-- **An operand keeps what reading its variables, calling its functions and binding in its
parentheses keep.** -/
theorem evalOperand_keeps (h : Keeps env P V E Occurs) {dot : Value} (hdot : V dot) (a : Operand)
    (hparts : ∀ part ∈ a.parts, Occurs part) :
    Spec P (evalOperand env dot a) (fun v frame => V v ∧ P frame) E := by
  match a with
  | .dot => exact Keeps.pure dot hdot
  | .nil => exact Keeps.pure _ h.closed.nil
  | .bool b => exact Keeps.pure _ (h.closed.bool b)
  | .int n => exact Keeps.pure _ (h.closed.int n)
  | .float x => exact Keeps.pure _ (h.closed.float x)
  | .text s => exact Keeps.pure _ (h.closed.text s)
  | .field names => exact h.fields names hdot
  | .variable x names =>
    rw [evalOperand]
    exact Spec.bind_of (h.read x names (hparts _ (Operand.mem_parts_self _))) fun v hv =>
      h.fields names hv
  | .function f =>
    rw [evalOperand]
    exact Spec.ite (fun _ => h.stop fun _ => id) fun _ =>
      h.callFunction (hparts _ (Operand.mem_parts_self _)) (by simp)
  | .chain base names =>
    rw [evalOperand]
    exact Spec.bind_of (evalOperand_keeps h hdot base fun part hp =>
      hparts part (List.mem_cons_of_mem _ hp)) fun v hv => h.fields names hv
  | .pipe declared assigns commands =>
    rw [evalOperand]
    refine Spec.bind_of (evalCommands_keeps h hdot none (by simp) commands fun part hp =>
      hparts part (List.mem_cons_of_mem _ hp)) fun v hv => ?_
    exact Spec.bind (h.bind declared assigns commands v (hparts _ (Operand.mem_parts_self _)) hv)
      fun _ => Keeps.pure v hv

theorem evalOperands_keeps (h : Keeps env P V E Occurs) {dot : Value} (hdot : V dot)
    (operands : List Operand) (hparts : ∀ part ∈ operandsParts operands, Occurs part) :
    Spec P (evalOperands env dot operands) (fun vs frame => (∀ v ∈ vs, V v) ∧ P frame) E := by
  match operands with
  | [] => exact Spec.pure fun frame hP => ⟨by simp, hP⟩
  | a :: rest =>
    rw [evalOperands]
    refine Spec.bind_of (evalOperand_keeps h hdot a fun part hp =>
      hparts part (List.mem_append_left _ hp)) fun v hv => ?_
    refine Spec.bind_of (evalOperands_keeps h hdot rest fun part hp =>
      hparts part (List.mem_append_right _ hp)) fun vs hvs => ?_
    exact Spec.pure fun frame hP => ⟨List.forall_mem_cons.mpr ⟨hv, hvs⟩, hP⟩

theorem evalUntil_keeps (h : Keeps env P V E Occurs) {dot : Value} (hdot : V dot) (goOn : Bool)
    (last : Option Value) (hlast : ∀ v ∈ last, V v) {value : Value} (hvalue : V value)
    (operands : List Operand) (hparts : ∀ part ∈ operandsParts operands, Occurs part) :
    Spec P (evalUntil env dot goOn last value operands) (fun v frame => V v ∧ P frame) E := by
  match operands with
  | [] =>
    refine Keeps.pure _ ?_
    cases last with
    | none => exact hvalue
    | some v => exact hlast v rfl
  | a :: rest =>
    rw [evalUntil]
    refine Spec.bind_of (evalOperand_keeps h hdot a fun part hp =>
      hparts part (List.mem_append_left _ hp)) fun v hv => ?_
    refine Spec.ite (fun _ => Keeps.pure v hv) fun _ => ?_
    exact evalUntil_keeps h hdot goOn last hlast hv rest fun part hp =>
      hparts part (List.mem_append_right _ hp)

theorem evalCommand_keeps (h : Keeps env P V E Occurs) {dot : Value} (hdot : V dot)
    (last : Option Value) (hlast : ∀ v ∈ last, V v) (command : List Operand)
    (hparts : ∀ part ∈ operandsParts command, Occurs part) :
    Spec P (evalCommand env dot last command) (fun v frame => V v ∧ P frame) E := by
  match command with
  | [] => exact h.stop fun _ => id
  | a :: args =>
    have hargs : ∀ part ∈ operandsParts args, Occurs part := fun part hp =>
      hparts part (List.mem_append_right _ hp)
    by_cases ha : ∃ name, a = .function name
    · obtain ⟨name, rfl⟩ := ha
      cases hs : shortCircuit? name with
      | some goOn =>
          rw [evalCommand_shortCircuit env dot last hs]
          exact Spec.ite (fun _ => h.stop fun _ => id) fun _ =>
            evalUntil_keeps h hdot goOn last hlast h.closed.nil args hargs
      | none =>
          rw [evalCommand_call env dot last hs]
          refine Spec.bind_of (evalOperands_keeps h hdot args hargs) fun vs hvs => ?_
          refine h.callFunction (hparts _ (List.mem_append_left _ (Operand.mem_parts_self _))) ?_
          rw [List.forall_mem_append]
          -- The value of the command before is the last argument.
          exact ⟨hvs, fun v hv => hlast v (by simpa using hv)⟩
    · rw [evalCommand_operand env dot last fun name hname => ha ⟨name, hname⟩]
      exact Spec.ite (fun _ => h.stop fun _ => id) fun _ =>
        evalOperand_keeps h hdot a fun part hp => hparts part (List.mem_append_left _ hp)

theorem evalCommands_keeps (h : Keeps env P V E Occurs) {dot : Value} (hdot : V dot)
    (last : Option Value) (hlast : ∀ v ∈ last, V v) (commands : List (List Operand))
    (hparts : ∀ part ∈ commandsParts commands, Occurs part) :
    Spec P (evalCommands env dot last commands) (fun v frame => V v ∧ P frame) E := by
  match commands with
  | [] =>
    refine Keeps.pure _ ?_
    cases last with
    | none => exact h.closed.nil
    | some v => exact hlast v rfl
  | command :: rest =>
    rw [evalCommands]
    refine Spec.bind_of (evalCommand_keeps h hdot last hlast command fun part hp =>
      hparts part (List.mem_append_left _ hp)) fun v hv => ?_
    exact evalCommands_keeps h hdot (some v) (by simpa using hv) rest fun part hp =>
      hparts part (List.mem_append_right _ hp)

end

end Operands

/-! ## Nodes -/

/-- What has to be known of a world so that it stays in `I` while a template is executed that
calls the functions in `Called` and contains the texts in `Written`: it stays there when it is
called with values in `V` and takes texts and values, and its answers are in `V` too. -/
structure WorldKeeps (env : Env σ) (V : Value → Prop) (I : σ → Prop) (Called : String → Prop)
    (Written : String → Prop) : Prop where
  closed : ValueClosed V
  root : V env.root
  call : ∀ f args w, Called f → Builtin.ofName? f = none → (∀ v ∈ args, V v) → I w →
    I (env.world.call f args w).2 ∧ ∀ v, (env.world.call f args w).1 = .ok v → V v
  literal : ∀ s w w', Written s → I w → env.world.literal s w = some w' → I w'
  print : ∀ v w w', V v → I w → env.world.print v w = some w' → I w'

/-- A state whose variables have values in `V` and whose world is in `I`. -/
structure Frame.Within (V : Value → Prop) (I : σ → Prop) (frame : Frame σ) : Prop where
  values : ∀ e ∈ frame.vars, V e.2
  world : I frame.world

section Nodes

variable {env : Env σ} {V : Value → Prop} {I : σ → Prop} {Called : String → Prop}
  {Written : String → Prop}

/-- However a step ends, the world is still in `I`. -/
abbrev Stays (V : Value → Prop) (I : σ → Prop) (m : Exec σ Unit) : Prop :=
  Spec (Frame.Within V I) m (fun _ => Frame.Within V I) (fun _ frame => I frame.world)

theorem Stays.bindVariable (assigns : Bool) (name : String) {v : Value} (hv : V v) :
    Stays V I (Exec.bind assigns name v) := by
  intro frame h
  cases assigns with
  | false =>
      rw [on_declare]
      exact ⟨List.forall_mem_cons.mpr ⟨hv, h.values⟩, h.world⟩
  | true =>
      rw [on_assign]
      cases hassign : Variables.assign name v frame.vars with
      | none => exact h.world
      | some vars => exact ⟨Variables.assign_values hassign hv h.values, h.world⟩

theorem Stays.bindAll (assigns : Bool) {v : Value} (hv : V v) (names : List String) :
    Stays V I (Exec.bindAll assigns v names) := by
  induction names with
  | nil => exact Spec.pure fun _ h => h
  | cons name rest ih => exact Spec.bind (Stays.bindVariable assigns name hv) fun _ => ih

theorem Stays.bindItem (p : Pipeline) {key item : Value} (hkey : V key) (hitem : V item) :
    Stays V I (SqlTemplate.bindItem p key item) := by
  rw [SqlTemplate.bindItem]
  rcases p.declared with _ | ⟨index, _ | ⟨name, _⟩⟩
  · exact Spec.pure fun _ h => h
  · exact Stays.bindVariable p.assigns index hitem
  · exact Spec.bind (Stays.bindVariable p.assigns index hkey) fun _ =>
      Stays.bindVariable p.assigns name hitem

theorem Stays.setLine (line : Nat) : Stays V I (Exec.setLine line) :=
  fun _ h => ⟨h.values, h.world⟩

theorem Stays.keepVariables (count : Nat) : Stays V I (Exec.keepVariables count) :=
  fun _ h => ⟨fun e he => h.values e (Variables.mem_of_mem_keep he), h.world⟩

theorem Spec.mark_within :
    Spec (Frame.Within V I) Exec.mark (fun _ => Frame.Within V I) (fun _ frame => I frame.world) :=
  fun _ h => h

/-- Operands keep the world in `I`. -/
theorem WorldKeeps.keeps (h : WorldKeeps env V I Called Written) :
    Keeps env (Frame.Within V I) V (fun _ frame => I frame.world)
      (fun a => ∀ f, a = .function f → Called f) where
  closed := h.closed
  fails _ _ hframe _ := hframe.world
  read x _ _ := by
    intro frame hframe
    rw [on_valueOf]
    cases hlookup : frame.vars.lookup x with
    | some v => exact ⟨hframe.values _ (mem_of_lookup hlookup), hframe⟩
    | none =>
        by_cases hx : x = "$"
        · simpa [hx] using ⟨h.root, hframe⟩
        · simpa [hx] using hframe.world
  call f args hf hb hargs := by
    intro frame hframe
    obtain ⟨hworld, hanswer⟩ := h.call f args frame.world (hf f rfl) hb hargs hframe.world
    rw [on_callWorld]
    generalize env.world.call f args frame.world = outcome at hworld hanswer ⊢
    obtain ⟨answer, world⟩ := outcome
    cases answer with
    | ok v => exact ⟨hanswer v rfl, hframe.values, hworld⟩
    | error cause => exact hworld
  bind _ assigns _ _ _ hv := Stays.bindAll assigns hv _

theorem WorldKeeps.evalCommands (h : WorldKeeps env V I Called Written) {dot : Value}
    (hdot : V dot) (p : Pipeline) (hcalls : ∀ f, p.Calls f → Called f) :
    Spec (Frame.Within V I) (SqlTemplate.evalCommands env dot none p.commands)
      (fun v frame => V v ∧ Frame.Within V I frame) (fun _ frame => I frame.world) := by
  refine evalCommands_keeps h.keeps hdot none (by simp) p.commands ?_
  rintro _ hpart f rfl
  exact hcalls f hpart

theorem WorldKeeps.evalPipeline (h : WorldKeeps env V I Called Written) {dot : Value}
    (hdot : V dot) (p : Pipeline) (hcalls : ∀ f, p.Calls f → Called f) :
    Spec (Frame.Within V I) (SqlTemplate.evalPipeline env dot p)
      (fun v frame => V v ∧ Frame.Within V I frame) (fun _ frame => I frame.world) := by
  refine Spec.bind_of (h.evalCommands hdot p hcalls) fun v hv => ?_
  exact Spec.bind (Stays.bindAll p.assigns hv p.declared) fun _ => Keeps.pure v hv

mutual

/-- **A world stays in `I` while a node is executed.** -/
theorem walkNode_keeps (h : WorldKeeps env V I Called Written) {dot : Value} (hdot : V dot)
    (node : Node) (hcalls : ∀ p ∈ node.pipelines, ∀ f, p.Calls f → Called f)
    (htexts : ∀ s ∈ node.texts, Written s) : Stays V I (walkNode env dot node) := by
  match node with
  | .text s =>
    intro frame hframe
    rw [walkNode, on_literal]
    cases hw : env.world.literal s frame.world with
    | none => exact hframe.world
    | some w =>
        have hs : Written s := htexts s (by simp [Node.texts])
        exact ⟨hframe.values, h.literal s _ _ hs hframe.world hw⟩
  | .action line pipe =>
    have hpipe := h.evalPipeline hdot pipe (hcalls pipe (by simp [Node.pipelines]))
    refine Spec.bind (Stays.setLine line) fun _ => Spec.bind_of hpipe fun v hv => ?_
    refine Spec.ite (fun _ => ?_) (fun _ => Spec.pure fun _ h => h)
    intro frame hframe
    rw [on_print]
    cases hw : env.world.print v frame.world with
    | none => exact hframe.world
    | some w => exact ⟨hframe.values, h.print v _ _ hv hframe.world hw⟩
  | .block kind line pipe body otherwise =>
    have hpipe : ∀ f, pipe.Calls f → Called f := hcalls pipe (by simp [Node.pipelines])
    have hbody : ∀ v, V v → Stays V I (walkNodes env v body) := fun v hv =>
      walkNodes_keeps h hv body (fun p hp => hcalls p (by simp [Node.pipelines, hp]))
        fun s hs => htexts s (by simp [Node.texts, hs])
    have hother : Stays V I (walkOption env dot otherwise) :=
      walkOption_keeps h hdot otherwise (fun p hp => hcalls p (by simp [Node.pipelines, hp]))
        fun s hs => htexts s (by simp [Node.texts, hs])
    by_cases hrange : kind = .range
    · subst hrange
      rw [walkNode]
      refine Spec.bind (Stays.setLine line) fun _ => Spec.bind Spec.mark_within fun mark => ?_
      refine Spec.bind_of (h.evalCommands hdot pipe hpipe) fun v hv => ?_
      cases hitems : rangeItems? v with
      | none => exact Spec.stop fun _ hframe => hframe.world
      | some items =>
          -- The invariant of the loop is that of the whole execution: no round depends on another.
          have hvalues := h.closed.rangeItems hv hitems
          cases items with
          | nil => exact hother
          | cons e rest =>
              refine Spec.bind (Spec.forEach fun e he => ?_) fun _ => Stays.keepVariables mark
              refine Spec.bind (Stays.keepVariables mark) fun _ => ?_
              exact Spec.bind (Stays.bindItem pipe (hvalues e he).1 (hvalues e he).2) fun _ =>
                hbody e.2 (hvalues e he).2
    · rw [walkNode_block env dot hrange]
      refine Spec.bind (Stays.setLine line) fun _ => Spec.bind Spec.mark_within fun mark => ?_
      refine Spec.bind_of (h.evalPipeline hdot pipe hpipe) fun v hv => ?_
      refine Spec.ite (fun _ => ?_) (fun _ => Spec.bind hother fun _ => Stays.keepVariables mark)
      refine Spec.bind (hbody _ ?_) fun _ => Stays.keepVariables mark
      split
      · exact hv
      · exact hdot

theorem walkNodes_keeps (h : WorldKeeps env V I Called Written) {dot : Value} (hdot : V dot)
    (nodes : List Node) (hcalls : ∀ p ∈ nodesPipelines nodes, ∀ f, p.Calls f → Called f)
    (htexts : ∀ s ∈ nodesTexts nodes, Written s) : Stays V I (walkNodes env dot nodes) := by
  match nodes with
  | [] => exact Spec.pure fun _ h => h
  | node :: rest =>
    refine Spec.bind (walkNode_keeps h hdot node ?_ ?_) fun _ => walkNodes_keeps h hdot rest ?_ ?_
    · exact fun p hp => hcalls p (List.mem_append_left _ hp)
    · exact fun s hs => htexts s (List.mem_append_left _ hs)
    · exact fun p hp => hcalls p (List.mem_append_right _ hp)
    · exact fun s hs => htexts s (List.mem_append_right _ hs)

theorem walkOption_keeps (h : WorldKeeps env V I Called Written) {dot : Value} (hdot : V dot)
    (otherwise : Option (List Node))
    (hcalls : ∀ p ∈ optionPipelines otherwise, ∀ f, p.Calls f → Called f)
    (htexts : ∀ s ∈ optionTexts otherwise, Written s) :
    Stays V I (walkOption env dot otherwise) := by
  match otherwise with
  | none => exact Spec.pure fun _ h => h
  | some nodes => exact walkNodes_keeps h hdot nodes hcalls htexts

end

/-- **A world stays in `I` while a template is executed, whether the execution fails or not.** -/
theorem Template.execute_keeps {t : Template} {world : World σ} {policy : MissingKey}
    {data : Value} (h : WorldKeeps ⟨world, policy, data⟩ V I t.Calls (· ∈ nodesTexts t.root))
    {seeds : List (String × Value)} (hseeds : ∀ e ∈ seeds, V e.2) {start : σ} (hstart : I start) :
    I (t.execute world policy data seeds start).2 := by
  have hstays := walkNodes_keeps h h.root t.root (fun p hp f hf => ⟨p, hp, hf⟩) (fun _ hs => hs)
    (Frame.start seeds start) ⟨fun e he => hseeds e (List.mem_reverse.mp he), hstart⟩
  rw [Template.execute_eq]
  show I ((walkNodes ⟨world, policy, data⟩ data t.root).on (Frame.start seeds start)).2.world
  rcases hr : (walkNodes ⟨world, policy, data⟩ data t.root).on (Frame.start seeds start)
    with ⟨result, frame⟩
  rw [hr] at hstays
  cases result with
  | ok _ => exact hstays.world
  | error fault => exact hstays

end Nodes

end SqlTemplate
