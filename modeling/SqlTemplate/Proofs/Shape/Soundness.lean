import Mathlib
import SqlTemplate.Proofs.Shape.Failures
import SqlTemplate.Proofs.Statement.Pieces

/-!
# Soundness of the check

Where the check is right about the dot and the variables, it is right about every operand: a value
of which it knows that it is a record is NULL or has the fields that are looked up on it, and a value
of which it knows that it is a place in the destination is one. That is so at every point of an
execution of a template that can be trusted. Others can fail where the check has claimed that they
do not.
-/

set_option autoImplicit false

namespace SqlTemplate

open Exec Variables

variable {σ : Type}

/-! ## Operands at a point -/

/-- The operands on which an operand looks up fields, with the names of the fields: the dot, a
variable, a base in parentheses, and what these yield after other fields. -/
inductive Operand.Looks : Operand → Operand → String → Prop
  | dot (name : String) (rest : List String) : Looks (.field (name :: rest)) .dot name
  | field (first : String) (before : List String) (name : String) (rest : List String) :
    Looks (.field (first :: before ++ name :: rest)) (.field (first :: before)) name
  | variable (x : String) (before : List String) (name : String) (rest : List String) :
    Looks (.variable x (before ++ name :: rest)) (.variable x before) name
  | base (a : Operand) (name : String) (rest : List String) : Looks (.chain a (name :: rest)) a name
  | chain (a : Operand) (first : String) (before : List String) (name : String)
      (rest : List String) :
    Looks (.chain a (first :: before ++ name :: rest)) (.chain a (first :: before)) name

/-- Whether an operand is evaluated in a pipeline, be it on the way to a field of another. -/
def Pipeline.Evaluates (p : Pipeline) (b : Operand) : Prop :=
  b ∈ p.parts ∨ ∃ a ∈ p.parts, ∃ name, a.Looks b name

/-- Whether a command occurs in a pipeline, at any depth. -/
def Pipeline.HasCommand (p : Pipeline) (command : Command) : Prop :=
  command ∈ p.commands ∨
    ∃ declared assigns commands, .pipe declared assigns commands ∈ p.parts ∧ command ∈ commands

namespace Point

variable (env : Env σ) (dest : Shape) (point : Point σ) (a : Operand)

/-- What the check computes for an operand at a point. -/
def Knows (known : Known) : Prop :=
  ∃ types', (checkOperand dest point.known a).run point.types = .ok (known, types')

/-- Whether an operand has a value at a point, whatever calls have done to the world since. -/
def Gives (v : Value) : Prop :=
  ∃ frame frame', frame.Has point.frame.vars ∧
    (evalOperand env point.dot a).on frame = (.ok v, frame')

/-- Whether the check is right in what it claims about a pipeline at a point.

- A value that is a record for the check, if it is not missing, is NULL or a map with every field
  that is looked up on it; the lookup fails at most because of NULL.
- A value that is a place in the destination for the check is a path of the destination, and leads
  to the type that the check knows.
- A destination of a scan about which the check knows anything is a path of the destination. -/
structure Sound (p : Pipeline) : Prop where
  looks : ∀ a ∈ p.parts, ∀ b name s v, a.Looks b name → point.Knows dest b (.shape s) →
    s.peel.isRecord = true → point.Gives env b v →
    v = .nil ∨ ∃ entries w, v = .map entries ∧ findEntry name entries = some w
  fails : ∀ a ∈ p.parts, ∀ b name s v, a.Looks b name → point.Knows dest b (.shape s) →
    s.peel.isRecord = true → point.Gives env b v → ∀ (frame frame' : Frame σ) fault,
    (Exec.fields env [name] v).on frame = (.error fault, frame') →
    fault = .at frame.line (.fieldOfNil name)
  places : ∀ b o v, p.Evaluates b → point.Knows dest b (.place o) → point.Gives env b v →
    ∃ path, v = .dest path ∧ ∀ s ∈ o, dest.Resolves path.segments s
  scans : ∀ f b args known v, p.HasCommand (.function f :: b :: args) → isScanName f = true →
    point.Knows dest b known → known ≠ .anything → point.Gives env b v → ∃ path, v = .dest path

end Point

section Operands

variable {dest : Shape} {dot known : Known} {types : KnownVariables} {names : Names}
  {a b : Operand} {name : String}

theorem Known.fields_append {before rest : List String} {k : Known} :
    known.fields (before ++ rest) = .ok k ↔
      ∃ between, known.fields before = .ok between ∧ between.fields rest = .ok k := by
  induction before generalizing known with
  | nil => simp [Known.fields]
  | cons first before ih =>
      rw [List.cons_append, Known.fields, Known.fields]
      constructor
      · intro h
        obtain ⟨next, hfirst, hrest⟩ := bind_eq_ok.mp h
        obtain ⟨between, hbefore, hk⟩ := ih.mp hrest
        exact ⟨between, bind_eq_ok.mpr ⟨next, hfirst, hbefore⟩, hk⟩
      · rintro ⟨between, h, hk⟩
        obtain ⟨next, hfirst, hbefore⟩ := bind_eq_ok.mp h
        exact bind_eq_ok.mpr ⟨next, hfirst, ih.mpr ⟨between, hbefore, hk⟩⟩

/-- If the check follows fields, then it knows what stands before the name, and the field. -/
theorem Known.fields_split {before rest : List String} {k : Known}
    (h : known.fields (before ++ name :: rest) = .ok k) :
    ∃ between next, known.fields before = .ok between ∧ between.field name = .ok next := by
  obtain ⟨between, hbefore, hrest⟩ := fields_append.mp h
  obtain ⟨next, hfield, -⟩ := bind_eq_ok.mp hrest
  exact ⟨between, next, hbefore, hfield⟩

/-- If the check accepts an operand, then it knows the operands on which fields are looked up, and
the fields. -/
theorem Operand.Looks.accepted (h : a.Looks b name) (hnames : ∀ part ∈ a.parts, part.Proper names)
    (haccepted : a.Accepted dest dot types) :
    ∃ known next, (checkOperand dest dot b).run types = .ok (known, types) ∧
      known.field name = .ok next := by
  obtain ⟨k, hk⟩ := haccepted
  cases h with
  | dot name rest =>
      obtain ⟨next, hfield, -⟩ := bind_eq_ok.mp (Check.run_ofExcept_eq_ok.mp hk).1
      exact ⟨dot, next, rfl, hfield⟩
  | field first before name rest =>
      obtain ⟨between, next, hbefore, hfield⟩ :=
        Known.fields_split (Check.run_ofExcept_eq_ok.mp hk).1
      exact ⟨between, next, Check.run_ofExcept_eq_ok.mpr ⟨hbefore, rfl⟩, hfield⟩
  | «variable» x before name rest =>
      rw [checkOperand] at hk
      obtain ⟨known, types', hvalue, hfields⟩ := Check.run_bind_eq_ok.mp hk
      obtain ⟨between, next, hbefore, hfield⟩ :=
        Known.fields_split (Check.run_ofExcept_eq_ok.mp hfields).1
      refine ⟨between, next, ?_, hfield⟩
      rw [checkOperand]
      cases hvalue
      exact Check.run_bind_eq_ok.mpr ⟨_, _, rfl, Check.run_ofExcept_eq_ok.mpr ⟨hbefore, rfl⟩⟩
  | base name rest =>
      rw [checkOperand] at hk
      obtain ⟨known, types', hbase, hfields⟩ := Check.run_bind_eq_ok.mp hk
      obtain ⟨rfl, -⟩ := checkOperand_accepted
        (fun part hp => hnames part (List.mem_cons_of_mem _ hp)) hbase
      obtain ⟨next, hfield, -⟩ := bind_eq_ok.mp (Check.run_ofExcept_eq_ok.mp hfields).1
      exact ⟨known, next, hbase, hfield⟩
  | chain base first before name rest =>
      rw [checkOperand] at hk
      obtain ⟨known, types', hbase, hfields⟩ := Check.run_bind_eq_ok.mp hk
      obtain ⟨rfl, -⟩ := checkOperand_accepted
        (fun part hp => hnames part (List.mem_cons_of_mem _ hp)) hbase
      obtain ⟨between, next, hbefore, hfield⟩ :=
        Known.fields_split (Check.run_ofExcept_eq_ok.mp hfields).1
      refine ⟨between, next, ?_, hfield⟩
      rw [checkOperand]
      exact Check.run_bind_eq_ok.mpr ⟨_, _, hbase, Check.run_ofExcept_eq_ok.mpr ⟨hbefore, rfl⟩⟩

/-- What occurs in an operand on which fields are looked up is proper, and reads nothing else. -/
theorem Operand.Looks.parts (h : a.Looks b name) (hnames : ∀ part ∈ a.parts, part.Proper names) :
    (∀ part ∈ b.parts, part.Proper names) ∧
      ∀ x fields, .variable x fields ∈ b.parts → ∃ fields', .variable x fields' ∈ a.parts := by
  have hself := hnames _ (Operand.mem_parts_self _)
  cases h with
  | dot name rest => simp [Operand.parts, Operand.Proper]
  | field first before name rest => simp [Operand.parts, Operand.Proper]
  | «variable» x before name rest =>
      have hx : x ∈ names.vars := hself
      simp [Operand.parts, Operand.Proper, hx]
  | base name rest =>
      exact ⟨fun part hp => hnames part (List.mem_cons_of_mem _ hp),
        fun x fields hp => ⟨fields, List.mem_cons_of_mem _ hp⟩⟩
  | chain base first before name rest =>
      have hbase := fun part hp => hnames part (List.mem_cons_of_mem _ hp)
      refine ⟨List.forall_mem_cons.mpr ⟨⟨by simp, hself.2⟩, hbase⟩, fun x fields hp => ?_⟩
      have hmem := (List.mem_cons.mp hp).resolve_left (by simp)
      exact ⟨fields, List.mem_cons_of_mem _ hmem⟩

/-- Everything that a pipeline evaluates is proper, and what it reads is read by the pipeline. -/
theorem Pipeline.Proper.evaluates {context : PipelineContext} {p : Pipeline}
    (hp : p.Proper names context) (h : p.Evaluates b) :
    (∀ part ∈ b.parts, part.Proper names) ∧ ∀ x fields, .variable x fields ∈ b.parts → p.Reads x := by
  have hinner : ∀ a ∈ p.parts, ∀ part ∈ a.parts, part ∈ p.parts := fun a ha part hpart =>
    mem_commandsParts_trans ha hpart
  rcases h with hmem | ⟨a, ha, name, hlooks⟩
  · exact ⟨fun part hpart => hp.parts part (hinner b hmem part hpart),
      fun x fields hx => ⟨fields, hinner b hmem _ hx⟩⟩
  · obtain ⟨hproper, hreads⟩ :=
      hlooks.parts fun part hpart => hp.parts part (hinner a ha part hpart)
    refine ⟨hproper, fun x fields hx => ?_⟩
    obtain ⟨fields', hx'⟩ := hreads x fields hx
    exact ⟨fields', hinner a ha _ hx'⟩

end Operands

/-! ## Pipelines at a point -/

section Pipelines

variable {env : Env σ} {dest : Shape} {point : Point σ} {isFunction : String → Bool}
  {scope : List String} {stale : String → Prop} {p : Pipeline} {b : Operand} {known : Known}
  {v : Value}

/-- A pipeline at a point: the check has accepted its commands, it was read, and it can be
trusted. -/
structure Point.At (dest : Shape) (isFunction : String → Bool) (scope : List String)
    (stale : String → Prop) (point : Point σ) (p : Pipeline) : Prop where
  proper : ∃ context, p.Proper ⟨isFunction, scope⟩ context
  trusted : p.Trusted stale point.types
  checked : ∃ known types',
    (checkCommands dest point.known false .anything p.commands).run point.types = .ok (known, types')

/-- The pipeline of the node that is next is at the point. -/
theorem Point.Right.at (h : point.Right env dest isFunction scope stale) {node : Node}
    {rest : List Node} (hnodes : point.nodes = node :: rest) (hheader : node.header? = some p) :
    point.At dest isFunction scope stale p := by
  obtain ⟨hproper, ⟨last, hchecked⟩, htrusted, -, -⟩ := h
  rw [hnodes] at hproper hchecked htrusted
  obtain ⟨between, hnode, -⟩ := run_checkNodes_cons hchecked
  have hproper := hproper.1
  have htrusted := htrusted.1
  match node with
  | .text s => cases hheader
  | .action line pipe =>
    cases hheader
    rw [checkNode] at hnode
    obtain ⟨known, types', hpipe, -⟩ := Check.run_bind_eq_ok.mp hnode
    exact ⟨⟨_, hproper⟩, htrusted, known, _, (Pipeline.Proper.run_checkPipeline hproper hpipe).1⟩
  | .block kind line pipe body otherwise =>
    cases hheader
    obtain ⟨hpipe, -, -⟩ := hproper
    obtain ⟨inner, inside, -, -, hheader, -, -⟩ := run_checkNode_block hnode
    by_cases hrange : kind = .range
    · subst hrange
      obtain ⟨known, hcommands, -, -⟩ := hpipe.run_checkHeader_range hheader
      exact ⟨⟨_, hpipe⟩, htrusted.1, known, _, hcommands⟩
    · obtain ⟨known, hcommands, -, -⟩ := hpipe.run_checkHeader hrange hheader
      exact ⟨⟨_, hpipe⟩, htrusted.1, known, _, hcommands⟩

/-- **Every value that a pipeline evaluates is what the check knows about it.** -/
theorem Point.Right.describes (h : point.Right env dest isFunction scope stale)
    (hworld : env.world.YieldsDest) (hat : point.At dest isFunction scope stale p)
    (hb : p.Evaluates b) (hknows : point.Knows dest b known) (hgives : point.Gives env b v) :
    known.Describes dest v := by
  obtain ⟨context, hproper⟩ := hat.proper
  obtain ⟨hparts, hreads⟩ := hproper.evaluates hb
  obtain ⟨types', hknown⟩ := hknows
  obtain ⟨frame, frame', hframe, heval⟩ := hgives
  have hspec := evalOperand_describes hworld h.dot hparts
    (fun x fields hx => hat.trusted.reads h.fits x (hreads x fields hx)) hknown
  exact (hspec.of_ok heval hframe).1

/-- A record on which a field is looked up is NULL, or has the field. -/
theorem Point.Right.looks (h : point.Right env dest isFunction scope stale)
    (hworld : env.world.YieldsDest) (hat : point.At dest isFunction scope stale p) {a : Operand}
    (ha : a ∈ p.parts) {name : String} {s : Shape} (hlooks : a.Looks b name)
    (hknows : point.Knows dest b (.shape s)) (hrecord : s.peel.isRecord = true)
    (hgives : point.Gives env b v) :
    v = .nil ∨ ∃ entries w, v = .map entries ∧ findEntry name entries = some w := by
  have hdescribes := h.describes hworld hat (.inr ⟨a, ha, name, hlooks⟩) hknows hgives
  obtain ⟨context, hproper⟩ := hat.proper
  obtain ⟨known, types', hchecked⟩ := hat.checked
  obtain ⟨-, haccepted⟩ := hproper.checkCommands hchecked
  have hparts : ∀ part ∈ a.parts, part.Proper ⟨isFunction, scope⟩ := fun part hpart =>
    hproper.parts part (mem_commandsParts_trans ha hpart)
  -- The check computes one thing for an operand, which it knows to be a record here.
  obtain ⟨k, next, hb, hfield⟩ := hlooks.accepted hparts (haccepted a ha)
  obtain ⟨types'', hb'⟩ := hknows
  rw [hb] at hb'
  cases hb'
  -- The check has found the field, for a record has no others.
  rcases Known.field_shape hfield with ⟨f, hfound, -⟩ | ⟨hdynamic, -⟩
  · rcases Shape.Describes.field hdescribes hfound with hnil | ⟨entries, w, hv, hw, -⟩
    · exact .inl hnil
    · exact .inr ⟨entries, w, hv, hw⟩
  · cases hpeel : s.peel with
    | record type fields =>
        rw [hpeel, Shape.lookup] at hdynamic
        split at hdynamic <;> cases hdynamic
    | _ =>
        rw [hpeel] at hrecord
        cases hrecord

/-- What is known about a place says where it is. -/
theorem Known.Describes.place {o : Option Shape} (h : (Known.place o).Describes dest v) :
    ∃ path, v = .dest path ∧ ∀ s ∈ o, dest.Resolves path.segments s := by
  match o with
  | none =>
    obtain ⟨path, hv⟩ := h
    exact ⟨path, hv, by simp⟩
  | some s =>
    obtain ⟨path, hv, hresolves⟩ := h
    exact ⟨path, hv, by simpa using hresolves⟩

/-- The commands of a pipeline at a point are accepted at any depth, and their operands
evaluated. -/
theorem Point.At.command (hat : point.At dest isFunction scope stale p) {command : Command}
    (h : p.HasCommand command) :
    (∃ piped known types', (checkCommand dest point.known piped command).run point.types
      = .ok (known, types')) ∧ ∀ b ∈ command, p.Evaluates b := by
  obtain ⟨context, hproper⟩ := hat.proper
  obtain ⟨known, types', hchecked⟩ := hat.checked
  rcases h with hmem | ⟨declared, assigns, commands, hpipe, hmem⟩
  · obtain ⟨piped, k, hrun⟩ := checkCommands_each hproper.commands.2 hproper.parts hchecked hmem
    refine ⟨⟨piped, k, _, hrun⟩, fun b hb => .inl (mem_commandsParts.mpr ⟨command, hmem, ?_⟩)⟩
    exact mem_operandsParts.mpr ⟨b, hb, b.mem_parts_self⟩
  · obtain ⟨-, haccepted⟩ := hproper.checkCommands hchecked
    obtain ⟨k, hrun⟩ := haccepted _ hpipe
    obtain ⟨rfl, -, hcommands⟩ := hproper.parts _ hpipe
    have hinner : ∀ part ∈ commandsParts commands, part ∈ p.parts := fun part hpart =>
      mem_commandsParts_trans hpipe (List.mem_cons_of_mem _ hpart)
    rw [checkOperand] at hrun
    obtain ⟨k', between, hrun, -⟩ := Check.run_bind_eq_ok.mp hrun
    obtain ⟨piped, k'', hrun⟩ := checkCommands_each hcommands.2
      (fun part hpart => hproper.parts part (hinner part hpart)) hrun hmem
    refine ⟨⟨piped, k'', _, hrun⟩, fun b hb => .inl (hinner b ?_)⟩
    exact mem_commandsParts.mpr ⟨command, hmem, mem_operandsParts.mpr ⟨b, hb, b.mem_parts_self⟩⟩

/-- **Where the check is right about the dot and the variables, it is right about the pipeline.** -/
theorem Point.Right.sound (h : point.Right env dest isFunction scope stale)
    (hworld : env.world.YieldsDest) (hat : point.At dest isFunction scope stale p) :
    point.Sound env dest p where
  looks _ ha _ _ _ _ hlooks hknows hrecord hgives :=
    h.looks hworld hat ha hlooks hknows hrecord hgives
  fails a ha b name s v hlooks hknows hrecord hgives frame frame' fault hfault := by
    rcases h.looks hworld hat ha hlooks hknows hrecord hgives with rfl | ⟨entries, w, rfl, hw⟩
    · rw [Exec.fields, on_stop] at hfault
      exact (Except.error.inj (Prod.mk.inj hfault).1).symm
    · rw [Exec.fields, hw, Exec.fields] at hfault
      cases hfault
  places _ _ _ hb hknows hgives := (h.describes hworld hat hb hknows hgives).place
  scans f b args known v hcommand hscan hknows hknown hgives := by
    obtain ⟨⟨piped, k, types', hrun⟩, hb⟩ := hat.command hcommand
    -- Of what the check knows, only places are accepted as destinations.
    obtain ⟨k', types'', hb', hplace⟩ := checkCommand_scan hscan hrun
    have hdescribes := h.describes hworld hat (hb b (by simp)) hknows hgives
    obtain ⟨types₁, hknows⟩ := hknows
    rw [hknows] at hb'
    cases hb'
    cases known with
    | place o =>
        obtain ⟨path, hv, -⟩ := Known.Describes.place hdescribes
        exact ⟨path, hv⟩
    | anything => exact absurd rfl hknown
    | shape s => cases hplace
    | literal => cases hplace

end Pipelines

/-! ## Worlds of statements -/

theorem Functions.answer_dest (functions : Functions) {args : List Value} {v : Value}
    (h : functions.answer destName args = .ok v) : v = .dest .root := by
  rw [answer, if_pos rfl] at h
  split at h
  · cases h
    rfl
  · cases h

/-- The functions of a statement cannot replace the one that stands for the destination. -/
theorem Rendering.world_yieldsDest (recipe : Recipe) : (world recipe).YieldsDest := by
  intro args r v h
  have hname : destName ≠ markerName := by decide
  have hcall : (call recipe destName args r).1 = .ok v := h
  rw [call_function recipe hname] at hcall
  exact recipe.functions.answer_dest hcall

theorem recorder_yieldsDest (functions : Functions) : (recorder functions).YieldsDest :=
  fun _ _ _ h => functions.answer_dest h

/-! ## Templates -/

/-- **The check is sound for templates that can be trusted.** Let the execution start with the value
of a typed value of the type of the parameters, and let the variables of the start be globals. Then
at every point to which it comes, the check is right in what it claims about the pipeline of the
node that is next. -/
theorem Template.check_sound {name source : String} {isFunction : String → Bool}
    {globals : List String} {t : Template} {params dest : Shape}
    (hparse : parse name source isFunction globals = .ok t)
    (hcheck : t.check params dest globals = .ok ()) (htrusted : t.Trusted params dest globals)
    (hplain : params.Plain) {d : Datum} (hd : params.Holds d) {data : Value}
    (hdata : d.toValue = .ok data) {world : World σ} (hworld : world.YieldsDest)
    (policy : MissingKey) {seeds : List (String × Value)}
    (hseeds : ∀ x, x ∈ seeds.map (·.1) → x ∈ globals) (start : σ) {point : Point σ}
    (hreaches : Point.Reaches ⟨world, policy, data⟩ dest
      (Point.start t params globals data seeds start) point)
    {node : Node} {rest : List Node} (hnodes : point.nodes = node :: rest) {p : Pipeline}
    (hheader : node.header? = some p) : point.Sound ⟨world, policy, data⟩ dest p := by
  let env : Env σ := ⟨world, policy, data⟩
  have hroot : params.Describes env.root := ⟨hplain, d, hd, hdata⟩
  have hstart := Point.right_start hparse hcheck htrusted hroot hseeds start
  obtain ⟨scope, stale, hright⟩ := hstart.reaches hworld hreaches
  exact hright.sound hworld (hright.at hnodes hheader)

/-- If the execution of a template that can be trusted fails, then it comes to a point at which the
next node fails on its own, and there the check is right in what it claims about the pipeline of the
node. -/
theorem Template.execute_error_sound {name source : String} {isFunction : String → Bool}
    {globals : List String} {t : Template} {params dest : Shape}
    (hparse : parse name source isFunction globals = .ok t)
    (hcheck : t.check params dest globals = .ok ()) (htrusted : t.Trusted params dest globals)
    (hplain : params.Plain) {d : Datum} (hd : params.Holds d) {data : Value}
    (hdata : d.toValue = .ok data) {world : World σ} (hworld : world.YieldsDest)
    {policy : MissingKey} {seeds : List (String × Value)}
    (hseeds : ∀ x, x ∈ seeds.map (·.1) → x ∈ globals) {start : σ} {e : EvalError}
    (hfail : (t.execute world policy data seeds start).1 = .error e) :
    ∃ point, Point.Reaches ⟨world, policy, data⟩ dest
        (Point.start t params globals data seeds start) point ∧
      point.Fails ⟨world, policy, data⟩ e.fault ∧
      ∀ node rest p, point.nodes = node :: rest → node.header? = some p →
        point.Sound ⟨world, policy, data⟩ dest p := by
  let env : Env σ := ⟨world, policy, data⟩
  have hroot : params.Describes env.root := ⟨hplain, d, hd, hdata⟩
  have hstart := Point.right_start hparse hcheck htrusted hroot hseeds start
  obtain ⟨types', hchecked⟩ := hstart.checked
  rw [Template.execute_eq] at hfail
  rcases hwalk : (walkNodes env data t.root).on (Frame.start seeds start) with ⟨result, frame⟩
  rw [hwalk] at hfail
  cases result with
  | ok _ => cases hfail
  | error fault =>
      cases hfail
      obtain ⟨point, hreaches, hfails⟩ := walkNodes_fails hchecked hwalk
      obtain ⟨scope, stale, hright⟩ := hstart.reaches hworld hreaches
      exact ⟨point, hreaches, hfails, fun node rest p hnodes hheader =>
        hright.sound hworld (hright.at hnodes hheader)⟩

/-! ## A type and a value of it -/

/-- A record with one field. -/
def authorShape : Shape := .record "Author" [(.plain "name", .text)]

/-- A record with a record and a list. -/
def filterShape : Shape :=
  .record "Filter" [(.plain "lead", authorShape), (.plain "tags", .list .text)]

/-- A typed value of it. -/
def filterDatum : Datum :=
  .record "Filter" [("lead", .record "Author" [("name", .text "bo")]),
    ("tags", .list [.text "a", .text "b"])]

/-- Its dynamic value. -/
def filterValue : Value :=
  .map [("lead", .map [("name", .text "bo")]), ("tags", .list [.text "a", .text "b"])]

theorem filterShape_plain : filterShape.Plain := by
  simp only [filterShape, authorShape, Shape.Plain, FieldsPlain, FieldInfo.plain]
  decide

theorem filterShape_holds : filterShape.Holds filterDatum := by
  simp [filterShape, authorShape, filterDatum, Shape.Holds, FieldsHold, FieldInfo.plain]

/-- A template that keeps the record in a variable and goes through the list. -/
def leadTemplate (body : List Node) : Template :=
  ⟨"t", [.action 1 ⟨["$x"], false, [[.field ["lead"]]]⟩,
    .block .range 1 ⟨[], false, [[.field ["tags"]]]⟩ body none]⟩

/-- What the check knows about the variables in the body. -/
def leadTypes : KnownVariables := [("$x", .shape authorShape), ("$", .shape filterShape)]

/-- The execution of the template comes to its body for every item. -/
theorem leadTemplate_reaches (body : List Node) (done : List (Value × Value)) (frame : Frame Unit)
    {key item : Value} {left : List (Value × Value)}
    (hitems : [(.int 0, .text "a"), (.int 1, .text "b")] = done ++ (key, item) :: left)
    (hdone : (forEach (rangeRound ⟨World.silent, .invalid, filterValue⟩ 1
      ⟨[], false, [[.field ["tags"]]]⟩ body) done).on ⟨[("$x", .map [("name", .text "bo")])], 1, ()⟩
        = (.ok (), frame)) :
    Point.Reaches ⟨World.silent, .invalid, filterValue⟩ authorShape
      (Point.start (leadTemplate body) filterShape [] filterValue [] ())
      ⟨.shape .text, leadTypes, item, { frame with vars := keep 1 frame.vars }, body⟩ := by
  let env : Env Unit := ⟨World.silent, .invalid, filterValue⟩
  let first : Node := .action 1 ⟨["$x"], false, [[.field ["lead"]]]⟩
  let range : Pipeline := ⟨[], false, [[.field ["tags"]]]⟩
  let bound : Frame Unit := ⟨[("$x", .map [("name", .text "bo")])], 1, ()⟩
  have hcheck : (checkNode authorShape (.shape filterShape) first).run (.start filterShape [])
      = .ok ((), leadTypes) := rfl
  have hwalk : (walkNode env filterValue first).on (Frame.start [] ()) = (.ok (), bound) := rfl
  have hheader : (checkHeader authorShape (.shape filterShape) .range range).run leadTypes
      = .ok (.shape .text, leadTypes) := rfl
  have heval : (evalCommands env filterValue none range.commands).on { bound with line := 1 }
      = (.ok (.list [.text "a", .text "b"]), bound) := rfl
  have hrange : rangeItems? (.list [.text "a", .text "b"]) = some (done ++ (key, item) :: left) :=
    congrArg some hitems
  exact .tail (.single (.next hcheck hwalk)) (.round hheader heval hrange hdone rfl)

/-- A variable that holds a record is looked up in the body of a range. -/
theorem Template.check_sound_range :
    let pipe : Pipeline := ⟨[], false, [[.variable "$x" ["name"]]]⟩
    let t := leadTemplate [.action 1 pipe]
    let source := braced "$x := .lead" ++ braced "range .tags" ++ braced "$x.name" ++ braced "end"
    let env : Env Unit := ⟨World.silent, .invalid, filterValue⟩
    parse "t" source (fun _ => false) [] = .ok t ∧
      t.check filterShape authorShape [] = .ok () ∧
      ∃ point, Point.Reaches env authorShape (Point.start t filterShape [] filterValue [] ()) point ∧
        point.Knows authorShape (.variable "$x" []) (.shape authorShape) ∧
        point.Sound env authorShape pipe := by
  intro pipe t source env
  have hparse : parse "t" source (fun _ => false) [] = .ok t := by
    cbv
  have hcheck : t.check filterShape authorShape [] = .ok () := by
    cbv
  have htrusted : t.Trusted filterShape authorShape [] := by
    simp [t, leadTemplate, pipe, Template.Trusted, NodesTrusted, Node.Trusted, OptionTrusted,
      Pipeline.Trusted, staleInside, Node.staleBehind, NodesUse, Node.Uses, Pipeline.Assigns,
      Node.leaks]
  have hreaches := leadTemplate_reaches [.action 1 pipe] [] _ rfl rfl
  have hworld : World.silent.YieldsDest := by
    intro args w v h
    cases h
  exact ⟨hparse, hcheck, _, hreaches, ⟨leadTypes, rfl⟩,
    check_sound hparse hcheck htrusted filterShape_plain filterShape_holds rfl hworld .invalid
      (by simp) () hreaches rfl rfl⟩

/-- The alternative of a range may leave a variable behind: what follows looks a field up on it, where
the check knows the type of the variable from before the range. -/
theorem Template.check_unsound_otherwise :
    let pipe : Pipeline := ⟨[], false, [[.variable "$x" ["name"]]]⟩
    let declare (a : Operand) : Node := .action 1 ⟨["$x"], false, [[a]]⟩
    let t : Template := ⟨"t", [declare (.field ["lead"]),
      .block .range 1 ⟨[], false, [[.int 0]]⟩ [] (some [declare (.int 1)]), .action 1 pipe]⟩
    let source := braced "$x := .lead" ++ braced "range 0" ++ braced "else" ++ braced "$x := 1" ++
      braced "end" ++ braced "$x.name"
    let env : Env Unit := ⟨World.silent, .invalid, filterValue⟩
    parse "t" source (fun _ => false) [] = .ok t ∧
      t.check filterShape authorShape [] = .ok () ∧
      filterShape.Plain ∧ filterShape.Holds filterDatum ∧ filterDatum.toValue = .ok filterValue ∧
      (t.execute World.silent .invalid filterValue [] ()).1
        = .error ⟨"t", .at 1 (.fieldOf "name" "int")⟩ ∧
      ∃ point rest, Point.Reaches env authorShape (Point.start t filterShape [] filterValue [] ())
          point ∧ point.nodes = .action 1 pipe :: rest ∧ ¬ point.Sound env authorShape pipe := by
  intro pipe declare t source env
  have hparse : parse "t" source (fun _ => false) [] = .ok t := by
    cbv
  have hcheck : t.check filterShape authorShape [] = .ok () := by
    cbv
  let range : Node := .block .range 1 ⟨[], false, [[.int 0]]⟩ [] (some [declare (.int 1)])
  let lead : Value := .map [("name", .text "bo")]
  let before : Frame Unit := ⟨[("$x", lead)], 1, ()⟩
  let behind : Frame Unit := ⟨[("$x", .int 1), ("$x", lead)], 1, ()⟩
  have hlead : (checkNode authorShape (.shape filterShape) (declare (.field ["lead"]))).run
      (.start filterShape []) = .ok ((), leadTypes) := rfl
  have hrange : (checkNode authorShape (.shape filterShape) range).run leadTypes
      = .ok ((), leadTypes) := rfl
  have hwalkLead : (walkNode env filterValue (declare (.field ["lead"]))).on (Frame.start [] ())
      = (.ok (), before) := rfl
  have hwalkRange : (walkNode env filterValue range).on before = (.ok (), behind) := rfl
  let point : Point Unit := ⟨.shape filterShape, leadTypes, filterValue, behind, [.action 1 pipe]⟩
  have hreaches :
      Point.Reaches env authorShape (Point.start t filterShape [] filterValue [] ()) point :=
    .tail (.single (.next hlead hwalkLead)) (.next hrange hwalkRange)
  refine ⟨hparse, hcheck, filterShape_plain, filterShape_holds, rfl, rfl, point, [], hreaches, rfl,
    ?_⟩
  intro hsound
  have hmem : .variable "$x" ["name"] ∈ pipe.parts := List.mem_singleton_self _
  rcases hsound.looks _ hmem _ "name" authorShape (.int 1) (.variable "$x" [] "name" [])
    ⟨leadTypes, rfl⟩ rfl ⟨behind, behind, rfl, rfl⟩ with hnil | ⟨entries, w, hmap, -⟩
  · cases hnil
  · cases hmap

/-- A round of a range may assign a variable of which the check knows the type that it had before
the range: the next round looks a field up on what is no record. -/
theorem Template.check_unsound_round :
    let pipe : Pipeline := ⟨[], false, [[.variable "$x" ["name"]]]⟩
    let t := leadTemplate [.action 1 pipe, .action 1 ⟨["$x"], true, [[.dot]]⟩]
    let source := braced "$x := .lead" ++ braced "range .tags" ++ braced "$x.name" ++
      braced "$x = ." ++ braced "end"
    let env : Env Unit := ⟨World.silent, .invalid, filterValue⟩
    parse "t" source (fun _ => false) [] = .ok t ∧
      t.check filterShape authorShape [] = .ok () ∧
      filterShape.Plain ∧ filterShape.Holds filterDatum ∧ filterDatum.toValue = .ok filterValue ∧
      (t.execute World.silent .invalid filterValue [] ()).1
        = .error ⟨"t", .at 1 (.fieldOf "name" "string")⟩ ∧
      ∃ point rest, Point.Reaches env authorShape (Point.start t filterShape [] filterValue [] ())
          point ∧ point.nodes = .action 1 pipe :: rest ∧ ¬ point.Sound env authorShape pipe := by
  intro pipe t source env
  have hparse : parse "t" source (fun _ => false) [] = .ok t := by
    cbv
  have hcheck : t.check filterShape authorShape [] = .ok () := by
    cbv
  let body : List Node := [.action 1 pipe, .action 1 ⟨["$x"], true, [[.dot]]⟩]
  have hreaches := leadTemplate_reaches body [(.int 0, .text "a")] ⟨[("$x", .text "a")], 1, ()⟩
    rfl rfl
  refine ⟨hparse, hcheck, filterShape_plain, filterShape_holds, rfl, rfl, _, _, hreaches, rfl, ?_⟩
  intro hsound
  have hmem : .variable "$x" ["name"] ∈ pipe.parts := List.mem_singleton_self _
  rcases hsound.looks _ hmem _ "name" authorShape (.text "a") (.variable "$x" [] "name" [])
    ⟨leadTypes, rfl⟩ rfl ⟨⟨[("$x", .text "a")], 1, ()⟩, _, rfl, rfl⟩ with
    hnil | ⟨entries, w, hmap, -⟩
  · cases hnil
  · cases hmap

end SqlTemplate
