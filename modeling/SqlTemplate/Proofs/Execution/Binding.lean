import Mathlib
import SqlTemplate.Proofs.Basic
import SqlTemplate.Proofs.Execution.Invariant
import SqlTemplate.Proofs.Template.Scope

/-!
# Bound variables

The variables are followed through an execution. Whatever branches are taken and however often a
range is gone through, the variables behind a list of nodes are those before it with others in
front, among them all that the list has declared; and of those before it, only those that the list
assigns have other values. So a variable can be undefined only if the nodes need it and it was not
bound before them.
-/

set_option autoImplicit false

namespace SqlTemplate

open Exec Variables

variable {σ : Type}

/-! ## States -/

/-- A state with the given variables. -/
def Frame.Has (vars : Variables) (frame : Frame σ) : Prop := frame.vars = vars

/-- A state in which the names in `A` may have been assigned. -/
def Frame.Reassigned (A : String → Prop) (vars : Variables) (frame : Frame σ) : Prop :=
  Kept A vars frame.vars

/-- A state in which the names in `A` may have been assigned, and other variables put in front. -/
def Frame.Inside (A : String → Prop) (vars : Variables) (frame : Frame σ) : Prop :=
  ∃ extra outer, frame.vars = extra ++ outer ∧ Kept A vars outer

/-- A state behind nodes: the names in `A` may have been assigned, and in front are the variables
that the nodes declared and none but these and the ones that their blocks left behind. -/
def Frame.Behind (A : String → Prop) (declared leaked : List String) (vars : Variables)
    (frame : Frame σ) : Prop :=
  ∃ extra outer, frame.vars = extra ++ outer ∧ Kept A vars outer ∧
    (∀ y ∈ declared, y ∈ names extra) ∧ ∀ y ∈ names extra, y ∈ declared ∨ y ∈ leaked

/-- If a failure says that `x` is undefined, then `x` was needed and is not among the variables. -/
def Missing (x : String) (needed : Prop) (vars : Variables) (fault : EvalFault)
    (_ : Frame σ) : Prop :=
  ∀ line, fault = .at line (.undefinedVariable x) → needed ∧ x ∉ vars.names

section States

variable {A B : String → Prop} {vars outer extra : Variables} {declared leaked : List String}
  {frame : Frame σ}

theorem Frame.Has.reassigned (h : frame.Has vars) : frame.Reassigned A vars := by
  show Kept A vars frame.vars
  rw [h]
  exact Kept.imp (fun _ => False.elim) (Kept.refl vars)

theorem Frame.Reassigned.inside (h : frame.Reassigned A vars) : frame.Inside A vars :=
  ⟨[], frame.vars, rfl, h⟩

theorem Frame.Reassigned.behind (h : frame.Reassigned A vars) : frame.Behind A [] leaked vars :=
  ⟨[], frame.vars, rfl, h, by simp, by simp [Variables.names]⟩

theorem Frame.Behind.inside (h : frame.Behind A declared leaked vars) : frame.Inside A vars := by
  obtain ⟨extra, outer, hvars, hkept, -, -⟩ := h
  exact ⟨extra, outer, hvars, hkept⟩

/-- What was put in front of variables that had others in front already is in front of the outer
ones, too. -/
theorem Frame.Inside.trans (hkept : Kept A vars outer) (h : frame.Inside B (extra ++ outer))
    (hB : ∀ x, x ∉ extra.names → B x → A x) : frame.Inside A vars := by
  obtain ⟨more, inner, hvars, hinner⟩ := h
  obtain ⟨extra', outer', rfl, -, houter⟩ := Follows.append hinner
  refine ⟨more ++ extra', outer', by simp [hvars], hkept.trans (Kept.imp ?_ houter)⟩
  exact fun x hx => hB x hx.2 hx.1

theorem Missing.of_not {x : String} {needed : Prop} {fault : EvalFault}
    (h : ¬ fault.IsUndefined) : Missing x needed vars fault frame := by
  rintro line rfl
  exact absurd trivial h

theorem Missing.mono {x : String} {needed needed' : Prop} {vars' : Variables} {fault : EvalFault}
    (h : Missing x needed vars fault frame)
    (himp : needed → x ∉ vars.names → needed' ∧ x ∉ vars'.names) :
    Missing x needed' vars' fault frame := by
  intro line hfault
  obtain ⟨hneeded, hnames⟩ := h line hfault
  exact himp hneeded hnames

end States

/-! ## Pipelines -/

section Pipelines

variable {context : PipelineContext} {scope : Names} {p : Pipeline}

/-- Operands keep the variables, and only those that they read can be missing. -/
theorem Pipeline.Proper.keeps (h : p.Proper scope context) (env : Env σ) (x : String)
    (vars : Variables) :
    Keeps env (Frame.Has vars) (fun _ => True) (Missing x (p.Needs x) vars) (· ∈ p.parts) where
  closed := ValueClosed.all
  fails _ _ _ hfault := Missing.of_not hfault
  read y fields hy := by
    intro frame hvars
    rw [on_valueOf]
    cases hlookup : frame.vars.lookup y with
    | some v => exact ⟨trivial, hvars⟩
    | none =>
        by_cases hdollar : y = "$"
        · simpa [hdollar] using hvars
        · simp only [if_neg hdollar]
          intro line hfault
          cases hfault
          exact ⟨.inl ⟨⟨fields, hy⟩, hdollar⟩, hvars ▸ Variables.lookup_eq_none.mp hlookup⟩
  call f args _ _ _ := by
    intro frame hvars
    rw [on_callWorld]
    generalize env.world.call f args frame.world = outcome
    obtain ⟨answer, world⟩ := outcome
    cases answer with
    | ok v => exact ⟨trivial, hvars⟩
    | error cause => exact Missing.of_not id
  bind declared _ _ v hp _ := by
    obtain ⟨rfl, -, -⟩ := h.parts _ hp
    exact Spec.pure fun _ hvars => hvars

theorem Pipeline.Proper.evalCommands_vars (h : p.Proper scope context) (env : Env σ) (dot : Value)
    (x : String) (vars : Variables) :
    Spec (Frame.Has vars) (evalCommands env dot none p.commands)
      (fun _ => Frame.Has vars) (Missing x (p.Needs x) vars) :=
  (evalCommands_keeps (h.keeps env x vars) trivial none (by simp) p.commands
    fun _ hpart => hpart).imp_result fun _ _ h => h.2

end Pipelines

/-! ## Binding -/

section Binding

variable {x : String} {A B : String → Prop} {declared others : List String}
  {needed needed' : Prop} {m n : Exec σ Unit}

/-- A state in which the names in `A` may have been assigned, and exactly the declared variables are
in front, the innermost first. -/
def Frame.Bound (A : String → Prop) (declared : List String) (vars : Variables)
    (frame : Frame σ) : Prop :=
  ∃ extra outer, frame.vars = extra ++ outer ∧ Kept A vars outer ∧ names extra = declared.reverse

/-- Whether a step binds: it declares variables, and may assign the names in `A`. -/
def Binds (x : String) (A : String → Prop) (declared : List String) (needed : Prop)
    (m : Exec σ Unit) : Prop :=
  ∀ vars, Spec (Frame.Has vars) m (fun _ => Frame.Bound A declared vars) (Missing x needed vars)

theorem Binds.mono (h : Binds x A declared needed m) (hA : ∀ y, A y → B y)
    (hneeded : needed → needed') : Binds x B declared needed' m := by
  refine fun vars => (h vars).mono (fun _ h => h) ?_ ?_
  · rintro _ frame ⟨extra, outer, hvars, hkept, hextra⟩
    exact ⟨extra, outer, hvars, hkept.imp hA, hextra⟩
  · exact fun _ _ h => h.mono fun hx hvars => ⟨hneeded hx, hvars⟩

theorem Binds.none : Binds (σ := σ) x A [] needed (pure ()) :=
  fun vars => Spec.pure fun _ hvars =>
    ⟨[], vars, hvars, Kept.imp (fun _ => False.elim) (Kept.refl vars), rfl⟩

/-- One step that binds behind another. -/
theorem Binds.andThen (hm : Binds x A declared needed m) (hn : Binds x B others needed' n) :
    Binds x (fun y => A y ∨ B y) (declared ++ others) (needed ∨ needed') (m >>= fun _ => n) := by
  intro vars
  have hfirst : Spec (Frame.Has vars) m (fun _ => Frame.Bound A declared vars)
      (Missing x (needed ∨ needed') vars) :=
    (hm vars).imp_fault fun _ _ h => h.mono fun hx hvars => ⟨.inl hx, hvars⟩
  refine Spec.bind hfirst fun _ => ?_
  refine Spec.of_exists fun extra => Spec.of_exists fun outer => ?_
  rintro frame ⟨hframe, hkept, hextra⟩
  have hnext : Spec (Frame.Has (extra ++ outer)) n
      (fun _ => Frame.Bound (fun y => A y ∨ B y) (declared ++ others) vars)
      (Missing x (needed ∨ needed') vars) := by
    refine (hn (extra ++ outer)).mono (fun _ h => h) ?_ ?_
    · rintro _ frame ⟨more, inner, hvars, hinner, hmore⟩
      obtain ⟨extra', outer', rfl, hextra', houter⟩ := Follows.append hinner
      refine ⟨more ++ extra', outer', by simp [hvars], ?_, ?_⟩
      · exact (hkept.imp fun _ => .inl).trans (Kept.imp (fun _ hx => .inr hx.1) houter)
      · rw [names_append, hmore, List.reverse_append, ← hextra]
        exact congrArg (others.reverse ++ ·) hextra'
    -- A variable from before is still there in the second step.
    · refine fun _ _ h => h.mono fun hx hvars => ⟨.inr hx, fun hmem => hvars ?_⟩
      rw [names_append, hkept.names]
      exact List.mem_append_right _ hmem
  exact hnext frame hframe

/-- Binding a variable puts it in front, or changes the innermost of its name. -/
theorem binds_bind (assigns : Bool) (name x : String) (value : Value) :
    Binds (σ := σ) x (fun y => assigns = true ∧ y = name) (if assigns then [] else [name])
      (assigns = true ∧ name = x) (Exec.bind assigns name value) := by
  rintro vars frame rfl
  cases assigns with
  | false =>
      rw [on_declare]
      exact ⟨[(name, value)], frame.vars, rfl, Kept.imp (fun _ => False.elim) (Kept.refl _), rfl⟩
  | true =>
      rw [on_assign]
      cases hassign : Variables.assign name value frame.vars with
      | some vars =>
          exact ⟨[], vars, rfl, Kept.imp (fun _ hx => ⟨rfl, hx⟩) (assign_kept hassign), rfl⟩
      | none =>
          intro line hfault
          cases hfault
          exact ⟨⟨rfl, rfl⟩, Variables.assign_eq_none.mp hassign⟩

theorem binds_bindAll (assigns : Bool) (x : String) (value : Value) (declared : List String) :
    Binds (σ := σ) x (fun y => assigns = true ∧ y ∈ declared) (if assigns then [] else declared)
      (assigns = true ∧ x ∈ declared) (Exec.bindAll assigns value declared) := by
  induction declared with
  | nil => cases assigns <;> exact Binds.none
  | cons name rest ih =>
      have h : Binds (σ := σ) x (fun y => assigns = true ∧ y ∈ name :: rest) _
          (assigns = true ∧ x ∈ name :: rest) _ :=
        ((binds_bind assigns name x value).andThen ih).mono
          (by rintro y (⟨ha, rfl⟩ | ⟨ha, hy⟩) <;> simp_all)
          (by rintro (⟨ha, rfl⟩ | ⟨ha, hx⟩) <;> simp_all)
      cases assigns <;> exact h

/-- A pipeline declares or assigns its variables. -/
theorem Pipeline.binds_bindAll (p : Pipeline) (x : String) (value : Value) :
    Binds (σ := σ) x p.Assigns p.declares (p.Needs x) (Exec.bindAll p.assigns value p.declared) :=
  (SqlTemplate.binds_bindAll p.assigns x value p.declared).mono (fun _ h => h) .inr

/-- A round of a range declares or assigns the variables of the header. -/
theorem Pipeline.Proper.binds_bindItem {scope : Names} {p : Pipeline}
    (h : p.Proper scope (.block .range)) (x : String) (key item : Value) :
    Binds (σ := σ) x p.Assigns p.declares (p.Needs x) (bindItem p key item) := by
  have hcount : p.declared.length ≤ 2 := h.bindings
  have hbind : ∀ name ∈ p.declared, ∀ value, Binds (σ := σ) x p.Assigns
      (if p.assigns then [] else [name]) (p.Needs x) (Exec.bind p.assigns name value) := by
    intro name hname value
    refine (binds_bind p.assigns name x value).mono ?_ ?_
    · rintro y ⟨ha, rfl⟩
      exact ⟨ha, hname⟩
    · rintro ⟨ha, rfl⟩
      exact .inr ⟨ha, hname⟩
  rw [bindItem, Pipeline.declares]
  rcases hd : p.declared with _ | ⟨index, _ | ⟨name, _ | ⟨third, rest⟩⟩⟩
  · cases p.assigns <;> exact Binds.none
  · exact hbind index (by simp [hd]) item
  · have htwo := ((hbind index (by simp [hd]) key).andThen (hbind name (by simp [hd]) item)).mono
      (fun _ hy => hy.elim id id) (fun hx => hx.elim id id)
    cases ha : p.assigns <;> simpa [ha] using htwo
  · rw [hd] at hcount
    simp at hcount

theorem Pipeline.Proper.evalPipeline_vars {scope : Names} {context : PipelineContext}
    {p : Pipeline} (h : p.Proper scope context) (env : Env σ) (dot : Value) (x : String)
    (vars : Variables) :
    Spec (Frame.Has vars) (evalPipeline env dot p)
      (fun _ => Frame.Bound p.Assigns p.declares vars) (Missing x (p.Needs x) vars) := by
  refine Spec.bind (h.evalCommands_vars env dot x vars) fun v => ?_
  exact Spec.bind (p.binds_bindAll x v vars) fun _ => Spec.pure fun _ h => h

end Binding

/-! ## Nodes -/

section Nodes

variable {x : String} {A B C : String → Prop} {declared : List String} {vars outer : Variables}
  {isFunction : String → Bool}

theorem Frame.Bound.behind {frame : Frame σ} (h : frame.Bound A declared vars) :
    frame.Behind A declared [] vars := by
  obtain ⟨extra, outer, hvars, hkept, hextra⟩ := h
  refine ⟨extra, outer, hvars, hkept, ?_, ?_⟩
  · exact fun y hy => hextra ▸ List.mem_reverse.mpr hy
  · exact fun y hy => .inl (List.mem_reverse.mp (hextra ▸ hy))

theorem setLine_vars (line : Nat) (vars : Variables) {E : EvalFault → Frame σ → Prop} :
    Spec (Frame.Has vars) (Exec.setLine line) (fun _ => Frame.Has vars) E :=
  fun _ hframe => hframe

theorem mark_vars (vars : Variables) (E : EvalFault → Frame σ → Prop) :
    Spec (Frame.Has vars) Exec.mark (fun mark frame => mark = vars.length ∧ frame.Has vars) E :=
  fun _ hframe => ⟨congrArg List.length hframe, hframe⟩

/-- Leaving a block drops what was put in front of the variables from before it. -/
theorem keepVariables_vars (A : String → Prop) (vars : Variables)
    (E : EvalFault → Frame σ → Prop) :
    Spec (Frame.Inside A vars) (Exec.keepVariables vars.length)
      (fun _ => Frame.Reassigned A vars) E := by
  rintro frame ⟨extra, outer, hvars, hkept⟩
  -- The mark was taken before the block, and assignments keep the number of variables.
  have hlength : vars.length = outer.length := by
    have := congrArg List.length hkept.names
    simpa [Variables.names] using this.symm
  rw [on_keepVariables, hvars, hlength, keep_append]
  exact hkept

/-- What is known for all variables holds for those that were reassigned. -/
theorem Spec.of_reassigned {α : Type} {m : Exec σ α} {Q : α → Frame σ → Prop}
    {E : EvalFault → Frame σ → Prop}
    (h : ∀ outer, Kept A vars outer → Spec (Frame.Has outer) m Q E) :
    Spec (Frame.Reassigned A vars) m Q E :=
  fun frame hkept => h frame.vars hkept frame rfl

/-- A list of nodes behind the header of a block. What it assigns is from outside the block, or
declared by the header. -/
theorem inside_bound {m : Exec σ Unit} {needed needed' : Prop} (hkept : Kept C vars outer)
    (hm : ∀ vars, Spec (Frame.Has vars) m (fun _ => Frame.Inside B vars) (Missing x needed vars))
    (hA : ∀ y, A y → C y) (hB : ∀ y, y ∉ declared → B y → C y)
    (hneeded : needed → x ∉ declared → needed') :
    Spec (Frame.Bound A declared outer) m (fun _ => Frame.Inside C vars)
      (Missing x needed' vars) := by
  refine Spec.of_exists fun extra => Spec.of_exists fun inner => ?_
  rintro frame ⟨hframe, hinner, hextra⟩
  have hbetween : Kept C vars inner := hkept.trans (hinner.imp hA)
  -- The header puts exactly its variables in front, so these and no others hide outer ones.
  have hmem : ∀ y, y ∈ names extra ↔ y ∈ declared := fun y => by rw [hextra, List.mem_reverse]
  have hnext : Spec (Frame.Has (extra ++ inner)) m (fun _ => Frame.Inside C vars)
      (Missing x needed' vars) := by
    refine (hm (extra ++ inner)).mono (fun _ h => h) ?_ ?_
    · exact fun _ _ h => h.trans hbetween fun y hy => hB y fun hd => hy ((hmem y).mpr hd)
    · refine fun _ _ h => h.mono fun hx hvars => ?_
      rw [names_append, List.mem_append, not_or, hmem, hbetween.names] at hvars
      exact ⟨hneeded hx hvars.1, hvars.2⟩
  exact hnext frame hframe

/-- What a round of a range uses from outside the range. -/
def RoundUses (use : Pipeline → String → Prop) (pipe : Pipeline) (body : List Node)
    (x : String) : Prop :=
  use pipe x ∨ (x ∉ pipe.declares ∧ NodesUse use x body)

/-- The loop invariant of a range: every round ends with others in front of the variables from
before the range, of which those have changed that a round assigns. -/
theorem Pipeline.Proper.rangeRound_vars {scope : Names} {pipe : Pipeline} {body : List Node}
    (hpipe : pipe.Proper scope (.block .range)) {env : Env σ}
    (hbody : ∀ dot vars, Spec (Frame.Has vars) (walkNodes env dot body)
      (fun _ => Frame.Inside (NodesUse Pipeline.Assigns · body) vars)
      (Missing x (NodesUse Pipeline.Needs x body) vars)) (key item : Value) :
    Spec (Frame.Inside (RoundUses Pipeline.Assigns pipe body) vars)
      (rangeRound env vars.length pipe body key item)
      (fun _ => Frame.Inside (RoundUses Pipeline.Assigns pipe body) vars)
      (Missing x (RoundUses Pipeline.Needs pipe body x) vars) := by
  refine Spec.bind (keepVariables_vars _ vars _) fun _ => ?_
  refine Spec.of_reassigned fun outer hkept => ?_
  refine Spec.bind ((hpipe.binds_bindItem x key item outer).imp_fault fun _ _ h =>
    h.mono fun hx hvars => ?_) fun _ => ?_
  · exact ⟨.inl hx, hkept.names ▸ hvars⟩
  · exact inside_bound hkept (hbody item) (fun y hy => .inl hy)
      (fun y hdeclares hy => .inr ⟨hdeclares, hy⟩) fun hx hdeclares => .inr ⟨hdeclares, hx⟩

/-- A range, whose alternative is executed where the header has not bound anything and is not left
behind it. -/
theorem Pipeline.Proper.walkRange_vars {scope : Names} {pipe : Pipeline} {body : List Node}
    {otherwise : Option (List Node)} (hpipe : pipe.Proper scope (.block .range)) {env : Env σ}
    {dot : Value} {line : Nat}
    (hbody : ∀ dot vars, Spec (Frame.Has vars) (walkNodes env dot body)
      (fun _ => Frame.Inside (NodesUse Pipeline.Assigns · body) vars)
      (Missing x (NodesUse Pipeline.Needs x body) vars))
    (hother : ∀ vars, Spec (Frame.Has vars) (walkOption env dot otherwise)
      (fun _ => Frame.Behind (OptionUses Pipeline.Assigns · otherwise) [] (optionLeaks otherwise)
        vars)
      (Missing x (OptionUses Pipeline.Needs x otherwise) vars)) (vars : Variables) :
    let block : Node := .block .range line pipe body otherwise
    Spec (Frame.Has vars) (walkNode env dot block)
      (fun _ => Frame.Behind (block.Uses Pipeline.Assigns) block.declares block.leaks vars)
      (Missing x (block.Uses Pipeline.Needs x) vars) := by
  intro block
  rw [walkNode]
  refine Spec.bind (setLine_vars line vars) fun _ => ?_
  refine Spec.bind_of (mark_vars vars _) fun mark hmark => ?_
  subst hmark
  refine Spec.bind ((hpipe.evalCommands_vars env dot x vars).imp_fault fun _ _ h =>
    h.mono fun hx hvars => ⟨.inl hx, hvars⟩) fun v => ?_
  cases rangeItems? v with
  | none => exact Spec.stop fun _ _ => Missing.of_not id
  | some items =>
      cases items with
      | nil =>
          -- The header has bound nothing here, and the block is not left.
          refine (hother vars).mono (fun _ h => h) ?_ ?_
          · rintro _ frame ⟨extra, outer, hframe, hkept, hdeclared, hleaked⟩
            exact ⟨extra, outer, hframe, hkept.imp fun y hy => .inr (.inr ⟨.inl rfl, hy⟩),
              hdeclared, hleaked⟩
          · exact fun _ _ h => h.mono fun hx hvars => ⟨.inr (.inr ⟨.inl rfl, hx⟩), hvars⟩
      | cons e rest =>
          have hround : ∀ key item, Spec
              (Frame.Inside (RoundUses Pipeline.Assigns pipe body) vars)
              (rangeRound env vars.length pipe body key item)
              (fun _ => Frame.Inside (RoundUses Pipeline.Assigns pipe body) vars)
              (Missing x (block.Uses Pipeline.Needs x) vars) := fun key item =>
            (hpipe.rangeRound_vars hbody key item).imp_fault fun _ _ h =>
              h.mono fun hx hvars => ⟨hx.imp_right .inl, hvars⟩
          have hassigned : ∀ y, RoundUses Pipeline.Assigns pipe body y →
              block.Uses Pipeline.Assigns y := fun y hy => hy.imp_right .inl
          -- A round starts where the one before has ended, in the invariant.
          have hloop : Spec (Frame.Inside (RoundUses Pipeline.Assigns pipe body) vars)
              (forEach (rangeRound env vars.length pipe body) (e :: rest)) _ _ :=
            Spec.forEach fun e _ => hround e.1 e.2
          refine Spec.bind (hloop.imp_start ?_) fun _ => ?_
          · exact fun _ hframe => Frame.Reassigned.inside (Frame.Has.reassigned hframe)
          · exact (keepVariables_vars _ vars _).imp_result fun _ _ h =>
              Frame.Reassigned.behind (Kept.imp hassigned h)

/-- A block other than a range: whichever of its lists is executed, it is left behind it. -/
theorem Pipeline.Proper.walkBlock_vars {scope : Names} {context : PipelineContext}
    {pipe : Pipeline} {body : List Node} {otherwise : Option (List Node)}
    (hpipe : pipe.Proper scope context) {env : Env σ} {dot : Value} {kind : BlockKind} {line : Nat}
    (hkind : kind ≠ .range)
    (hbody : ∀ dot vars, Spec (Frame.Has vars) (walkNodes env dot body)
      (fun _ => Frame.Inside (NodesUse Pipeline.Assigns · body) vars)
      (Missing x (NodesUse Pipeline.Needs x body) vars))
    (hother : ∀ vars, Spec (Frame.Has vars) (walkOption env dot otherwise)
      (fun _ => Frame.Behind (OptionUses Pipeline.Assigns · otherwise) [] (optionLeaks otherwise)
        vars)
      (Missing x (OptionUses Pipeline.Needs x otherwise) vars)) (vars : Variables) :
    let block : Node := .block kind line pipe body otherwise
    Spec (Frame.Has vars) (walkNode env dot block)
      (fun _ => Frame.Behind (block.Uses Pipeline.Assigns) block.declares block.leaks vars)
      (Missing x (block.Uses Pipeline.Needs x) vars) := by
  intro block
  have hassigns : ∀ y, pipe.Assigns y → block.Uses Pipeline.Assigns y := fun y hy => .inl hy
  have hsame : Kept (block.Uses Pipeline.Assigns) vars vars :=
    Kept.imp (fun _ => False.elim) (Kept.refl vars)
  have hleave : Spec (Frame.Inside (σ := σ) (block.Uses Pipeline.Assigns) vars)
      (Exec.keepVariables vars.length)
      (fun _ => Frame.Behind (block.Uses Pipeline.Assigns) [] block.leaks vars)
      (Missing x (block.Uses Pipeline.Needs x) vars) :=
    (keepVariables_vars _ vars _).imp_result fun _ _ h => h.behind
  rw [walkNode_block env dot hkind]
  refine Spec.bind (setLine_vars line vars) fun _ => ?_
  refine Spec.bind_of (mark_vars vars _) fun mark hmark => ?_
  subst hmark
  refine Spec.bind ((hpipe.evalPipeline_vars env dot x vars).imp_fault fun _ _ h =>
    h.mono fun hx hvars => ⟨.inl hx, hvars⟩) fun v => ?_
  refine Spec.ite (fun _ => ?_) fun _ => ?_
  · refine Spec.bind (inside_bound hsame (hbody _) hassigns ?_ ?_) fun _ => hleave
    · exact fun y hdeclares hy => .inr (.inl ⟨hdeclares, hy⟩)
    · exact fun hx hdeclares => .inr (.inl ⟨hdeclares, hx⟩)
  · refine Spec.bind (inside_bound hsame (fun vars => (hother vars).imp_result fun _ _ h =>
      h.inside) hassigns ?_ ?_) fun _ => hleave
    · exact fun y hdeclares hy => .inr (.inr ⟨.inr hdeclares, hy⟩)
    · exact fun hx hdeclares => .inr (.inr ⟨.inr hdeclares, hx⟩)

mutual

/-- Behind a node, the variables are those from before with others in front, and only variables
that the node needs can be missing. -/
theorem walkNode_vars (env : Env σ) (x : String) (dot : Value) (vars : Variables)
    {scope : List String} {node : Node} (h : node.Proper isFunction scope) :
    Spec (Frame.Has vars) (walkNode env dot node)
      (fun _ => Frame.Behind (node.Uses Pipeline.Assigns) node.declares node.leaks vars)
      (Missing x (node.Uses Pipeline.Needs x) vars) := by
  match node with
  | .text s =>
    intro frame hframe
    rw [walkNode, on_literal]
    cases env.world.literal s frame.world with
    | some w => exact Frame.Reassigned.behind (Frame.Has.reassigned hframe)
    | none => exact Missing.of_not id
  | .action line pipe =>
    have hpipe := Pipeline.Proper.evalPipeline_vars h env dot x vars
    refine Spec.bind (setLine_vars line vars) fun _ => Spec.bind hpipe fun v => ?_
    refine Spec.ite (fun _ => ?_) fun _ => Spec.pure fun _ hframe => Frame.Bound.behind hframe
    intro frame hframe
    rw [on_print]
    cases env.world.print v frame.world with
    | some w => exact Frame.Bound.behind hframe
    | none => exact Missing.of_not id
  | .block kind line pipe body otherwise =>
    obtain ⟨hpipe, hbody, hother⟩ := h
    have hnodes := fun dot vars =>
      (walkNodes_vars env x dot vars hbody).imp_result fun _ _ hframe => hframe.inside
    have hoption := fun vars => walkOption_vars env x dot vars hother
    by_cases hrange : kind = .range
    · subst hrange
      exact hpipe.walkRange_vars hnodes hoption vars
    · exact hpipe.walkBlock_vars hrange hnodes hoption vars

/-- **Behind nodes, the variables are those from before with others in front, and only variables
that the nodes need can be missing.** -/
theorem walkNodes_vars (env : Env σ) (x : String) (dot : Value) (vars : Variables)
    {scope : List String} {nodes : List Node} (h : ProperNodes isFunction scope nodes) :
    Spec (Frame.Has vars) (walkNodes env dot nodes)
      (fun _ => Frame.Behind (NodesUse Pipeline.Assigns · nodes) (nodesDeclares nodes)
        (nodesLeaks nodes) vars)
      (Missing x (NodesUse Pipeline.Needs x nodes) vars) := by
  match nodes with
  | [] => exact Spec.pure fun _ hframe => Frame.Reassigned.behind (Frame.Has.reassigned hframe)
  | node :: rest =>
    obtain ⟨hnode, hrest⟩ := h
    refine Spec.bind ((walkNode_vars env x dot vars hnode).imp_fault fun _ _ h =>
      h.mono fun hx hvars => ⟨.inl hx, hvars⟩) fun _ => ?_
    refine Spec.of_exists fun extra => Spec.of_exists fun outer => ?_
    rintro frame ⟨hframe, hkept, hdeclared, hextra⟩
    have hnext : Spec (Frame.Has (extra ++ outer)) (walkNodes env dot rest)
        (fun _ => Frame.Behind (NodesUse Pipeline.Assigns · (node :: rest))
          (nodesDeclares (node :: rest)) (nodesLeaks (node :: rest)) vars)
        (Missing x (NodesUse Pipeline.Needs x (node :: rest)) vars) := by
      refine (walkNodes_vars env x dot (extra ++ outer) hrest).mono (fun _ h => h) ?_ ?_
      · rintro _ frame ⟨more, inner, hvars, hinner, hdeclaredMore, hmore⟩
        obtain ⟨extra', outer', rfl, hextra', houter⟩ := Follows.append hinner
        -- The rest keeps the names of what the node has put in front.
        have hnames : ∀ y, y ∈ names (more ++ extra') ↔ y ∈ names more ∨ y ∈ names extra := by
          intro y
          rw [names_append, List.mem_append, names, names, names, hextra']
        refine ⟨more ++ extra', outer', by simp [hvars], ?_, ?_, ?_⟩
        · -- What the node has put in front keeps the assignments of the rest from the outer ones.
          refine (hkept.imp fun _ => .inl).trans (Kept.imp ?_ houter)
          exact fun y ⟨hy, hinside⟩ => .inr ⟨fun hd => hinside (hdeclared y hd), hy⟩
        · intro y hy
          rw [hnames]
          exact (List.mem_append.mp hy).elim (fun h => .inr (hdeclared y h))
            fun h => .inl (hdeclaredMore y h)
        · intro y hy
          rw [nodesDeclares, List.flatMap_cons, nodesLeaks, List.mem_append, List.mem_append]
          rcases (hnames y).mp hy with hy | hy
          · exact (hmore y hy).imp .inr .inr
          · exact (hextra y hy).imp .inl .inl
      · refine fun _ _ h => h.mono fun hx hvars => ?_
        rw [names_append, List.mem_append, not_or, hkept.names] at hvars
        exact ⟨.inr ⟨fun hd => hvars.1 (hdeclared x hd), hx⟩, hvars.2⟩
    exact hnext frame hframe

theorem walkOption_vars (env : Env σ) (x : String) (dot : Value) (vars : Variables)
    {scope : List String} {otherwise : Option (List Node)}
    (h : ProperOption isFunction scope otherwise) :
    Spec (Frame.Has vars) (walkOption env dot otherwise)
      (fun _ => Frame.Behind (OptionUses Pipeline.Assigns · otherwise) [] (optionLeaks otherwise)
        vars)
      (Missing x (OptionUses Pipeline.Needs x otherwise) vars) := by
  match otherwise with
  | none => exact Spec.pure fun _ hframe => Frame.Reassigned.behind (Frame.Has.reassigned hframe)
  | some nodes =>
    refine (walkNodes_vars env x dot vars h).imp_result ?_
    rintro _ frame ⟨extra, outer, hframe, hkept, -, hextra⟩
    exact ⟨extra, outer, hframe, hkept, by simp, fun y hy =>
      .inr (List.mem_append.mpr (hextra y hy))⟩

end

theorem walkNodes_inside (env : Env σ) (x : String) (dot : Value) (vars : Variables)
    {scope : List String} {nodes : List Node} (h : ProperNodes isFunction scope nodes) :
    Spec (Frame.Has vars) (walkNodes env dot nodes)
      (fun _ => Frame.Inside (NodesUse Pipeline.Assigns · nodes) vars)
      (Missing x (NodesUse Pipeline.Needs x nodes) vars) :=
  (walkNodes_vars env x dot vars h).imp_result fun _ _ hframe => hframe.inside

end Nodes

/-! ## Templates -/

/-- If the execution of proper nodes finds a variable undefined, then they need it and it was not
there from the start. -/
theorem Template.execute_missing {t : Template} {isFunction : String → Bool} {scope : List String}
    (h : ProperNodes isFunction scope t.root) {world : World σ} {policy : MissingKey}
    {data : Value} {seeds : List (String × Value)} {start : σ} {line : Nat} {x : String}
    (hfail : (t.execute world policy data seeds start).1
      = .error ⟨t.name, .at line (.undefinedVariable x)⟩) :
    NodesNeed x t.root ∧ x ∉ seeds.map (·.1) := by
  have hspec := walkNodes_vars ⟨world, policy, data⟩ x data (ofSeeds seeds) h
    (Frame.start seeds start) rfl
  rw [Template.execute_eq] at hfail
  rcases hr : (walkNodes ⟨world, policy, data⟩ data t.root).on (Frame.start seeds start)
    with ⟨result, frame⟩
  rw [hr] at hspec hfail
  cases result with
  | ok _ => cases hfail
  | error fault =>
      have hfault : fault = .at line (.undefinedVariable x) :=
        congrArg EvalError.fault (Except.error.inj hfail)
      obtain ⟨hneed, hnames⟩ := hspec line hfault
      refine ⟨hneed, fun hmem => hnames ?_⟩
      rwa [names, ofSeeds, List.map_reverse, List.mem_reverse]

/-- **Variables are bound.** Let the seeds of an execution be the globals with which the template
was read. Then no variable is found undefined, with two exceptions: the dollar sign, which can be
read always but not assigned unless it is a global, and a variable of the header of a range that
the alternative of the range needs. -/
theorem Template.parse_bound {name source : String} {isFunction : String → Bool}
    {globals : List String} {t : Template} (h : parse name source isFunction globals = .ok t)
    (world : World σ) (policy : MissingKey) (data : Value) (seeds : List (String × Value))
    (start : σ) (hseeds : ∀ y, y ∈ seeds.map (·.1) ↔ y ∈ globals) (x : String)
    (hdollar : x = "$" → "$" ∈ globals ∨ ¬ NodesNeed "$" t.root)
    (hheader : ¬ HeaderNeeded x t.root) (line : Nat) :
    (t.execute world policy data seeds start).1
      ≠ .error ⟨t.name, .at line (.undefinedVariable x)⟩ := by
  intro hfail
  have hproper := Template.parse_proper h
  obtain ⟨hneed, hseed⟩ := Template.execute_missing hproper hfail
  have hglobal : x ∉ globals := fun hx => hseed ((hseeds x).mpr hx)
  rcases properNodes_need hproper hneed with hscope | hrange
  · rcases List.mem_cons.mp hscope with rfl | hx
    · rcases hdollar rfl with hx | hassigned
      · exact hglobal hx
      · exact hassigned hneed
    · exact hglobal hx
  · exact hheader hrange

/-- A world without functions that forgets what it takes. -/
def World.silent : World Unit where
  call f _ w := (.error (.call (.undefined f)), w)
  literal _ w := some w
  print _ w := some w

/-- The header's variable is bound in the body of a range, whose alternative does not need it. -/
theorem Template.parse_bound_range :
    let t : Template := ⟨"t", [.block .range 1 ⟨["$x"], false, [[.dot]]⟩
      [.action 1 ⟨[], false, [[.variable "$x" []]]⟩] (some [.text "none"])]⟩
    let source := braced "range $x := ." ++ braced "$x" ++ braced "else" ++ "none" ++ braced "end"
    Template.parse "t" source (fun _ => false) [] = .ok t ∧
      ∀ line, (t.execute World.silent .invalid (.list [.int 7]) [] ()).1
        ≠ .error ⟨"t", .at line (.undefinedVariable "$x")⟩ := by
  intro t source
  have hparse : Template.parse "t" source (fun _ => false) [] = .ok t := by
    cbv
  have hheader : ¬ HeaderNeeded "$x" t.root := by
    rintro ⟨line, pipe, body, otherwise, hmem, hdeclares, hneed⟩
    simp [t, nodesParts, Node.parts, optionParts] at hmem
    obtain ⟨-, -, -, rfl⟩ := hmem
    simp [NodesUse, Node.Uses] at hneed
  exact ⟨hparse, Template.parse_bound hparse World.silent .invalid (.list [.int 7]) [] ()
    (by simp) "$x" (by simp) hheader⟩

/-- The alternative of a range may use the variable of the header, as the reader has it, but the
execution has not bound it there. -/
theorem Template.parse_bound_alternative :
    let source := braced "range $x := ." ++ braced "else" ++ braced "if $x" ++ braced "end" ++
      "none" ++ braced "end"
    ∃ t, Template.parse "t" source (fun _ => false) [] = .ok t ∧
      (t.execute World.silent .invalid (.list []) [] ()).1
        = .error ⟨"t", .at 1 (.undefinedVariable "$x")⟩ := by
  intro source
  refine ⟨⟨"t", [.block .range 1 ⟨["$x"], false, [[.dot]]⟩ []
    (some [.block .conditional 1 ⟨[], false, [[.variable "$x" []]]⟩ [] none, .text "none"])]⟩, ?_, ?_⟩
  · cbv
  · rfl

/-- The dollar sign may be assigned, as the reader has it, but the execution has no variable of that
name. -/
theorem Template.assign_dollar_undefined :
    ∃ t, Template.parse "t" (braced "$ = 1") (fun _ => false) [] = .ok t ∧
      (t.execute World.silent .invalid .nil [] ()).1
        = .error ⟨"t", .at 1 (.undefinedVariable "$")⟩ := by
  refine ⟨⟨"t", [.action 1 ⟨["$"], true, [[.int 1]]⟩]⟩, ?_, ?_⟩
  · cbv
  · rfl

end SqlTemplate

