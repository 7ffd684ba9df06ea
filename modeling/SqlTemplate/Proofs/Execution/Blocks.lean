import Mathlib
import SqlTemplate.Proofs.Execution.Binding

/-!
# Leaving blocks

A block gives back the variables that were there before it: whatever its lists declare is dropped
behind it, and of the others only values have changed, by assignment. The exception is a range that
goes through nothing. It ends with its alternative, and what that declares, or what parentheses in
the header declare, stays behind the block (`walkNode_block_scope`).

Nothing is asked of the trees here: parentheses may declare variables, too, and names of variables
may be anything.
-/

set_option autoImplicit false

namespace SqlTemplate

open Exec Variables

variable {σ α β : Type}

/-! ## What trees bind -/

/-- Whether parentheses in a pipeline declare the variable, or assign it. -/
def Pipeline.BindsInside (p : Pipeline) (assigns : Bool) (x : String) : Prop :=
  ∃ declared commands, .pipe declared assigns commands ∈ p.parts ∧ x ∈ declared

/-- Whether a pipeline declares the variable, or assigns it, inside of parentheses or not. -/
def Pipeline.Binds (p : Pipeline) (assigns : Bool) (x : String) : Prop :=
  (p.assigns = assigns ∧ x ∈ p.declared) ∨ p.BindsInside assigns x

/-- Whether a node assigns the variable somewhere. -/
def Node.Reassigns (node : Node) (x : String) : Prop := ∃ p ∈ node.pipelines, p.Binds true x

mutual

/-- Whether a node can leave a variable of the name behind: an action leaves what it declares, and
a range what its header declares in parentheses and what its alternative leaves. -/
def Node.Leaves (x : String) : Node → Prop
  | .text _ => False
  | .action _ pipe => pipe.Binds false x
  | .block .range _ pipe _ otherwise => pipe.BindsInside false x ∨ OptionLeaves x otherwise
  | .block _ _ _ _ _ => False

/-- Whether nodes can leave a variable of the name behind. -/
def NodesLeave (x : String) : List Node → Prop
  | [] => False
  | node :: rest => node.Leaves x ∨ NodesLeave x rest

/-- Whether the alternative of a range can leave a variable of the name behind. -/
def OptionLeaves (x : String) : Option (List Node) → Prop
  | none => False
  | some nodes => NodesLeave x nodes

end

/-- Whether a node is a range that goes through nothing: executed from a state, its header comes to
a value without items, and from there its alternative comes to the state `next`. -/
def Node.PassesOver (env : Env σ) (dot : Value) (frame next : Frame σ) : Node → Prop
  | .block .range line pipe _ otherwise =>
    ∃ v mid, (evalCommands env dot none pipe.commands).on { frame with line := line }
      = (.ok v, mid) ∧ rangeItems? v = some [] ∧ (walkOption env dot otherwise).on mid = (.ok (), next)
  | _ => False

/-! ## Steps that put variables in front -/

/-- A state in which the names in `A` may have been assigned, and variables whose names are in `D`
put in front. -/
def Frame.Grown (A D : String → Prop) (vars : Variables) (frame : Frame σ) : Prop :=
  ∃ extra outer, frame.vars = extra ++ outer ∧ Kept A vars outer ∧ ∀ y ∈ names extra, D y

/-- Whether a step assigns only names in `A` and puts only names in `D` in front. -/
abbrev Extends (A D : String → Prop) (m : Exec σ α) : Prop :=
  ∀ vars, Spec (Frame.Has vars) m (fun _ => Frame.Grown A D vars) fun _ _ => True

/-- Any name. -/
abbrev anyName (_ : String) : Prop := True

section Steps

variable {A D D' : String → Prop} {vars : Variables} {frame next : Frame σ} {m : Exec σ α}

theorem Frame.Reassigned.grown (h : frame.Reassigned A vars) : frame.Grown A D vars :=
  ⟨[], frame.vars, rfl, h, by simp [names]⟩

theorem Frame.Has.grown (h : frame.Has vars) : frame.Grown A D vars :=
  (Frame.Has.reassigned h).grown

theorem Frame.Grown.inside (h : frame.Grown A D vars) : frame.Inside A vars := by
  obtain ⟨extra, outer, hvars, hkept, -⟩ := h
  exact ⟨extra, outer, hvars, hkept⟩

theorem Frame.Grown.mono (h : frame.Grown A D vars) (hD : ∀ y, D y → D' y) :
    frame.Grown A D' vars := by
  obtain ⟨extra, outer, hvars, hkept, hextra⟩ := h
  exact ⟨extra, outer, hvars, hkept, fun y hy => hD y (hextra y hy)⟩

theorem Frame.Grown.trans (h : frame.Grown A D vars) (h' : next.Grown A D frame.vars) :
    next.Grown A D vars := by
  obtain ⟨extra, outer, hvars, hkept, hextra⟩ := h
  obtain ⟨more, inner, hvars', hinner, hmore⟩ := h'
  rw [hvars] at hinner
  obtain ⟨extra', outer', rfl, hnames, houter⟩ := Follows.append hinner
  refine ⟨more ++ extra', outer', by simp [hvars'], hkept.trans (Kept.imp (fun _ h => h.1) houter),
    ?_⟩
  intro y hy
  rw [names_append, List.mem_append] at hy
  exact hy.elim (hmore y) fun hy => hextra y (by rwa [names, ← hnames])

/-- Such a step can be taken again and again. -/
theorem Extends.keeps (h : Extends A D m) :
    Spec (Frame.Grown A D vars) m (fun _ => Frame.Grown A D vars) fun _ _ => True :=
  fun frame hframe => (h frame.vars).imp_result (fun _ _ hnext => hframe.trans hnext) frame rfl

theorem Extends.of_keeps
    (h : ∀ vars, Spec (Frame.Grown A D vars) m (fun _ => Frame.Grown A D vars) fun _ _ => True) :
    Extends A D m :=
  fun vars => (h vars).imp_start fun _ => Frame.Has.grown

theorem Extends.bind {k : α → Exec σ β} (hm : Extends A D m) (hk : ∀ a, Extends A D (k a)) :
    Extends A D (m >>= k) :=
  fun vars => Spec.bind (hm vars) fun a => (hk a).keeps

/-- A step that does not touch the variables. -/
theorem Extends.of_vars (h : ∀ frame, (m.on frame).2.vars = frame.vars) : Extends A D m := by
  rintro vars frame rfl
  have hvars := h frame
  rcases hr : m.on frame with ⟨result, next⟩
  rw [hr] at hvars
  cases result with
  | ok a => exact Frame.Has.grown hvars
  | error fault => trivial

theorem extends_literal (env : Env σ) (s : String) : Extends A D (Exec.literal env s) :=
  Extends.of_vars fun frame => by
    rw [on_literal]
    cases env.world.literal s frame.world <;> rfl

theorem extends_print (env : Env σ) (v : Value) : Extends A D (Exec.print env v) :=
  Extends.of_vars fun frame => by
    rw [on_print]
    cases env.world.print v frame.world <;> rfl

theorem extends_bindVariable {assigns : Bool} {name : String} (v : Value)
    (h : if assigns then A name else D name) : Extends A D (Exec.bind (σ := σ) assigns name v) := by
  rintro vars frame rfl
  cases assigns with
  | false =>
      rw [on_declare]
      exact ⟨[(name, v)], frame.vars, rfl, Kept.imp (fun _ => False.elim) (Kept.refl _),
        by simpa [names] using h⟩
  | true =>
      rw [on_assign]
      cases hassign : Variables.assign name v frame.vars with
      | none => trivial
      | some vars =>
          have hkept : Kept A frame.vars vars := by
            refine Kept.imp ?_ (assign_kept hassign)
            rintro y rfl
            exact h
          have hassigned : Frame.Reassigned A frame.vars { frame with vars := vars } := hkept
          exact hassigned.grown

theorem extends_bindAll {assigns : Bool} {declared : List String} (v : Value)
    (h : ∀ y ∈ declared, if assigns then A y else D y) :
    Extends A D (Exec.bindAll (σ := σ) assigns v declared) := by
  induction declared with
  | nil => exact Extends.of_vars fun _ => rfl
  | cons name rest ih =>
      exact Extends.bind (extends_bindVariable v (h name (by simp))) fun _ =>
        ih fun y hy => h y (List.mem_cons_of_mem _ hy)

theorem extends_bindItem {p : Pipeline} (key item : Value)
    (h : ∀ y ∈ p.declared, if p.assigns then A y else D y) :
    Extends A D (bindItem (σ := σ) p key item) := by
  rw [bindItem]
  rcases hd : p.declared with _ | ⟨index, _ | ⟨name, rest⟩⟩
  · exact Extends.of_vars fun _ => rfl
  · exact extends_bindVariable item (h index (by simp [hd]))
  · exact Extends.bind (extends_bindVariable key (h index (by simp [hd]))) fun _ =>
      extends_bindVariable item (h name (by simp [hd]))

end Steps

/-! ## Pipelines -/

section Pipelines

variable {A D : String → Prop} {p : Pipeline}

/-- Operands bind what their parentheses bind. -/
theorem Pipeline.extends_evalCommands (env : Env σ) (dot : Value)
    (hA : ∀ y, p.BindsInside true y → A y) (hD : ∀ y, p.BindsInside false y → D y) :
    Extends A D (evalCommands env dot none p.commands) := by
  refine Extends.of_keeps fun vars => ?_
  have hkeeps : Keeps env (Frame.Grown A D vars) (fun _ => True) (fun _ _ => True) (· ∈ p.parts) :=
    { closed := ValueClosed.all
      fails := fun _ _ _ _ => trivial
      read := fun x _ _ frame hframe => by
        rw [on_valueOf]
        cases frame.vars.lookup x with
        | some v => exact ⟨trivial, hframe⟩
        | none => by_cases hx : x = "$" <;> simp [hx, hframe]
      call := fun f args _ _ _ frame hframe => by
        rw [on_callWorld]
        generalize env.world.call f args frame.world = outcome
        obtain ⟨answer, world⟩ := outcome
        cases answer with
        | ok v => exact ⟨trivial, hframe⟩
        | error cause => trivial
      bind := fun declared assigns commands v hp _ => by
        refine (extends_bindAll v fun y hy => ?_).keeps
        cases assigns with
        | false => exact hD y ⟨declared, commands, hp, hy⟩
        | true => exact hA y ⟨declared, commands, hp, hy⟩ }
  exact (evalCommands_keeps hkeeps trivial none (by simp) p.commands fun _ hpart => hpart).imp_result
    fun _ _ h => h.2

/-- What a pipeline declares or assigns itself. -/
theorem Pipeline.mem_binds (hA : ∀ y, p.Binds true y → A y) (hD : ∀ y, p.Binds false y → D y) :
    ∀ y ∈ p.declared, if p.assigns then A y else D y := by
  intro y hy
  split
  · rename_i hassigns
    exact hA y (.inl ⟨hassigns, hy⟩)
  · rename_i hassigns
    exact hD y (.inl ⟨by simpa using hassigns, hy⟩)

theorem Pipeline.extends_evalPipeline (env : Env σ) (dot : Value)
    (hA : ∀ y, p.Binds true y → A y) (hD : ∀ y, p.Binds false y → D y) :
    Extends A D (evalPipeline env dot p) := by
  have hcommands := p.extends_evalCommands env dot (fun y hy => hA y (.inr hy))
    fun y hy => hD y (.inr hy)
  exact Extends.bind hcommands fun v =>
    Extends.bind (extends_bindAll v (p.mem_binds hA hD)) fun _ => Extends.of_vars fun _ => rfl

end Pipelines

/-! ## Nodes -/

section Nodes

variable {A D : String → Prop}

/-- Behind the mark of a block, everything is dropped that was put in front since. -/
theorem keepVariables_left (vars : Variables) :
    Spec (Frame.Grown (σ := σ) A D vars) (Exec.keepVariables vars.length)
      (fun _ => Frame.Reassigned A vars) fun _ _ => True :=
  (keepVariables_vars A vars _).imp_start fun _ h => h.inside

/-- A block that is no range is left: names are as before, and of the values only those of names
in `A` have changed. -/
theorem walkBlock_left {env : Env σ} {dot : Value} {kind : BlockKind} {line : Nat} {pipe : Pipeline}
    {body : List Node} {otherwise : Option (List Node)} (hkind : kind ≠ .range)
    (hheader : Extends A anyName (evalPipeline env dot pipe))
    (hbody : ∀ dot, Extends A anyName (walkNodes env dot body))
    (hother : Extends A anyName (walkOption env dot otherwise)) (vars : Variables) :
    Spec (Frame.Has vars) (walkNode env dot (.block kind line pipe body otherwise))
      (fun _ => Frame.Reassigned A vars) fun _ _ => True := by
  rw [walkNode_block env dot hkind]
  refine Spec.bind (setLine_vars line vars) fun _ => Spec.bind_of (mark_vars vars _) ?_
  rintro _ rfl
  refine Spec.bind (hheader vars) fun v => ?_
  exact Spec.ite (fun _ => Spec.bind (hbody _).keeps fun _ => keepVariables_left vars) fun _ =>
    Spec.bind hother.keeps fun _ => keepVariables_left vars

/-- A range that goes through items is left after the last of them. -/
theorem rangeRounds_left {env : Env σ} {pipe : Pipeline} {body : List Node}
    (hitem : ∀ key item, Extends (σ := σ) A anyName (bindItem pipe key item))
    (hbody : ∀ dot, Extends A anyName (walkNodes env dot body)) (items : List (Value × Value))
    (vars : Variables) :
    Spec (Frame.Grown A anyName vars) (do
      forEach (rangeRound env vars.length pipe body) items
      Exec.keepVariables vars.length) (fun _ => Frame.Reassigned A vars) fun _ _ => True := by
  refine Spec.bind (Spec.forEach fun e _ => ?_) fun _ => keepVariables_left vars
  -- What a round puts in front is dropped by the next round.
  have hdrop : Spec (Frame.Grown (σ := σ) A anyName vars) (Exec.keepVariables vars.length)
      (fun _ => Frame.Grown A anyName vars) fun _ _ => True :=
    (keepVariables_left vars).imp_result fun _ _ h => h.grown
  exact Spec.bind hdrop fun _ => Spec.bind (hitem e.1 e.2).keeps fun _ => (hbody e.2).keeps

/-- A range puts in front what its header and its alternative do, and is left unless it goes
through nothing. -/
theorem walkRange_left {env : Env σ} {dot : Value} {line : Nat} {pipe : Pipeline} {body : List Node}
    {otherwise : Option (List Node)}
    (hheader : Extends A D (evalCommands env dot none pipe.commands))
    (hitem : ∀ key item, Extends (σ := σ) A anyName (bindItem pipe key item))
    (hbody : ∀ dot, Extends A anyName (walkNodes env dot body))
    (hother : Extends A D (walkOption env dot otherwise)) (frame : Frame σ) :
    let block : Node := .block .range line pipe body otherwise
    Spec (· = frame) (walkNode env dot block)
      (fun _ next => next.Grown A D frame.vars ∧
        (block.PassesOver env dot frame next ∨ next.Reassigned A frame.vars)) fun _ _ => True := by
  intro block frame₁ hframe
  subst frame₁
  rw [walkNode_range, on_bind, on_setLine]
  dsimp only
  rw [on_bind, on_mark]
  dsimp only
  rw [on_bind]
  have hmid := hheader frame.vars { frame with line := line } rfl
  rcases hr : (evalCommands env dot none pipe.commands).on { frame with line := line }
    with ⟨_ | v, mid⟩
  · trivial
  rw [hr] at hmid
  dsimp only at hmid ⊢
  cases hitems : rangeItems? v with
  | none => trivial
  | some items =>
      cases items with
      | nil =>
          have hend := hother.keeps mid hmid
          dsimp only
          rcases hn : (walkOption env dot otherwise).on mid with ⟨_ | _, next⟩
          · trivial
          rw [hn] at hend
          exact ⟨hend, .inl ⟨v, mid, hr, hitems, hn⟩⟩
      | cons e rest =>
          have hrounds := rangeRounds_left hitem hbody (e :: rest) frame.vars
          refine (hrounds.imp_result fun _ next hnext => ⟨hnext.grown, .inr hnext⟩) mid ?_
          exact hmid.mono fun _ _ => trivial

/-- Any block puts in front what it can leave behind, and is left unless it is a range that goes
through nothing. -/
theorem walkBlock_extends {env : Env σ} {dot : Value} {kind : BlockKind} {line : Nat}
    {pipe : Pipeline} {body : List Node} {otherwise : Option (List Node)}
    (hpipe : ∀ y, pipe.Binds true y → A y)
    (hD : ∀ y, Node.Leaves y (.block kind line pipe body otherwise) → D y)
    (hbody : ∀ dot, Extends A anyName (walkNodes env dot body))
    (hother : ∀ D, (∀ y, OptionLeaves y otherwise → D y) →
      Extends A D (walkOption env dot otherwise)) (frame : Frame σ) :
    let block : Node := .block kind line pipe body otherwise
    Spec (· = frame) (walkNode env dot block)
      (fun _ next => next.Grown A D frame.vars ∧
        (block.PassesOver env dot frame next ∨ next.Reassigned A frame.vars)) fun _ _ => True := by
  by_cases hrange : kind = .range
  · subst hrange
    have hheader := pipe.extends_evalCommands env dot (D := D) (fun y hy => hpipe y (.inr hy))
      fun y hy => hD y (.inl hy)
    have hitem : ∀ key item, Extends (σ := σ) A anyName (bindItem pipe key item) :=
      fun key item => extends_bindItem key item (pipe.mem_binds hpipe fun _ _ => trivial)
    exact walkRange_left hheader hitem hbody (hother D fun y hy => hD y (.inr hy)) frame
  · have hheader : Extends A anyName (evalPipeline env dot pipe) :=
      pipe.extends_evalPipeline env dot hpipe fun _ _ => trivial
    have hleft : Spec (Frame.Has frame.vars) (walkNode env dot (.block kind line pipe body otherwise))
        (fun _ => Frame.Reassigned A frame.vars) fun _ _ => True :=
      walkBlock_left hrange hheader hbody (hother _ fun _ _ => trivial) frame.vars
    exact hleft.mono (fun _ hstart => congrArg Frame.vars hstart)
      (fun _ _ hnext => ⟨hnext.grown, .inr hnext⟩) fun _ _ _ => trivial

mutual

/-- A node assigns no other variables than those it is seen to assign, and leaves no others behind
than those it can leave. -/
theorem walkNode_extends (env : Env σ) (dot : Value) {node : Node} {D : String → Prop}
    (hA : ∀ p ∈ node.pipelines, ∀ y, p.Binds true y → A y) (hD : ∀ y, node.Leaves y → D y) :
    Extends A D (walkNode env dot node) := by
  match node with
  | .text s =>
    rw [walkNode]
    exact extends_literal env s
  | .action line pipe =>
    have hpipe : Extends A D (evalPipeline env dot pipe) :=
      pipe.extends_evalPipeline env dot (hA pipe (by simp [Node.pipelines])) hD
    rw [walkNode]
    refine Extends.bind (Extends.of_vars fun _ => rfl) fun _ => Extends.bind hpipe fun v => ?_
    intro vars
    exact Spec.ite (fun _ => extends_print env v vars) fun _ => Spec.pure fun _ => Frame.Has.grown
  | .block kind line pipe body otherwise =>
    have hpipe : ∀ y, pipe.Binds true y → A y := hA pipe (by simp [Node.pipelines])
    have hbody : ∀ dot, Extends A anyName (walkNodes env dot body) := fun dot =>
      walkNodes_extends env dot (fun p hp => hA p (by simp [Node.pipelines, hp])) fun _ _ => trivial
    have hother : ∀ D, (∀ y, OptionLeaves y otherwise → D y) →
        Extends A D (walkOption env dot otherwise) := fun D hD =>
      walkOption_extends env dot (fun p hp => hA p (by simp [Node.pipelines, hp])) hD
    rintro vars frame rfl
    exact (walkBlock_extends hpipe hD hbody hother frame).imp_result (fun _ _ h => h.1) frame rfl

theorem walkNodes_extends (env : Env σ) (dot : Value) {nodes : List Node} {D : String → Prop}
    (hA : ∀ p ∈ nodesPipelines nodes, ∀ y, p.Binds true y → A y)
    (hD : ∀ y, NodesLeave y nodes → D y) : Extends A D (walkNodes env dot nodes) := by
  match nodes with
  | [] => exact Extends.of_vars fun _ => rfl
  | node :: rest =>
    rw [walkNodes]
    refine Extends.bind (walkNode_extends env dot ?_ ?_) fun _ => walkNodes_extends env dot ?_ ?_
    · exact fun p hp => hA p (List.mem_append_left _ hp)
    · exact fun y hy => hD y (.inl hy)
    · exact fun p hp => hA p (List.mem_append_right _ hp)
    · exact fun y hy => hD y (.inr hy)

theorem walkOption_extends (env : Env σ) (dot : Value) {otherwise : Option (List Node)}
    {D : String → Prop} (hA : ∀ p ∈ optionPipelines otherwise, ∀ y, p.Binds true y → A y)
    (hD : ∀ y, OptionLeaves y otherwise → D y) : Extends A D (walkOption env dot otherwise) := by
  match otherwise with
  | none => exact Extends.of_vars fun _ => rfl
  | some nodes => exact walkNodes_extends env dot hA hD

end

/-- The names in front of variables that were kept. -/
theorem Frame.Grown.names {vars : Variables} {frame : Frame σ} (h : frame.Grown A D vars) :
    ∃ left, Variables.names frame.vars = left ++ Variables.names vars ∧ (∀ y ∈ left, D y) ∧
      ∀ x, x ∉ left → ¬ A x → frame.vars.lookup x = vars.lookup x := by
  obtain ⟨extra, outer, hvars, hkept, hextra⟩ := h
  refine ⟨extra.names, by rw [hvars, names_append, hkept.names], hextra, fun x hx hA => ?_⟩
  rw [hvars, List.lookup_append, Variables.lookup_eq_none.mpr hx, Option.none_or]
  exact hkept.lookup hA

/-- **Blocks are left.** Behind a block that was executed to its end, there are the names from
before it in the same order, and in front of them only names that stay behind a range that went
through nothing: those that the header declares in parentheses, or the alternative. A variable that
is not among these and that the block does not assign has the value that it had before. -/
theorem walkNode_block_scope {env : Env σ} {dot : Value} {kind : BlockKind} {line : Nat}
    {pipe : Pipeline} {body : List Node} {otherwise : Option (List Node)} {frame next : Frame σ}
    (h : (walkNode env dot (.block kind line pipe body otherwise)).on frame = (.ok (), next)) :
    let block : Node := .block kind line pipe body otherwise
    ∃ left, names next.vars = left ++ names frame.vars ∧
      (left ≠ [] → block.PassesOver env dot frame next) ∧ (∀ y ∈ left, block.Leaves y) ∧
      ∀ x, x ∉ left → ¬ block.Reassigns x → next.vars.lookup x = frame.vars.lookup x := by
  intro block
  have hA : ∀ p ∈ block.pipelines, ∀ y, p.Binds true y → block.Reassigns y :=
    fun p hp y hy => ⟨p, hp, hy⟩
  have hbody : ∀ dot, Extends block.Reassigns anyName (walkNodes env dot body) := fun dot =>
    walkNodes_extends env dot (fun p hp => hA p (by simp [block, Node.pipelines, hp]))
      fun _ _ => trivial
  have hother : ∀ D, (∀ y, OptionLeaves y otherwise → D y) →
      Extends block.Reassigns D (walkOption env dot otherwise) := fun D hD =>
    walkOption_extends env dot (fun p hp => hA p (by simp [block, Node.pipelines, hp])) hD
  have hleaves : ∀ y, Node.Leaves y (.block kind line pipe body otherwise) → block.Leaves y :=
    fun _ hy => hy
  have hblock := walkBlock_extends (hA pipe (by simp [block, Node.pipelines])) hleaves hbody hother
    frame frame rfl
  rw [h] at hblock
  obtain ⟨hgrown, hpasses | hleft⟩ := hblock
  · obtain ⟨left, hnames, hleaves, hlookup⟩ := hgrown.names
    exact ⟨left, hnames, fun _ => hpasses, hleaves, hlookup⟩
  · have hkept : Kept block.Reassigns frame.vars next.vars := hleft
    exact ⟨[], hkept.names, fun hne => absurd rfl hne, by simp, fun x _ hx => hkept.lookup hx⟩

end Nodes

/-- A conditional drops what its body declares, and what a range in it leaves behind, but keeps what
it assigns. -/
theorem walkNode_block_scope_conditional :
    let inner : Node := .block .range 1 ⟨[], false, [[.nil]]⟩ []
      (some [.action 1 ⟨["$x"], false, [[.int 3]]⟩])
    let block : Node := .block .conditional 1 ⟨["$x"], false, [[.bool true]]⟩
      [.action 1 ⟨["$y"], true, [[.int 2]]⟩, inner] none
    let env : Env Unit := ⟨World.silent, .invalid, .nil⟩
    ∃ next, (walkNode env .nil block).on ⟨[("$x", .int 1), ("$y", .int 1)], 1, ()⟩ = (.ok (), next) ∧
      names next.vars = ["$x", "$y"] ∧ next.vars.lookup "$x" = some (.int 1) ∧
      next.vars.lookup "$y" = some (.int 2) := by
  intro inner block env
  have h : (walkNode env .nil block).on ⟨[("$x", .int 1), ("$y", .int 1)], 1, ()⟩
      = (.ok (), ⟨[("$x", .int 1), ("$y", .int 2)], 1, ()⟩) := by
    rfl
  obtain ⟨left, hnames, hpasses, -, hlookup⟩ := walkNode_block_scope h
  obtain rfl : left = [] := Classical.byContradiction hpasses
  have hx : ¬ block.Reassigns "$x" := by
    simp [block, inner, Node.Reassigns, Node.pipelines, nodesPipelines, optionPipelines,
      Pipeline.Binds, Pipeline.BindsInside, Pipeline.parts, commandsParts, operandsParts,
      Operand.parts]
  exact ⟨_, h, hnames, hlookup "$x" (by simp) hx, rfl⟩

/-- What the alternative of a range declares stays behind the range if it went through nothing: it
shadows the variable from before. -/
theorem Template.range_alternative_shadows :
    let source := braced "$x := 1" ++ braced "range ." ++ braced "else" ++ braced "$x := 2" ++
      braced "end" ++ braced "$x"
    let block : Node := .block .range 1 ⟨[], false, [[.dot]]⟩ []
      (some [.action 1 ⟨["$x"], false, [[.int 2]]⟩])
    let env : Env Unit := ⟨World.silent, .invalid, .list []⟩
    Template.parse "t" source (fun _ => false) [] = .ok ⟨"t",
      [.action 1 ⟨["$x"], false, [[.int 1]]⟩, block, .action 1 ⟨[], false, [[.variable "$x" []]]⟩]⟩ ∧
      ∃ next, (walkNode env (.list []) block).on ⟨[("$x", .int 1)], 1, ()⟩ = (.ok (), next) ∧
        names next.vars = ["$x", "$x"] ∧ next.vars.lookup "$x" = some (.int 2) := by
  intro source block env
  refine ⟨?_, _, rfl, rfl, rfl⟩
  cbv

end SqlTemplate
