import Mathlib
import SqlTemplate.Proofs.Shape.Stale

/-!
# Points of an execution

An execution is followed through the points to which it comes: lists of nodes that are still to be
executed, together with what the check knew when it came to them. At every point of an execution
on a value of the type with which the template was checked, the check is right about the dot and
about the variables that are not stale (`Point.Right`).
-/

set_option autoImplicit false

namespace SqlTemplate

open Exec Variables

variable {σ : Type}

/-! ## Points -/

/-- A point of an execution: the nodes that are still to be executed, the dot and the state, and
what the check knew about the dot and the variables there. -/
structure Point (σ : Type) where
  known : Known
  types : KnownVariables
  dot : Value
  frame : Frame σ
  nodes : List Node

namespace Point

/-- The point at which an execution starts. -/
def start (t : Template) (params : Shape) (globals : List String) (data : Value)
    (seeds : List (String × Value)) (world : σ) : Point σ :=
  ⟨.shape params, .start params globals, data, Frame.start seeds world, t.root⟩

/-- From point to point: behind a node that was executed, into the body of a block that is no
range, into the alternative of such a block, into the alternative of an empty range, and into a
round of a range behind other rounds. -/
inductive Step (env : Env σ) (dest : Shape) : Point σ → Point σ → Prop
  | next {known types types' dot frame frame' node rest} :
    (checkNode dest known node).run types = .ok ((), types') →
    (walkNode env dot node).on frame = (.ok (), frame') →
    Step env dest ⟨known, types, dot, frame, node :: rest⟩ ⟨known, types', dot, frame', rest⟩
  | body {known inner types types' dot value frame frame' kind line pipe body otherwise rest} :
    kind ≠ .range →
    (checkHeader dest known kind pipe).run types = .ok (inner, types') →
    (evalPipeline env dot pipe).on { frame with line := line } = (.ok value, frame') →
    value.isTruthy = true →
    Step env dest ⟨known, types, dot, frame, .block kind line pipe body otherwise :: rest⟩
      ⟨inner, types', if kind = .scoped then value else dot, frame', body⟩
  | otherwise {known inner types types' types'' dot value frame frame' kind line pipe body nodes
      rest} :
    kind ≠ .range →
    (checkHeader dest known kind pipe).run types = .ok (inner, types') →
    (checkNodes dest inner body).run types' = .ok ((), types'') →
    (evalPipeline env dot pipe).on { frame with line := line } = (.ok value, frame') →
    value.isTruthy = false →
    Step env dest ⟨known, types, dot, frame, .block kind line pipe body (some nodes) :: rest⟩
      ⟨known, types'', dot, frame', nodes⟩
  | empty {known inner types types' types'' dot value frame frame' line pipe body nodes rest} :
    (checkHeader dest known .range pipe).run types = .ok (inner, types') →
    (checkNodes dest inner body).run types' = .ok ((), types'') →
    (evalCommands env dot none pipe.commands).on { frame with line := line } = (.ok value, frame') →
    rangeItems? value = some [] →
    Step env dest ⟨known, types, dot, frame, .block .range line pipe body (some nodes) :: rest⟩
      ⟨known, types'', dot, frame', nodes⟩
  | round {known inner types types' dot value frame frame₁ frame₂ frame₃ line pipe body otherwise
      rest done key item left} :
    (checkHeader dest known .range pipe).run types = .ok (inner, types') →
    (evalCommands env dot none pipe.commands).on { frame with line := line } = (.ok value, frame₁) →
    rangeItems? value = some (done ++ (key, item) :: left) →
    (forEach (rangeRound env frame.vars.length pipe body) done).on frame₁ = (.ok (), frame₂) →
    (do Exec.keepVariables frame.vars.length; bindItem pipe key item : Exec σ Unit).on frame₂
      = (.ok (), frame₃) →
    Step env dest ⟨known, types, dot, frame, .block .range line pipe body otherwise :: rest⟩
      ⟨inner, types', item, frame₃, body⟩

/-- Whether an execution that has come to a point comes to another. -/
abbrev Reaches (env : Env σ) (dest : Shape) : Point σ → Point σ → Prop :=
  Relation.ReflTransGen (Step env dest)

/-- Whether the check is right at a point: about the dot, and about the variables that are not
stale. The nodes behind it were read and checked, and can be trusted. -/
structure Right (env : Env σ) (dest : Shape) (isFunction : String → Bool) (scope : List String)
    (stale : String → Prop) (point : Point σ) : Prop where
  proper : ProperNodes isFunction scope point.nodes
  checked : ∃ types', (checkNodes dest point.known point.nodes).run point.types = .ok ((), types')
  trusted : NodesTrusted dest point.known stale point.types point.nodes
  dot : point.known.Describes dest point.dot
  fits : Fits env dest stale point.types point.frame.vars

end Point

/-! ## Steps -/

section Steps

variable {env : Env σ} {dest : Shape} {dot known inner : Known} {value : Value}
  {stale : String → Prop} {types types' types'' : KnownVariables} {frame frame' : Frame σ}
  {isFunction : String → Bool} {scope : List String}

/-- What a step yields that is known to succeed. -/
theorem Exec.Spec.of_ok {α : Type} {P : Frame σ → Prop} {m : Exec σ α} {Q : α → Frame σ → Prop}
    {E : EvalFault → Frame σ → Prop} (h : Spec P m Q E) {a : α}
    (hm : m.on frame = (.ok a, frame')) (hP : P frame) : Q a frame' := by
  have := h frame hP
  rwa [hm] at this

/-- Nodes that were checked were checked one after the other. -/
theorem run_checkNodes_cons {node : Node} {rest : List Node}
    (h : (checkNodes dest dot (node :: rest)).run types = .ok ((), types'')) :
    ∃ types', (checkNode dest dot node).run types = .ok ((), types') ∧
      (checkNodes dest dot rest).run types' = .ok ((), types'') := by
  rw [checkNodes] at h
  obtain ⟨⟨⟩, between, hnode, hrest⟩ := Check.run_bind_eq_ok.mp h
  exact ⟨between, hnode, hrest⟩

/-- A block that was checked was checked in its header, its body and its alternative. -/
theorem run_checkNode_block {kind : BlockKind} {line : Nat} {pipe : Pipeline} {body : List Node}
    {otherwise : Option (List Node)}
    (h : (checkNode dest dot (.block kind line pipe body otherwise)).run types = .ok ((), types')) :
    ∃ inner inside behind last, (checkHeader dest dot kind pipe).run types = .ok (inner, inside) ∧
      (checkNodes dest inner body).run inside = .ok ((), behind) ∧
      (checkOption dest dot otherwise).run behind = .ok ((), last) := by
  rw [checkNode_block] at h
  obtain ⟨mark, between, hmark, hrest⟩ := Check.run_bind_eq_ok.mp h
  cases hmark
  obtain ⟨inner, inside, hheader, hrest₁⟩ := Check.run_bind_eq_ok.mp hrest
  obtain ⟨⟨⟩, behind, hnodes, hrest₂⟩ := Check.run_bind_eq_ok.mp hrest₁
  obtain ⟨⟨⟩, last, hoption, -⟩ := Check.run_bind_eq_ok.mp hrest₂
  exact ⟨inner, inside, behind, last, hheader, hnodes, hoption⟩

/-- The body and the alternative of a block that is the next node were checked behind its header. -/
theorem run_checkNodes_block {kind : BlockKind} {line : Nat} {pipe : Pipeline}
    {body rest : List Node} {otherwise : Option (List Node)}
    (h : (checkNodes dest dot (.block kind line pipe body otherwise :: rest)).run types
      = .ok ((), types''))
    (hheader : (checkHeader dest dot kind pipe).run types = .ok (inner, types')) :
    ∃ behind last, (checkNodes dest inner body).run types' = .ok ((), behind) ∧
      (checkOption dest dot otherwise).run behind = .ok ((), last) := by
  obtain ⟨between, hblock, -⟩ := run_checkNodes_cons h
  obtain ⟨inner', inside, behind, last, hheader', hnodes, hoption⟩ := run_checkNode_block hblock
  cases hheader.symm.trans hheader'
  exact ⟨behind, last, hnodes, hoption⟩

/-- Behind an action, the variables fit except those that were stale. -/
theorem Pipeline.Proper.walkAction_fits {line : Nat} {pipe : Pipeline}
    (hpipe : pipe.Proper ⟨isFunction, scope⟩ .action) (htrusted : pipe.Trusted stale types)
    (hworld : env.world.YieldsDest) (hdot : dot.Describes dest value)
    (hfits : Fits env dest stale types frame.vars)
    (hcheck : (checkNode dest dot (.action line pipe)).run types = .ok ((), types'))
    (hwalk : (walkNode env value (.action line pipe)).on frame = (.ok (), frame')) :
    Fits env dest ((Node.action line pipe).staleBehind stale) types' frame'.vars := by
  rw [checkNode] at hcheck
  obtain ⟨known, between, hpipeline, hpure⟩ := Check.run_bind_eq_ok.mp hcheck
  obtain ⟨-, rfl⟩ := Check.run_pure_eq_ok.mp hpure
  obtain ⟨hcommands, hbind⟩ := hpipe.run_checkPipeline hpipeline
  have hspec := hpipe.evalPipeline_fits htrusted hworld hdot hfits hcommands hbind
  have hwalkSpec : Spec (Frame.Has frame.vars) (walkNode env value (.action line pipe))
      (fun _ => Frame.Fits env dest (fun x => x ∉ pipe.declared ∧ stale x) between) anyFault := by
    rw [walkNode]
    refine Spec.bind (setLine_vars line frame.vars) fun _ => Spec.bind hspec fun v => ?_
    refine Spec.ite (fun _ => ?_) fun _ => Spec.pure fun _ h => h.2
    intro next hnext
    rw [on_print]
    cases env.world.print v next.world with
    | some w => exact hnext.2
    | none => trivial
  refine Fits.mono (hwalkSpec.of_ok hwalk rfl) ?_
  rintro x ⟨hdeclared, hx⟩
  rw [Pipeline.mem_declared, not_or] at hdeclared
  exact ⟨hdeclared.1, hdeclared.2, .inl hx⟩

/-- Behind a node, the variables fit except those that it makes stale. -/
theorem Fits.walkNode {node : Node} (hnode : node.Proper isFunction scope)
    (htrusted : node.Trusted dest dot stale types) (hworld : env.world.YieldsDest)
    (hdot : dot.Describes dest value) (hfits : Fits env dest stale types frame.vars)
    (hcheck : (checkNode dest dot node).run types = .ok ((), types'))
    (hwalk : (SqlTemplate.walkNode env value node).on frame = (.ok (), frame')) :
    Fits env dest (node.staleBehind stale) types' frame'.vars := by
  match node with
  | .text s =>
    exact hfits.behindNode (.text s) hnode rfl hcheck
      ((walkNode_vars env "$" value frame.vars hnode).of_ok hwalk rfl)
  | .action line pipe =>
    exact Pipeline.Proper.walkAction_fits hnode htrusted hworld hdot hfits hcheck hwalk
  | .block kind line pipe body otherwise =>
    exact hfits.behindNode (.block kind line pipe body otherwise) hnode rfl hcheck
      ((walkNode_vars env "$" value frame.vars hnode).of_ok hwalk rfl)

/-- A header that is no range leaves its variables, and knows the dot of the body. -/
theorem Pipeline.Proper.evalHeader_fits {kind : BlockKind} (hkind : kind ≠ .range) {pipe : Pipeline}
    (hpipe : pipe.Proper ⟨isFunction, scope⟩ (.block kind)) (htrusted : pipe.Trusted stale types)
    (hworld : env.world.YieldsDest) (hdot : dot.Describes dest value)
    (hfits : Fits env dest stale types frame.vars)
    (hheader : (checkHeader dest dot kind pipe).run types = .ok (inner, types')) {line : Nat}
    {v : Value}
    (heval : (evalPipeline env value pipe).on { frame with line := line } = (.ok v, frame')) :
    Fits env dest (fun x => x ∉ pipe.declared ∧ stale x) types' frame'.vars ∧
      (v.isTruthy = true → inner.Describes dest (if kind = .scoped then v else value)) := by
  obtain ⟨known, hcommands, hbind, rfl⟩ := hpipe.run_checkHeader hkind hheader
  have hspec := hpipe.evalPipeline_fits htrusted hworld hdot hfits hcommands hbind
  obtain ⟨hv, hnew⟩ := hspec.of_ok heval rfl
  refine ⟨hnew, fun htruthy => ?_⟩
  by_cases hscoped : kind = .scoped
  · rw [if_pos hscoped, if_pos hscoped]
    -- NULL is not true, so the dot of the body is under all optionality.
    refine hv.peel.resolve_left ?_
    rintro rfl
    cases htruthy
  · rwa [if_neg hscoped, if_neg hscoped]

/-- Behind rounds of a range, the variables fit that no round assigns. -/
theorem Pipeline.Proper.rounds_fit {pipe : Pipeline} {body : List Node}
    (hpipe : pipe.Proper ⟨isFunction, scope⟩ (.block .range))
    (hbody : ProperNodes isFunction (pipe.scope scope) body)
    (hfits : Fits env dest stale types frame.vars) {done : List (Value × Value)}
    {frame₁ frame₂ frame₃ : Frame σ} (hframe : frame₁.vars = frame.vars)
    (hdone : (forEach (rangeRound env frame.vars.length pipe body) done).on frame₁
      = (.ok (), frame₂)) (hitem : known.Describes dest value)
    (hcheck : (checkItem pipe known).run types = .ok ((), types')) {key : Value}
    (hbind : (do Exec.keepVariables frame.vars.length; bindItem pipe key value : Exec σ Unit).on
      frame₂ = (.ok (), frame₃)) :
    Fits env dest (staleInside stale .range pipe body) types' frame₃.vars := by
  -- The rounds that are done have only assigned what a round assigns.
  have hinside : frame₂.Inside (RoundUses Pipeline.Assigns pipe body) frame.vars :=
    (Spec.forEach fun e _ => hpipe.rangeRound_vars
      (fun dot vars => walkNodes_inside env "$" dot vars hbody) e.1 e.2).of_ok hdone
      (Frame.Reassigned.inside (Frame.Has.reassigned hframe))
  have hspec : Spec (Frame.Inside (RoundUses Pipeline.Assigns pipe body) frame.vars)
      (do Exec.keepVariables frame.vars.length; bindItem pipe key value : Exec σ Unit)
      (fun _ => Frame.Fits env dest (fun x => x ∉ pipe.declared ∧
        (stale x ∨ RoundUses Pipeline.Assigns pipe body x)) types') anyFault := by
    refine Spec.bind (keepVariables_vars _ frame.vars _) fun _ => ?_
    exact (hpipe.bindItem_fits hitem hcheck key).imp_start fun next hkept => hfits.kept hkept
  refine Fits.mono (hspec.of_ok hbind hinside) ?_
  rintro x ⟨hdeclared, hx⟩
  refine ⟨hdeclared, hx.imp_right ?_⟩
  rintro (hassigns | ⟨-, hbody⟩)
  -- What the header assigns is bound anew in this round.
  · exact absurd hassigns.2 hdeclared
  · exact ⟨rfl, hbody⟩

end Steps

namespace Point

variable {env : Env σ} {dest : Shape} {isFunction : String → Bool} {scope : List String}
  {stale : String → Prop} {point next : Point σ}

/-- **The check stays right from point to point.** -/
theorem Right.step (h : point.Right env dest isFunction scope stale) (hworld : env.world.YieldsDest)
    (hstep : Step env dest point next) :
    ∃ scope stale, next.Right env dest isFunction scope stale := by
  obtain ⟨hproper, ⟨last, hchecked⟩, htrusted, hdot, hfits⟩ := h
  cases hstep with
  | next hcheck hwalk =>
      obtain ⟨between, hnode, hrest⟩ := run_checkNodes_cons hchecked
      rw [hcheck] at hnode
      cases hnode
      exact ⟨_, _, hproper.2, ⟨last, hrest⟩, htrusted.2 _ hcheck, hdot,
        hfits.walkNode hproper.1 htrusted.1 hworld hdot hcheck hwalk⟩
  | body hkind hheader heval htruthy =>
      obtain ⟨behind, -, hnodes, -⟩ := run_checkNodes_block hchecked hheader
      obtain ⟨⟨hpipe, hbody, -⟩, -⟩ := hproper
      obtain ⟨⟨hpipeTrusted, hinner⟩, -⟩ := htrusted
      obtain ⟨hnew, hdescribes⟩ :=
        hpipe.evalHeader_fits hkind hpipeTrusted hworld hdot hfits hheader heval
      exact ⟨_, _, hbody, ⟨behind, hnodes⟩, (hinner _ _ hheader).1, hdescribes htruthy,
        hnew.mono fun x hx => ⟨hx.1, .inl hx.2⟩⟩
  | otherwise hkind hheader hbody heval htruthy =>
      obtain ⟨behind, last, hnodes, hoption⟩ := run_checkNodes_block hchecked hheader
      cases hbody.symm.trans hnodes
      obtain ⟨⟨hpipe, hbodyProper, hother⟩, -⟩ := hproper
      obtain ⟨⟨hpipeTrusted, hinner⟩, -⟩ := htrusted
      obtain ⟨hnew, -⟩ := hpipe.evalHeader_fits hkind hpipeTrusted hworld hdot hfits hheader heval
      refine ⟨_, _, hother, ⟨last, hoption⟩, (hinner _ _ hheader).2 _ hbody, hdot,
        (hnew.grown (checkNodes_grows hbodyProper hbody)).mono ?_⟩
      exact fun x hx => hx.imp_right fun ⟨hforgets, hx⟩ => ⟨hforgets, .inr hx⟩
  | empty hheader hbody heval hitems =>
      obtain ⟨behind, last, hnodes, hoption⟩ := run_checkNodes_block hchecked hheader
      cases hbody.symm.trans hnodes
      obtain ⟨⟨hpipe, hbodyProper, hother⟩, -⟩ := hproper
      obtain ⟨⟨hpipeTrusted, hinner⟩, -⟩ := htrusted
      obtain ⟨known, hcommands, -, -⟩ := hpipe.run_checkHeader_range hheader
      have hspec := hpipe.evalCommands_describes hpipeTrusted hworld hdot hfits hcommands
      obtain ⟨-, hvars⟩ := hspec.of_ok heval rfl
      refine ⟨_, _, hother, ⟨last, hoption⟩, (hinner _ _ hheader).2 _ hbody, hdot, ?_⟩
      -- The check has bound the variables of the header, and the execution has not.
      have hnew := (hfits.grown (hpipe.checkHeader_grows hheader)).grown
        (checkNodes_grows hbodyProper hbody)
      rw [← hvars] at hnew
      exact hnew.mono fun x hx => staleOtherwise_range hx
  | round hheader heval hitems hdone hbind =>
      obtain ⟨behind, -, hnodes, -⟩ := run_checkNodes_block hchecked hheader
      obtain ⟨⟨hpipe, hbody, -⟩, -⟩ := hproper
      obtain ⟨⟨hpipeTrusted, hinner⟩, -⟩ := htrusted
      obtain ⟨known, hcommands, hitem, rfl⟩ := hpipe.run_checkHeader_range hheader
      have hspec := hpipe.evalCommands_describes hpipeTrusted hworld hdot hfits hcommands
      obtain ⟨hvalue, hvars⟩ := hspec.of_ok heval rfl
      have hdescribes := hvalue.item hitems (List.mem_append_right _ List.mem_cons_self)
      exact ⟨_, _, hbody, ⟨behind, hnodes⟩, (hinner _ _ hheader).1, hdescribes,
        hpipe.rounds_fit hbody hfits hvars hdone hdescribes hitem hbind⟩

end Point

/-! ## Runs -/

section Runs

variable {t : Template} {params dest : Shape} {globals : List String} {root : Value}
  {seeds : List (String × Value)}

/-- At the start, nothing is known about a global, and the dollar sign is the parameter. -/
theorem ofVariable_start (params : Shape) (globals : List String) (x : String) :
    Known.ofVariable (.start params globals) x = .anything ∨
      (x = "$" ∧ x ∉ globals ∧ Known.ofVariable (.start params globals) x = .shape params) := by
  rw [Known.ofVariable, KnownVariables.start, List.reverse_cons, List.lookup_append]
  cases hlookup : ((globals.map fun name => (name, Known.anything)).reverse).lookup x with
  | some known =>
      have hmem := List.mem_reverse.mp (mem_of_lookup hlookup)
      obtain ⟨name, -, heq⟩ := List.mem_map.mp hmem
      cases heq
      exact .inl rfl
  | none =>
      rw [Option.none_or, List.lookup_cons]
      by_cases hx : x = "$"
      · refine .inr ⟨hx, fun hglobal => ?_, by rw [beq_iff_eq.mpr hx]; rfl⟩
        rw [SqlTemplate.lookup_eq_none, List.map_reverse, List.mem_reverse] at hlookup
        exact hlookup (by simpa using hglobal)
      · rw [beq_eq_false_iff_ne.mpr hx]
        exact .inl rfl

/-- At the start, the check is right about all variables. -/
theorem fits_start {env : Env σ} (hseeds : ∀ x, x ∈ seeds.map (·.1) → x ∈ globals)
    (hroot : params.Describes env.root) :
    Fits env dest (fun _ => False) (.start params globals) (ofSeeds seeds) := by
  intro x v _ hv
  -- A global may hide the dollar sign, and then nothing is known about it.
  rcases ofVariable_start params globals x with hany | ⟨hdollar, hglobal, hshape⟩
  · rw [hany]
    trivial
  · have hnone : List.lookup x (ofSeeds seeds) = none := by
      rw [SqlTemplate.lookup_eq_none, ofSeeds, List.map_reverse, List.mem_reverse]
      exact fun hmem => hglobal (hseeds x hmem)
    rw [Env.value?, hnone, if_pos hdollar] at hv
    cases hv
    rw [hshape]
    exact hroot

/-- The check is right when the execution of a template that was read and checked starts. -/
theorem Point.right_start {name source : String} {isFunction : String → Bool}
    (hparse : Template.parse name source isFunction globals = .ok t)
    (hcheck : t.check params dest globals = .ok ()) (htrusted : t.Trusted params dest globals)
    {env : Env σ} (hroot : params.Describes env.root)
    (hseeds : ∀ x, x ∈ seeds.map (·.1) → x ∈ globals) (world : σ) :
    (Point.start t params globals env.root seeds world).Right env dest isFunction ("$" :: globals)
      (fun _ => False) where
  proper := Template.parse_proper hparse
  checked := by
    obtain ⟨⟨⟨⟩, types'⟩, hrun, -⟩ := map_eq_ok.mp hcheck
    exact ⟨types', hrun⟩
  trusted := htrusted
  dot := hroot
  fits := fits_start hseeds hroot

/-- **The check is right at every point of an execution.** -/
theorem Point.Right.reaches {env : Env σ} {isFunction : String → Bool} {scope : List String}
    {stale : String → Prop} {first point : Point σ}
    (h : first.Right env dest isFunction scope stale) (hworld : env.world.YieldsDest)
    (hreaches : Point.Reaches env dest first point) :
    ∃ scope stale, point.Right env dest isFunction scope stale := by
  induction hreaches with
  | refl => exact ⟨scope, stale, h⟩
  | tail _ hstep ih =>
      obtain ⟨scope, stale, hright⟩ := ih
      exact hright.step hworld hstep

end Runs

end SqlTemplate
