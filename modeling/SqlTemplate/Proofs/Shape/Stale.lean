import Mathlib
import SqlTemplate.Proofs.Shape.Operands

/-!
# Stale variables

The check goes through the body of a range once and through the alternative of a block behind its
body, and it drops at the end of a block what came since its beginning; the execution goes through
the body for every item, chooses one of the lists, and does not leave the alternative of a range.
Where the two part, variables become stale:

- a variable from outside a range that a round assigns, because the round before may have;
- a variable of the header of a range, in the alternative, and what a body declares, in the
  alternative of its block: the check still has these in front;
- a variable that the alternative of a range has declared, behind the range;
- a variable that an alternative assigns where the check has another of that name in front.

A variable is fresh again when it is declared or assigned where the check notices. A template whose
pipelines read no stale variable about which the check claims to know something is trusted.
-/

set_option autoImplicit false

namespace SqlTemplate

/-! ## Staleness -/

section Stale

variable (stale : String → Prop)

/-- The variables that are stale in the body of a block. -/
def staleInside (kind : BlockKind) (pipe : Pipeline) (body : List Node) (x : String) : Prop :=
  x ∉ pipe.declared ∧ (stale x ∨ (kind = .range ∧ NodesUse Pipeline.Assigns x body))

/-- The variables that are stale in the alternative of a block. -/
def staleOtherwise (kind : BlockKind) (pipe : Pipeline) (body : List Node) (x : String) : Prop :=
  x ∈ nodesDeclares body ∨ (¬ NodesForget x body ∧
    ((kind = .range ∧ x ∈ pipe.declares) ∨ (x ∉ pipe.declared ∧ stale x)))

/-- The variables that are stale behind a node. -/
def Node.staleBehind (node : Node) (x : String) : Prop :=
  x ∉ node.declares ∧ ¬ node.Forgets x ∧
    (stale x ∨ x ∈ node.leaks ∨ node.Uses Pipeline.Assigns x)

/-- A variable that is stale behind the header of a range, which the check has bound alone, and behind
its body is stale in its alternative. -/
theorem staleOtherwise_range {stale : String → Prop} {pipe : Pipeline} {body : List Node}
    {x : String}
    (h : x ∈ nodesDeclares body ∨ (¬ NodesForget x body ∧
      (x ∈ pipe.declares ∨ (¬ pipe.Assigns x ∧ stale x)))) :
    staleOtherwise stale .range pipe body x := by
  refine h.imp_right fun ⟨hforgets, hx⟩ => ⟨hforgets, ?_⟩
  rcases hx with hdeclares | ⟨hassigns, hstale⟩
  · exact .inl ⟨rfl, hdeclares⟩
  · by_cases hdeclared : x ∈ pipe.declared
    · exact .inl ⟨rfl, (Pipeline.mem_declared.mp hdeclared).resolve_right hassigns⟩
    · exact .inr ⟨hdeclared, hstale⟩

end Stale

/-! ## Trust -/

/-- Whether the check claims to know something about a value: its type, or that it is a place in the
destination. -/
def Known.Claims : Known → Prop
  | .shape _ | .place _ => True
  | .literal | .anything => False

theorem Known.describes_of_not_claims {dest : Shape} {known : Known} (h : ¬ known.Claims)
    (v : Value) : known.Describes dest v := by
  match known with
  | .shape _ | .place _ => exact absurd trivial h
  | .literal | .anything => trivial

/-- Whether a pipeline reads no stale variable about which the check claims to know something. -/
def Pipeline.Trusted (stale : String → Prop) (types : KnownVariables) (p : Pipeline) : Prop :=
  ∀ x, p.Reads x → stale x → ¬ (Known.ofVariable types x).Claims

mutual

/-- Whether the pipelines of a node can be trusted where the check comes to the node. -/
def Node.Trusted (dest : Shape) (dot : Known) (stale : String → Prop) (types : KnownVariables) :
    Node → Prop
  | .text _ => True
  | .action _ pipe => pipe.Trusted stale types
  | .block kind _ pipe body otherwise =>
    pipe.Trusted stale types ∧
      ∀ inner inside, (checkHeader dest dot kind pipe).run types = .ok (inner, inside) →
        NodesTrusted dest inner (staleInside stale kind pipe body) inside body ∧
          ∀ behind, (checkNodes dest inner body).run inside = .ok ((), behind) →
            OptionTrusted dest dot (staleOtherwise stale kind pipe body) behind otherwise

/-- Whether the pipelines of nodes can be trusted where the check comes to the nodes. -/
def NodesTrusted (dest : Shape) (dot : Known) (stale : String → Prop) (types : KnownVariables) :
    List Node → Prop
  | [] => True
  | node :: rest =>
    node.Trusted dest dot stale types ∧
      ∀ behind, (checkNode dest dot node).run types = .ok ((), behind) →
        NodesTrusted dest dot (node.staleBehind stale) behind rest

/-- Whether the pipelines of an alternative can be trusted where the check comes to it. -/
def OptionTrusted (dest : Shape) (dot : Known) (stale : String → Prop) (types : KnownVariables) :
    Option (List Node) → Prop
  | none => True
  | some nodes => NodesTrusted dest dot stale types nodes

end

/-- What the check knows about variables at the start. -/
def KnownVariables.start (params : Shape) (globals : List String) : KnownVariables :=
  (("$", Known.shape params) :: globals.map fun name => (name, Known.anything)).reverse

/-- Whether no pipeline of a template reads a stale variable about which the check claims to know
something; at the start, no variable is stale. -/
def Template.Trusted (t : Template) (params dest : Shape) (globals : List String) : Prop :=
  NodesTrusted dest (.shape params) (fun _ => False) (.start params globals) t.root

/-! ## Variables through nodes -/

open Exec Variables

variable {σ : Type} {env : Env σ} {dest : Shape} {dot known inner : Known} {value : Value}
  {stale : String → Prop} {types types' : KnownVariables} {vars : Variables}
  {isFunction : String → Bool} {scope : List String}

/-- What a trusted pipeline reads is as it is known. -/
theorem Pipeline.Trusted.reads {p : Pipeline} (h : p.Trusted stale types)
    (hfits : Fits env dest stale types vars) (x : String) (hx : p.Reads x) (v : Value)
    (hv : env.value? vars x = some v) : (Known.ofVariable types x).Describes dest v := by
  by_cases hstale : stale x
  · exact Known.describes_of_not_claims (h x hx hstale) v
  · exact hfits x v hstale hv

/-- The value of the commands of a trusted pipeline is as it is known. -/
theorem Pipeline.Proper.evalCommands_describes {context : PipelineContext} {p : Pipeline}
    (hp : p.Proper ⟨isFunction, scope⟩ context) (htrusted : p.Trusted stale types)
    (hworld : env.world.YieldsDest) (hdot : dot.Describes dest value)
    (hfits : Fits env dest stale types vars)
    (h : (SqlTemplate.checkCommands dest dot false .anything p.commands).run types
      = .ok (known, types')) :
    Spec (Frame.Has vars) (evalCommands env value none p.commands)
      (Frame.Yields dest known vars) anyFault :=
  SqlTemplate.evalCommands_describes hworld hdot none (Known.describes_anything _)
    hp.commands.2 hp.parts (fun x fields hx => htrusted.reads hfits x ⟨fields, hx⟩) h

/-- Behind a trusted pipeline, its variables fit. -/
theorem Pipeline.Proper.evalPipeline_fits {context : PipelineContext} {p : Pipeline}
    (hp : p.Proper ⟨isFunction, scope⟩ context) (htrusted : p.Trusted stale types)
    (hworld : env.world.YieldsDest) (hdot : dot.Describes dest value)
    (hfits : Fits env dest stale types vars)
    (hcommands : (SqlTemplate.checkCommands dest dot false .anything p.commands).run types
      = .ok (known, types))
    (hbind : (Check.bindAll p.assigns known p.declared).run types = .ok ((), types')) :
    Spec (Frame.Has vars) (evalPipeline env value p)
      (fun v frame => known.Describes dest v ∧
        frame.Fits env dest (fun x => x ∉ p.declared ∧ stale x) types') anyFault := by
  refine Spec.bind_of (hp.evalCommands_describes htrusted hworld hdot hfits hcommands) fun v hv => ?_
  have hall : Spec (Frame.Fits env dest stale types) (Exec.bindAll p.assigns v p.declared) _ _ :=
    bindAll_fits p.assigns p.declared hv hbind
  refine Spec.bind (hall.imp_start ?_) fun _ => Spec.pure fun _ h => ⟨hv, h⟩
  rintro frame rfl
  exact hfits

/-- Behind a node that declares nothing, the variables fit as before, except those that it makes
stale. -/
theorem Fits.behindNode (hfits : Fits env dest stale types vars) (node : Node)
    (hnode : node.Proper isFunction scope) (hdeclares : node.declares = [])
    (h : (checkNode dest dot node).run types = .ok ((), types')) {frame : Frame σ}
    (hframe : frame.Behind (node.Uses Pipeline.Assigns) node.declares node.leaks vars) :
    frame.Fits env dest (node.staleBehind stale) types' := by
  obtain ⟨extra, outer, hvars, hkept, -, hextra⟩ := hframe
  obtain ⟨front, after, rfl, hfront, hfades⟩ := checkNode_grows hnode h
  rw [hdeclares] at hfront hextra
  obtain rfl : front = [] := List.map_eq_nil_iff.mp hfront
  show Fits env dest _ _ frame.vars
  rw [hvars]
  -- First the values follow the execution, and then the knowledge follows the check.
  refine ((hfits.kept hkept).behind.faded hfades).mono ?_
  rintro x ⟨hforgets, hx⟩
  refine ⟨by simp [hdeclares], hforgets, ?_⟩
  rcases hx with (hstale | hassigned) | hmem
  · exact .inl hstale
  · exact .inr (.inr hassigned)
  · exact .inr (.inl ((hextra x hmem).resolve_left List.not_mem_nil))

end SqlTemplate
