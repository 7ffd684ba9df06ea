import Mathlib
import SqlTemplate.Proofs.Execution.Logic
import SqlTemplate.Proofs.Statement.Spacing
import SqlTemplate.Statement.Rendering

/-!
# Layout

How the texts of a template are laid out shows neither in the statement nor in anything else: two
trees that differ only in the runs of blanks of their texts do the same in a world that does not
see layout (`walkNode_relaid`), and the world of a statement is one, since it narrows what it takes
(`Rendering.run_relaid`).
-/

set_option autoImplicit false

namespace SqlTemplate

/-! ## Trees that differ in layout -/

mutual

/-- Whether two nodes are the same but for the runs of blanks in their texts. -/
def Node.Relaid : Node → Node → Prop
  | .text s, .text t => SqlTemplate.Relaid s.toList t.toList
  | .action line pipe, .action line' pipe' => line = line' ∧ pipe = pipe'
  | .block kind line pipe body otherwise, .block kind' line' pipe' body' otherwise' =>
    kind = kind' ∧ line = line' ∧ pipe = pipe' ∧ NodesRelaid body body' ∧
      OptionRelaid otherwise otherwise'
  | _, _ => False

/-- Whether nodes are one by one the same but for the runs of blanks in their texts. -/
def NodesRelaid : List Node → List Node → Prop
  | [], [] => True
  | node :: rest, node' :: rest' => node.Relaid node' ∧ NodesRelaid rest rest'
  | _, _ => False

/-- Whether two alternatives, if there are any, are the same but for the runs of blanks in their
texts. -/
def OptionRelaid : Option (List Node) → Option (List Node) → Prop
  | none, none => True
  | some nodes, some nodes' => NodesRelaid nodes nodes'
  | _, _ => False

end

/-- Whether two templates of one name differ only in the runs of blanks of their texts. -/
def Template.Relaid (t t' : Template) : Prop := t.name = t'.name ∧ NodesRelaid t.root t'.root

/-! ## Walking them -/

section Walk

variable {σ : Type} {env : Env σ}

mutual

/-- Nodes that differ in layout do the same in a world that does not see layout. -/
theorem walkNode_relaid (hworld : ∀ s t : String, Relaid s.toList t.toList →
    env.world.literal s = env.world.literal t) (dot : Value) {node node' : Node}
    (h : node.Relaid node') : walkNode env dot node = walkNode env dot node' := by
  match node, node' with
  | .text s, .text t =>
    rw [walkNode, walkNode, Exec.literal, Exec.literal, hworld s t h]
  | .action line pipe, .action line' pipe' =>
    obtain ⟨rfl, rfl⟩ := h
    rfl
  | .block kind line pipe body otherwise, .block kind' line' pipe' body' otherwise' =>
    obtain ⟨rfl, rfl, rfl, hbody, hotherwise⟩ := h
    have hotherwise := walkOption_relaid hworld dot hotherwise
    by_cases hkind : kind = .range
    · subst hkind
      have hround : ∀ mark, rangeRound env mark pipe body = rangeRound env mark pipe body' := by
        intro mark
        funext key item
        rw [rangeRound, rangeRound, walkNodes_relaid hworld item hbody]
      simp only [walkNode_range, hotherwise, hround]
    · have hwalk := fun dot => walkNodes_relaid hworld dot hbody
      simp only [walkNode_block env dot hkind, hotherwise, hwalk]
  | .text _, .action .. | .text _, .block .. | .action .., .text _ | .action .., .block ..
  | .block .., .text _ | .block .., .action .. => exact h.elim

theorem walkNodes_relaid (hworld : ∀ s t : String, Relaid s.toList t.toList →
    env.world.literal s = env.world.literal t) (dot : Value) {nodes nodes' : List Node}
    (h : NodesRelaid nodes nodes') : walkNodes env dot nodes = walkNodes env dot nodes' := by
  match nodes, nodes' with
  | [], [] => rfl
  | node :: rest, node' :: rest' =>
    rw [walkNodes, walkNodes, walkNode_relaid hworld dot h.1, walkNodes_relaid hworld dot h.2]
  | [], _ :: _ | _ :: _, [] => exact h.elim

theorem walkOption_relaid (hworld : ∀ s t : String, Relaid s.toList t.toList →
    env.world.literal s = env.world.literal t) (dot : Value) {nodes nodes' : Option (List Node)}
    (h : OptionRelaid nodes nodes') : walkOption env dot nodes = walkOption env dot nodes' := by
  match nodes, nodes' with
  | none, none => rfl
  | some nodes, some nodes' =>
      exact walkNodes_relaid hworld dot (show NodesRelaid nodes nodes' from h)
  | none, some _ | some _, none => exact h.elim

end

end Walk

/-- Templates that differ in layout are executed alike in a world that does not see layout. -/
theorem Template.execute_relaid {σ : Type} {world : World σ} {t t' : Template}
    (hworld : ∀ s t : String, SqlTemplate.Relaid s.toList t.toList →
      world.literal s = world.literal t) (h : t.Relaid t') (policy : MissingKey) (data : Value)
    (seeds : List (String × Value)) (start : σ) :
    t.execute world policy data seeds start = t'.execute world policy data seeds start := by
  obtain ⟨hname, hroot⟩ := h
  have hwalk : walkNodes ⟨world, policy, data⟩ data t.root =
      walkNodes ⟨world, policy, data⟩ data t'.root :=
    walkNodes_relaid hworld data hroot
  rw [execute_eq, execute_eq, hname, hwalk]

/-! ## Marking them -/

mutual

theorem Node.Relaid.mark {node node' : Node} (h : node.Relaid node') :
    node.mark.Relaid node'.mark := by
  match node, node' with
  | .text s, .text t => exact h
  | .action line pipe, .action line' pipe' =>
    obtain ⟨rfl, rfl⟩ := h
    exact ⟨rfl, rfl⟩
  | .block kind line pipe body otherwise, .block kind' line' pipe' body' otherwise' =>
    obtain ⟨rfl, rfl, rfl, hbody, hotherwise⟩ := h
    exact ⟨rfl, rfl, rfl, nodesRelaid_mark hbody, optionRelaid_mark hotherwise⟩
  | .text _, .action .. | .text _, .block .. | .action .., .text _ | .action .., .block ..
  | .block .., .text _ | .block .., .action .. => exact h.elim

theorem nodesRelaid_mark {nodes nodes' : List Node} (h : NodesRelaid nodes nodes') :
    NodesRelaid (markNodes nodes) (markNodes nodes') := by
  match nodes, nodes' with
  | [], [] => trivial
  | node :: rest, node' :: rest' =>
    exact ⟨Node.Relaid.mark (show node.Relaid node' from h.1), nodesRelaid_mark h.2⟩
  | [], _ :: _ | _ :: _, [] => exact h.elim

theorem optionRelaid_mark {nodes nodes' : Option (List Node)} (h : OptionRelaid nodes nodes') :
    OptionRelaid (markOption nodes) (markOption nodes') := by
  match nodes, nodes' with
  | none, none => trivial
  | some nodes, some nodes' => exact nodesRelaid_mark (show NodesRelaid nodes nodes' from h)
  | none, some _ | some _, none => exact h.elim

end

/-- Marking does not look at texts. -/
theorem Template.Relaid.mark {t t' : Template} (h : t.Relaid t') : t.mark.Relaid t'.mark :=
  ⟨h.1, nodesRelaid_mark h.2⟩

/-! ## Statements -/

/-- Statements do not see layout. -/
theorem Rendering.literal_relaid (recipe : Recipe) (s t : String)
    (h : Relaid s.toList t.toList) : (world recipe).literal s = (world recipe).literal t := by
  funext r
  show some (r.write s) = some (r.write t)
  rw [write, write, Spacing.write_eq_takes, Spacing.write_eq_takes, Spacing.takes_relaid h]

/-- **Layout does not show in statements.** Two trees that differ only in the runs of blanks of
their texts come to the same end, with the same text and arguments, destinations and mappers, on any
runner; and so do their marked forms. -/
theorem Rendering.run_relaid {t t' : Template} (h : t.Relaid t') (functions : Functions)
    (placeholder : Placeholder) (policy : MissingKey) (params : Value)
    (vars : List (String × Value)) (start : Rendering) :
    Rendering.run ⟨t, functions, placeholder, policy⟩ params vars start =
        Rendering.run ⟨t', functions, placeholder, policy⟩ params vars start ∧
      Rendering.run ⟨t.mark, functions, placeholder, policy⟩ params vars start =
        Rendering.run ⟨t'.mark, functions, placeholder, policy⟩ params vars start := by
  -- What the world of a statement does depends on its functions and placeholders, not on its tree.
  have hrun : ∀ {t t' : Template}, t.Relaid t' →
      Rendering.run ⟨t, functions, placeholder, policy⟩ params vars start =
        Rendering.run ⟨t', functions, placeholder, policy⟩ params vars start := by
    intro t t' h
    have hworld := literal_relaid ⟨t, functions, placeholder, policy⟩
    exact Template.execute_relaid hworld h policy params vars start
  exact ⟨hrun h, hrun h.mark⟩

/-- An indented block and one on a single line make the same statement. -/
theorem Rendering.run_relaid_indented :
    let title : Pipeline := ⟨[], false, [[.field ["title"]]]⟩
    let t : Template := ⟨"find", [.text "id\n", .block .conditional 2 title
      [.text "\n  = ", .action 3 title, .text "\n"] none]⟩
    let t' : Template := ⟨"find", [.text "id ", .block .conditional 2 title
      [.text " = ", .action 3 title, .text " "] none]⟩
    let params : Value := .map [("title", .text "x")]
    let rendered := Rendering.run ⟨t.mark, [], .dollar, .error⟩ params [] .empty
    t.Relaid t' ∧ rendered.2.text.text = "id = $1" ∧
      rendered = Rendering.run ⟨t'.mark, [], .dollar, .error⟩ params [] .empty := by
  intro title t t' params rendered
  have hrun : ∀ {run other : List Char}, run ≠ [] → other ≠ [] → (∀ c ∈ run, isBlank c = true) →
      (∀ c ∈ other, isBlank c = true) → Relaid run other := fun hrun hother hblank hblank' => by
    simpa using Relaid.blanks hrun hother hblank hblank' .nil
  have hname : Relaid ['i', 'd', '\n'] ['i', 'd', ' '] :=
    .solid rfl (.solid rfl (hrun (by simp) (by simp) (by simp [isBlank]) (by simp [isBlank])))
  have hequals : Relaid (['\n', ' ', ' '] ++ ['=', ' ']) ([' '] ++ ['=', ' ']) :=
    .blanks (by simp) (by simp) (by simp [isBlank]) (by simp [isBlank])
      (.solid rfl (hrun (by simp) (by simp) (by simp [isBlank]) (by simp [isBlank])))
  have hend : Relaid ['\n'] [' '] :=
    hrun (by simp) (by simp) (by simp [isBlank]) (by simp [isBlank])
  have h : t.Relaid t' := by
    refine ⟨rfl, ?_, ⟨rfl, rfl, rfl, ⟨?_, ⟨rfl, rfl⟩, ?_, trivial⟩, trivial⟩, trivial⟩
    · exact hname
    · exact hequals
    · exact hend
  have htext : rendered.2.text.text = "id = $1" := by
    decide +kernel
  refine ⟨h, htext, ?_⟩
  exact (Rendering.run_relaid h [] .dollar .error _ [] .empty).2

end SqlTemplate
