import Mathlib
import SqlTemplate.Proofs.Template.Reading

/-!
# Free variables

A list of nodes needs a variable if it reads or assigns it at a place where it has not declared it
itself. Scopes are those of executions here: the variables of the header of a range are bound while
its body is executed, item by item, and not while its alternative is. The reader keeps them in
scope there, which makes the only difference between the two: `properNodes_need` shows that
a variable needed by nodes that were read is in scope, unless it is one of these.
-/

set_option autoImplicit false

namespace SqlTemplate

/-! ## Variables from outside -/

/-- Whether a pipeline needs a variable: the dollar sign can be read always. -/
def Pipeline.Needs (p : Pipeline) (x : String) : Prop := (p.Reads x ∧ x ≠ "$") ∨ p.Assigns x

mutual

/-- Whether a node uses a variable from outside, where `use` tells what pipelines use. -/
def Node.Uses (use : Pipeline → String → Prop) (x : String) : Node → Prop
  | .text _ => False
  | .action _ pipe => use pipe x
  | .block kind _ pipe body otherwise =>
    use pipe x ∨ (x ∉ pipe.declares ∧ NodesUse use x body) ∨
      ((kind = .range ∨ x ∉ pipe.declares) ∧ OptionUses use x otherwise)

/-- Whether nodes use a variable from outside. -/
def NodesUse (use : Pipeline → String → Prop) (x : String) : List Node → Prop
  | [] => False
  | node :: rest => node.Uses use x ∨ (x ∉ node.declares ∧ NodesUse use x rest)

/-- Whether the alternative of a block uses a variable from outside. -/
def OptionUses (use : Pipeline → String → Prop) (x : String) : Option (List Node) → Prop
  | none => False
  | some nodes => NodesUse use x nodes

end

mutual

/-- The variables that a node leaves behind when it is executed, although it is a block: the
alternative of a range is executed without leaving the block, so what it declares stays. -/
def Node.leaks : Node → List String
  | .block .range _ _ _ otherwise => optionLeaks otherwise
  | _ => []

/-- The variables that the blocks among nodes leave behind. -/
def nodesLeaks : List Node → List String
  | [] => []
  | node :: rest => node.leaks ++ nodesLeaks rest

/-- The variables that stay behind an alternative that is not left. -/
def optionLeaks : Option (List Node) → List String
  | none => []
  | some nodes => nodesDeclares nodes ++ nodesLeaks nodes

end

/-- Whether nodes need a variable from outside. -/
abbrev NodesNeed (x : String) (nodes : List Node) : Prop := NodesUse Pipeline.Needs x nodes

/-- Whether some range among the nodes needs a variable of its header in its alternative. -/
def HeaderNeeded (x : String) (nodes : List Node) : Prop :=
  ∃ line pipe body otherwise, .block .range line pipe body (some otherwise) ∈ nodesParts nodes ∧
    x ∈ pipe.declares ∧ NodesNeed x otherwise

/-! ## Scopes of the reader -/

theorem Pipeline.Proper.needs {names : Names} {context : PipelineContext} {p : Pipeline}
    (h : p.Proper names context) {x : String} (hx : p.Needs x) : x ∈ names.vars := by
  rcases hx with ⟨⟨fields, hread⟩, _⟩ | hassign
  · exact h.parts _ hread
  · exact h.assigned x hassign

theorem headerNeeded_cons {x : String} {node : Node} {rest : List Node} :
    HeaderNeeded x (node :: rest) ↔ HeaderNeeded x [node] ∨ HeaderNeeded x rest := by
  simp only [HeaderNeeded, nodesParts, List.mem_append, List.append_nil]
  constructor
  · rintro ⟨line, pipe, body, otherwise, hmem | hmem, h⟩
    · exact .inl ⟨line, pipe, body, otherwise, hmem, h⟩
    · exact .inr ⟨line, pipe, body, otherwise, hmem, h⟩
  · rintro (⟨line, pipe, body, otherwise, hmem, h⟩ | ⟨line, pipe, body, otherwise, hmem, h⟩)
    · exact ⟨line, pipe, body, otherwise, .inl hmem, h⟩
    · exact ⟨line, pipe, body, otherwise, .inr hmem, h⟩

/-- What occurs in the lists of a block occurs in the block. -/
theorem HeaderNeeded.block {x : String} {kind : BlockKind} {line : Nat} {pipe : Pipeline}
    {body nodes : List Node} {otherwise : Option (List Node)} (h : HeaderNeeded x nodes)
    (hnodes : nodes = body ∨ otherwise = some nodes) :
    HeaderNeeded x [.block kind line pipe body otherwise] := by
  obtain ⟨line', pipe', body', otherwise', hmem, h⟩ := h
  refine ⟨line', pipe', body', otherwise', ?_, h⟩
  simp only [nodesParts, Node.parts, List.append_nil, List.mem_cons, List.mem_append]
  rcases hnodes with rfl | rfl
  · exact .inr (.inl hmem)
  · exact .inr (.inr hmem)

mutual

/-- A variable that a proper node needs is in scope, or in the header of a range that needs it in
its alternative. -/
theorem Node.proper_need {isFunction : String → Bool} {scope : List String} {x : String}
    {node : Node}
    (h : node.Proper isFunction scope) (hx : node.Uses Pipeline.Needs x) :
    x ∈ scope ∨ HeaderNeeded x [node] := by
  match node with
  | .text s => exact hx.elim
  | .action line pipe => exact .inl (Pipeline.Proper.needs h hx)
  | .block kind line pipe body otherwise =>
    obtain ⟨hpipe, hbody, hother⟩ := h
    rw [Pipeline.scope_eq] at hbody hother
    rcases hx with hx | ⟨hdeclares, hx⟩ | ⟨hdeclares, hx⟩
    · exact .inl (hpipe.needs hx)
    · rcases properNodes_need hbody hx with hscope | hheader
      -- In the body, the header's variables are in scope, and those are not from outside.
      · have := List.mem_append.mp hscope
        exact .inl (this.resolve_right hdeclares)
      · exact .inr (hheader.block (.inl rfl))
    · match otherwise with
      | none => exact hx.elim
      | some nodes =>
        rcases properNodes_need hother hx with hscope | hheader
        · by_cases hheader : x ∈ pipe.declares
          · -- Only the header declares it, so the block is such a range itself.
            obtain rfl : kind = .range := hdeclares.resolve_right fun h => h hheader
            exact .inr ⟨line, pipe, body, nodes, by simp [nodesParts, Node.parts], hheader, hx⟩
          · exact .inl ((List.mem_append.mp hscope).resolve_right hheader)
        · exact .inr (hheader.block (.inr rfl))

/-- **A variable that proper nodes need is in scope, or in the header of a range that needs it in
its alternative.** -/
theorem properNodes_need {isFunction : String → Bool} {scope : List String} {x : String}
    {nodes : List Node} (h : ProperNodes isFunction scope nodes) (hx : NodesNeed x nodes) :
    x ∈ scope ∨ HeaderNeeded x nodes := by
  match nodes with
  | [] => exact hx.elim
  | node :: rest =>
    rw [headerNeeded_cons]
    rcases hx with hx | ⟨hdeclares, hx⟩
    · rcases Node.proper_need h.1 hx with hscope | hheader
      · exact .inl hscope
      · exact .inr (.inl hheader)
    · rcases properNodes_need h.2 hx with hscope | hheader
      · exact .inl ((List.mem_append.mp hscope).resolve_right hdeclares)
      · exact .inr (.inr hheader)

end

end SqlTemplate
