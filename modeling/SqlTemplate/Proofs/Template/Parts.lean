import Mathlib
import SqlTemplate.Statement.Marking

/-!
# What occurs in a template

Statements about templates speak of every operand, pipeline and text that occurs somewhere in a
tree. They are collected here as lists, so that "every" and "some" are membership: the operands of
a pipeline at any depth, the pipelines of nodes, and their texts. The names that a list of nodes
declares for what stands behind it are those of its own actions, not those inside its blocks.
-/

set_option autoImplicit false

namespace SqlTemplate

/-- An action as it stands in a source. -/
def braced (content : String) : String := "\x7b\x7b" ++ content ++ "\x7d\x7d"

/-! ## Operands -/

mutual

/-- The operands that occur in an operand, itself among them. -/
def Operand.parts : Operand → List Operand
  | .chain base names => .chain base names :: base.parts
  | .pipe declared assigns commands => .pipe declared assigns commands :: commandsParts commands
  | a => [a]

/-- The operands that occur in operands. -/
def operandsParts : List Operand → List Operand
  | [] => []
  | a :: rest => a.parts ++ operandsParts rest

/-- The operands that occur in commands. -/
def commandsParts : List (List Operand) → List Operand
  | [] => []
  | command :: rest => operandsParts command ++ commandsParts rest

end

theorem Operand.mem_parts_self (a : Operand) : a ∈ a.parts := by
  cases a <;> simp [Operand.parts]

theorem operandsParts_append (operands others : List Operand) :
    operandsParts (operands ++ others) = operandsParts operands ++ operandsParts others := by
  induction operands with
  | nil => rfl
  | cons a rest ih => simp [operandsParts, ih]

theorem mem_operandsParts {a : Operand} {operands : List Operand} :
    a ∈ operandsParts operands ↔ ∃ b ∈ operands, a ∈ b.parts := by
  induction operands with
  | nil => simp [operandsParts]
  | cons b rest ih => simp [operandsParts, ih]

theorem mem_commandsParts {a : Operand} {commands : List (List Operand)} :
    a ∈ commandsParts commands ↔ ∃ command ∈ commands, a ∈ operandsParts command := by
  induction commands with
  | nil => simp [commandsParts]
  | cons command rest ih => simp [commandsParts, ih]

mutual

/-- What occurs in an operand occurs wherever the operand does. -/
theorem Operand.mem_parts_trans {a b c : Operand} (hb : b ∈ a.parts) (hc : c ∈ b.parts) :
    c ∈ a.parts := by
  match a with
  | .chain base names =>
    rcases List.mem_cons.mp hb with rfl | hb
    · exact hc
    · exact List.mem_cons_of_mem _ (Operand.mem_parts_trans hb hc)
  | .pipe declared assigns commands =>
    rcases List.mem_cons.mp hb with rfl | hb
    · exact hc
    · exact List.mem_cons_of_mem _ (mem_commandsParts_trans hb hc)
  | .dot | .nil | .bool _ | .int _ | .float _ | .text _ | .field _ | .variable _ _ | .function _ =>
    obtain rfl := List.mem_singleton.mp hb
    exact hc

theorem mem_operandsParts_trans {operands : List Operand} {b c : Operand}
    (hb : b ∈ operandsParts operands) (hc : c ∈ b.parts) : c ∈ operandsParts operands := by
  match operands with
  | [] => cases hb
  | a :: rest =>
    rcases List.mem_append.mp hb with hb | hb
    · exact List.mem_append_left _ (Operand.mem_parts_trans hb hc)
    · exact List.mem_append_right _ (mem_operandsParts_trans hb hc)

theorem mem_commandsParts_trans {commands : List (List Operand)} {b c : Operand}
    (hb : b ∈ commandsParts commands) (hc : c ∈ b.parts) : c ∈ commandsParts commands := by
  match commands with
  | [] => cases hb
  | command :: rest =>
    rcases List.mem_append.mp hb with hb | hb
    · exact List.mem_append_left _ (mem_operandsParts_trans hb hc)
    · exact List.mem_append_right _ (mem_commandsParts_trans hb hc)

end

/-! ## Pipelines -/

namespace Pipeline

/-- The operands that occur in a pipeline. -/
def parts (p : Pipeline) : List Operand := commandsParts p.commands

/-- The variables that a pipeline declares; one that assigns declares none. -/
def declares (p : Pipeline) : List String := if p.assigns then [] else p.declared

/-- Whether a pipeline gives an existing variable of the name another value. -/
def Assigns (p : Pipeline) (x : String) : Prop := p.assigns = true ∧ x ∈ p.declared

/-- Whether a pipeline reads the variable of the name. -/
def Reads (p : Pipeline) (x : String) : Prop := ∃ names, .variable x names ∈ p.parts

/-- Whether a pipeline calls the function of the name. -/
def Calls (p : Pipeline) (f : String) : Prop := .function f ∈ p.parts

/-- A pipeline declares or assigns the variables that it binds. -/
theorem mem_declared {p : Pipeline} {x : String} : x ∈ p.declared ↔ x ∈ p.declares ∨ p.Assigns x := by
  rw [declares, Assigns]
  cases p.assigns <;> simp

theorem scope_eq (p : Pipeline) (vars : List String) :
    p.scope vars = vars ++ p.declares := by
  rw [scope, declares]
  by_cases h : p.assigns <;> simp [h]

end Pipeline

/-! ## Nodes -/

mutual

/-- The pipelines that occur in a node. -/
def Node.pipelines : Node → List Pipeline
  | .text _ => []
  | .action _ pipe => [pipe]
  | .block _ _ pipe body otherwise => pipe :: (nodesPipelines body ++ optionPipelines otherwise)

/-- The pipelines that occur in nodes. -/
def nodesPipelines : List Node → List Pipeline
  | [] => []
  | node :: rest => node.pipelines ++ nodesPipelines rest

/-- The pipelines that occur in the alternative of a block. -/
def optionPipelines : Option (List Node) → List Pipeline
  | none => []
  | some nodes => nodesPipelines nodes

end

mutual

/-- The texts that occur in a node. -/
def Node.texts : Node → List String
  | .text s => [s]
  | .action _ _ => []
  | .block _ _ _ body otherwise => nodesTexts body ++ optionTexts otherwise

/-- The texts that occur in nodes. -/
def nodesTexts : List Node → List String
  | [] => []
  | node :: rest => node.texts ++ nodesTexts rest

/-- The texts that occur in the alternative of a block. -/
def optionTexts : Option (List Node) → List String
  | none => []
  | some nodes => nodesTexts nodes

end

mutual

/-- The nodes that occur in a node, itself among them. -/
def Node.parts : Node → List Node
  | .block kind line pipe body otherwise =>
    .block kind line pipe body otherwise :: (nodesParts body ++ optionParts otherwise)
  | node => [node]

/-- The nodes that occur in nodes. -/
def nodesParts : List Node → List Node
  | [] => []
  | node :: rest => node.parts ++ nodesParts rest

/-- The nodes that occur in the alternative of a block. -/
def optionParts : Option (List Node) → List Node
  | none => []
  | some nodes => nodesParts nodes

end

/-- The variables that a node declares for the nodes behind it. -/
def Node.declares : Node → List String
  | .action _ pipe => pipe.declares
  | _ => []

/-- The variables that nodes declare for what stands behind them. -/
def nodesDeclares (nodes : List Node) : List String := nodes.flatMap Node.declares

/-- The pipeline of a node itself. -/
def Node.header? : Node → Option Pipeline
  | .text _ => none
  | .action _ pipe => some pipe
  | .block _ _ pipe _ _ => some pipe

/-- Whether a template calls the function of the name. -/
def Template.Calls (t : Template) (f : String) : Prop := ∃ p ∈ nodesPipelines t.root, p.Calls f

end SqlTemplate
