import Mathlib
import SqlTemplate.Proofs.Template.Parts

/-!
# Marked trees

Marking goes through a whole tree: behind it, every action that prints hands its value to the
marker, in the body and in the alternative of every block. It adds one command to each of these
actions, unless the command is there already, and nothing else, so taking the commands away again
gives the tree back, and marking a second time finds nothing to do.
-/

set_option autoImplicit false

namespace SqlTemplate

/-! ## Pipelines -/

theorem isMarkerCall_iff {command : Command} :
    isMarkerCall command = true ↔ command = markerCall := by
  unfold isMarkerCall
  split
  · simp [markerCall]
  · rename_i hother
    simp only [Bool.false_eq_true, false_iff]
    rintro rfl
    exact hother markerName rfl

namespace Pipeline

/-- Whether the value of a pipeline is printed: it binds no variable, and there are commands. -/
def Prints (p : Pipeline) : Prop := p.declared = [] ∧ p.commands ≠ []

/-- Whether the last command of a pipeline is the bare call of the marker. -/
def endsMarked (p : Pipeline) : Bool := p.commands.getLast?.any isMarkerCall

theorem endsMarked_iff {p : Pipeline} :
    p.endsMarked = true ↔ p.commands.getLast? = some markerCall := by
  simp [endsMarked, Option.any_eq_true, isMarkerCall_iff]

/-- A pipeline with the call of the marker behind its commands. -/
def withMarker (p : Pipeline) : Pipeline := { p with commands := p.commands ++ [markerCall] }

theorem withMarker_endsMarked (p : Pipeline) : p.withMarker.endsMarked = true := by
  simp [endsMarked_iff, withMarker]

/-- A pipeline is marked if it prints and does not end with the marker yet. -/
theorem mark_of_prints {p : Pipeline} (h : p.Prints) (hend : p.endsMarked = false) :
    p.mark = p.withMarker := by
  obtain ⟨last, hlast⟩ := Option.isSome_iff_exists.mp (List.getLast?_isSome.mpr h.2)
  have hcall : isMarkerCall last = false := by simpa [endsMarked, hlast] using hend
  simp [mark, h.1, hlast, hcall, withMarker]

/-- Any other pipeline stays as it is. -/
theorem mark_of_not {p : Pipeline} (h : p.Prints → p.endsMarked = true) : p.mark = p := by
  by_cases hd : p.declared = []
  · cases hlast : p.commands.getLast? with
    | none => simp [mark, hlast]
    | some last =>
        have hprints : p.Prints := ⟨hd, List.ne_nil_of_mem (List.mem_of_getLast? hlast)⟩
        have hcall : isMarkerCall last = true := by simpa [endsMarked, hlast] using h hprints
        simp [mark, hlast, hcall]
  · simp [mark, hd]

/-- A marked pipeline that prints ends with the marker. -/
theorem mark_endsMarked {p : Pipeline} (h : p.mark.Prints) : p.mark.endsMarked = true := by
  by_cases hp : p.Prints → p.endsMarked = true
  · rw [mark_of_not hp] at h ⊢
    exact hp h
  · obtain ⟨hprints, hend⟩ := Classical.not_imp.mp hp
    rw [mark_of_prints hprints (Bool.eq_false_iff.mpr hend)]
    exact withMarker_endsMarked p

theorem mark_mark (p : Pipeline) : p.mark.mark = p.mark :=
  mark_of_not mark_endsMarked

/-- Deletes the last command of a pipeline if it is the marker's and the original does not end with
it. -/
def unmark (p original : Pipeline) : Pipeline :=
  if p.endsMarked ∧ ¬ original.endsMarked then { p with commands := p.commands.dropLast } else p

theorem unmark_mark (p : Pipeline) : p.mark.unmark p = p := by
  by_cases hp : p.Prints → p.endsMarked = true
  · rw [mark_of_not hp, unmark, if_neg fun h => h.2 h.1]
  · obtain ⟨hprints, hend⟩ := Classical.not_imp.mp hp
    rw [mark_of_prints hprints (Bool.eq_false_iff.mpr hend), unmark,
      if_pos ⟨withMarker_endsMarked p, hend⟩]
    simp [withMarker]

end Pipeline

/-! ## Nodes -/

mutual

/-- What occurs in a marked node is what occurs in the node, marked. -/
theorem Node.mem_parts_mark {node part : Node} (h : part ∈ node.mark.parts) :
    ∃ original ∈ node.parts, part = original.mark := by
  match node with
  | .text s => exact ⟨_, List.mem_singleton_self _, List.mem_singleton.mp h⟩
  | .action line pipe => exact ⟨_, List.mem_singleton_self _, List.mem_singleton.mp h⟩
  | .block kind line pipe body otherwise =>
    rcases List.mem_cons.mp h with rfl | h
    · exact ⟨_, List.mem_cons_self, rfl⟩
    rcases List.mem_append.mp h with h | h
    · obtain ⟨original, hmem, heq⟩ := mem_nodesParts_mark h
      exact ⟨original, List.mem_cons_of_mem _ (List.mem_append_left _ hmem), heq⟩
    · obtain ⟨original, hmem, heq⟩ := mem_optionParts_mark h
      exact ⟨original, List.mem_cons_of_mem _ (List.mem_append_right _ hmem), heq⟩

theorem mem_nodesParts_mark {nodes : List Node} {part : Node}
    (h : part ∈ nodesParts (markNodes nodes)) :
    ∃ original ∈ nodesParts nodes, part = original.mark := by
  match nodes with
  | [] => cases h
  | node :: rest =>
    rcases List.mem_append.mp h with h | h
    · obtain ⟨original, hmem, heq⟩ := Node.mem_parts_mark h
      exact ⟨original, List.mem_append_left _ hmem, heq⟩
    · obtain ⟨original, hmem, heq⟩ := mem_nodesParts_mark h
      exact ⟨original, List.mem_append_right _ hmem, heq⟩

theorem mem_optionParts_mark {otherwise : Option (List Node)} {part : Node}
    (h : part ∈ optionParts (markOption otherwise)) :
    ∃ original ∈ optionParts otherwise, part = original.mark := by
  match otherwise with
  | none => cases h
  | some nodes => exact mem_nodesParts_mark h

end

/-- Every action of a marked tree that prints ends with the marker. -/
theorem endsMarked_of_mem {nodes : List Node} {line : Nat} {pipe : Pipeline}
    (h : .action line pipe ∈ nodesParts (markNodes nodes)) (hprints : pipe.Prints) :
    pipe.endsMarked = true := by
  obtain ⟨original, -, heq⟩ := mem_nodesParts_mark h
  cases original with
  | text s => cases heq
  | block kind line pipe body otherwise => cases heq
  | action line' pipe' =>
      cases heq
      exact Pipeline.mark_endsMarked hprints

mutual

theorem Node.mark_mark (node : Node) : node.mark.mark = node.mark := by
  match node with
  | .text s => rfl
  | .action line pipe => rw [Node.mark, Node.mark, Pipeline.mark_mark]
  | .block kind line pipe body otherwise =>
    rw [Node.mark, Node.mark, markNodes_markNodes body, markOption_markOption otherwise]

theorem markNodes_markNodes (nodes : List Node) :
    markNodes (markNodes nodes) = markNodes nodes := by
  match nodes with
  | [] => rfl
  | node :: rest => rw [markNodes, markNodes, Node.mark_mark node, markNodes_markNodes rest]

theorem markOption_markOption (otherwise : Option (List Node)) :
    markOption (markOption otherwise) = markOption otherwise := by
  match otherwise with
  | none => rfl
  | some nodes => rw [markOption, markOption, markNodes_markNodes nodes]

end

/-! ## Deleting the markers -/

mutual

/-- Deletes from a node the markers that its original does not have. Of the original it is only
asked which actions end with the marker; everything else is the node's own. -/
def Node.unmark : Node → Node → Node
  | .action line pipe, .action _ original => .action line (pipe.unmark original)
  | .block kind line pipe body otherwise, .block _ _ _ originals others =>
    .block kind line pipe (unmarkNodes body originals) (unmarkOption otherwise others)
  | node, _ => node

/-- Deletes from nodes the markers that their originals do not have. -/
def unmarkNodes : List Node → List Node → List Node
  | node :: nodes, original :: originals => node.unmark original :: unmarkNodes nodes originals
  | nodes, _ => nodes

/-- Deletes from the alternative of a block the markers that its original does not have. -/
def unmarkOption : Option (List Node) → Option (List Node) → Option (List Node)
  | some nodes, some originals => some (unmarkNodes nodes originals)
  | nodes, _ => nodes

end

mutual

theorem Node.unmark_mark (node : Node) : node.mark.unmark node = node := by
  match node with
  | .text s => rfl
  | .action line pipe => rw [Node.mark, Node.unmark, Pipeline.unmark_mark]
  | .block kind line pipe body otherwise =>
    rw [Node.mark, Node.unmark, unmarkNodes_markNodes body, unmarkOption_markOption otherwise]

theorem unmarkNodes_markNodes (nodes : List Node) :
    unmarkNodes (markNodes nodes) nodes = nodes := by
  match nodes with
  | [] => rfl
  | node :: rest => rw [markNodes, unmarkNodes, Node.unmark_mark node, unmarkNodes_markNodes rest]

theorem unmarkOption_markOption (otherwise : Option (List Node)) :
    unmarkOption (markOption otherwise) otherwise = otherwise := by
  match otherwise with
  | none => rfl
  | some nodes => rw [markOption, unmarkOption, unmarkNodes_markNodes nodes]

end

/-! ## What marking does -/

/-- **Marking is complete and idempotent.** In a marked tree every action, at any depth, that binds
no variable and has commands ends with the bare call of the marker. Deleting this command from the
actions that did not end with it before gives the tree back, and marking the tree again changes
nothing. -/
theorem markNodes_complete (nodes : List Node) :
    (∀ line pipe, .action line pipe ∈ nodesParts (markNodes nodes) →
      pipe.declared = [] → pipe.commands ≠ [] → pipe.commands.getLast? = some markerCall) ∧
      unmarkNodes (markNodes nodes) nodes = nodes ∧
      markNodes (markNodes nodes) = markNodes nodes := by
  refine ⟨?_, unmarkNodes_markNodes nodes, markNodes_markNodes nodes⟩
  intro line pipe hmem hdeclared hcommands
  exact Pipeline.endsMarked_iff.mp (endsMarked_of_mem hmem ⟨hdeclared, hcommands⟩)

/-- The output in the alternative of a range is marked, and its condition and the declaration in its
body are not. -/
theorem markNodes_complete_alternative :
    let output : Pipeline := ⟨[], false, [[.field ["name"]]]⟩
    let tree (last : Pipeline) : List Node :=
      [.block .range 1 ⟨[], false, [[.dot]]⟩ [.action 2 ⟨["$x"], false, [[.dot]]⟩]
        (some [.action 3 last])]
    markNodes (tree output) = tree output.withMarker ∧
      output.withMarker.commands.getLast? = some markerCall ∧
      unmarkNodes (tree output.withMarker) (tree output) = tree output ∧
      markNodes (tree output.withMarker) = tree output.withMarker := by
  intro output tree
  have hmark : markNodes (tree output) = tree output.withMarker := rfl
  obtain ⟨hends, hunmark, hagain⟩ := markNodes_complete (tree output)
  rw [hmark] at hends hunmark hagain
  have hmem : .action 3 output.withMarker ∈ nodesParts (tree output.withMarker) := by
    simp [tree, nodesParts, Node.parts, optionParts]
  exact ⟨hmark, hends 3 output.withMarker hmem rfl (by simp [Pipeline.withMarker]), hunmark, hagain⟩

end SqlTemplate
