import Mathlib
import SqlTemplate.Proofs.Template.Derivation

/-!
# Well-formed trees

What holds of every node of a template that was read, wherever it stands and whatever is in scope
there: its pipeline has commands, its commands have the forms that can be called, the functions in
it are known and none of them is reserved, nothing is bound where nothing may be, and no text is
empty. What runs a template or marks it relies on this and on nothing else of the reader.
-/

set_option autoImplicit false

namespace SqlTemplate

/-! ## Well-formed nodes -/

section WellFormed

variable (isFunction : String → Bool)

/-- Whether an operand is well-formed. Nothing is said of the operands inside it. -/
def Operand.WellFormed : Operand → Prop
  | .field fields => fields ≠ []
  | .function f => isReserved f = false ∧ (Builtin.isName f = true ∨ isFunction f = true)
  | .chain base fields => fields ≠ [] ∧ base.IsChainBase
  | .pipe declared assigns commands => declared = [] ∧ assigns = false ∧ ProperCommands commands
  | _ => True

/-- Whether a pipeline is well-formed where it stands. -/
structure Pipeline.WellFormed (context : PipelineContext) (p : Pipeline) : Prop where
  commands : ProperCommands p.commands
  operands : ∀ a ∈ p.parts, a.WellFormed isFunction
  bindings : p.declared.length ≤ context.bindings
  binds : p.assigns = true → p.declared ≠ []

/-- Whether a node is well-formed. Nothing is said of the nodes inside it. -/
def Node.WellFormed : Node → Prop
  | .text s => s ≠ ""
  | .action _ pipe => pipe.WellFormed isFunction .action
  | .block kind _ pipe _ _ => pipe.WellFormed isFunction (.block kind)

end WellFormed

section Nodes

variable {isFunction : String → Bool}

theorem Operand.Proper.wellFormed {names : Names} {a : Operand} (h : a.Proper names) :
    a.WellFormed names.isFunction := by
  cases a <;> first | exact h | trivial

theorem Pipeline.Proper.wellFormed {names : Names} {context : PipelineContext} {p : Pipeline}
    (h : p.Proper names context) : p.WellFormed names.isFunction context :=
  ⟨h.commands, fun a ha => (h.parts a ha).wellFormed, h.bindings, h.binds⟩

theorem Node.Proper.wellFormed {scope : List String} {node : Node}
    (h : node.Proper isFunction scope) (htext : ∀ s, node = .text s → s ≠ "") :
    node.WellFormed isFunction := by
  cases node with
  | text s => exact htext s rfl
  | action line pipe => exact Pipeline.Proper.wellFormed h
  | block kind line pipe body otherwise => exact Pipeline.Proper.wellFormed h.1

mutual

/-- Every node in a proper node is proper where it stands. -/
theorem Node.proper_parts {scope : List String} {node : Node}
    (h : node.Proper isFunction scope) :
    ∀ part ∈ node.parts, ∃ inner, part.Proper isFunction inner := by
  match node with
  | .text s =>
    simp only [Node.parts, List.forall_mem_singleton]
    exact ⟨scope, h⟩
  | .action line pipe =>
    simp only [Node.parts, List.forall_mem_singleton]
    exact ⟨scope, h⟩
  | .block kind line pipe body otherwise =>
    simp only [Node.parts, List.forall_mem_cons, List.forall_mem_append]
    exact ⟨⟨scope, h⟩, properNodes_parts h.2.1, properOption_parts h.2.2⟩

theorem properNodes_parts {scope : List String} {nodes : List Node}
    (h : ProperNodes isFunction scope nodes) :
    ∀ part ∈ nodesParts nodes, ∃ inner, part.Proper isFunction inner := by
  match nodes with
  | [] => simp [nodesParts]
  | node :: rest =>
    simp only [nodesParts, List.forall_mem_append]
    exact ⟨Node.proper_parts h.1, properNodes_parts h.2⟩

theorem properOption_parts {scope : List String} {otherwise : Option (List Node)}
    (h : ProperOption isFunction scope otherwise) :
    ∀ part ∈ optionParts otherwise, ∃ inner, part.Proper isFunction inner := by
  match otherwise with
  | none => simp [optionParts]
  | some nodes => exact properNodes_parts h

end

end Nodes

/-! ## Texts -/

namespace Segment

theorem ofText_ne {s : List Char} {x : String} (h : .text x ∈ ofText s) : x ≠ "" := by
  rw [ofText] at h
  split at h
  · cases h
  · rename_i hs
    cases List.mem_singleton.mp h
    simpa using hs

theorem not_mem_ofAction {line : Nat} {d : Delimited} {segments : List Segment}
    (h : ofAction line d = .ok segments) (x : String) : .text x ∉ segments := by
  rw [ofAction] at h
  split_ifs at h <;> cases h <;> simp

/-- No text of a source is empty. -/
theorem cut_ne {line : Nat} {behindTrim : Bool} {s : List Char} {segments : List Segment}
    (h : cut line behindTrim s = .ok segments) {x : String} (hx : .text x ∈ segments) :
    x ≠ "" := by
  fun_induction cut line behindTrim s generalizing segments with
  | case1 =>
    cases h
    exact ofText_ne hx
  | case2 => cases h
  | case3 =>
    rename_i ih
    obtain ⟨own, hown, h⟩ := bind_eq_ok.mp h
    obtain ⟨others, hothers, h⟩ := bind_eq_ok.mp h
    cases h
    simp only [List.mem_append] at hx
    rcases hx with (hx | hx) | hx
    · exact ofText_ne hx
    · exact absurd hx (not_mem_ofAction hown x)
    · exact ih hothers hx

end Segment

namespace Word

theorem ofTokens_ne_text (line : Nat) (tokens : List Token) (x : String) :
    ofTokens line tokens ≠ .text x := by
  unfold ofTokens
  split
  · nofun
  · split
    case h_4 => split <;> nofun
    all_goals nofun

theorem eq_text_of_ofSegment {s : Segment} {x : String} (h : ofSegment s = .ok (.text x)) :
    s = .text x := by
  cases s with
  | text s =>
      cases h
      rfl
  | action line body =>
      rw [ofSegment] at h
      split at h
      · exact absurd (Except.ok.inj h) (ofTokens_ne_text line _ x)
      · cases h

/-- No text among the words of a source is empty. -/
theorem ofSource_ne {source : String} {words : List Word} (h : ofSource source = .ok words)
    {x : String} (hx : .text x ∈ words) : x ≠ "" := by
  obtain ⟨segments, hsegments, hwords⟩ := bind_eq_ok.mp h
  obtain ⟨s, hs, hmakes⟩ := exists_of_mem_right (mapM_eq_ok.mp hwords) hx
  rw [eq_text_of_ofSegment hmakes] at hs
  exact Segment.cut_ne hsegments hs

theorem eq_text_of_makes {isFunction : String → Bool} {w : Word} {x : String}
    (h : w.Makes isFunction (.text x)) : w = .text x := by
  cases w <;> simp_all [Makes]

end Word

mutual

/-- A text in a node is among its texts and actions. -/
theorem Node.text_mem_leaves {x : String} {node : Node} (h : .text x ∈ node.parts) :
    .text x ∈ node.leaves := by
  match node with
  | .text s => exact h
  | .action line pipe => exact h
  | .block kind line pipe body otherwise =>
    rcases List.mem_append.mp ((List.mem_cons.mp h).resolve_left Node.noConfusion) with h | h
    · exact List.mem_append_left _ (text_mem_nodesLeaves h)
    · exact List.mem_append_right _ (text_mem_optionLeaves h)

theorem text_mem_nodesLeaves {x : String} {nodes : List Node} (h : .text x ∈ nodesParts nodes) :
    .text x ∈ nodesLeaves nodes := by
  match nodes with
  | [] => cases h
  | node :: rest =>
    rcases List.mem_append.mp h with h | h
    · exact List.mem_append_left _ (Node.text_mem_leaves h)
    · exact List.mem_append_right _ (text_mem_nodesLeaves h)

theorem text_mem_optionLeaves {x : String} {otherwise : Option (List Node)}
    (h : .text x ∈ optionParts otherwise) : .text x ∈ optionLeaves otherwise := by
  match otherwise with
  | none => cases h
  | some nodes => exact text_mem_nodesLeaves h

end

/-! ## Templates -/

/-- **Every node of a template that was read is well-formed**, whatever functions the host has. -/
theorem Template.parse_wellFormed {name source : String} {isFunction : String → Bool}
    {globals : List String} {t : Template}
    (h : Template.parse name source isFunction globals = .ok t) :
    ∀ node ∈ nodesParts t.root, node.WellFormed isFunction := by
  intro node hnode
  obtain ⟨scope, hproper⟩ := properNodes_parts (Template.parse_proper h) node hnode
  refine hproper.wellFormed fun x htext => ?_
  subst htext
  obtain ⟨phrases, hwords, hread⟩ := Template.exists_phrases h
  have hleaf : .text x ∈ nodesLeaves t.root := text_mem_nodesLeaves hnode
  obtain ⟨w, hw, hmakes⟩ := exists_of_mem_right (phrasesWords_make hread) hleaf
  rw [Word.eq_text_of_makes hmakes] at hw
  exact Word.ofSource_ne hwords (List.mem_of_mem_filter hw)

/-- A range with two variables and, in its body, a function of the host and a field behind
parentheses. -/
theorem Template.parse_wellFormed_range :
    let isFunction : String → Bool := (· == "f")
    let source := "a " ++ braced "- range $i, $x := .T" ++ braced "f $i (len .A).B" ++ braced "end"
    let t : Template := ⟨"t", [.text "a",
      .block .range 1 ⟨["$i", "$x"], false, [[.field ["T"]]]⟩
        [.action 1 ⟨[], false, [[.function "f", .variable "$i" [],
          .chain (.pipe [] false [[.function "len", .field ["A"]]]) ["B"]]]⟩] none]⟩
    Template.parse "t" source isFunction [] = .ok t ∧
      ∀ node ∈ nodesParts t.root, node.WellFormed isFunction := by
  intro isFunction source t
  let phrases : List Phrase := [.text "a",
    .block .range 1 [⟨.variable "$i", true⟩, ⟨.comma, false⟩, ⟨.variable "$x", true⟩,
      ⟨.declare, true⟩, ⟨.field "T", true⟩]
      [.pipeline 1 [⟨.name "f", false⟩, ⟨.variable "$i", true⟩, ⟨.leftParen, true⟩,
        ⟨.name "len", false⟩, ⟨.field "A", true⟩, ⟨.rightParen, false⟩, ⟨.field "B", false⟩]]
      (.close 1)]
  have hwords : Word.ofSource source = .ok (phrasesWords phrases) := by
    cbv
  have hread : readPhrases isFunction ["$"] phrases = .ok t.root := by
    rfl
  have hparse : Template.parse "t" source isFunction [] = .ok t := by
    rw [Template.parse, readSource_of_phrases hwords, hread]
  exact ⟨hparse, Template.parse_wellFormed hparse⟩

/-- A reserved name is refused even if the host has a function of that name. -/
example : readAction (fun _ => true) ["$"] 1 [⟨.name "__stencil_intercept", false⟩, ⟨.dot, true⟩] =
    .error ⟨1, .reservedName "__stencil_intercept"⟩ := by
  rfl

end SqlTemplate
