import Mathlib
import SqlTemplate.Proofs.Template.Derivation
import SqlTemplate.Proofs.Template.Lexemes
import SqlTemplate.Statement.Marking

/-!
# Where names stand

The pipelines of a template are those of the actions of its source, one for one and in their order,
and each is written with the lexemes of its action (`Template.parse_lexemes`). So a name that is no
literal word stands in the actions of a source exactly where the template calls the function of the
name (`Pipeline.count_callees`), and marking the template adds calls of the marker only.
-/

set_option autoImplicit false

namespace SqlTemplate

/-! ## The pipelines of a source -/

/-- The lexemes of the pipeline of a word, if it has one. -/
def Word.lexemes? : Word → Option (List Lexeme)
  | .pipeline _ tokens => some (tokens.map (·.lexeme))
  | .opens _ _ tokens => some (tokens.map (·.lexeme))
  | .chains _ _ tokens => some (tokens.map (·.lexeme))
  | .text _ | .otherwise _ | .close _ | .stray _ _ => none

section Read

variable {isFunction : String → Bool}

theorem readPipeline_lexemes {scope : List String} {context : PipelineContext} {line : Nat}
    {tokens : List Token} {p : Pipeline}
    (h : readPipeline isFunction scope context line tokens = .ok p) :
    p.lexemes = tokens.map (·.lexeme) := by
  cases hp : Pipeline.ofTokens ⟨isFunction, scope⟩ context tokens with
  | error fault =>
      rw [readPipeline, hp] at h
      cases h
  | ok q =>
      rw [readPipeline, hp] at h
      cases h
      exact Pipeline.lexemes_ofTokens hp

theorem readAction_lexemes {scope : List String} {line : Nat} {tokens : List Token}
    {p : Pipeline} (h : readAction isFunction scope line tokens = .ok p) :
    p.lexemes = tokens.map (·.lexeme) := by
  cases tokens with
  | nil => cases h
  | cons first rest =>
      rw [readAction] at h
      split at h
      · cases h
      · exact readPipeline_lexemes h

mutual

theorem Phrase.read_lexemes {scope : List String} {phrase : Phrase} {node : Node}
    (h : phrase.read isFunction scope = .ok node) :
    phrase.words.filterMap Word.lexemes? = node.pipelines.map Pipeline.lexemes := by
  match phrase with
  | .text s =>
    cases h
    rfl
  | .pipeline line tokens =>
    obtain ⟨pipe, hpipe, rfl⟩ := map_eq_ok.mp h
    simp [Phrase.words, Word.lexemes?, Node.pipelines, readAction_lexemes hpipe]
  | .block kind line tokens body ending =>
    obtain ⟨pipe, hpipe, h⟩ := bind_eq_ok.mp h
    obtain ⟨nodes, hbody, h⟩ := bind_eq_ok.mp h
    obtain ⟨otherwise, hending, h⟩ := bind_eq_ok.mp h
    cases h
    simp [Phrase.words, Word.lexemes?, Node.pipelines, readPipeline_lexemes hpipe,
      readPhrases_lexemes hbody, Ending.read_lexemes hending]

/-- The pipelines of nodes that were read are written with the lexemes of the words. -/
theorem readPhrases_lexemes {scope : List String} {phrases : List Phrase}
    {nodes : List Node} (h : readPhrases isFunction scope phrases = .ok nodes) :
    (phrasesWords phrases).filterMap Word.lexemes? =
      (nodesPipelines nodes).map Pipeline.lexemes := by
  match phrases with
  | [] =>
    cases h
    rfl
  | phrase :: rest =>
    obtain ⟨node, hphrase, h⟩ := bind_eq_ok.mp h
    obtain ⟨others, hrest, h⟩ := bind_eq_ok.mp h
    cases h
    simp [phrasesWords, nodesPipelines, Phrase.read_lexemes hphrase, readPhrases_lexemes hrest]

theorem Ending.read_lexemes {scope : List String} {kind : BlockKind}
    {ending : Ending kind} {otherwise : Option (List Node)}
    (h : ending.read isFunction scope = .ok otherwise) :
    ending.words.filterMap Word.lexemes? =
      (optionPipelines otherwise).map Pipeline.lexemes := by
  match ending with
  | .close line =>
    cases h
    rfl
  | .otherwise line last closeLine =>
    obtain ⟨nodes, hlast, rfl⟩ := map_eq_ok.mp h
    simp [Ending.words, List.filterMap_cons, Word.lexemes?, optionPipelines,
      readPhrases_lexemes hlast]
  | .chain _ line tokens body ending =>
    obtain ⟨pipe, hpipe, h⟩ := bind_eq_ok.mp h
    obtain ⟨nodes, hbody, h⟩ := bind_eq_ok.mp h
    obtain ⟨others, hending, h⟩ := bind_eq_ok.mp h
    cases h
    simp [Ending.words, Word.lexemes?, optionPipelines, nodesPipelines, Node.pipelines,
      readPipeline_lexemes hpipe, readPhrases_lexemes hbody, Ending.read_lexemes hending]

end

end Read

/-- **No token of a source is lost.** The pipelines of a template that was read are written with
the lexemes of the actions of the source, action by action. -/
theorem Template.parse_lexemes {name source : String} {isFunction : String → Bool}
    {globals : List String} {t : Template} (h : parse name source isFunction globals = .ok t) :
    ∃ words, Word.ofSource source = .ok words ∧
      words.filterMap Word.lexemes? = (nodesPipelines t.root).map Pipeline.lexemes := by
  obtain ⟨phrases, hwords, hread⟩ := Template.exists_phrases h
  exact ⟨phrasesWords phrases, hwords, readPhrases_lexemes hread⟩

/-! ## Names and calls -/

/-- The function that an operand calls, if it is a function. -/
def Operand.callee? : Operand → Option String
  | .function f => some f
  | _ => none

/-- The functions that a pipeline calls, one for each place where it does. -/
def Pipeline.callees (p : Pipeline) : List String :=
  p.parts.filterMap Operand.callee?

/-- The words that are literals wherever an operand can stand. -/
def literalWords : List String := ["true", "false", "nil"]

section Count

variable {f : String}

theorem count_bindingLexemes (assigns : Bool) (vars : List String) :
    (bindingLexemes assigns vars).count (.name f) = 0 := by
  induction vars with
  | nil => rfl
  | cons x rest ih =>
      cases rest with
      | nil => cases assigns <;> simp [bindingLexemes]
      | cons y rest => simpa [bindingLexemes] using ih

theorem count_fields (names : List String) : (names.map Lexeme.field).count (.name f) = 0 := by
  simp [List.count_eq_zero]

mutual

theorem Operand.count_callees (hf : f ∉ literalWords) (a : Operand) :
    a.lexemes.count (.name f) = (a.parts.filterMap Operand.callee?).count f := by
  have hwords : f ≠ "true" ∧ f ≠ "false" ∧ f ≠ "nil" := by simpa [literalWords] using hf
  obtain ⟨htrue, hfalse, hnil⟩ := hwords
  match a with
  | .dot | .int _ | .float _ | .text _ => rfl
  | .nil => exact List.count_eq_zero.mpr (by simpa [Operand.lexemes] using hnil)
  | .bool true => exact List.count_eq_zero.mpr (by simpa [Operand.lexemes] using htrue)
  | .bool false => exact List.count_eq_zero.mpr (by simpa [Operand.lexemes] using hfalse)
  | .field names => exact count_fields names
  | .variable x names =>
    rw [Operand.lexemes, List.count_cons_of_ne (by simp), count_fields]
    rfl
  | .function g =>
    show [Lexeme.name g].count (.name f) = [g].count f
    by_cases hg : g = f <;> simp [hg]
  | .chain base names =>
    rw [Operand.lexemes, List.count_append, count_fields, Nat.add_zero,
      Operand.count_callees hf base]
    rfl
  | .pipe declared assigns commands =>
    have hclose : [Lexeme.rightParen].count (.name f) = 0 := by simp
    rw [Operand.lexemes, List.count_cons_of_ne (by simp), List.count_append, List.count_append,
      count_bindingLexemes, count_commandsCallees hf commands, hclose, Nat.zero_add, Nat.add_zero]
    rfl

theorem count_operandsCallees (hf : f ∉ literalWords) (operands : List Operand) :
    (operandsLexemes operands).count (.name f) =
      ((operandsParts operands).filterMap Operand.callee?).count f := by
  match operands with
  | [] => rfl
  | a :: rest =>
    simp [operandsLexemes, operandsParts, Operand.count_callees hf a,
      count_operandsCallees hf rest]

theorem count_commandsCallees (hf : f ∉ literalWords) (commands : List (List Operand)) :
    (commandsLexemes commands).count (.name f) =
      ((commandsParts commands).filterMap Operand.callee?).count f := by
  match commands with
  | [] => rfl
  | [command] =>
    simp [commandsLexemes, commandsParts, count_operandsCallees hf command]
  | command :: next :: rest =>
    rw [commandsLexemes, List.count_append, List.count_cons_of_ne (by simp),
      count_operandsCallees hf command, count_commandsCallees hf (next :: rest),
      ← List.count_append, ← List.filterMap_append]
    rfl

end

/-- **A name is a call.** A name that is no literal word stands in the lexemes of a pipeline as
often as the pipeline calls the function of the name. -/
theorem Pipeline.count_callees (hf : f ∉ literalWords) (p : Pipeline) :
    p.lexemes.count (.name f) = p.callees.count f := by
  rw [Pipeline.lexemes, List.count_append, count_bindingLexemes, Nat.zero_add,
    count_commandsCallees hf p.commands]
  rfl

end Count

/-! ## Marked templates -/

theorem commandsParts_append (commands others : List (List Operand)) :
    commandsParts (commands ++ others) = commandsParts commands ++ commandsParts others := by
  induction commands with
  | nil => rfl
  | cons command rest ih => simp [commandsParts, ih]

/-- Marking a pipeline adds a call of the marker at most. -/
theorem Pipeline.count_callees_mark {f : String} (hf : f ≠ markerName) (p : Pipeline) :
    p.mark.callees.count f = p.callees.count f := by
  have hmarked : Pipeline.callees { p with commands := p.commands ++ [markerCall] } =
      p.callees ++ [markerName] := by
    rw [callees, parts, commandsParts_append, List.filterMap_append]
    rfl
  unfold mark
  split
  · split
    · rfl
    · split
      · rfl
      · rw [hmarked, List.count_append, List.count_singleton, beq_eq_false_iff_ne.mpr (Ne.symm hf)]
        rfl
  · rfl

section Marked

variable {α : Type} {g : Pipeline → α}

mutual

theorem Node.mark_pipelines (hg : ∀ p : Pipeline, g p.mark = g p) (node : Node) :
    node.mark.pipelines.map g = node.pipelines.map g := by
  match node with
  | .text _ => rfl
  | .action _ pipe => exact congrArg ([·]) (hg pipe)
  | .block _ _ pipe body otherwise =>
    simp [Node.mark, Node.pipelines, markNodes_pipelines hg body, markOption_pipelines hg otherwise]

/-- What marking does not change of a pipeline is the same for all pipelines of marked nodes. -/
theorem markNodes_pipelines (hg : ∀ p : Pipeline, g p.mark = g p) (nodes : List Node) :
    (nodesPipelines (markNodes nodes)).map g = (nodesPipelines nodes).map g := by
  match nodes with
  | [] => rfl
  | node :: rest =>
    simp [markNodes, nodesPipelines, Node.mark_pipelines hg node, markNodes_pipelines hg rest]

theorem markOption_pipelines (hg : ∀ p : Pipeline, g p.mark = g p)
    (otherwise : Option (List Node)) :
    (optionPipelines (markOption otherwise)).map g = (optionPipelines otherwise).map g := by
  match otherwise with
  | none => rfl
  | some nodes => exact markNodes_pipelines hg nodes

end

end Marked

/-- **Names of a source are calls of its template.** A name that is neither a literal word nor that
of the marker stands in the actions of a source, one action after the other, as often as the
pipelines of the marked template call the function of the name. -/
theorem Template.mark_callees {name source : String} {isFunction : String → Bool}
    {globals : List String} {t : Template} (h : parse name source isFunction globals = .ok t)
    {f : String} (hf : f ∉ literalWords) (hmarker : f ≠ markerName) :
    ∃ words, Word.ofSource source = .ok words ∧
      (words.filterMap Word.lexemes?).map (·.count (.name f)) =
        (nodesPipelines t.mark.root).map (·.callees.count f) := by
  obtain ⟨words, hwords, hlexemes⟩ := Template.parse_lexemes h
  refine ⟨words, hwords, ?_⟩
  calc (words.filterMap Word.lexemes?).map (·.count (.name f))
      = (nodesPipelines t.root).map fun p => p.lexemes.count (.name f) := by
        rw [hlexemes, List.map_map]
        rfl
    _ = (nodesPipelines t.root).map (·.callees.count f) :=
        List.map_congr_left fun p _ => p.count_callees hf
    _ = (nodesPipelines t.mark.root).map (·.callees.count f) :=
        (markNodes_pipelines (g := (·.callees.count f)) (Pipeline.count_callees_mark hmarker)
          t.root).symm

end SqlTemplate
