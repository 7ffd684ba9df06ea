import Mathlib
import SqlTemplate.Proofs.Basic
import SqlTemplate.Proofs.Template.Faults
import SqlTemplate.Proofs.Template.Parts

/-!
# The grammar of blocks

To the structure of a template only the keywords of its actions matter. They make words, and the
words of a template are those of a list of phrases:

    list  = (text | pipeline | block)*
    block = if list (else-if list)* (else list)? end
          | range list (else list)? end
          | with list (else-with list)* (else list)? end

A phrase is a derivation of this grammar, and words have at most one. It keeps the lines and the
tokens of its actions, so it can be read: `Phrase.read` makes the node of a phrase by recursion on
the phrase, where the reader of sources goes from segment to segment with a stack of open blocks.
-/

set_option autoImplicit false

namespace SqlTemplate

/-! ## Words -/

/-- A word of the grammar: a text, or an action by its keyword, with its line and the tokens behind
the keyword. An action without a keyword is a pipeline. An end with tokens behind it, or an else
with anything behind it but the keyword of a block and a condition, is a stray action. -/
inductive Word
  | text (s : String)
  | pipeline (line : Nat) (tokens : List Token)
  | opens (kind : BlockKind) (line : Nat) (tokens : List Token)
  | chains (kind : BlockKind) (line : Nat) (tokens : List Token)
  | otherwise (line : Nat)
  | close (line : Nat)
  | stray (line : Nat) (tokens : List Token)

namespace Word

open Reading (ActionKind)

/-- The word that the tokens of an action make. -/
def ofTokens (line : Nat) : List Token → Word
  | [] => .pipeline line []
  | first :: rest =>
    match ActionKind.ofLexeme first.lexeme, rest with
    | .close, [] => .close line
    | .close, _ => .stray line (first :: rest)
    | .alternative, [] => .otherwise line
    | .alternative, next :: behind =>
      match ActionKind.ofLexeme next.lexeme with
      | .opens kind => .chains kind line behind
      | _ => .stray line (first :: rest)
    | .opens kind, _ => .opens kind line rest
    | _, _ => .pipeline line (first :: rest)

/-- The word that a segment makes, if its action has tokens. -/
def ofSegment : Segment → Except LineFault Word
  | .text s => .ok (.text s)
  | .action line body =>
    match Token.ofBody body with
    | .ok tokens => .ok (ofTokens line tokens)
    | .error fault => .error ⟨line, fault⟩

/-- The words of a source. -/
def ofSource (source : String) : Except LineFault (List Word) := do
  let segments ← Segment.ofSource source
  segments.mapM ofSegment

/-- Whether a word makes a node of its own. -/
def isLeaf : Word → Bool
  | .text _ => true
  | .pipeline _ _ => true
  | _ => false

end Word

/-! ## Phrases -/

mutual

/-- A text, a pipeline or a block. -/
inductive Phrase
  | text (s : String)
  | pipeline (line : Nat) (tokens : List Token)
  | block (kind : BlockKind) (line : Nat) (tokens : List Token) (body : List Phrase)
      (ending : Ending kind)

/-- What stands behind the first list of a block: its end, an else with the last list, or an else
with another condition, which no range has, and its list. -/
inductive Ending : BlockKind → Type
  | close {kind : BlockKind} (line : Nat) : Ending kind
  | otherwise {kind : BlockKind} (line : Nat) (last : List Phrase) (closeLine : Nat) : Ending kind
  | chain {kind : BlockKind} (h : kind ≠ .range) (line : Nat) (tokens : List Token)
      (body : List Phrase) (ending : Ending kind) : Ending kind

end

mutual

/-- The words of a phrase. -/
def Phrase.words : Phrase → List Word
  | .text s => [.text s]
  | .pipeline line tokens => [.pipeline line tokens]
  | .block kind line tokens body ending =>
    .opens kind line tokens :: (phrasesWords body ++ ending.words)

/-- The words of phrases. -/
def phrasesWords : List Phrase → List Word
  | [] => []
  | phrase :: rest => phrase.words ++ phrasesWords rest

/-- The words of the ending of a block. -/
def Ending.words {kind : BlockKind} : Ending kind → List Word
  | .close line => [.close line]
  | .otherwise line last closeLine => .otherwise line :: (phrasesWords last ++ [.close closeLine])
  | .chain _ line tokens body ending =>
    .chains kind line tokens :: (phrasesWords body ++ ending.words)

end

theorem phrasesWords_append (phrases others : List Phrase) :
    phrasesWords (phrases ++ others) = phrasesWords phrases ++ phrasesWords others := by
  induction phrases with
  | nil => rfl
  | cons phrase rest ih => simp [phrasesWords, ih]

/-! ## The grammar is unambiguous -/

/-- Whether words are none or begin with one that no phrase begins with. -/
def EndsList : List Word → Prop
  | .text _ :: _ => False
  | .pipeline _ _ :: _ => False
  | .opens _ _ _ :: _ => False
  | _ => True

theorem Ending.words_endsList {kind : BlockKind} (ending : Ending kind) (rest : List Word) :
    EndsList (ending.words ++ rest) := by
  cases ending <;> simp [words, EndsList]

theorem Phrase.not_endsList (phrase : Phrase) (rest : List Word) :
    ¬ EndsList (phrase.words ++ rest) := by
  cases phrase <;> simp [words, EndsList]

mutual

theorem Phrase.words_unique {phrase other : Phrase} {rest behind : List Word}
    (h : phrase.words ++ rest = other.words ++ behind) : phrase = other ∧ rest = behind := by
  match phrase, other with
  | .text s, .text t => simpa [Phrase.words] using h
  | .pipeline line tokens, .pipeline line' tokens' => simpa [Phrase.words, and_assoc] using h
  | .block kind line tokens body ending, .block kind' line' tokens' body' ending' =>
    simp only [Phrase.words, List.cons_append, List.append_assoc, List.cons.injEq,
      Word.opens.injEq] at h
    obtain ⟨⟨rfl, rfl, rfl⟩, hwords⟩ := h
    obtain ⟨rfl, hending⟩ :=
      phrasesWords_unique (ending.words_endsList rest) (ending'.words_endsList behind) hwords
    obtain ⟨rfl, rfl⟩ := Ending.words_unique hending
    exact ⟨rfl, rfl⟩
  | .text _, .pipeline _ _ | .text _, .block _ _ _ _ _ | .pipeline _ _, .text _
  | .pipeline _ _, .block _ _ _ _ _ | .block _ _ _ _ _, .text _
  | .block _ _ _ _ _, .pipeline _ _ => simp [Phrase.words] at h

theorem phrasesWords_unique {phrases others : List Phrase} {rest behind : List Word}
    (hrest : EndsList rest) (hbehind : EndsList behind)
    (h : phrasesWords phrases ++ rest = phrasesWords others ++ behind) :
    phrases = others ∧ rest = behind := by
  match phrases, others with
  | [], [] => exact ⟨rfl, h⟩
  | [], other :: _ =>
    rw [phrasesWords, phrasesWords, List.nil_append, List.append_assoc] at h
    exact (other.not_endsList _ (h ▸ hrest)).elim
  | phrase :: _, [] =>
    rw [phrasesWords, phrasesWords, List.nil_append, List.append_assoc] at h
    exact (phrase.not_endsList _ (h ▸ hbehind)).elim
  | phrase :: phrases, other :: others =>
    rw [phrasesWords, phrasesWords, List.append_assoc, List.append_assoc] at h
    obtain ⟨rfl, hothers⟩ := Phrase.words_unique h
    obtain ⟨rfl, rfl⟩ := phrasesWords_unique hrest hbehind hothers
    exact ⟨rfl, rfl⟩

theorem Ending.words_unique {kind : BlockKind} {ending other : Ending kind}
    {rest behind : List Word} (h : ending.words ++ rest = other.words ++ behind) :
    ending = other ∧ rest = behind := by
  match ending, other with
  | .close line, .close line' => simpa [Ending.words] using h
  | .otherwise line last closeLine, .otherwise line' last' closeLine' =>
    simp only [Ending.words, List.cons_append, List.append_assoc, List.cons.injEq,
      Word.otherwise.injEq] at h
    obtain ⟨rfl, hlast⟩ := h
    obtain ⟨rfl, hclose⟩ := phrasesWords_unique (by trivial) (by trivial) hlast
    simpa using hclose
  | .chain hne line tokens body ending, .chain hne' line' tokens' body' other =>
    simp only [Ending.words, List.cons_append, List.append_assoc, List.cons.injEq,
      Word.chains.injEq, true_and] at h
    obtain ⟨⟨rfl, rfl⟩, hwords⟩ := h
    obtain ⟨rfl, hending⟩ :=
      phrasesWords_unique (ending.words_endsList rest) (other.words_endsList behind) hwords
    obtain ⟨rfl, rfl⟩ := Ending.words_unique hending
    exact ⟨rfl, rfl⟩
  | .close _, .otherwise _ _ _ | .close _, .chain _ _ _ _ _ | .otherwise _ _ _, .close _
  | .otherwise _ _ _, .chain _ _ _ _ _ | .chain _ _ _ _ _, .close _
  | .chain _ _ _ _ _, .otherwise _ _ _ => simp [Ending.words] at h

end

/-- **Words have at most one derivation.** -/
theorem phrasesWords_injective {phrases others : List Phrase}
    (h : phrasesWords phrases = phrasesWords others) : phrases = others :=
  (phrasesWords_unique (by trivial) (by trivial) (congrArg (· ++ []) h)).1

/-! ## Reading phrases -/

section Read

variable (isFunction : String → Bool)

/-- Reads a pipeline at a line, where the variables are in scope. -/
def readPipeline (scope : List String) (context : PipelineContext) (line : Nat)
    (tokens : List Token) : Except LineFault Pipeline :=
  (Pipeline.ofTokens ⟨isFunction, scope⟩ context tokens).mapError (⟨line, ·⟩)

/-- Reads the pipeline of an action without a keyword. -/
def readAction (scope : List String) (line : Nat) : List Token → Except LineFault Pipeline
  | [] => .error ⟨line, .missingValue .action⟩
  | first :: rest =>
    match Reading.ActionKind.ofLexeme first.lexeme with
    | .unsupported word => .error ⟨line, .unsupportedAction word⟩
    | _ => readPipeline isFunction scope .action line (first :: rest)

mutual

/-- The node of a phrase, where the variables are in scope. -/
def Phrase.read (scope : List String) : Phrase → Except LineFault Node
  | .text s => .ok (.text s)
  | .pipeline line tokens => (readAction isFunction scope line tokens).map (.action line)
  | .block kind line tokens body ending => do
    let pipe ← readPipeline isFunction scope (.block kind) line tokens
    let nodes ← readPhrases (pipe.scope scope) body
    let otherwise ← ending.read (pipe.scope scope)
    .ok (.block kind line pipe nodes otherwise)

/-- The nodes of phrases: each sees what the ones before it declared. -/
def readPhrases (scope : List String) : List Phrase → Except LineFault (List Node)
  | [] => .ok []
  | phrase :: rest => do
    let node ← phrase.read scope
    let nodes ← readPhrases (scope ++ node.declares) rest
    .ok (node :: nodes)

/-- The alternative of a block: none, a list, or a list of one block, which the other condition
makes. -/
def Ending.read {kind : BlockKind} (scope : List String) :
    Ending kind → Except LineFault (Option (List Node))
  | .close _ => .ok none
  | .otherwise _ last _ => (readPhrases scope last).map some
  | .chain _ line tokens body ending => do
    let pipe ← readPipeline isFunction scope (.block kind) line tokens
    let nodes ← readPhrases (pipe.scope scope) body
    let otherwise ← ending.read (pipe.scope scope)
    .ok (some [.block kind line pipe nodes otherwise])

end

/-! ## What phrases are refused for -/

/-- Whether a result is a failure only because of something inside an action. -/
abbrev FailsInsideAction {α : Type} (result : Except LineFault α) : Prop :=
  FailsWith (fun e => e.fault.isStructural = false) result

theorem readPipeline_failsInside (scope : List String) (context : PipelineContext) (line : Nat)
    (tokens : List Token) :
    FailsInsideAction (readPipeline isFunction scope context line tokens) :=
  (Pipeline.ofTokens_failsInside ⟨isFunction, scope⟩ context tokens).mapError fun _ h => h

theorem readAction_failsInside (scope : List String) (line : Nat) (tokens : List Token) :
    FailsInsideAction (readAction isFunction scope line tokens) := by
  cases tokens with
  | nil => exact FailsWith.error.mpr rfl
  | cons first rest =>
      rw [readAction]
      split
      · exact FailsWith.error.mpr rfl
      · exact readPipeline_failsInside isFunction scope .action line _

mutual

theorem Phrase.read_failsInside (scope : List String) (phrase : Phrase) :
    FailsInsideAction (phrase.read isFunction scope) := by
  match phrase with
  | .text s => exact FailsWith.ok _
  | .pipeline line tokens => exact (readAction_failsInside isFunction scope line tokens).map
  | .block kind line tokens body ending =>
    rw [Phrase.read]
    refine (readPipeline_failsInside isFunction scope (.block kind) line tokens).bind fun pipe => ?_
    refine (readPhrases_failsInside (pipe.scope scope) body).bind fun _ => ?_
    exact (Ending.read_failsInside (pipe.scope scope) ending).bind fun _ => FailsWith.ok _

/-- Phrases are refused because of something inside their actions, never because of blocks. -/
theorem readPhrases_failsInside (scope : List String) (phrases : List Phrase) :
    FailsInsideAction (readPhrases isFunction scope phrases) := by
  match phrases with
  | [] => exact FailsWith.ok _
  | phrase :: rest =>
    rw [readPhrases]
    refine (Phrase.read_failsInside scope phrase).bind fun node => ?_
    exact (readPhrases_failsInside (scope ++ node.declares) rest).bind fun _ => FailsWith.ok _

theorem Ending.read_failsInside {kind : BlockKind} (scope : List String) (ending : Ending kind) :
    FailsInsideAction (ending.read isFunction scope) := by
  match ending with
  | .close _ => exact FailsWith.ok _
  | .otherwise _ last _ => exact (readPhrases_failsInside scope last).map
  | .chain _ line tokens body ending =>
    rw [Ending.read]
    refine (readPipeline_failsInside isFunction scope (.block kind) line tokens).bind fun pipe => ?_
    refine (readPhrases_failsInside (pipe.scope scope) body).bind fun _ => ?_
    exact (Ending.read_failsInside (pipe.scope scope) ending).bind fun _ => FailsWith.ok _

end

end Read

/-! ## The order of the source -/

mutual

/-- The texts and actions of a node, in their order. -/
def Node.leaves : Node → List Node
  | .block _ _ _ body otherwise => nodesLeaves body ++ optionLeaves otherwise
  | node => [node]

/-- The texts and actions of nodes, in their order. -/
def nodesLeaves : List Node → List Node
  | [] => []
  | node :: rest => node.leaves ++ nodesLeaves rest

/-- The texts and actions of the alternative of a block, in their order. -/
def optionLeaves : Option (List Node) → List Node
  | none => []
  | some nodes => nodesLeaves nodes

end

/-- Whether a node is what a word makes: a text, or an action at the word's line with the pipeline
of its tokens. -/
def Word.Makes (isFunction : String → Bool) : Word → Node → Prop
  | .text s, node => node = .text s
  | .pipeline line tokens, node =>
    ∃ scope pipe, readAction isFunction scope line tokens = .ok pipe ∧ node = .action line pipe
  | _, _ => False

section Leaves

variable {isFunction : String → Bool}

/-- Whether nodes are what the words make that make nodes of their own, one after the other. -/
def WordsMake (isFunction : String → Bool) (words : List Word) (nodes : List Node) : Prop :=
  List.Forall₂ (Word.Makes isFunction) (words.filter Word.isLeaf) nodes

theorem WordsMake.append {words others : List Word} {nodes more : List Node}
    (h : WordsMake isFunction words nodes) (hmore : WordsMake isFunction others more) :
    WordsMake isFunction (words ++ others) (nodes ++ more) := by
  rw [WordsMake, List.filter_append]
  exact List.rel_append h hmore

/-- A word of a block makes no node of its own. -/
theorem WordsMake.cons {word : Word} (hword : word.isLeaf = false) {words : List Word}
    {nodes : List Node} (h : WordsMake isFunction words nodes) :
    WordsMake isFunction (word :: words) nodes := by
  rwa [WordsMake, List.filter_cons_of_neg (by simp [hword])]

mutual

theorem Phrase.words_make {scope : List String} {phrase : Phrase} {node : Node}
    (h : phrase.read isFunction scope = .ok node) :
    WordsMake isFunction phrase.words node.leaves := by
  match phrase with
  | .text s =>
    cases h
    exact List.Forall₂.cons rfl .nil
  | .pipeline line tokens =>
    obtain ⟨pipe, hpipe, rfl⟩ := map_eq_ok.mp h
    exact List.Forall₂.cons ⟨scope, pipe, hpipe, rfl⟩ .nil
  | .block kind line tokens body ending =>
    obtain ⟨pipe, _, h⟩ := bind_eq_ok.mp h
    obtain ⟨nodes, hbody, h⟩ := bind_eq_ok.mp h
    obtain ⟨otherwise, hending, h⟩ := bind_eq_ok.mp h
    cases h
    exact ((phrasesWords_make hbody).append (Ending.words_make hending)).cons rfl

/-- The texts and actions of nodes that were read are those of the words, in their order. -/
theorem phrasesWords_make {scope : List String} {phrases : List Phrase} {nodes : List Node}
    (h : readPhrases isFunction scope phrases = .ok nodes) :
    WordsMake isFunction (phrasesWords phrases) (nodesLeaves nodes) := by
  match phrases with
  | [] =>
    cases h
    exact .nil
  | phrase :: rest =>
    obtain ⟨node, hphrase, h⟩ := bind_eq_ok.mp h
    obtain ⟨others, hrest, h⟩ := bind_eq_ok.mp h
    cases h
    exact (Phrase.words_make hphrase).append (phrasesWords_make hrest)

theorem Ending.words_make {kind : BlockKind} {scope : List String} {ending : Ending kind}
    {otherwise : Option (List Node)} (h : ending.read isFunction scope = .ok otherwise) :
    WordsMake isFunction ending.words (optionLeaves otherwise) := by
  have hclose (line : Nat) : WordsMake isFunction [.close line] [] := WordsMake.cons rfl .nil
  match ending with
  | .close line =>
    cases h
    exact hclose line
  | .otherwise line last closeLine =>
    obtain ⟨nodes, hlast, rfl⟩ := map_eq_ok.mp h
    have hwords := (phrasesWords_make hlast).append (hclose closeLine)
    rw [List.append_nil] at hwords
    exact hwords.cons rfl
  | .chain _ line tokens body ending =>
    obtain ⟨pipe, _, h⟩ := bind_eq_ok.mp h
    obtain ⟨nodes, hbody, h⟩ := bind_eq_ok.mp h
    obtain ⟨others, hending, h⟩ := bind_eq_ok.mp h
    cases h
    have hwords := (phrasesWords_make hbody).append (Ending.words_make hending)
    rw [Ending.words, optionLeaves, nodesLeaves, nodesLeaves, List.append_nil]
    exact hwords.cons rfl

end

end Leaves

end SqlTemplate
