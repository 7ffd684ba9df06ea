import Mathlib
import SqlTemplate.Proofs.Template.Grammar

/-!
# Reading words

The reader of sources goes from segment to segment and keeps the open blocks on a stack. All that it
looks at is the words of the segments, and on the words of phrases it does what reading the phrases
does, whatever is open around them.
-/

set_option autoImplicit false

namespace SqlTemplate

namespace Reading

variable {isFunction : String → Bool}

/-! ## Reading words -/

/-- Reads a word. -/
def word (isFunction : String → Bool) (r : Reading) : Word → Except LineFault Reading
  | .text s => .ok (r.push (.text s))
  | .pipeline line tokens => do
    let pipe ← readAction isFunction r.vars line tokens
    .ok { r.push (.action line pipe) with vars := pipe.scope r.vars }
  | .opens kind line tokens => r.openBlock isFunction kind line false tokens
  | .chains kind line tokens => r.elseBlock isFunction line (⟨.name kind.keyword, true⟩ :: tokens)
  | .otherwise line => r.elseBlock isFunction line []
  | .close line => r.endBlock line []
  | .stray line tokens => r.action isFunction line tokens

theorem pipeline_eq (r : Reading) (context : PipelineContext) (line : Nat) (tokens : List Token) :
    r.pipeline isFunction context line tokens =
      readPipeline isFunction r.vars context line tokens := by
  rw [pipeline, readPipeline]
  cases Pipeline.ofTokens ⟨isFunction, r.vars⟩ context tokens <;> rfl

/-- The word that opens a block is its keyword. -/
theorem lexeme_of_opens {lexeme : Lexeme} {kind : BlockKind}
    (h : ActionKind.ofLexeme lexeme = .opens kind) : lexeme = .name kind.keyword := by
  unfold ActionKind.ofLexeme at h
  split at h
  · split_ifs at h <;> cases h <;> simp_all [BlockKind.keyword]
  · cases h

/-- Of the token behind an else only its lexeme matters. -/
theorem elseBlock_congr (r : Reading) (line : Nat) {next other : Token} (rest : List Token)
    (h : next.lexeme = other.lexeme) :
    r.elseBlock isFunction line (next :: rest) = r.elseBlock isFunction line (other :: rest) := by
  simp only [elseBlock, h]

/-- An action is read as its word. -/
theorem action_eq_word (r : Reading) (line : Nat) (tokens : List Token) :
    r.action isFunction line tokens = r.word isFunction (.ofTokens line tokens) := by
  cases tokens with
  | nil => rfl
  | cons first rest =>
      cases hkind : ActionKind.ofLexeme first.lexeme with
      | close => cases rest <;> simp [action, Word.ofTokens, word, hkind]
      | opens kind => simp [action, Word.ofTokens, word, hkind]
      | unsupported word =>
          simp [action, Word.ofTokens, Reading.word, readAction, hkind]
          rfl
      | plain =>
          simp [action, Word.ofTokens, word, readAction, hkind, pipeline_eq]
      | alternative =>
          cases rest with
          | nil => simp [action, Word.ofTokens, word, hkind]
          | cons next behind =>
              cases hnext : ActionKind.ofLexeme next.lexeme with
              | opens kind =>
                  simp only [action, Word.ofTokens, word, hkind, hnext]
                  exact elseBlock_congr r line behind (lexeme_of_opens hnext)
              | close | alternative | unsupported | plain =>
                  simp [action, Word.ofTokens, word, hkind, hnext]

theorem segment_eq_word (r : Reading) (s : Segment) :
    r.segment isFunction s = (do r.word isFunction (← Word.ofSegment s)) := by
  cases s with
  | text s => rfl
  | action line body =>
      rw [segment, Word.ofSegment]
      cases Token.ofBody body with
      | error fault => rfl
      | ok tokens => exact r.action_eq_word line tokens

/-- Segments whose actions all have tokens are read as their words. -/
theorem foldlM_segment {segments : List Segment} {words : List Word}
    (h : segments.mapM Word.ofSegment = .ok words) (r : Reading) :
    segments.foldlM (segment isFunction) r = words.foldlM (word isFunction) r := by
  rw [mapM_eq_ok] at h
  induction h generalizing r with
  | nil => rfl
  | cons hw _ ih =>
      rw [List.foldlM_cons, List.foldlM_cons, segment_eq_word, hw]
      exact congrArg _ (funext ih)

/-- Segments that were read have words. -/
theorem mapM_of_foldlM {segments : List Segment} {r next : Reading}
    (h : segments.foldlM (segment isFunction) r = .ok next) :
    ∃ words, segments.mapM Word.ofSegment = .ok words := by
  induction segments generalizing r with
  | nil => exact ⟨[], rfl⟩
  | cons s rest ih =>
      rw [List.foldlM_cons] at h
      obtain ⟨r', hr', hrest⟩ := bind_eq_ok.mp h
      rw [segment_eq_word] at hr'
      obtain ⟨w, hw, _⟩ := bind_eq_ok.mp hr'
      obtain ⟨words, hwords⟩ := ih hrest
      exact ⟨w :: words, mapM_eq_ok.mpr (.cons hw (mapM_eq_ok.mp hwords))⟩

/-! ## Reading the words of phrases -/

/-- What has been read, with more nodes in the innermost list. -/
def extend (r : Reading) (nodes : List Node) : Reading :=
  ⟨r.blocks, r.nodes ++ nodes, r.vars ++ nodesDeclares nodes⟩

@[simp] theorem extend_nil (r : Reading) : r.extend [] = r := by
  simp [extend, nodesDeclares]

@[simp] theorem extend_extend (r : Reading) (nodes others : List Node) :
    (r.extend nodes).extend others = r.extend (nodes ++ others) := by
  simp [extend, nodesDeclares]

theorem extend_vars_singleton (r : Reading) (node : Node) :
    (r.extend [node]).vars = r.vars ++ node.declares := by
  simp [extend, nodesDeclares]

/-- What has been read when a block was opened. -/
def opened (r : Reading) (kind : BlockKind) (line : Nat) (sharesEnd : Bool) (pipe : Pipeline) :
    Reading :=
  ⟨⟨kind, line, pipe, r.nodes, r.vars, pipe.scope r.vars, none, sharesEnd⟩ :: r.blocks, [],
    pipe.scope r.vars⟩

/-- What has been read when the body of the innermost block was complete. -/
def alternative (b : OpenBlock) (blocks : List OpenBlock) (body : List Node) : Reading :=
  ⟨{ b with body := some body } :: blocks, [], b.innerScope⟩

/-- Closes the innermost block, with its body and its alternative. -/
def complete (b : OpenBlock) (blocks : List OpenBlock) (body : List Node) :
    Option (List Node) → Except LineFault Reading
  | none => endBlock ⟨b :: blocks, body, []⟩ 0 []
  | some last => endBlock ⟨{ b with body := some body } :: blocks, last, []⟩ 0 []

theorem openBlock_eq (r : Reading) (kind : BlockKind) (line : Nat) (sharesEnd : Bool)
    (tokens : List Token) :
    r.openBlock isFunction kind line sharesEnd tokens =
      (readPipeline isFunction r.vars (.block kind) line tokens).map
        (r.opened kind line sharesEnd) := by
  rw [openBlock, pipeline_eq]
  cases readPipeline isFunction r.vars (.block kind) line tokens <;> rfl

/-- At an end neither the line nor the variables matter. -/
theorem endBlock_congr (blocks : List OpenBlock) (nodes : List Node) (vars others : List String)
    (line other : Nat) :
    endBlock ⟨blocks, nodes, vars⟩ line [] = endBlock ⟨blocks, nodes, others⟩ other [] := by
  simp [endBlock]

section Block

variable {b : OpenBlock} {blocks : List OpenBlock} {body : List Node} {vars : List String}
  {line : Nat}

theorem elseBlock_last (hbody : b.body = none) :
    elseBlock isFunction ⟨b :: blocks, body, vars⟩ line [] = .ok (alternative b blocks body) := by
  simp [elseBlock, hbody, alternative]

theorem elseBlock_chain {kind : BlockKind} (hkind : b.kind = kind) (hbody : b.body = none)
    (hne : kind ≠ .range) (spaced : Bool) (tokens : List Token) :
    elseBlock isFunction ⟨b :: blocks, body, vars⟩ line (⟨.name kind.keyword, spaced⟩ :: tokens) =
      (alternative b blocks body).openBlock isFunction kind line true tokens := by
  simp [elseBlock, hkind, hbody, OpenBlock.chains, hne, alternative]

/-- Closing a block that shares its end closes the block around it, of which it is the
alternative. -/
theorem complete_opened (kind : BlockKind) (pipe : Pipeline) (nodes : List Node)
    (otherwise : Option (List Node)) :
    complete ⟨kind, line, pipe, [], b.innerScope, pipe.scope b.innerScope, none, true⟩
        ({ b with body := some body } :: blocks) nodes otherwise =
      complete b blocks body (some [.block kind line pipe nodes otherwise]) := by
  cases otherwise <;> rfl

/-- Closing a block that does not share its end leaves its node in the list around it. -/
theorem complete_outermost (r : Reading) (kind : BlockKind) (pipe : Pipeline) (nodes : List Node)
    (otherwise : Option (List Node)) :
    complete ⟨kind, line, pipe, r.nodes, r.vars, pipe.scope r.vars, none, false⟩ r.blocks nodes
        otherwise =
      .ok (r.extend [.block kind line pipe nodes otherwise]) := by
  cases otherwise <;> simp [complete, endBlock, closeBlocks, OpenBlock.close, extend, nodesDeclares,
    Node.declares]

end Block

/-- The words of one more phrase. -/
theorem foldlM_singleton (r : Reading) (w : Word) :
    [w].foldlM (word isFunction) r = r.word isFunction w := by
  rw [List.foldlM_cons]
  exact bind_pure _

mutual

theorem foldlM_phrase (r : Reading) (phrase : Phrase) :
    phrase.words.foldlM (word isFunction) r =
      (do .ok (r.extend [← phrase.read isFunction r.vars])) := by
  match phrase with
  | .text s =>
    rw [Phrase.words, foldlM_singleton, Phrase.read, ok_bind]
    simp [word, push, extend, nodesDeclares, Node.declares]
  | .pipeline line tokens =>
    rw [Phrase.words, foldlM_singleton, word, Phrase.read, map_eq_bind, bind_assoc]
    refine bind_congr fun pipe => ?_
    simp [ok_bind, push, extend, nodesDeclares, Node.declares, Pipeline.scope_eq]
  | .block kind line tokens body ending =>
    rw [Phrase.words, List.foldlM_cons, word, openBlock_eq, Phrase.read, map_eq_bind, bind_assoc,
      bind_assoc]
    refine bind_congr fun pipe => ?_
    rw [ok_bind, List.foldlM_append, foldlM_phrases _ body, bind_assoc, bind_assoc]
    refine bind_congr fun nodes => ?_
    rw [ok_bind, foldlM_ending ending rfl rfl rfl, bind_assoc]
    refine bind_congr fun otherwise => ?_
    exact complete_outermost r kind pipe nodes otherwise

/-- The words of phrases are read as the phrases are. -/
theorem foldlM_phrases (r : Reading) (phrases : List Phrase) :
    (phrasesWords phrases).foldlM (word isFunction) r =
      (do .ok (r.extend (← readPhrases isFunction r.vars phrases))) := by
  match phrases with
  | [] => exact congrArg Except.ok (extend_nil r).symm
  | phrase :: rest =>
    rw [phrasesWords, List.foldlM_append, foldlM_phrase r phrase, readPhrases, bind_assoc,
      bind_assoc]
    refine bind_congr fun node => ?_
    rw [ok_bind, foldlM_phrases _ rest, extend_vars_singleton, bind_assoc]
    refine bind_congr fun nodes => ?_
    rw [ok_bind, extend_extend, List.singleton_append]

/-- The words of an ending are read as the ending is, and close the block. -/
theorem foldlM_ending {kind : BlockKind} (ending : Ending kind) {r : Reading} {b : OpenBlock}
    {blocks : List OpenBlock} (hr : r.blocks = b :: blocks) (hkind : b.kind = kind)
    (hbody : b.body = none) :
    ending.words.foldlM (word isFunction) r =
      (do complete b blocks r.nodes (← ending.read isFunction b.innerScope)) := by
  obtain ⟨_, body, vars⟩ := r
  subst hr
  match ending with
  | .close line =>
    rw [Ending.words, foldlM_singleton]
    exact endBlock_congr (b :: blocks) body vars [] line 0
  | .otherwise line last closeLine =>
    rw [Ending.words, List.foldlM_cons, word, elseBlock_last hbody, Ending.read, ok_bind,
      List.foldlM_append, foldlM_phrases _ last, map_eq_bind, bind_assoc, bind_assoc]
    refine bind_congr fun nodes => ?_
    rw [ok_bind, ok_bind, foldlM_singleton]
    exact endBlock_congr _ _ _ [] closeLine 0
  | .chain hne line tokens body' ending =>
    rw [Ending.words, List.foldlM_cons, word, elseBlock_chain hkind hbody hne, openBlock_eq,
      Ending.read, map_eq_bind, bind_assoc, bind_assoc]
    refine bind_congr fun pipe => ?_
    rw [ok_bind, List.foldlM_append, foldlM_phrases _ body', bind_assoc, bind_assoc]
    refine bind_congr fun nodes => ?_
    rw [ok_bind, foldlM_ending ending rfl rfl rfl, bind_assoc]
    refine bind_congr fun otherwise => ?_
    exact complete_opened kind pipe nodes otherwise

end

end Reading

end SqlTemplate
