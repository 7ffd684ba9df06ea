import Mathlib
import SqlTemplate.Proofs.Template.Reading
import SqlTemplate.Proofs.Template.Words

/-!
# Sources and their derivations

The reader comes to the end of a source with nothing open only if the words of the source are the
words of phrases. So the sources that are read are those whose words derive from the grammar and
whose actions are accepted, and the tree of a source is its derivation.
-/

set_option autoImplicit false

namespace SqlTemplate

namespace Reading

variable {isFunction : String → Bool}

/-! ## The words behind which blocks are open -/

/-- The blocks that are open when the innermost list and the blocks that share an end with it are
closed. -/
def stillOpen : List OpenBlock → List OpenBlock
  | [] => []
  | b :: blocks => if b.sharesEnd then stillOpen blocks else blocks

theorem closeBlocks_blocks {blocks : List OpenBlock} {nodes : List Node} {r : Reading}
    (h : closeBlocks blocks nodes = some r) : blocks ≠ [] ∧ r.blocks = stillOpen blocks := by
  induction blocks generalizing nodes with
  | nil => cases h
  | cons b blocks ih =>
      refine ⟨List.cons_ne_nil b blocks, ?_⟩
      rw [closeBlocks] at h
      rw [stillOpen]
      split at h
      · rename_i hshares
        rw [if_pos hshares]
        exact (ih h).2
      · rename_i hshares
        cases h
        rw [if_neg hshares]

/-- An end closes a block, and what shares its end. -/
theorem endBlock_blocks {r next : Reading} {line : Nat} (h : r.endBlock line [] = .ok next) :
    r.blocks ≠ [] ∧ next.blocks = stillOpen r.blocks := by
  simp only [endBlock, ne_eq, not_true, if_false] at h
  split at h
  · rename_i hclose
    cases h
    exact closeBlocks_blocks hclose
  · cases h

/-- The words behind which blocks are open, up to the beginning of the innermost list. -/
inductive Opened : List OpenBlock → List Word → Prop
  | nil : Opened [] []
  | opens {r : Reading} {words : List Word} (h : Opened r.blocks words) (kind : BlockKind)
      (line : Nat) (pipe : Pipeline) (before : List Phrase) (tokens : List Token) :
      Opened (r.opened kind line false pipe).blocks
        (words ++ phrasesWords before ++ [.opens kind line tokens])
  | otherwise {b : OpenBlock} {blocks : List OpenBlock} {words : List Word}
      (h : Opened (b :: blocks) words) (hbody : b.body = none) (line : Nat) (nodes : List Node)
      (body : List Phrase) :
      Opened (alternative b blocks nodes).blocks (words ++ phrasesWords body ++ [.otherwise line])
  | chains {b : OpenBlock} {blocks : List OpenBlock} {words : List Word}
      (h : Opened (b :: blocks) words) (hbody : b.body = none) (hne : b.kind ≠ .range) (line : Nat)
      (nodes : List Node) (pipe : Pipeline) (body : List Phrase) (tokens : List Token) :
      Opened ((alternative b blocks nodes).opened b.kind line true pipe).blocks
        (words ++ phrasesWords body ++ [.chains b.kind line tokens])

/-- Whether words go on with the innermost list up to the end of its block. -/
def Closes : List OpenBlock → List Word → Prop
  | [], _ => False
  | b :: _, closing =>
    match b.body with
    | none => ∃ (body : List Phrase) (ending : Ending b.kind),
        closing = phrasesWords body ++ ending.words
    | some _ => ∃ (last : List Phrase) (line : Nat), closing = phrasesWords last ++ [.close line]

theorem closes_ending {b : OpenBlock} (hbody : b.body = none) (blocks : List OpenBlock)
    (body : List Phrase) (ending : Ending b.kind) :
    Closes (b :: blocks) (phrasesWords body ++ ending.words) := by
  rw [Closes, hbody]
  exact ⟨body, ending, rfl⟩

theorem closes_close (b : OpenBlock) (blocks : List OpenBlock) (last : List Phrase) (line : Nat) :
    Closes (b :: blocks) (phrasesWords last ++ [.close line]) := by
  rw [Closes]
  split
  · exact ⟨last, .close line, by rw [Ending.words]⟩
  · exact ⟨last, line, rfl⟩

/-- With its end, a block is a phrase of the list that it stands in. -/
theorem Opened.close {blocks : List OpenBlock} {words closing : List Word}
    (h : Opened blocks words) (hclosing : Closes blocks closing) :
    ∃ outer phrases, Opened (stillOpen blocks) outer ∧
      words ++ closing = outer ++ phrasesWords phrases := by
  induction h generalizing closing with
  | nil => exact hclosing.elim
  | opens h kind line pipe before tokens =>
      obtain ⟨body, ending, rfl⟩ := hclosing
      refine ⟨_, before ++ [.block kind line tokens body ending], h, ?_⟩
      simp [phrasesWords_append, phrasesWords, Phrase.words]
  | otherwise h hbody line nodes body ih =>
      -- The two lists and the end are the ending of the block behind its first list.
      obtain ⟨last, closeLine, rfl⟩ := hclosing
      obtain ⟨outer, phrases, houter, heq⟩ :=
        ih (closes_ending hbody _ body (.otherwise line last closeLine))
      refine ⟨outer, phrases, houter, ?_⟩
      rw [← heq, Ending.words]
      simp
  | chains h hbody hne line nodes pipe body tokens ih =>
      -- The block ends where the block around it does, of which it is the ending.
      obtain ⟨inner, ending, rfl⟩ := hclosing
      obtain ⟨outer, phrases, houter, heq⟩ :=
        ih (closes_ending hbody _ body (.chain hne line tokens inner ending))
      refine ⟨outer, phrases, houter, ?_⟩
      rw [← heq, Ending.words]
      simp

/-! ## What has been read derives -/

/-- Whether words are those behind which the open blocks of a reading are open, and those of the
phrases of its innermost list. -/
def Along (r : Reading) (words : List Word) : Prop :=
  ∃ outer phrases, Opened r.blocks outer ∧ words = outer ++ phrasesWords phrases

theorem Along.push {r next : Reading} {words : List Word} (h : r.Along words)
    (hblocks : next.blocks = r.blocks) (phrase : Phrase) : next.Along (words ++ phrase.words) := by
  obtain ⟨outer, phrases, houter, rfl⟩ := h
  refine ⟨outer, phrases ++ [phrase], hblocks ▸ houter, ?_⟩
  simp [phrasesWords_append, phrasesWords]

theorem Along.opened {r : Reading} {words : List Word} (h : Opened r.blocks words) :
    r.Along words :=
  ⟨words, [], h, by simp [phrasesWords]⟩

theorem ofLexeme_keyword (kind : BlockKind) :
    ActionKind.ofLexeme (.name kind.keyword) = .opens kind := by
  cases kind <;> rfl

/-- An else that is read stands behind the first list of the innermost block. Nothing stands behind
it, or the keyword of the block and another condition. -/
theorem elseBlock_eq_ok {r next : Reading} {line : Nat} {tokens : List Token}
    (h : r.elseBlock isFunction line tokens = .ok next) :
    ∃ b blocks, r.blocks = b :: blocks ∧ b.body = none ∧
      (tokens = [] ∧ next = alternative b blocks r.nodes ∨
        ∃ first rest pipe, tokens = first :: rest ∧ first.lexeme = .name b.kind.keyword ∧
          b.kind ≠ .range ∧
          next = (alternative b blocks r.nodes).opened b.kind line true pipe) := by
  obtain ⟨blocks, nodes, vars⟩ := r
  cases blocks with
  | nil => cases h
  | cons b blocks =>
      simp only [elseBlock] at h
      split at h
      · cases h
      rename_i hbody
      refine ⟨b, blocks, rfl, by simpa using hbody, ?_⟩
      cases tokens with
      | nil =>
          cases h
          exact .inl ⟨rfl, rfl⟩
      | cons first rest =>
          simp only at h
          split at h
          · rename_i hfirst
            rw [openBlock_eq] at h
            obtain ⟨pipe, _, rfl⟩ := map_eq_ok.mp h
            have hne : b.kind ≠ .range := by simpa [OpenBlock.chains] using hfirst.1
            exact .inr ⟨first, rest, pipe, rfl, hfirst.2, hne, rfl⟩
          · cases h

/-- A stray action is refused. -/
theorem word_stray {line other : Nat} {tokens others : List Token}
    (h : Word.ofTokens line tokens = .stray other others) (r next : Reading) :
    r.word isFunction (.stray other others) ≠ .ok next := by
  rw [← h, ← action_eq_word]
  cases tokens with
  | nil => cases h
  | cons first rest =>
      cases hkind : ActionKind.ofLexeme first.lexeme with
      | opens kind => simp [Word.ofTokens, hkind] at h
      | unsupported word => simp [Word.ofTokens, hkind] at h
      | plain => simp [Word.ofTokens, hkind] at h
      | close =>
          cases rest with
          | nil => simp [Word.ofTokens, hkind] at h
          | cons => simp [action, hkind, endBlock]
      | alternative =>
          cases rest with
          | nil => simp [Word.ofTokens, hkind] at h
          | cons behind rest =>
              simp only [action, hkind]
              intro hnext
              obtain ⟨b, _, _, _, ⟨⟨⟩, _⟩ | ⟨_, _, _, ⟨⟩, hkeyword, _⟩⟩ := elseBlock_eq_ok hnext
              simp [Word.ofTokens, hkind, hkeyword, ofLexeme_keyword] at h

/-- **A word that is read goes on with a list, opens a block, or closes one.** -/
theorem word_along {s : Segment} {w : Word} (hs : Word.ofSegment s = .ok w) {r next : Reading}
    (hnext : r.word isFunction w = .ok next) {words : List Word} (h : r.Along words) :
    next.Along (words ++ [w]) := by
  cases w with
  | text s =>
      cases hnext
      exact h.push rfl (.text s)
  | pipeline line tokens =>
      obtain ⟨pipe, _, hnext⟩ := bind_eq_ok.mp hnext
      cases hnext
      exact h.push rfl (.pipeline line tokens)
  | opens kind line tokens =>
      rw [word, openBlock_eq] at hnext
      obtain ⟨pipe, _, rfl⟩ := map_eq_ok.mp hnext
      obtain ⟨outer, before, houter, rfl⟩ := h
      exact .opened (.opens houter kind line pipe before tokens)
  | chains kind line tokens =>
      rw [word] at hnext
      obtain ⟨outer, body, houter, rfl⟩ := h
      obtain ⟨b, blocks, hr, hbody, ⟨⟨⟩, _⟩ | ⟨_, _, pipe, ⟨⟩, hkeyword, hne, rfl⟩⟩ :=
        elseBlock_eq_ok hnext
      have hkind : kind = b.kind := by
        have h := congrArg ActionKind.ofLexeme hkeyword
        rw [ofLexeme_keyword, ofLexeme_keyword] at h
        exact ActionKind.opens.inj h
      subst hkind
      rw [hr] at houter
      exact .opened (.chains houter hbody hne line r.nodes pipe body tokens)
  | otherwise line =>
      rw [word] at hnext
      obtain ⟨outer, body, houter, rfl⟩ := h
      obtain ⟨b, blocks, hr, hbody, ⟨_, rfl⟩ | ⟨_, _, _, ⟨⟩, _⟩⟩ := elseBlock_eq_ok hnext
      rw [hr] at houter
      exact .opened (.otherwise houter hbody line r.nodes body)
  | close line =>
      obtain ⟨outer, last, houter, rfl⟩ := h
      obtain ⟨hopen, hblocks⟩ := endBlock_blocks hnext
      obtain ⟨b, blocks, hr⟩ := List.exists_cons_of_ne_nil hopen
      rw [hr] at houter
      obtain ⟨outer', phrases, houter', heq⟩ := houter.close (closes_close b blocks last line)
      exact ⟨outer', phrases, by rw [hblocks, hr]; exact houter', by rw [List.append_assoc, heq]⟩
  | stray line tokens =>
      cases s with
      | text s => cases hs
      | action other body =>
          rw [Word.ofSegment] at hs
          split at hs
          · exact absurd hnext (word_stray (Except.ok.inj hs) r next)
          · cases hs

/-- What has been read derives, word by word. -/
theorem foldlM_along {segments : List Segment} {read : List Word}
    (hread : segments.mapM Word.ofSegment = .ok read) {r next : Reading}
    (hnext : read.foldlM (word isFunction) r = .ok next) {words : List Word} (h : r.Along words) :
    next.Along (words ++ read) := by
  rw [mapM_eq_ok] at hread
  induction hread generalizing r words with
  | nil =>
      cases hnext
      rwa [List.append_nil]
  | cons hw _ ih =>
      rw [List.foldlM_cons] at hnext
      obtain ⟨r', hr', hnext⟩ := bind_eq_ok.mp hnext
      rw [← List.singleton_append, ← List.append_assoc]
      exact ih hnext (word_along hw hr' h)

/-- If nothing is open, all words are those of phrases. -/
theorem Along.exists_phrases {r : Reading} {words : List Word} (h : r.Along words)
    (hblocks : r.blocks = []) : ∃ phrases, phrasesWords phrases = words := by
  obtain ⟨outer, phrases, houter, rfl⟩ := h
  rw [hblocks] at houter
  cases houter
  exact ⟨phrases, rfl⟩

end Reading

/-! ## Sources -/

section Sources

variable {name source : String} {isFunction : String → Bool} {globals : List String}

/-- A source whose words derive is read as its derivation is. -/
theorem readSource_of_phrases {phrases : List Phrase}
    (h : Word.ofSource source = .ok (phrasesWords phrases)) :
    readSource isFunction globals source = readPhrases isFunction ("$" :: globals) phrases := by
  obtain ⟨segments, hsegments, hwords⟩ := bind_eq_ok.mp h
  have hstart : "$" :: globals = (Reading.start globals).vars := rfl
  rw [readSource, hsegments, ok_bind, Reading.foldlM_segment hwords, Reading.foldlM_phrases, hstart]
  -- Nothing was open at the start, so nothing is at the end.
  cases readPhrases isFunction (Reading.start globals).vars phrases with
  | error e => rfl
  | ok nodes => exact congrArg Except.ok (List.nil_append nodes)

/-- A source that is read has words, and they derive. -/
theorem exists_phrases_of_readSource {root : List Node}
    (h : readSource isFunction globals source = .ok root) :
    ∃ phrases, Word.ofSource source = .ok (phrasesWords phrases) := by
  obtain ⟨segments, hsegments, h⟩ := bind_eq_ok.mp h
  obtain ⟨r, hr, hfinish⟩ := bind_eq_ok.mp h
  obtain ⟨words, hwords⟩ := Reading.mapM_of_foldlM hr
  rw [Reading.foldlM_segment hwords] at hr
  have halong : r.Along ([] ++ words) :=
    Reading.foldlM_along hwords hr (Reading.Along.opened .nil)
  have hblocks : r.blocks = [] := by
    rw [Reading.finish] at hfinish
    split at hfinish
    · assumption
    · cases hfinish
  obtain ⟨phrases, rfl⟩ := halong.exists_phrases hblocks
  exact ⟨phrases, by rw [Word.ofSource, hsegments, ok_bind, hwords]⟩

/-- A template that was read is the tree of a derivation. -/
theorem Template.exists_phrases {t : Template}
    (h : Template.parse name source isFunction globals = .ok t) :
    ∃ phrases, Word.ofSource source = .ok (phrasesWords phrases) ∧
      readPhrases isFunction ("$" :: globals) phrases = .ok t.root := by
  have hread := readSource_of_parse h
  obtain ⟨phrases, hphrases⟩ := exists_phrases_of_readSource hread
  exact ⟨phrases, hphrases, (readSource_of_phrases hphrases).symm.trans hread⟩

/-- The tree of a derivation is a template that is read. -/
theorem Template.parse_of_phrases {phrases : List Phrase} {nodes : List Node}
    (hphrases : Word.ofSource source = .ok (phrasesWords phrases))
    (hnodes : readPhrases isFunction ("$" :: globals) phrases = .ok nodes) :
    Template.parse name source isFunction globals = .ok ⟨name, nodes⟩ := by
  rw [Template.parse, readSource_of_phrases hphrases, hnodes]

/-- **A template is the derivation of its source.** The words of a source that is read have exactly
one derivation, of which the template is the tree, and its texts and actions are those of the words,
in their order. A source whose words derive is never refused because of its blocks. -/
theorem Template.parse_derives (name source : String) (isFunction : String → Bool)
    (globals : List String) :
    (∀ t, Template.parse name source isFunction globals = .ok t →
      ∃! phrases, Word.ofSource source = .ok (phrasesWords phrases) ∧
        readPhrases isFunction ("$" :: globals) phrases = .ok t.root ∧
        WordsMake isFunction (phrasesWords phrases) (nodesLeaves t.root)) ∧
    ∀ phrases, Word.ofSource source = .ok (phrasesWords phrases) →
      ∀ e, Template.parse name source isFunction globals = .error e →
        e.fault.isStructural = false := by
  constructor
  · intro t h
    obtain ⟨phrases, hphrases, hroot⟩ := Template.exists_phrases h
    refine ⟨phrases, ⟨hphrases, hroot, phrasesWords_make hroot⟩, ?_⟩
    rintro others ⟨hothers, -⟩
    exact phrasesWords_injective (Except.ok.inj (hothers.symm.trans hphrases))
  · intro phrases hphrases e h
    rw [Template.parse, readSource_of_phrases hphrases] at h
    split at h
    · cases h
    · rename_i fault hfault
      cases h
      exact readPhrases_failsInside isFunction _ phrases fault hfault

/-- A chain of conditions that is read, and one that is refused, but not because of its blocks. -/
theorem Template.parse_derives_chain :
    let source := "a" ++ braced "if .A" ++ "b" ++ braced "else if .B" ++ braced ".C" ++
      braced "else" ++ "d" ++ braced "end"
    let t : Template := ⟨"t", [.text "a",
      .block .conditional 1 ⟨[], false, [[.field ["A"]]]⟩ [.text "b"]
        (some [.block .conditional 1 ⟨[], false, [[.field ["B"]]]⟩
          [.action 1 ⟨[], false, [[.field ["C"]]]⟩] (some [.text "d"])])]⟩
    let refused := braced "if .A" ++ braced "else if $x" ++ braced "end"
    let phrases : List Phrase := [.block .conditional 1 [⟨.field "A", true⟩] []
      (.chain (by decide) 1 [⟨.variable "$x", true⟩] [] (.close 1))]
    let e : ParseError := ⟨"t", 1, .undefinedVariable "$x"⟩
    Template.parse "t" source (fun _ => false) [] = .ok t ∧
      (∃! phrases, Word.ofSource source = .ok (phrasesWords phrases) ∧
        readPhrases (fun _ => false) ["$"] phrases = .ok t.root ∧
        WordsMake (fun _ => false) (phrasesWords phrases) (nodesLeaves t.root)) ∧
      Word.ofSource refused = .ok (phrasesWords phrases) ∧
      Template.parse "t" refused (fun _ => false) [] = .error e ∧ e.fault.isStructural = false := by
  intro source t refused phrases e
  have hparse : Template.parse "t" source (fun _ => false) [] = .ok t := by
    cbv
  have hwords : Word.ofSource refused = .ok (phrasesWords phrases) := by
    cbv
  have hrefused : Template.parse "t" refused (fun _ => false) [] = .error e := by
    cbv
  exact ⟨hparse, (Template.parse_derives "t" source (fun _ => false) []).1 t hparse, hwords,
    hrefused, (Template.parse_derives "t" refused (fun _ => false) []).2 phrases hwords e hrefused⟩

end Sources

end SqlTemplate
