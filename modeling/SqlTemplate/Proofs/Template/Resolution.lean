import Mathlib
import SqlTemplate.Proofs.Template.Derivation

/-!
# Declarations in scope

A variable is used by its name, and the use belongs to the innermost declaration of the name that is
in scope. To tell declarations of one name apart they are numbered in the order in which they are
made, and a list of variables is followed from step to step: what a step leaves of the list keeps
its numbers, and what it adds gets the next ones (`Trail`). Followed in this way, the list that the
reader keeps of a source is the one that the tree of the source gives by itself
(`followSource_of_parse`): inside a block the variables of its header are in scope, in its body and
in its alternative, and what either of the two declares is not in scope outside of it.
-/

set_option autoImplicit false

namespace SqlTemplate

/-! ## Trails -/

/-- A pipeline that was come to, and the variables that were in scope there, the innermost first,
with the numbers of their declarations. -/
structure Visit where
  pipe : Pipeline
  scope : List (String × Nat)

/-- What is known of a list of variables that is followed: the declarations in scope, the innermost
first, the number that the next one gets, and the pipelines that were come to. -/
structure Trail where
  scope : List (String × Nat)
  next : Nat
  visits : List Visit

namespace Trail

/-- Nothing has been come to. The variables that are there from the beginning are numbered as if
they had been declared. -/
def start (globals : List String) : Trail :=
  ⟨("$" :: globals).zipIdx.reverse, globals.length + 1, []⟩

/-- The names of the variables in scope. -/
def names (t : Trail) : List String := t.scope.map (·.1)

/-- A pipeline is come to when the list of variables holds the names `vars`, and what it declares is
put in front of them. -/
def visit (vars : List String) (p : Pipeline) (t : Trail) : Trail where
  scope := (p.declares.zipIdx t.next).reverse ++ t.scope
  next := t.next + p.declares.length
  visits := t.visits ++ [⟨p, vars.zip (t.scope.map (·.2))⟩]

/-- Only the outermost variables are left. -/
def keep (count : Nat) (t : Trail) : Trail :=
  { t with scope := t.scope.drop (t.scope.length - count) }

/-- Whether a trail goes on from another one, with the names in `declared` in front of what was in
scope, the last of which is the innermost. -/
structure Extends (declared : List String) (t t' : Trail) : Prop where
  scope : ∃ front, t'.scope = front ++ t.scope ∧ front.map (·.1) = declared.reverse ∧
    ∀ e ∈ front, t.next ≤ e.2 ∧ e.2 < t'.next
  next : t.next ≤ t'.next
  visits : t.visits <+: t'.visits

variable {t t' t'' : Trail} {declared others : List String}

theorem Extends.refl (t : Trail) : t.Extends [] t :=
  ⟨⟨[], rfl, rfl, nofun⟩, le_refl _, List.prefix_rfl⟩

theorem Extends.trans (h : t.Extends declared t') (h' : t'.Extends others t'') :
    t.Extends (declared ++ others) t'' := by
  obtain ⟨front, hscope, hfront, hnumbers⟩ := h.scope
  obtain ⟨more, hscope', hmore, hnumbers'⟩ := h'.scope
  refine ⟨⟨more ++ front, ?_, ?_, ?_⟩, h.next.trans h'.next, h.visits.trans h'.visits⟩
  · rw [hscope', hscope, List.append_assoc]
  · rw [List.map_append, hmore, hfront, List.reverse_append]
  · intro e he
    rcases List.mem_append.mp he with he | he
    · exact ⟨h.next.trans (hnumbers' e he).1, (hnumbers' e he).2⟩
    · exact ⟨(hnumbers e he).1, (hnumbers e he).2.trans_le h'.next⟩

theorem visit_extends (vars : List String) (p : Pipeline) (t : Trail) :
    t.Extends p.declares (t.visit vars p) := by
  refine ⟨⟨(p.declares.zipIdx t.next).reverse, rfl, ?_, ?_⟩, Nat.le_add_right _ _,
    List.prefix_append _ _⟩
  · rw [List.map_reverse, List.zipIdx_map_fst]
  · intro e he
    obtain ⟨x, n⟩ := e
    rw [List.mem_reverse] at he
    exact ⟨List.le_snd_of_mem_zipIdx he, List.snd_lt_add_of_mem_zipIdx he⟩

/-- Behind a block the variables are those in front of it. -/
theorem Extends.keep (h : t.Extends declared t') : t.Extends [] (t'.keep t.scope.length) := by
  obtain ⟨front, hscope, -, -⟩ := h.scope
  refine ⟨⟨[], ?_, rfl, nofun⟩, h.next, h.visits⟩
  rw [Trail.keep, hscope, List.length_append, Nat.add_sub_cancel, List.drop_left]
  rfl

theorem Extends.scope_eq (h : t.Extends [] t') : t'.scope = t.scope := by
  obtain ⟨front, hscope, hfront, -⟩ := h.scope
  rw [hscope, List.map_eq_nil_iff.mp hfront, List.nil_append]

theorem Extends.names (h : t.Extends declared t') : t'.names = declared.reverse ++ t.names := by
  obtain ⟨front, hscope, hfront, -⟩ := h.scope
  rw [Trail.names, Trail.names, hscope, List.map_append, hfront]

theorem length_names (t : Trail) : t.names.length = t.scope.length := List.length_map _

theorem Extends.names_suffix (h : t.Extends declared t') : t.names <:+ t'.names :=
  h.names ▸ List.suffix_append _ _

/-- Keeping more before keeping less changes nothing. -/
theorem keep_keep {count more : Nat} (h : count ≤ more) (t : Trail) :
    (t.keep more).keep count = t.keep count := by
  have hlength : (t.scope.drop (t.scope.length - more)).length =
      t.scope.length - (t.scope.length - more) := List.length_drop
  simp only [keep, hlength, List.drop_drop]
  congr 2
  omega

theorem keep_all {t : Trail} {count : Nat} (h : t.scope.length = count) : t.keep count = t := by
  rw [keep, h, Nat.sub_self]
  rfl

theorem keep_names (count : Nat) (t : Trail) :
    (t.keep count).names = t.names.drop (t.names.length - count) := by
  rw [names, names, keep, List.map_drop, List.length_map]

/-- With the names that are in scope, the numbers give the scope. -/
theorem names_zip (t : Trail) : t.names.zip (t.scope.map (·.2)) = t.scope := by
  rw [names, List.zip_map', List.map_id'']
  exact fun _ => rfl

end Trail

/-! ## Trails through trees -/

mutual

/-- The trail through a node. With `leaks`, the alternative of a block is come to with what its body
has declared still in scope; without, with the variables of its header only. -/
def Node.follow (leaks : Bool) (t : Trail) : Node → Trail
  | .text _ => t
  | .action _ pipe => t.visit t.names pipe
  | .block _ _ pipe body otherwise =>
    let inner := t.visit t.names pipe
    let behind := nodesFollow leaks inner body
    let between := if leaks then behind else behind.keep inner.scope.length
    (optionFollow leaks between otherwise).keep t.scope.length

/-- The trail through nodes. -/
def nodesFollow (leaks : Bool) (t : Trail) : List Node → Trail
  | [] => t
  | node :: rest => nodesFollow leaks (node.follow leaks t) rest

/-- The trail through the alternative of a block, if it has one. -/
def optionFollow (leaks : Bool) (t : Trail) : Option (List Node) → Trail
  | none => t
  | some nodes => nodesFollow leaks t nodes

end

mutual

/-- Behind a node, what it declares is in scope in front of what was there before. -/
theorem Node.follow_extends (leaks : Bool) (t : Trail) (node : Node) :
    t.Extends node.declares (node.follow leaks t) := by
  match node with
  | .text _ => exact .refl t
  | .action _ pipe => exact t.visit_extends t.names pipe
  | .block _ _ pipe body otherwise =>
    have hinner := t.visit_extends t.names pipe
    have hbody := nodesFollow_extends leaks (t.visit t.names pipe) body
    rw [Node.follow]
    cases leaks with
    | true =>
        obtain ⟨declared, hother⟩ := optionFollow_extends true
          (nodesFollow true (t.visit t.names pipe) body) otherwise
        exact ((hinner.trans hbody).trans hother).keep
    | false =>
        obtain ⟨declared, hother⟩ := optionFollow_extends false
          ((nodesFollow false (t.visit t.names pipe) body).keep
            (t.visit t.names pipe).scope.length) otherwise
        exact ((hinner.trans hbody.keep).trans hother).keep

theorem nodesFollow_extends (leaks : Bool) (t : Trail) (nodes : List Node) :
    t.Extends (nodesDeclares nodes) (nodesFollow leaks t nodes) := by
  match nodes with
  | [] => exact .refl t
  | node :: rest =>
    exact (Node.follow_extends leaks t node).trans
      (nodesFollow_extends leaks (node.follow leaks t) rest)

theorem optionFollow_extends (leaks : Bool) (t : Trail) (otherwise : Option (List Node)) :
    ∃ declared, t.Extends declared (optionFollow leaks t otherwise) := by
  match otherwise with
  | none => exact ⟨[], .refl t⟩
  | some nodes => exact ⟨nodesDeclares nodes, nodesFollow_extends leaks t nodes⟩

end

mutual

/-- The pipelines of a node are come to in their order. -/
theorem Node.follow_pipes (leaks : Bool) (t : Trail) (node : Node) :
    (node.follow leaks t).visits.map (·.pipe) = t.visits.map (·.pipe) ++ node.pipelines := by
  match node with
  | .text _ => exact (List.append_nil _).symm
  | .action _ pipe => exact List.map_append
  | .block _ _ pipe body otherwise =>
    have hbody := nodesFollow_pipes leaks (t.visit t.names pipe) body
    have hheader : (t.visit t.names pipe).visits.map (·.pipe) = t.visits.map (·.pipe) ++ [pipe] :=
      List.map_append
    rw [hheader] at hbody
    rw [Node.pipelines, Node.follow]
    cases leaks with
    | true =>
        refine (optionFollow_pipes true _ otherwise).trans ?_
        rw [if_pos rfl, hbody]
        simp
    | false =>
        refine (optionFollow_pipes false _ otherwise).trans ?_
        rw [if_neg Bool.false_ne_true]
        show (nodesFollow false (t.visit t.names pipe) body).visits.map (·.pipe) ++ _ = _
        rw [hbody]
        simp

theorem nodesFollow_pipes (leaks : Bool) (t : Trail) (nodes : List Node) :
    (nodesFollow leaks t nodes).visits.map (·.pipe) =
      t.visits.map (·.pipe) ++ nodesPipelines nodes := by
  match nodes with
  | [] => exact (List.append_nil _).symm
  | node :: rest =>
    rw [nodesFollow, nodesFollow_pipes leaks (node.follow leaks t) rest,
      Node.follow_pipes leaks t node, nodesPipelines, List.append_assoc]

theorem optionFollow_pipes (leaks : Bool) (t : Trail) (otherwise : Option (List Node)) :
    (optionFollow leaks t otherwise).visits.map (·.pipe) =
      t.visits.map (·.pipe) ++ optionPipelines otherwise := by
  match otherwise with
  | none => exact (List.append_nil _).symm
  | some nodes => exact nodesFollow_pipes leaks t nodes

end

/-! ## Following the reader -/

namespace Reading

/-- The pipeline that was read last, if it was read with the word. -/
def lastRead (r : Reading) : Word → Option Pipeline
  | .pipeline _ _ => r.nodes.getLast?.bind Node.header?
  | .opens _ _ _ | .chains _ _ _ => r.blocks.head?.map (·.pipe)
  | _ => none

/-- The trail when the list of variables has become `vars`, the innermost last: what a pipeline that
was read declares is at the end of it, and everything else was left from before. -/
def followVars (t : Trail) (vars : List String) : Option Pipeline → Trail
  | none => t.keep vars.length
  | some p =>
    let left := vars.take (vars.length - p.declares.length)
    (t.keep left.length).visit left.reverse p

section Follow

variable (isFunction : String → Bool)

/-- Reads a segment, and follows the variables. -/
def followSegment (followed : Reading × Trail) (s : Segment) :
    Except LineFault (Reading × Trail) := do
  let next ← followed.1.segment isFunction s
  let w ← Word.ofSegment s
  .ok (next, followVars followed.2 next.vars (next.lastRead w))

/-- Reads a word, and follows the variables. -/
def followWord (followed : Reading × Trail) (w : Word) :
    Except LineFault (Reading × Trail) := do
  let next ← followed.1.word isFunction w
  .ok (next, followVars followed.2 next.vars (next.lastRead w))

end Follow

end Reading

/-- Reads a source, and follows the variables. -/
def followSource (isFunction : String → Bool) (globals : List String) (source : String) :
    Except LineFault (List Node × Trail) := do
  let segments ← Segment.ofSource source
  let (r, t) ← segments.foldlM (Reading.followSegment isFunction)
    (Reading.start globals, Trail.start globals)
  let root ← r.finish
  .ok (root, t)

namespace Reading

variable {isFunction : String → Bool}

theorem foldlM_followSegment {segments : List Segment} {words : List Word}
    (h : segments.mapM Word.ofSegment = .ok words) (followed : Reading × Trail) :
    segments.foldlM (followSegment isFunction) followed =
      words.foldlM (followWord isFunction) followed := by
  rw [mapM_eq_ok] at h
  induction h generalizing followed with
  | nil => rfl
  | cons hw _ ih =>
      rw [List.foldlM_cons, List.foldlM_cons, followSegment, followWord, segment_eq_word, hw,
        ok_bind]
      exact congrArg _ (funext ih)

theorem followWord_of_word {r next : Reading} {w : Word} (h : r.word isFunction w = .ok next)
    (t : Trail) :
    followWord isFunction (r, t) w = .ok (next, followVars t next.vars (next.lastRead w)) := by
  rw [followWord, h]
  rfl

theorem followVars_none {t : Trail} {vars : List String} (h : t.scope.length = vars.length) :
    followVars t vars none = t :=
  Trail.keep_all h

/-- What a pipeline declares is new; what stood in front is left. -/
theorem followVars_scope (t : Trail) (vars : List String) (p : Pipeline) :
    followVars t (p.scope vars) (some p) = (t.keep vars.length).visit vars.reverse p := by
  have hleft : (p.scope vars).take ((p.scope vars).length - p.declares.length) = vars := by
    rw [Pipeline.scope_eq, List.length_append, Nat.add_sub_cancel, List.take_left]
  rw [followVars, hleft]

/-- Where the reader stands behind a pipeline, the trail does. -/
theorem visit_names {t : Trail} {vars : List String} (h : t.names = vars.reverse) (p : Pipeline) :
    (t.visit t.names p).names = (p.scope vars).reverse := by
  rw [(t.visit_extends t.names p).names, Pipeline.scope_eq, List.reverse_append, h]

/-- The scope that the alternative of a block is read with is what is left of the scope behind its
body. -/
theorem keep_names_of_suffix {t : Trail} {vars : List String} (h : vars.reverse <:+ t.names) :
    (t.keep vars.length).names = vars.reverse := by
  obtain ⟨front, hfront⟩ := h
  rw [Trail.keep_names, ← hfront, List.length_append, List.length_reverse, Nat.add_sub_cancel,
    List.drop_left]

theorem length_scope {t : Trail} {vars : List String} (h : t.names = vars.reverse) :
    t.scope.length = vars.length := by
  rw [← t.length_names, h, List.length_reverse]

theorem foldlM_followWord (followed : Reading × Trail) (w : Word) :
    [w].foldlM (followWord isFunction) followed = followWord isFunction followed w := by
  rw [List.foldlM_cons]
  exact bind_pure _

/-- A pipeline that was read in the scope of the trail is come to in it. -/
theorem followVars_names {t : Trail} {vars : List String} (h : t.names = vars.reverse)
    (p : Pipeline) : followVars t (p.scope vars) (some p) = t.visit t.names p := by
  rw [followVars_scope, Trail.keep_all (length_scope h), h]

mutual

theorem follow_phrase {r : Reading} {t : Trail} (ht : t.names = r.vars.reverse) {phrase : Phrase}
    {node : Node} (h : phrase.read isFunction r.vars = .ok node) :
    phrase.words.foldlM (followWord isFunction) (r, t) =
      .ok (r.extend [node], node.follow false t) := by
  match phrase with
  | .text s =>
    cases h
    have hnext : r.extend [.text s] = r.push (.text s) := by
      simp [extend, push, nodesDeclares, Node.declares]
    rw [Phrase.words, foldlM_followWord, hnext, followWord_of_word rfl]
    exact congrArg (fun t => Except.ok (r.push (.text s), t)) (followVars_none (length_scope ht))
  | .pipeline line tokens =>
    obtain ⟨pipe, hpipe, rfl⟩ := map_eq_ok.mp h
    have hnext : r.word isFunction (.pipeline line tokens) =
        .ok (r.extend [.action line pipe]) := by
      rw [word, hpipe, ok_bind]
      simp [push, extend, nodesDeclares, Node.declares, Pipeline.scope_eq]
    have hlast : (r.extend [.action line pipe]).lastRead (.pipeline line tokens) = some pipe := by
      simp [lastRead, extend, Node.header?]
    have hvars : (r.extend [.action line pipe]).vars = pipe.scope r.vars := by
      simp [extend_vars_singleton, Node.declares, Pipeline.scope_eq]
    rw [Phrase.words, foldlM_followWord, followWord_of_word hnext, hlast, hvars,
      followVars_names ht]
    rfl
  | .block kind line tokens body ending =>
    obtain ⟨pipe, hpipe, h⟩ := bind_eq_ok.mp h
    obtain ⟨nodes, hbody, h⟩ := bind_eq_ok.mp h
    obtain ⟨otherwise, hending, h⟩ := bind_eq_ok.mp h
    cases h
    let opening := r.opened kind line false pipe
    have hnext : r.word isFunction (.opens kind line tokens) = .ok opening := by
      rw [word, openBlock_eq, hpipe]
      rfl
    have hinner : (t.visit t.names pipe).names = opening.vars.reverse := visit_names ht pipe
    have hbehind := (nodesFollow_extends false (t.visit t.names pipe) nodes).names_suffix
    rw [hinner] at hbehind
    -- Behind the block the variables are those in front of it.
    have hclosed : complete ⟨kind, line, pipe, r.nodes, r.vars, pipe.scope r.vars, none, false⟩
        r.blocks nodes otherwise = .ok (r.extend [.block kind line pipe nodes otherwise]) :=
      complete_outermost r kind pipe nodes otherwise
    have hvars : (r.extend [.block kind line pipe nodes otherwise]).vars = r.vars := by
      simp [extend, nodesDeclares, Node.declares]
    have hle : (r.extend [.block kind line pipe nodes otherwise]).vars.length ≤
        (pipe.scope r.vars).length := by
      rw [hvars, Pipeline.scope_eq, List.length_append]
      omega
    have hend := follow_ending (r := opening.extend nodes) rfl rfl rfl hbehind hending hclosed hle
    have hvisit : followVars t opening.vars (opening.lastRead (.opens kind line tokens)) =
        t.visit t.names pipe := followVars_names ht pipe
    have hfollow : Node.follow false t (.block kind line pipe nodes otherwise) =
        (optionFollow false ((nodesFollow false (t.visit t.names pipe) nodes).keep
          (pipe.scope r.vars).length) otherwise).keep r.vars.length := by
      rw [Node.follow, length_scope hinner, length_scope ht]
      rfl
    rw [Phrase.words, List.foldlM_cons, followWord_of_word hnext, ok_bind, List.foldlM_append,
      hvisit, follow_phrases hinner hbody, ok_bind, hend, hvars, hfollow]

/-- The trail that follows the reader through the words of phrases is the one through their
nodes. -/
theorem follow_phrases {r : Reading} {t : Trail} (ht : t.names = r.vars.reverse)
    {phrases : List Phrase} {nodes : List Node}
    (h : readPhrases isFunction r.vars phrases = .ok nodes) :
    (phrasesWords phrases).foldlM (followWord isFunction) (r, t) =
      .ok (r.extend nodes, nodesFollow false t nodes) := by
  match phrases with
  | [] =>
    cases h
    rw [extend_nil]
    rfl
  | phrase :: rest =>
    obtain ⟨node, hphrase, h⟩ := bind_eq_ok.mp h
    obtain ⟨others, hrest, h⟩ := bind_eq_ok.mp h
    cases h
    have hnames : (node.follow false t).names = (r.extend [node]).vars.reverse := by
      rw [(Node.follow_extends false t node).names, extend_vars_singleton, List.reverse_append, ht]
    rw [← extend_vars_singleton] at hrest
    rw [phrasesWords, List.foldlM_append, follow_phrase ht hphrase, ok_bind,
      follow_phrases hnames hrest, extend_extend]
    rfl

theorem follow_ending {kind : BlockKind} {ending : Ending kind} {r next : Reading} {t : Trail}
    {b : OpenBlock} {blocks : List OpenBlock} (hr : r.blocks = b :: blocks) (hkind : b.kind = kind)
    (hbody : b.body = none) (ht : b.innerScope.reverse <:+ t.names) {otherwise : Option (List Node)}
    (h : ending.read isFunction b.innerScope = .ok otherwise)
    (hnext : complete b blocks r.nodes otherwise = .ok next)
    (hle : next.vars.length ≤ b.innerScope.length) :
    ending.words.foldlM (followWord isFunction) (r, t) =
      .ok (next, (optionFollow false (t.keep b.innerScope.length) otherwise).keep
        next.vars.length) := by
  obtain ⟨_, body, vars⟩ := r
  subst hr
  match ending with
  | .close line =>
    cases h
    have hend : word isFunction ⟨b :: blocks, body, vars⟩ (.close line) = .ok next :=
      (endBlock_congr (b :: blocks) body vars [] line 0).trans hnext
    rw [Ending.words, foldlM_followWord, followWord_of_word hend, optionFollow, Trail.keep_keep hle]
    rfl
  | .otherwise line last closeLine =>
    obtain ⟨nodes, hlast, rfl⟩ := map_eq_ok.mp h
    have helse : word isFunction ⟨b :: blocks, body, vars⟩ (.otherwise line) =
        .ok (alternative b blocks body) := by
      rw [word, elseBlock_last hbody]
    have hend : word isFunction ((alternative b blocks body).extend nodes) (.close closeLine) =
        .ok next := (endBlock_congr _ _ _ [] closeLine 0).trans hnext
    have hnames : (t.keep b.innerScope.length).names = (alternative b blocks body).vars.reverse :=
      keep_names_of_suffix ht
    -- The word in front of the alternative takes away what the body declared.
    have hleft : followVars t (alternative b blocks body).vars
        ((alternative b blocks body).lastRead (.otherwise line)) = t.keep b.innerScope.length := rfl
    rw [Ending.words, List.foldlM_cons, followWord_of_word helse, ok_bind, hleft,
      List.foldlM_append, follow_phrases hnames hlast, ok_bind,
      foldlM_followWord, followWord_of_word hend]
    rfl
  | .chain hne line tokens body' ending =>
    obtain ⟨pipe, hpipe, h⟩ := bind_eq_ok.mp h
    obtain ⟨nodes, hbody', h⟩ := bind_eq_ok.mp h
    obtain ⟨others, hending, h⟩ := bind_eq_ok.mp h
    cases h
    let opening := (alternative b blocks body).opened kind line true pipe
    have helse : word isFunction ⟨b :: blocks, body, vars⟩ (.chains kind line tokens) =
        .ok opening := by
      rw [word, elseBlock_chain hkind hbody hne, openBlock_eq]
      show (readPipeline isFunction b.innerScope (.block kind) line tokens).map _ = _
      rw [hpipe]
      rfl
    let left := t.keep b.innerScope.length
    have hleft : left.names = b.innerScope.reverse := keep_names_of_suffix ht
    have hvisit : followVars t opening.vars (opening.lastRead (.chains kind line tokens)) =
        left.visit left.names pipe := by
      rw [hleft]
      exact followVars_scope t b.innerScope pipe
    have hinner : (left.visit left.names pipe).names = opening.vars.reverse :=
      visit_names hleft pipe
    have hbehind := (nodesFollow_extends false (left.visit left.names pipe) nodes).names_suffix
    rw [hinner] at hbehind
    -- The block ends where the block around it does, of which it is the alternative.
    have hclosed : complete
        ⟨kind, line, pipe, [], b.innerScope, pipe.scope b.innerScope, none, true⟩
        ({ b with body := some body } :: blocks) nodes others = .ok next :=
      (complete_opened kind pipe nodes others).trans hnext
    have hle' : next.vars.length ≤ (pipe.scope b.innerScope).length := by
      rw [Pipeline.scope_eq, List.length_append]
      omega
    have hend := follow_ending (r := opening.extend nodes) rfl rfl rfl hbehind hending hclosed hle'
    have hfollow : optionFollow false left (some [.block kind line pipe nodes others]) =
        (optionFollow false ((nodesFollow false (left.visit left.names pipe) nodes).keep
          (pipe.scope b.innerScope).length) others).keep b.innerScope.length := by
      rw [optionFollow, nodesFollow, nodesFollow, Node.follow, length_scope hinner,
        length_scope hleft]
      rfl
    rw [Ending.words, List.foldlM_cons, followWord_of_word helse, ok_bind, hvisit,
      List.foldlM_append, follow_phrases hinner hbody', ok_bind, hend, hfollow,
      Trail.keep_keep hle]
    rfl

end

end Reading

/-- The reader begins with the variables of the trail. -/
theorem Trail.start_names (globals : List String) :
    (Trail.start globals).names = (Reading.start globals).vars.reverse := by
  rw [names, start, List.map_reverse, List.zipIdx_map_fst]
  rfl

/-- **Followed through a source that is read, the variables of the reader are those that the tree
gives.** -/
theorem followSource_of_parse {name source : String} {isFunction : String → Bool}
    {globals : List String} {t : Template}
    (h : Template.parse name source isFunction globals = .ok t) :
    followSource isFunction globals source =
      .ok (t.root, nodesFollow false (Trail.start globals) t.root) := by
  obtain ⟨phrases, hphrases, hroot⟩ := Template.exists_phrases h
  obtain ⟨segments, hsegments, hwords⟩ := bind_eq_ok.mp hphrases
  have hfollow := Reading.follow_phrases (Trail.start_names globals) hroot
  rw [followSource, hsegments, ok_bind, Reading.foldlM_followSegment hwords, hfollow]
  exact congrArg (fun root => Except.ok (root, _)) (List.nil_append t.root)

end SqlTemplate
