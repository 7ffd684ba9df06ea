import Mathlib
import SqlTemplate.Proofs.Shape.Stale
import SqlTemplate.Proofs.Template.Resolution

/-!
# One variable, one declaration

The reader and the check each keep a list of the variables in scope, and look a variable up in it
from the inside. Both lists are followed (`Trail`): the check comes to the pipelines of a template
in the order in which the reader does, up to the one at which it stops, and the lists that it has
there are those of the tree, but for one thing: it goes to the alternative of a block with what the
body has declared. `Template.check_resolves` says for which uses of variables this shows. Everywhere
else the check and the reader mean the same declaration.
-/

set_option autoImplicit false

namespace SqlTemplate

/-! ## Following the check -/

/-- What the check knows about variables, and the trail beside it. -/
structure Watched where
  vars : KnownVariables
  trail : Trail

/-- Steps of the check that leave a trail, also if they stop. -/
abbrev Watch (α : Type) := ExceptT CheckFault (StateM Watched) α

namespace Watch

variable {α β : Type}

/-- A step of the check. -/
def step (m : Check α) : Watch α :=
  ExceptT.mk fun w =>
    match m.run w.vars with
    | .ok (a, vars) => (.ok a, { w with vars })
    | .error fault => (.error fault, w)

/-- The check comes to a pipeline. -/
def visit (p : Pipeline) : Watch Unit :=
  modify fun w => { w with trail := w.trail.visit (w.vars.map (·.1)) p }

/-- The check drops the variables that came after the first `count`. -/
def keep (count : Nat) : Watch Unit := do
  step (Check.keep count)
  modify fun w => { w with trail := w.trail.keep count }

end Watch

mutual

/-- Checks a node, and follows the variables. -/
def watchNode (dest : Shape) (dot : Known) : Node → Watch Unit
  | .text _ => return
  | .action _ pipe => do
    Watch.visit pipe
    let _ ← Watch.step (checkPipeline dest dot pipe)
  | .block kind _ pipe body otherwise => do
    let mark ← Watch.step Check.mark
    Watch.visit pipe
    let inner ← Watch.step (checkHeader dest dot kind pipe)
    watchNodes dest inner body
    watchOption dest dot otherwise
    Watch.keep mark

/-- Checks nodes, and follows the variables. -/
def watchNodes (dest : Shape) (dot : Known) : List Node → Watch Unit
  | [] => return
  | node :: rest => do
    watchNode dest dot node
    watchNodes dest dot rest

/-- Checks the alternative of a block, and follows the variables. -/
def watchOption (dest : Shape) (dot : Known) : Option (List Node) → Watch Unit
  | none => return
  | some nodes => watchNodes dest dot nodes

end

/-- Checks a template, and follows the variables. -/
def Template.watch (t : Template) (params dest : Shape) (globals : List String) :
    Except CheckFault Unit × Watched :=
  (watchNodes dest (.shape params) t.root).run.run
    ⟨KnownVariables.start params globals, Trail.start globals⟩

namespace Watch

variable {α β : Type}

/-- What a step makes of a state. -/
def on (m : Watch α) (w : Watched) : Except CheckFault α × Watched := m.run.run w

theorem on_bind (m : Watch α) (k : α → Watch β) (w : Watched) :
    (m >>= k).on w =
      match m.on w with
      | (.ok a, next) => (k a).on next
      | (.error fault, next) => (.error fault, next) := by
  show (m >>= k).run.run w = _
  rw [ExceptT.run_bind, StateT.run_bind]
  unfold on
  generalize m.run.run w = outcome
  obtain ⟨result, next⟩ := outcome
  cases result <;> rfl

/-! ## The check is not changed -/

/-- Whether a step that leaves a trail is a step of the check, but for the trail. -/
def Erases (m : Watch α) (c : Check α) : Prop :=
  ∀ w, (m.on w).1.map (fun a => (a, (m.on w).2.vars)) = c.run w.vars

theorem Erases.pure (a : α) : Erases (pure a) (Pure.pure a) := fun _ => rfl

theorem on_step_ok {c : Check α} {w : Watched} {a : α} {vars : KnownVariables}
    (h : c.run w.vars = .ok (a, vars)) : (step c).on w = (.ok a, { w with vars }) := by
  show (match c.run w.vars with
    | .ok (a, vars) => (.ok a, { w with vars })
    | .error fault => (.error fault, w) : Except CheckFault α × Watched) = _
  rw [h]

theorem on_step_error {c : Check α} {w : Watched} {fault : CheckFault}
    (h : c.run w.vars = .error fault) : (step c).on w = (.error fault, w) := by
  show (match c.run w.vars with
    | .ok (a, vars) => (.ok a, { w with vars })
    | .error fault => (.error fault, w) : Except CheckFault α × Watched) = _
  rw [h]

theorem Erases.step (c : Check α) : Erases (step c) c := by
  intro w
  cases hc : c.run w.vars with
  | ok result =>
      rw [on_step_ok hc]
      rfl
  | error fault =>
      rw [on_step_error hc]
      rfl

theorem Erases.bind {m : Watch α} {c : Check α} {k : α → Watch β} {l : α → Check β}
    (h : Erases m c) (hk : ∀ a, Erases (k a) (l a)) : Erases (m >>= k) (c >>= l) := by
  intro w
  have hm := h w
  rw [on_bind, StateT.run_bind]
  generalize m.on w = outcome at hm
  obtain ⟨result, next⟩ := outcome
  cases result with
  | ok a =>
      rw [← hm]
      exact hk a next
  | error fault =>
      rw [← hm]
      rfl

/-- Coming to a pipeline is nothing to the check. -/
theorem Erases.visit (p : Pipeline) {m : Watch α} {c : Check α} (h : Erases m c) :
    Erases (do visit p; m) c :=
  fun w => h { w with trail := w.trail.visit (w.vars.map (·.1)) p }

theorem Erases.keep (count : Nat) : Erases (keep count) (Check.keep count) := fun _ => rfl

end Watch

open Watch

mutual

theorem watchNode_erases (dest : Shape) (dot : Known) (node : Node) :
    Erases (watchNode dest dot node) (checkNode dest dot node) := by
  match node with
  | .text _ => exact .pure ()
  | .action _ pipe =>
    rw [watchNode, checkNode]
    exact .visit pipe ((Erases.step _).bind fun _ => .pure ())
  | .block kind line pipe body otherwise =>
    rw [watchNode, checkNode_block]
    refine (Erases.step _).bind fun mark => .visit pipe ((Erases.step _).bind fun inner => ?_)
    refine (watchNodes_erases dest inner body).bind fun _ => ?_
    exact (watchOption_erases dest dot otherwise).bind fun _ => .keep mark

theorem watchNodes_erases (dest : Shape) (dot : Known) (nodes : List Node) :
    Erases (watchNodes dest dot nodes) (checkNodes dest dot nodes) := by
  match nodes with
  | [] => exact .pure ()
  | node :: rest =>
    rw [watchNodes, checkNodes]
    exact (watchNode_erases dest dot node).bind fun _ => watchNodes_erases dest dot rest

theorem watchOption_erases (dest : Shape) (dot : Known) (otherwise : Option (List Node)) :
    Erases (watchOption dest dot otherwise) (checkOption dest dot otherwise) := by
  match otherwise with
  | none => exact .pure ()
  | some nodes => exact watchNodes_erases dest dot nodes

end

/-- Following the variables does not change what the check finds. -/
theorem Template.watch_check (t : Template) (params dest : Shape) (globals : List String) :
    (t.watch params dest globals).1 = t.check params dest globals := by
  let w : Watched := ⟨KnownVariables.start params globals, Trail.start globals⟩
  have h := watchNodes_erases dest (.shape params) t.root w
  show ((watchNodes dest (.shape params) t.root).on w).1 =
    ((checkNodes dest (.shape params) t.root).run w.vars).map (·.1)
  rw [← h]
  cases ((watchNodes dest (.shape params) t.root).on w).1 <;> rfl

/-! ## The trail of the check -/

/-- Whether the variables of the trail are those that the check knows. -/
def Watched.Aligned (w : Watched) : Prop := w.trail.names = w.vars.map (·.1)

theorem Known.Grows.names {A : String → Prop} {declared : List String}
    {types types' : KnownVariables} (h : Known.Grows A declared types types') :
    types'.map (·.1) = declared.reverse ++ types.map (·.1) := by
  obtain ⟨front, outer, rfl, hfront, hfades⟩ := h
  rw [List.map_append, hfront, Follows.names hfades]

namespace Watch

variable {α β : Type}

/-- Whether an outcome leaves a trail; a step that stops has come to nothing that is not on it. -/
def Ends (t : Trail) : Except CheckFault α × Watched → Prop
  | (.ok _, next) => next.trail = t ∧ next.Aligned
  | (.error _, next) => next.trail.visits <+: t.visits

theorem Ends.visits {t : Trail} {outcome : Except CheckFault α × Watched} (h : Ends t outcome) :
    outcome.2.trail.visits <+: t.visits := by
  obtain ⟨result, next⟩ := outcome
  cases result with
  | ok a => exact h.1 ▸ List.prefix_rfl
  | error fault => exact h

/-- Whether a step leaves the trail that `f` gives. -/
def Follows (m : Watch α) (f : Trail → Trail) : Prop :=
  ∀ w, w.Aligned → Ends (f w.trail) (m.on w)

theorem Follows.pure (a : α) : Follows (pure a) fun t => t := fun _ hw => ⟨rfl, hw⟩

theorem Follows.bind {m : Watch α} {k : α → Watch β} {f g : Trail → Trail} (h : Follows m f)
    (hk : ∀ a, Follows (k a) g) (hg : ∀ t, t.visits <+: (g t).visits) :
    Follows (m >>= k) fun t => g (f t) := by
  intro w hw
  have hm := h w hw
  rw [on_bind]
  generalize m.on w = outcome at hm
  obtain ⟨result, next⟩ := outcome
  cases result with
  | ok a =>
      obtain ⟨htrail, hnext⟩ := hm
      have hlast := hk a next hnext
      rwa [htrail] at hlast
  | error fault => exact List.IsPrefix.trans hm (hg (f w.trail))

/-- A step that checks a pipeline puts in front what the pipeline declares. -/
theorem Follows.visit {p : Pipeline} {c : Check α} {k : α → Watch β} {g : Trail → Trail}
    (hc : ∀ types a types', c.run types = .ok (a, types') →
      types'.map (·.1) = p.declares.reverse ++ types.map (·.1))
    (hk : ∀ a, Follows (k a) g) (hg : ∀ t, t.visits <+: (g t).visits) :
    Follows (do Watch.visit p; let a ← step c; k a) fun t => g (t.visit t.names p) := by
  intro w hw
  let come : Watched := { w with trail := w.trail.visit w.trail.names p }
  have hcome : (do Watch.visit p; let a ← step c; k a : Watch β).on w = (step c >>= k).on come := by
    show (step c >>= k).on { w with trail := w.trail.visit (w.vars.map (·.1)) p } = _
    rw [← hw]
  rw [hcome, on_bind]
  cases hrun : c.run w.vars with
  | error fault =>
      rw [on_step_error (w := come) hrun]
      exact hg come.trail
  | ok result =>
      obtain ⟨a, vars⟩ := result
      rw [on_step_ok (w := come) hrun]
      refine hk a { come with vars } ?_
      show come.trail.names = vars.map (·.1)
      rw [hc _ _ _ hrun, ← hw]
      exact (w.trail.visit_extends w.trail.names p).names

theorem Follows.keep (count : Nat) : Follows (keep count) (Trail.keep count) := by
  intro w hw
  refine ⟨rfl, ?_⟩
  show (w.trail.keep count).names = (w.vars.drop (w.vars.length - count)).map (·.1)
  rw [Trail.keep_names, hw, List.map_drop, List.length_map]

end Watch

section Follow

variable {dest : Shape} {isFunction : String → Bool}

/-- A pipeline that is checked puts in front what it declares. -/
theorem Pipeline.Proper.checkPipeline_names {names : Names} {context : PipelineContext}
    {p : Pipeline} (hp : p.Proper names context) {dot known : Known} {types types' : KnownVariables}
    (h : (checkPipeline dest dot p).run types = .ok (known, types')) :
    types'.map (·.1) = p.declares.reverse ++ types.map (·.1) := by
  obtain ⟨-, hbind⟩ := hp.run_checkPipeline h
  exact (Check.bindAll_binds p.assigns known p.declared _ _ hbind).names

mutual

theorem watchNode_follows {dot : Known} {scope : List String} {node : Node}
    (hnode : node.Proper isFunction scope) :
    Watch.Follows (watchNode dest dot node) fun t => node.follow true t := by
  match node with
  | .text _ => exact .pure ()
  | .action _ pipe =>
    rw [watchNode]
    exact .visit (fun _ _ _ h => Pipeline.Proper.checkPipeline_names hnode h) (fun _ => .pure ())
      fun _ => List.prefix_rfl
  | .block kind line pipe body otherwise =>
    obtain ⟨hpipe, hbody, hother⟩ := hnode
    intro w hw
    -- The check marks the number of its variables, which is that of the scope on the trail.
    have hmark : (Watch.step Check.mark).on w = (.ok w.vars.length, w) := on_step_ok rfl
    have hlength : w.trail.scope.length = w.vars.length := by
      rw [← w.trail.length_names, hw, List.length_map]
    have hother' (t : Trail) :
        t.visits <+: ((optionFollow true t otherwise).keep w.vars.length).visits := by
      obtain ⟨declared, hextends⟩ := optionFollow_extends true t otherwise
      exact hextends.visits
    have hfollow : Node.follow true w.trail (.block kind line pipe body otherwise) =
        (optionFollow true (nodesFollow true (w.trail.visit w.trail.names pipe) body)
          otherwise).keep w.vars.length := by
      rw [Node.follow, if_pos rfl, hlength]
    have hrest : Watch.Follows (do
        Watch.visit pipe
        let inner ← Watch.step (checkHeader dest dot kind pipe)
        watchNodes dest inner body
        watchOption dest dot otherwise
        Watch.keep w.vars.length) fun t => (optionFollow true
          (nodesFollow true (t.visit t.names pipe) body) otherwise).keep w.vars.length := by
      refine .visit (g := fun t => (optionFollow true (nodesFollow true t body) otherwise).keep
        w.vars.length) (fun _ _ _ h => (hpipe.checkHeader_grows h).names) (fun inner => ?_) ?_
      · refine (watchNodes_follows hbody).bind (g := fun t => (optionFollow true t otherwise).keep
          w.vars.length) (fun _ => ?_) fun t => hother' t
        exact (watchOption_follows hother).bind (fun _ => .keep w.vars.length)
          fun _ => List.prefix_rfl
      · exact fun t => (nodesFollow_extends true t body).visits.trans (hother' _)
    show Watch.Ends (Node.follow true w.trail (.block kind line pipe body otherwise)) _
    rw [watchNode, on_bind, hmark, hfollow]
    exact hrest w hw

theorem watchNodes_follows {dot : Known} {scope : List String} {nodes : List Node}
    (hnodes : ProperNodes isFunction scope nodes) :
    Watch.Follows (watchNodes dest dot nodes) fun t => nodesFollow true t nodes := by
  match nodes with
  | [] => exact .pure ()
  | node :: rest =>
    rw [watchNodes]
    exact (watchNode_follows hnodes.1).bind (fun _ => watchNodes_follows hnodes.2)
      fun t => (nodesFollow_extends true t rest).visits

theorem watchOption_follows {dot : Known} {scope : List String} {otherwise : Option (List Node)}
    (hother : ProperOption isFunction scope otherwise) :
    Watch.Follows (watchOption dest dot otherwise) fun t => optionFollow true t otherwise := by
  match otherwise with
  | none => exact .pure ()
  | some nodes => exact watchNodes_follows hother

end

end Follow

/-! ## The two trails -/

mutual

/-- For the pipelines of a node, in their order, the variables that a body has declared to whose
alternative the pipeline belongs, unless they are declared again in between. In front of the node
these are the variables in `left`. -/
def Node.leftover (left : List String) : Node → List (List String)
  | .text _ => []
  | .action _ _ => [left]
  | .block _ _ pipe body otherwise =>
    let inner := left.filter (· ∉ pipe.declares)
    left :: (nodesLeftover inner body ++ optionLeftover (nodesDeclares body ++ inner) otherwise)

/-- These variables for the pipelines of nodes. -/
def nodesLeftover (left : List String) : List Node → List (List String)
  | [] => []
  | node :: rest => node.leftover left ++ nodesLeftover (left.filter (· ∉ node.declares)) rest

/-- These variables for the pipelines of the alternative of a block. -/
def optionLeftover (left : List String) : Option (List Node) → List (List String)
  | none => []
  | some nodes => nodesLeftover left nodes

end

/-- Whether the trail of the check has the declarations in scope that the trail of the reader has,
except for the variables in `left`, for which it has others in front that the reader has not. -/
structure Trail.Parts (left : List String) (read checked : Trail) : Prop where
  next : checked.next = read.next
  numbered : ∀ e ∈ read.scope ++ checked.scope, e.2 < read.next
  same : ∀ x, x ∉ left → checked.scope.lookup x = read.scope.lookup x
  other : ∀ x ∈ left, ∃ n, checked.scope.lookup x = some n ∧ ∀ e ∈ read.scope, e.2 ≠ n

/-- A pipeline to which both come: with the scope of the reader, that of the check, and the
variables that are left over for it. -/
structure Meeting where
  read : Visit
  checked : Visit
  left : List String

/-- Whether both mean the same declaration by all variables that are not left over, and different
ones by those that are. -/
def Meeting.Agrees (m : Meeting) : Prop :=
  m.checked.pipe = m.read.pipe ∧
    ∀ x, m.checked.scope.lookup x = m.read.scope.lookup x ↔ x ∉ m.left

/-- Whether two trails go on through the same pipelines and agree there. -/
def Trail.Meet (leftover : List (List String)) (read read' checked checked' : Trail) : Prop :=
  ∃ meetings : List Meeting, read'.visits = read.visits ++ meetings.map (·.read) ∧
    checked'.visits = checked.visits ++ meetings.map (·.checked) ∧
    leftover = meetings.map (·.left) ∧ ∀ m ∈ meetings, m.Agrees

namespace Trail

variable {read read' read'' checked checked' checked'' : Trail} {left left' declared : List String}
  {leftover others : List (List String)}

theorem Meet.refl (read checked : Trail) : Meet [] read read checked checked :=
  ⟨[], by simp, by simp, rfl, nofun⟩

theorem Meet.trans (h : Meet leftover read read' checked checked')
    (h' : Meet others read' read'' checked' checked'') :
    Meet (leftover ++ others) read read'' checked checked'' := by
  obtain ⟨meetings, hread, hchecked, hleft, hagree⟩ := h
  obtain ⟨more, hread', hchecked', hleft', hagree'⟩ := h'
  refine ⟨meetings ++ more, ?_, ?_, ?_, List.forall_mem_append.mpr ⟨hagree, hagree'⟩⟩
  · rw [hread', hread, List.map_append, List.append_assoc]
  · rw [hchecked', hchecked, List.map_append, List.append_assoc]
  · rw [hleft, hleft', List.map_append]

/-- Where the trails part only in what is left over, a pipeline is met. -/
theorem Parts.meet (h : Parts left read checked) (p : Pipeline) :
    Meet [left] read (read.visit read.names p) checked (checked.visit checked.names p) := by
  refine ⟨[⟨⟨p, read.scope⟩, ⟨p, checked.scope⟩, left⟩], ?_, ?_, rfl, ?_⟩
  · rw [visit, names_zip]
    rfl
  · rw [visit, names_zip]
    rfl
  · rw [List.forall_mem_singleton]
    refine ⟨rfl, fun x => ⟨fun hsame hx => ?_, h.same x⟩⟩
    -- For a variable that is left over, the check finds what the reader has nowhere in scope.
    obtain ⟨n, hn, hother⟩ := h.other x hx
    exact hother _ (mem_of_lookup (hsame.symm.trans hn)) rfl

/-- What is put in front of both is the same for both. -/
theorem Parts.visit (h : Parts left read checked) (p : Pipeline) :
    Parts (left.filter (· ∉ p.declares)) (read.visit read.names p)
      (checked.visit checked.names p) := by
  obtain ⟨front, hread, hfront, hnumbers⟩ := (read.visit_extends read.names p).scope
  have hchecked : (checked.visit checked.names p).scope = front ++ checked.scope := by
    have hsame : (read.visit read.names p).scope =
        (p.declares.zipIdx read.next).reverse ++ read.scope := rfl
    rw [← List.append_cancel_right (hsame.symm.trans hread), ← h.next]
    rfl
  have hnext : read.next ≤ (read.visit read.names p).next := Nat.le_add_right _ _
  have hdeclares (x : String) : front.lookup x = none ↔ x ∉ p.declares := by
    rw [lookup_eq_none, hfront, List.mem_reverse]
  constructor
  · exact congrArg (· + p.declares.length) h.next
  · intro e he
    rw [hread, hchecked] at he
    have he : e ∈ front ∨ e ∈ read.scope ++ checked.scope := by
      simp only [List.mem_append] at he ⊢
      tauto
    rcases he with he | he
    · exact (hnumbers e he).2
    · exact (h.numbered e he).trans_le hnext
  · intro x hx
    rw [hread, hchecked, List.lookup_append, List.lookup_append]
    by_cases hdeclared : x ∈ p.declares
    · -- A variable that the pipeline declares is found in front.
      cases hfound : front.lookup x with
      | none => exact absurd hdeclared ((hdeclares x).mp hfound)
      | some n => rfl
    · rw [h.same x fun hmem => hx (List.mem_filter.mpr ⟨hmem, by simpa using hdeclared⟩)]
  · intro x hx
    obtain ⟨hmem, hdeclared⟩ := List.mem_filter.mp hx
    obtain ⟨n, hn, hother⟩ := h.other x hmem
    refine ⟨n, ?_, fun e he => ?_⟩
    · rw [hchecked, List.lookup_append, (hdeclares x).mpr (by simpa using hdeclared)]
      exact hn
    · rw [hread] at he
      rcases List.mem_append.mp he with he | he
      · -- The numbers in front are new, the one that the check finds is not.
        have hold := h.numbered _ (List.mem_append_right _ (mem_of_lookup hn))
        have hnew := (hnumbers e he).1
        intro heq
        rw [heq] at hnew
        exact absurd hold (not_lt.mpr hnew)
      · exact hother e he

/-- Behind a body, the reader has left what the body declared; the check has it in front. -/
theorem Parts.leave (h : Parts left read checked) (hread : read.Extends declared read')
    (hchecked : checked.Extends declared checked') (h' : Parts left' read' checked') :
    Parts (declared ++ left) (read'.keep read.scope.length) checked' := by
  obtain ⟨front, hscope, hfront, hnumbers⟩ := hchecked.scope
  have hleft : (read'.keep read.scope.length).scope = read.scope := hread.keep.scope_eq
  have hdeclared (x : String) : front.lookup x = none ↔ x ∉ declared := by
    rw [lookup_eq_none, hfront, List.mem_reverse]
  constructor
  · exact h'.next
  · intro e he
    rw [hleft] at he
    rcases List.mem_append.mp he with he | he
    · exact (h.numbered e (List.mem_append_left _ he)).trans_le hread.next
    · exact h'.numbered e (List.mem_append_right _ he)
  · intro x hx
    rw [List.mem_append, not_or] at hx
    rw [hleft, hscope, List.lookup_append, (hdeclared x).mpr hx.1, Option.none_or, h.same x hx.2]
  · intro x hx
    rw [hleft, hscope, List.lookup_append]
    cases hfound : front.lookup x with
    | some n =>
        refine ⟨n, rfl, fun e he heq => ?_⟩
        have hnew := (hnumbers _ (mem_of_lookup hfound)).1
        have hold := h.numbered e (List.mem_append_left _ he)
        rw [heq, ← h.next] at hold
        exact absurd hold (not_lt.mpr hnew)
    | none =>
        have hmem : x ∈ left := (List.mem_append.mp hx).resolve_left ((hdeclared x).mp hfound)
        exact h.other x hmem

/-- Behind a block both have the scopes that they had in front of it. -/
theorem Parts.later (h : Parts left read checked) (hread : read.Extends [] read')
    (hchecked : checked.Extends [] checked') (hnext : checked'.next = read'.next) :
    Parts left read' checked' where
  next := hnext
  numbered e he := by
    rw [hread.scope_eq, hchecked.scope_eq] at he
    exact (h.numbered e he).trans_le hread.next
  same x hx := by
    rw [hread.scope_eq, hchecked.scope_eq]
    exact h.same x hx
  other x hx := by
    rw [hread.scope_eq, hchecked.scope_eq]
    exact h.other x hx

end Trail

mutual

theorem Node.follow_parts {left : List String} {read checked : Trail}
    (h : Trail.Parts left read checked) (node : Node) :
    Trail.Parts (left.filter (· ∉ node.declares)) (node.follow false read)
        (node.follow true checked) ∧
      Trail.Meet (node.leftover left) read (node.follow false read) checked
        (node.follow true checked) := by
  match node with
  | .text s =>
    have hleft : left.filter (· ∉ (Node.text s).declares) = left := by
      simp [Node.declares]
    rw [hleft]
    exact ⟨h, .refl read checked⟩
  | .action _ pipe => exact ⟨h.visit pipe, h.meet pipe⟩
  | .block kind line pipe body otherwise =>
    have hleft : left.filter (· ∉ (Node.block kind line pipe body otherwise).declares) = left := by
      simp [Node.declares]
    obtain ⟨hbody, hmeet⟩ := nodesFollow_parts (h.visit pipe) body
    -- The check goes to the alternative with what the body has declared, the reader without it.
    have hbetween := (h.visit pipe).leave (nodesFollow_extends false _ body)
      (nodesFollow_extends true _ body) hbody
    obtain ⟨hnext, hmeet'⟩ := optionFollow_parts hbetween otherwise
    have hread := Node.follow_extends false read (.block kind line pipe body otherwise)
    have hchecked := Node.follow_extends true checked (.block kind line pipe body otherwise)
    rw [hleft]
    refine ⟨h.later hread hchecked hnext, ?_⟩
    exact (h.meet pipe).trans (hmeet.trans hmeet')

theorem nodesFollow_parts {left : List String} {read checked : Trail}
    (h : Trail.Parts left read checked) (nodes : List Node) :
    Trail.Parts (left.filter (· ∉ nodesDeclares nodes)) (nodesFollow false read nodes)
        (nodesFollow true checked nodes) ∧
      Trail.Meet (nodesLeftover left nodes) read (nodesFollow false read nodes) checked
        (nodesFollow true checked nodes) := by
  match nodes with
  | [] =>
    have hleft : left.filter (· ∉ nodesDeclares []) = left := by
      simp [nodesDeclares]
    rw [hleft]
    exact ⟨h, .refl read checked⟩
  | node :: rest =>
    obtain ⟨hfirst, hmeet⟩ := Node.follow_parts h node
    obtain ⟨hrest, hmeet'⟩ := nodesFollow_parts hfirst rest
    have hleft : (left.filter (· ∉ node.declares)).filter (· ∉ nodesDeclares rest) =
        left.filter (· ∉ nodesDeclares (node :: rest)) := by
      simp [nodesDeclares, List.filter_filter, Bool.and_comm]
    rw [hleft] at hrest
    exact ⟨hrest, hmeet.trans hmeet'⟩

theorem optionFollow_parts {left : List String} {read checked : Trail}
    (h : Trail.Parts left read checked) (otherwise : Option (List Node)) :
    (optionFollow true checked otherwise).next = (optionFollow false read otherwise).next ∧
      Trail.Meet (optionLeftover left otherwise) read (optionFollow false read otherwise) checked
        (optionFollow true checked otherwise) := by
  match otherwise with
  | none => exact ⟨h.next, .refl read checked⟩
  | some nodes =>
    obtain ⟨hparts, hmeet⟩ := nodesFollow_parts h nodes
    exact ⟨hparts.next, hmeet⟩

end

/-- At the beginning there is nothing in which the trails could part. -/
theorem Trail.Parts.start (globals : List String) :
    Trail.Parts [] (Trail.start globals) (Trail.start globals) where
  next := rfl
  numbered e he := by
    obtain ⟨x, n⟩ := e
    have he : (x, n) ∈ ("$" :: globals).zipIdx := by
      rw [List.mem_append, or_self, Trail.start, List.mem_reverse] at he
      exact he
    have hn : n < 0 + ("$" :: globals).length := List.snd_lt_add_of_mem_zipIdx he
    rwa [Nat.zero_add] at hn
  same _ _ := rfl
  other _ hx := absurd hx List.not_mem_nil

/-! ## Templates -/

/-- The check comes to the pipelines of a template in their order, and if it stops, then it has come
to the first ones. -/
theorem Template.watch_visits {name source : String} {isFunction : String → Bool}
    {globals : List String} {t : Template}
    (h : Template.parse name source isFunction globals = .ok t) (params dest : Shape) :
    (t.watch params dest globals).2.trail.visits <+:
      (nodesFollow true (Trail.start globals) t.root).visits := by
  let w : Watched := ⟨KnownVariables.start params globals, Trail.start globals⟩
  have haligned : w.Aligned := by
    rw [Watched.Aligned, Trail.start_names]
    simp [w, KnownVariables.start, Reading.start, Function.comp_def]
  have hfollows : Watch.Follows (watchNodes dest (.shape params) t.root)
      fun u => nodesFollow true u t.root := watchNodes_follows (Template.parse_proper h)
  exact (hfollows w haligned).visits

/-- **The check means the declaration that the reader means**, by all variables, wherever it comes
to, except where a use stands in the alternative of a block whose body declares the variable: unless
it is declared again in between, the check means the declaration in the body there, and the reader
does not. -/
theorem Template.check_resolves {name source : String} {isFunction : String → Bool}
    {globals : List String} {t : Template}
    (h : Template.parse name source isFunction globals = .ok t) (params dest : Shape) :
    ∃ read, followSource isFunction globals source = .ok (t.root, read) ∧
      read.visits.map (·.pipe) = nodesPipelines t.root ∧
      (t.watch params dest globals).1 = t.check params dest globals ∧
      ∀ (i : Nat) (v : Visit), (t.watch params dest globals).2.trail.visits[i]? = some v →
        ∃ (u : Visit) (left : List String), read.visits[i]? = some u ∧
          (nodesLeftover [] t.root)[i]? = some left ∧ v.pipe = u.pipe ∧
          ∀ x, v.scope.lookup x = u.scope.lookup x ↔ x ∉ left := by
  refine ⟨_, followSource_of_parse h, nodesFollow_pipes false (Trail.start globals) t.root,
    t.watch_check params dest globals, fun i v hv => ?_⟩
  obtain ⟨-, meetings, hread, hchecked, hleft, hagree⟩ :=
    nodesFollow_parts (Trail.Parts.start globals) t.root
  obtain ⟨rest, hrest⟩ := Template.watch_visits h params dest
  -- What the check has come to is at the beginning of its trail, so the visit is a meeting.
  have hmeeting : (meetings.map (·.checked))[i]? = some v := by
    have hstart : (Trail.start globals).visits = [] := rfl
    rw [hstart, List.nil_append] at hchecked
    rw [← hchecked, ← hrest, List.getElem?_append_left (List.getElem?_eq_some_iff.mp hv).1]
    exact hv
  rw [List.getElem?_map, Option.map_eq_some_iff] at hmeeting
  obtain ⟨m, hm, rfl⟩ := hmeeting
  obtain ⟨hpipe, hsame⟩ := hagree m (List.mem_of_getElem? hm)
  refine ⟨m.read, m.left, ?_, ?_, hpipe, hsame⟩
  · rw [hread]
    show (meetings.map (·.read))[i]? = _
    rw [List.getElem?_map, hm]
    rfl
  · rw [hleft, List.getElem?_map, hm]
    rfl

/-- A range whose alternative uses the variable of its header, while the body declares another. -/
theorem Template.check_resolves_range :
    let source := braced "range $i := ." ++ braced "$y := 1" ++ braced "else" ++ braced "$i" ++
      braced "end"
    let t : Template := ⟨"t", [.block .range 1 ⟨["$i"], false, [[.dot]]⟩
      [.action 1 ⟨["$y"], false, [[.int 1]]⟩]
      (some [.action 1 ⟨[], false, [[.variable "$i" []]]⟩])]⟩
    Template.parse "t" source (fun _ => false) [] = .ok t ∧
    ∃ read, followSource (fun _ => false) [] source = .ok (t.root, read) ∧
      read.visits.map (·.pipe) = nodesPipelines t.root ∧
      (t.watch (.list .text) .unit []).1 = t.check (.list .text) .unit [] ∧
      ∀ (i : Nat) (v : Visit), (t.watch (.list .text) .unit []).2.trail.visits[i]? = some v →
        ∃ (u : Visit) (left : List String), read.visits[i]? = some u ∧
          (nodesLeftover [] t.root)[i]? = some left ∧ v.pipe = u.pipe ∧
          ∀ x, v.scope.lookup x = u.scope.lookup x ↔ x ∉ left := by
  intro source t
  let phrases : List Phrase := [.block .range 1
    [⟨.variable "$i", true⟩, ⟨.declare, true⟩, ⟨.dot, true⟩]
    [.pipeline 1 [⟨.variable "$y", false⟩, ⟨.declare, true⟩, ⟨.int 1, true⟩]]
    (.otherwise 1 [.pipeline 1 [⟨.variable "$i", false⟩]] 1)]
  have hwords : Word.ofSource source = .ok (phrasesWords phrases) := by
    cbv
  have hread : readPhrases (fun _ => false) ["$"] phrases = .ok t.root := by
    rfl
  have hparse : Template.parse "t" source (fun _ => false) [] = .ok t :=
    Template.parse_of_phrases hwords hread
  exact ⟨hparse, Template.check_resolves hparse (.list .text) .unit⟩

/-- By a variable in an alternative, the reader means the one in front of the block, and the check
the one that the body declares. -/
theorem Template.check_takes_body :
    let source := braced "$x := 1" ++ braced "if ." ++ braced "$x := 2" ++ braced "else" ++
      braced "$x" ++ braced "end"
    let t : Template := ⟨"t", [.action 1 ⟨["$x"], false, [[.int 1]]⟩,
      .block .conditional 1 ⟨[], false, [[.dot]]⟩ [.action 1 ⟨["$x"], false, [[.int 2]]⟩]
        (some [.action 1 ⟨[], false, [[.variable "$x" []]]⟩])]⟩
    Template.parse "t" source (fun _ => false) [] = .ok t ∧
      ∃ (read : Trail) (u v : Visit), followSource (fun _ => false) [] source = .ok (t.root, read) ∧
        read.visits[3]? = some u ∧ (t.watch .bool .unit []).2.trail.visits[3]? = some v ∧
        v.pipe = u.pipe ∧ u.pipe.Reads "$x" ∧
        u.scope.lookup "$x" = some 1 ∧ v.scope.lookup "$x" = some 2 := by
  intro source t
  let phrases : List Phrase := [
    .pipeline 1 [⟨.variable "$x", false⟩, ⟨.declare, true⟩, ⟨.int 1, true⟩],
    .block .conditional 1 [⟨.dot, true⟩]
      [.pipeline 1 [⟨.variable "$x", false⟩, ⟨.declare, true⟩, ⟨.int 2, true⟩]]
      (.otherwise 1 [.pipeline 1 [⟨.variable "$x", false⟩]] 1)]
  have hwords : Word.ofSource source = .ok (phrasesWords phrases) := by
    cbv
  have hread : readPhrases (fun _ => false) ["$"] phrases = .ok t.root := by
    rfl
  have hparse : Template.parse "t" source (fun _ => false) [] = .ok t :=
    Template.parse_of_phrases hwords hread
  let use : Pipeline := ⟨[], false, [[.variable "$x" []]]⟩
  have hfollowed : (nodesFollow false (Trail.start []) t.root).visits[3]? =
      some ⟨use, [("$x", 1), ("$", 0)]⟩ := by
    rfl
  have hwatched : (t.watch .bool .unit []).2.trail.visits[3]? =
      some ⟨use, [("$x", 2), ("$x", 1), ("$", 0)]⟩ := by
    rfl
  have hreads : use.Reads "$x" := ⟨[], List.mem_cons_self⟩
  exact ⟨hparse, _, _, _, followSource_of_parse hparse, hfollowed, hwatched, rfl, hreads, by decide,
    by decide⟩

end SqlTemplate
