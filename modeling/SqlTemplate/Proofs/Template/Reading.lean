import Mathlib
import SqlTemplate.Proofs.Basic
import SqlTemplate.Proofs.Template.Parts
import SqlTemplate.Template.Block

/-!
# What the reader guarantees

A template that was read is not any tree. Its commands are not empty and its functions are known,
a pipeline in parentheses binds no variable, and every variable stands where it is in scope.
`Template.parse_proper` says so of every source. The conditions on operands are local, so a
pipeline satisfies them if each operand that occurs in it does; the scope is passed from node to
node as the reader passes it on.
-/

set_option autoImplicit false

namespace SqlTemplate

/-! ## Proper operands -/

/-- Whether fields can be appended to an operand that is neither a field nor a variable. -/
def Operand.IsChainBase : Operand → Prop
  | .function _ => True
  | .pipe _ _ _ => True
  | _ => False

/-- Whether a command has a form that can be called: one operand, which is not NULL, or a function
with arguments. -/
def ProperCommand : Command → Prop
  | [] => False
  | [a] => a.isNil = false
  | a :: _ :: _ => a.isFunction = true

/-- Whether commands can be the commands of a pipeline. -/
def ProperCommands (commands : List Command) : Prop :=
  commands ≠ [] ∧ ∀ command ∈ commands, ProperCommand command

/-- Whether an operand could have been read where the names are known. Nothing is said of the
operands inside it. -/
def Operand.Proper (names : Names) : Operand → Prop
  | .field fields => fields ≠ []
  | .variable x _ => x ∈ names.vars
  | .function f => isReserved f = false ∧ (Builtin.isName f = true ∨ names.isFunction f = true)
  | .chain base fields => fields ≠ [] ∧ base.IsChainBase
  | .pipe declared assigns commands => declared = [] ∧ assigns = false ∧ ProperCommands commands
  | _ => True

section Operands

variable {names : Names}

theorem Names.requireFunction_ok {f : String} (h : names.requireFunction f = .ok ()) :
    (Operand.function f).Proper names := by
  rw [requireFunction] at h
  split at h
  · cases h
  · split at h
    · exact ⟨by simp_all, by simp_all⟩
    · cases h

theorem Names.requireVariable_ok {x : String} (h : names.requireVariable x = .ok ()) :
    x ∈ names.vars := by
  rw [requireVariable] at h
  split at h
  · simp_all
  · cases h

/-- A single token makes an operand that has no other inside. -/
theorem Names.leaf_proper {lexeme : Lexeme} {a : Operand} (h : names.leaf lexeme = .ok a) :
    a.parts = [a] ∧ a.Proper names := by
  match lexeme with
  | .field name =>
    cases h
    exact ⟨rfl, by simp [Operand.Proper]⟩
  | .variable x =>
    obtain ⟨_, hx, rfl⟩ := map_eq_ok.mp h
    exact ⟨rfl, requireVariable_ok hx⟩
  | .name word =>
    rw [leaf, Names.word] at h
    split at h
    · cases h; exact ⟨rfl, trivial⟩
    · split at h
      · cases h; exact ⟨rfl, trivial⟩
      · split at h
        · cases h; exact ⟨rfl, trivial⟩
        · split at h
          · cases h
          · obtain ⟨_, hf, rfl⟩ := map_eq_ok.mp h
            exact ⟨rfl, requireFunction_ok hf⟩
  | .dot => cases h; exact ⟨rfl, trivial⟩
  | .text s => cases h; exact ⟨rfl, trivial⟩
  | .int n => cases h; exact ⟨rfl, trivial⟩
  | .float x => cases h; exact ⟨rfl, trivial⟩

/-- A field may be appended to a proper operand. -/
theorem Operand.withField_proper {name : String} {a b : Operand}
    (ha : ∀ part ∈ a.parts, part.Proper names) (h : a.withField name = .ok b) :
    ∀ part ∈ b.parts, part.Proper names := by
  match a with
  | .field fields =>
    cases h
    simp [Operand.parts, Operand.Proper]
  | .variable x fields =>
    cases h
    simpa [Operand.parts, Operand.Proper] using ha
  | .chain base fields =>
    cases h
    simp only [Operand.parts, List.forall_mem_cons] at ha ⊢
    exact ⟨⟨by simp, ha.1.2⟩, ha.2⟩
  | .function f =>
    cases h
    simp only [Operand.parts, List.forall_mem_cons] at ha ⊢
    exact ⟨⟨by simp, trivial⟩, ha⟩
  | .pipe declared assigns commands =>
    cases h
    simp only [Operand.parts, List.forall_mem_cons] at ha ⊢
    exact ⟨⟨by simp, trivial⟩, ha⟩

theorem extendLast_proper {name : String} {operands extended : List Operand}
    (hop : ∀ part ∈ operandsParts operands, part.Proper names)
    (h : extendLast name operands = .ok extended) :
    ∀ part ∈ operandsParts extended, part.Proper names := by
  induction operands generalizing extended with
  | nil => cases h; exact hop
  | cons a rest ih =>
      simp only [operandsParts, List.forall_mem_append] at hop
      cases rest with
      | nil =>
          obtain ⟨b, hb, rfl⟩ := map_eq_ok.mp h
          simpa [operandsParts] using Operand.withField_proper hop.1 hb
      | cons next rest =>
          obtain ⟨others, hothers, rfl⟩ := map_eq_ok.mp h
          simp only [operandsParts, List.forall_mem_append]
          exact ⟨hop.1, ih hop.2 hothers⟩

theorem closeCommand_proper {operands : List Operand} {command : Command}
    (h : closeCommand operands = .ok command) : command = operands ∧ ProperCommand command := by
  match operands with
  | [] => cases h
  | [a] =>
    rw [closeCommand] at h
    split at h
    · cases h
    · cases h; exact ⟨rfl, by simp_all [ProperCommand]⟩
  | a :: b :: rest =>
    rw [closeCommand] at h
    split at h
    · cases h; exact ⟨rfl, by simp_all [ProperCommand]⟩
    · cases h

end Operands

/-! ## Proper pipelines -/

/-- What stands in parentheses is a pipeline without a binding. -/
theorem readOperand_group {names : Names} {spaced closeSpaced : Bool} {inner : List TokenTree}
    {a : Operand} (h : readOperand names (.group spaced inner closeSpaced) = .ok a) :
    ∃ commands, readCommands names [] inner = .ok commands ∧ a = .pipe [] false commands := by
  -- A pipeline that is bound in parentheses is refused before its commands are read.
  have hread : (if inner.isEmpty then Except.error (ParseFault.missingValue .parentheses) else do
      let commands ← readCommands names [] inner
      .ok (Operand.pipe [] false commands)) = .ok a := by
    rw [readOperand] at h
    split at h
    · obtain ⟨_, _, h⟩ := bind_eq_ok.mp h
      exact h
    · exact h
  split at hread
  · cases hread
  · obtain ⟨commands, hcommands, ha⟩ := bind_eq_ok.mp hread
    cases ha
    exact ⟨commands, hcommands, rfl⟩

mutual

theorem readOperand_proper {names : Names} {tree : TokenTree} {a : Operand}
    (h : readOperand names tree = .ok a) : ∀ part ∈ a.parts, part.Proper names := by
  match tree with
  | .leaf t =>
    obtain ⟨hparts, hproper⟩ := Names.leaf_proper h
    simpa [hparts] using hproper
  | .group _ inner _ =>
    obtain ⟨commands, hread, rfl⟩ := readOperand_group h
    obtain ⟨hproper, hparts⟩ := readCommands_proper (by simp [operandsParts]) hread
    simp only [Operand.parts, List.forall_mem_cons]
    exact ⟨⟨rfl, rfl, hproper⟩, hparts⟩

theorem readCommands_proper {names : Names} {current : List Operand} {trees : List TokenTree}
    {commands : List Command} (hcurrent : ∀ part ∈ operandsParts current, part.Proper names)
    (h : readCommands names current trees = .ok commands) :
    ProperCommands commands ∧ ∀ part ∈ commandsParts commands, part.Proper names := by
  match trees with
  | [] =>
    obtain ⟨command, hclose, rfl⟩ := map_eq_ok.mp h
    obtain ⟨rfl, hproper⟩ := closeCommand_proper hclose
    exact ⟨⟨by simp, by simpa using hproper⟩, by simpa [commandsParts] using hcurrent⟩
  | tree :: rest =>
    rw [readCommands] at h
    split at h
    · obtain ⟨command, hclose, h⟩ := bind_eq_ok.mp h
      obtain ⟨others, hread, hothers⟩ := bind_eq_ok.mp h
      cases hothers
      obtain ⟨rfl, hproper⟩ := closeCommand_proper hclose
      obtain ⟨hrest, hparts⟩ := readCommands_proper (by simp [operandsParts]) hread
      refine ⟨⟨by simp, by simpa using ⟨hproper, hrest.2⟩⟩, ?_⟩
      simp only [commandsParts, List.forall_mem_append]
      exact ⟨hcurrent, hparts⟩
    · split at h
      · obtain ⟨operand, hoperand, hread⟩ := bind_eq_ok.mp h
        refine readCommands_proper ?_ hread
        simpa [operandsParts] using readOperand_proper hoperand
      · split at h
        · obtain ⟨extended, hextend, hread⟩ := bind_eq_ok.mp h
          exact readCommands_proper (extendLast_proper hcurrent hextend) hread
        · split at h
          · cases h
          · obtain ⟨operand, hoperand, hread⟩ := bind_eq_ok.mp h
            refine readCommands_proper ?_ hread
            rw [operandsParts_append, List.forall_mem_append]
            exact ⟨hcurrent, by simpa [operandsParts] using readOperand_proper hoperand⟩

end

/-- How many variables a pipeline may bind where it stands. -/
def PipelineContext.bindings : PipelineContext → Nat
  | .action => 1
  | .block kind => if kind = .range then 2 else 1
  | .parentheses => 0

/-- Whether a pipeline could have been read where it stands and the names are known. -/
structure Pipeline.Proper (names : Names) (context : PipelineContext) (p : Pipeline) : Prop where
  commands : ProperCommands p.commands
  parts : ∀ part ∈ p.parts, part.Proper names
  bindings : p.declared.length ≤ context.bindings
  binds : p.assigns = true → p.declared ≠ []
  assigned : ∀ x, p.Assigns x → x ∈ names.vars

/-- A binding has one variable or two. -/
theorem Binding.ofTrees?_length {trees : List TokenTree} {b : Binding}
    (h : Binding.ofTrees? trees = some b) : b.vars.length = 1 ∨ b.vars.length = 2 := by
  unfold ofTrees? at h
  split at h
  · obtain ⟨assigns, _, rfl⟩ := Option.map_eq_some_iff.mp h
    exact .inr rfl
  · obtain ⟨assigns, _, rfl⟩ := Option.map_eq_some_iff.mp h
    exact .inl rfl
  · cases h

theorem Binding.check_ok {context : PipelineContext} {b : Binding}
    (hb : b.vars.length = 1 ∨ b.vars.length = 2) (h : b.check context = .ok ()) :
    b.vars.length ≤ context.bindings := by
  rw [check] at h
  split at h
  · cases h
  · rename_i hrange
    split at h
    · cases h
    · rename_i hparentheses
      match context with
      | .parentheses => exact absurd rfl hparentheses
      | .action =>
        have : ¬ 1 < b.vars.length := fun hmany => hrange ⟨hmany, by decide⟩
        exact Nat.not_lt.mp this
      | .block kind =>
        show b.vars.length ≤ if kind = .range then 2 else 1
        split
        · omega
        · rename_i hkind
          have : ¬ 1 < b.vars.length := fun hmany => hrange ⟨hmany, by simpa using hkind⟩
          exact Nat.not_lt.mp this

theorem Pipeline.ofCommands_proper {names : Names} {context : PipelineContext}
    {declared : List String} {assigns : Bool} {trees : List TokenTree} {p : Pipeline}
    (h : ofCommands names context declared assigns trees = .ok p)
    (hcount : declared.length ≤ context.bindings) (hbinds : assigns = true → declared ≠ [])
    (hassigned : assigns = true → ∀ x ∈ declared, x ∈ names.vars) : p.Proper names context := by
  rw [ofCommands] at h
  split at h
  · cases h
  · obtain ⟨commands, hread, rfl⟩ := map_eq_ok.mp h
    obtain ⟨hcommands, hparts⟩ := readCommands_proper (by simp [operandsParts]) hread
    exact ⟨hcommands, hparts, hcount, hbinds, fun x hx => hassigned hx.1 x hx.2⟩

theorem Names.requireVariables_ok {names : Names} {vars : List String}
    (h : vars.forM names.requireVariable = .ok ()) : ∀ x ∈ vars, x ∈ names.vars := by
  induction vars with
  | nil => simp
  | cons x rest ih =>
      obtain ⟨_, hx, hrest⟩ := bind_eq_ok.mp h
      exact List.forall_mem_cons.mpr ⟨requireVariable_ok hx, ih hrest⟩

/-- The pipelines that tokens make are proper. -/
theorem Pipeline.ofTrees_proper {names : Names} {context : PipelineContext}
    {trees : List TokenTree} {p : Pipeline} (h : ofTrees names context trees = .ok p) :
    p.Proper names context := by
  rw [ofTrees] at h
  cases hb : Binding.ofTrees? trees with
  | none =>
      rw [hb] at h
      exact ofCommands_proper h (Nat.zero_le _) (fun h => by cases h) (fun h => by cases h)
  | some b =>
      rw [hb] at h
      obtain ⟨_, hcheck, h⟩ := bind_eq_ok.mp h
      have hlength := Binding.ofTrees?_length hb
      have hcount := Binding.check_ok hlength hcheck
      have hbinds : b.assigns = true → b.vars ≠ [] := by
        rintro - hnil
        simp [hnil] at hlength
      cases ha : b.assigns with
      | false =>
          rw [ha] at h
          exact ofCommands_proper h hcount (fun h => by cases h) (fun h => by cases h)
      | true =>
          rw [ha] at h hbinds
          obtain ⟨_, hassigned, h⟩ := bind_eq_ok.mp h
          exact ofCommands_proper h hcount hbinds fun _ => Names.requireVariables_ok hassigned

/-! ## Proper nodes -/

mutual

/-- Whether a node could have been read where the variables are in scope. -/
def Node.Proper (isFunction : String → Bool) (scope : List String) : Node → Prop
  | .text _ => True
  | .action _ pipe => pipe.Proper ⟨isFunction, scope⟩ .action
  | .block kind _ pipe body otherwise =>
    pipe.Proper ⟨isFunction, scope⟩ (.block kind) ∧
      ProperNodes isFunction (pipe.scope scope) body ∧
      ProperOption isFunction (pipe.scope scope) otherwise

/-- Whether nodes could have been read where the variables are in scope: each sees what the ones
before it declared. -/
def ProperNodes (isFunction : String → Bool) (scope : List String) : List Node → Prop
  | [] => True
  | node :: rest =>
    node.Proper isFunction scope ∧ ProperNodes isFunction (scope ++ node.declares) rest

/-- Whether the alternative of a block could have been read where the variables are in scope. -/
def ProperOption (isFunction : String → Bool) (scope : List String) : Option (List Node) → Prop
  | none => True
  | some nodes => ProperNodes isFunction scope nodes

end

section Reader

variable {isFunction : String → Bool} {globals : List String}

theorem properNodes_append {scope : List String} {nodes others : List Node} :
    ProperNodes isFunction scope (nodes ++ others) ↔
      ProperNodes isFunction scope nodes ∧
        ProperNodes isFunction (scope ++ nodesDeclares nodes) others := by
  induction nodes generalizing scope with
  | nil => simp [ProperNodes, nodesDeclares]
  | cons node rest ih =>
      simp [ProperNodes, ih, nodesDeclares, and_assoc]

/-! ## The reader -/

/-- The variables in scope where the innermost list of nodes begins. -/
def openScope (globals : List String) : List OpenBlock → List String
  | [] => "$" :: globals
  | b :: _ => b.innerScope

/-- Whether what has been read of the open blocks is proper. -/
def ProperBlocks (isFunction : String → Bool) (globals : List String) : List OpenBlock → Prop
  | [] => True
  | b :: blocks =>
    ProperNodes isFunction (openScope globals blocks) b.before ∧
      b.outerScope = openScope globals blocks ++ nodesDeclares b.before ∧
      b.pipe.Proper ⟨isFunction, b.outerScope⟩ (.block b.kind) ∧
      b.innerScope = b.pipe.scope b.outerScope ∧
      (∀ body, b.body = some body → ProperNodes isFunction b.innerScope body) ∧
      ProperBlocks isFunction globals blocks

/-- Whether what has been read is proper: the open blocks, the nodes of the innermost list, and the
variables in scope behind them. -/
structure Reading.Proper (isFunction : String → Bool) (globals : List String) (r : Reading) :
    Prop where
  blocks : ProperBlocks isFunction globals r.blocks
  nodes : ProperNodes isFunction (openScope globals r.blocks) r.nodes
  vars : r.vars = openScope globals r.blocks ++ nodesDeclares r.nodes

namespace Reading

theorem start_proper : (start globals).Proper isFunction globals :=
  ⟨trivial, trivial, by simp [start, openScope, nodesDeclares]⟩

/-- A node that is proper where the reader stands can be appended. -/
theorem Proper.push {r : Reading} (h : r.Proper isFunction globals) (node : Node)
    (hnode : node.Proper isFunction r.vars) :
    Reading.Proper isFunction globals
      { r.push node with vars := r.vars ++ node.declares } := by
  refine ⟨h.blocks, ?_, ?_⟩
  · refine properNodes_append.mpr ⟨h.nodes, ?_⟩
    exact ⟨h.vars ▸ hnode, trivial⟩
  · show r.vars ++ node.declares = _
    simp [h.vars, Reading.push, nodesDeclares]

theorem pipeline_proper {r : Reading} {context : PipelineContext} {line : Nat}
    {tokens : List Token} {p : Pipeline} (h : r.pipeline isFunction context line tokens = .ok p) :
    p.Proper ⟨isFunction, r.vars⟩ context := by
  rw [pipeline] at h
  split at h
  · rename_i hp
    cases h
    exact Pipeline.ofTrees_proper hp
  · cases h

theorem Proper.openBlock {r next : Reading} (h : r.Proper isFunction globals) {kind : BlockKind}
    {line : Nat} {sharesEnd : Bool} {tokens : List Token}
    (hopen : r.openBlock isFunction kind line sharesEnd tokens = .ok next) :
    next.Proper isFunction globals := by
  obtain ⟨pipe, hpipe, hnext⟩ := bind_eq_ok.mp hopen
  cases hnext
  refine ⟨⟨h.nodes, h.vars, pipeline_proper hpipe, rfl, ?_, h.blocks⟩, trivial, ?_⟩
  · intro body hbody
    cases hbody
  · simp [openScope, nodesDeclares]

/-- Closing blocks turns each of them into a node of the list around it, which declares nothing. -/
theorem closeBlocks_proper {blocks : List OpenBlock} {nodes : List Node} {r : Reading}
    (hblocks : ProperBlocks isFunction globals blocks)
    (hnodes : ProperNodes isFunction (openScope globals blocks) nodes)
    (h : closeBlocks blocks nodes = some r) : r.Proper isFunction globals := by
  induction blocks generalizing nodes with
  | nil => cases h
  | cons b blocks ih =>
      obtain ⟨hbefore, houter, hpipe, hinner, hbody, hrest⟩ := hblocks
      -- The nodes are the body if no else has come before them, or else the alternative.
      have hclose :
          (b.close nodes).Proper isFunction b.outerScope ∧ (b.close nodes).declares = [] := by
        rw [OpenBlock.close]
        cases hb : b.body with
        | none => exact ⟨⟨hpipe, hinner ▸ hnodes, trivial⟩, rfl⟩
        | some body => exact ⟨⟨hpipe, hinner ▸ hbody body hb, hinner ▸ hnodes⟩, rfl⟩
      have haround :
          ProperNodes isFunction (openScope globals blocks) (b.before ++ [b.close nodes]) :=
        properNodes_append.mpr ⟨hbefore, houter ▸ hclose.1, trivial⟩
      rw [closeBlocks] at h
      split at h
      -- An else with a condition opens a block of its own, which the same end closes.
      · exact ih hrest haround h
      · cases h
        refine ⟨hrest, haround, ?_⟩
        show b.outerScope = openScope globals blocks ++ nodesDeclares (b.before ++ [b.close nodes])
        simp [houter, nodesDeclares, hclose.2]

theorem Proper.elseBlock {r next : Reading} (h : r.Proper isFunction globals) {line : Nat}
    {tokens : List Token} (helse : r.elseBlock isFunction line tokens = .ok next) :
    next.Proper isFunction globals := by
  rw [Reading.elseBlock] at helse
  split at helse
  · cases helse
  · rename_i b blocks hblocks
    have hb := h.blocks
    have hnodes := h.nodes
    rw [hblocks] at hb hnodes
    obtain ⟨hbefore, houter, hpipe, hinner, _, hrest⟩ := hb
    -- Behind an else, the reader stands in the scope in which the body began.
    have halternative : Reading.Proper isFunction globals
        ⟨{ b with body := some r.nodes } :: blocks, [], b.innerScope⟩ := by
      refine ⟨⟨hbefore, houter, hpipe, hinner, ?_, hrest⟩, trivial, ?_⟩
      · intro body hbody
        cases hbody
        exact hnodes
      · simp [openScope, nodesDeclares]
    split at helse
    · cases helse
    · split at helse
      · cases helse
        exact halternative
      · split at helse
        · exact halternative.openBlock helse
        · cases helse

theorem Proper.action {r next : Reading} (h : r.Proper isFunction globals) {line : Nat}
    {tokens : List Token} (hr : r.action isFunction line tokens = .ok next) :
    next.Proper isFunction globals := by
  cases tokens with
  | nil => cases hr
  | cons first rest =>
      rw [Reading.action] at hr
      split at hr
      · rw [Reading.endBlock] at hr
        split at hr
        · cases hr
        · split at hr
          · rename_i hclose
            cases hr
            exact closeBlocks_proper h.blocks h.nodes hclose
          · cases hr
      · exact h.elseBlock hr
      · exact h.openBlock hr
      · cases hr
      · obtain ⟨pipe, hpipe, hnext⟩ := bind_eq_ok.mp hr
        cases hnext
        rw [Pipeline.scope_eq]
        exact h.push (.action line pipe) (pipeline_proper hpipe)

/-- Every segment keeps what has been read proper. -/
theorem Proper.segment {r next : Reading} (h : r.Proper isFunction globals) {s : Segment}
    (hs : r.segment isFunction s = .ok next) : next.Proper isFunction globals := by
  cases s with
  | text s =>
      cases hs
      simpa [Node.declares, Reading.push] using h.push (.text s) trivial
  | action line body =>
      rw [Reading.segment] at hs
      split at hs
      · exact h.action hs
      · cases hs

theorem Proper.segments {segments : List Segment} {r next : Reading}
    (h : r.Proper isFunction globals)
    (hs : segments.foldlM (Reading.segment isFunction) r = .ok next) :
    next.Proper isFunction globals := by
  induction segments generalizing r with
  | nil => cases hs; exact h
  | cons s rest ih =>
      rw [List.foldlM_cons] at hs
      obtain ⟨r', hr', hrest⟩ := bind_eq_ok.mp hs
      exact ih (h.segment hr') hrest

end Reading

/-- The nodes of a template are those that its source makes. -/
theorem Template.readSource_of_parse {name source : String} {t : Template}
    (h : Template.parse name source isFunction globals = .ok t) :
    readSource isFunction globals source = .ok t.root := by
  rw [parse] at h
  split at h
  · rename_i hroot
    cases h
    exact hroot
  · cases h

/-- **A template that was read is proper: every condition of the reader holds at every node, with
the variables that are in scope there.** -/
theorem Template.parse_proper {name source : String} {t : Template}
    (h : Template.parse name source isFunction globals = .ok t) :
    ProperNodes isFunction ("$" :: globals) t.root := by
  obtain ⟨segments, _, hread⟩ := bind_eq_ok.mp (readSource_of_parse h)
  obtain ⟨r, hr, hfinish⟩ := bind_eq_ok.mp hread
  have hproper := Reading.start_proper.segments hr
  rw [Reading.finish] at hfinish
  split at hfinish
  · rename_i hblocks
    rw [← Except.ok.inj hfinish]
    simpa [hblocks, openScope] using hproper.nodes
  · cases hfinish

end Reader

/-! ## What holds of every pipeline -/

mutual

/-- Every pipeline of a proper node is proper where it stands. -/
theorem Node.proper_pipelines {isFunction : String → Bool} {scope : List String} {node : Node}
    (h : node.Proper isFunction scope) :
    ∀ p ∈ node.pipelines, ∃ context vars, p.Proper ⟨isFunction, vars⟩ context := by
  match node with
  | .text s => simp [Node.pipelines]
  | .action line pipe =>
    simp only [Node.pipelines, List.forall_mem_singleton]
    exact ⟨_, _, h⟩
  | .block kind line pipe body otherwise =>
    simp only [Node.pipelines, List.forall_mem_cons, List.forall_mem_append]
    exact ⟨⟨_, _, h.1⟩, properNodes_pipelines h.2.1, properOption_pipelines h.2.2⟩

theorem properNodes_pipelines {isFunction : String → Bool} {scope : List String}
    {nodes : List Node} (h : ProperNodes isFunction scope nodes) :
    ∀ p ∈ nodesPipelines nodes, ∃ context vars, p.Proper ⟨isFunction, vars⟩ context := by
  match nodes with
  | [] => simp [nodesPipelines]
  | node :: rest =>
    simp only [nodesPipelines, List.forall_mem_append]
    exact ⟨Node.proper_pipelines h.1, properNodes_pipelines h.2⟩

theorem properOption_pipelines {isFunction : String → Bool} {scope : List String}
    {otherwise : Option (List Node)} (h : ProperOption isFunction scope otherwise) :
    ∀ p ∈ optionPipelines otherwise, ∃ context vars,
      p.Proper ⟨isFunction, vars⟩ context := by
  match otherwise with
  | none => simp [optionPipelines]
  | some nodes => exact properNodes_pipelines h

end

/-- A template that was read calls no reserved function, so the marker is none of its own. -/
theorem Template.parse_calls_unreserved {name source : String} {isFunction : String → Bool}
    {globals : List String} {t : Template}
    (h : Template.parse name source isFunction globals = .ok t) {f : String} (hf : t.Calls f) :
    isReserved f = false := by
  obtain ⟨p, hp, hcall⟩ := hf
  obtain ⟨_, _, hproper⟩ := properNodes_pipelines (Template.parse_proper h) p hp
  exact (hproper.parts _ hcall).1

/-- Every pipeline of a template that was read has commands. -/
theorem Template.parse_commands {name source : String} {isFunction : String → Bool}
    {globals : List String} {t : Template}
    (h : Template.parse name source isFunction globals = .ok t) {p : Pipeline}
    (hp : p ∈ nodesPipelines t.root) : p.commands ≠ [] := by
  obtain ⟨_, _, hproper⟩ := properNodes_pipelines (Template.parse_proper h) p hp
  exact hproper.commands.1

end SqlTemplate
