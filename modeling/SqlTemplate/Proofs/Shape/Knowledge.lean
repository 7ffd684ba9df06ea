import Mathlib
import SqlTemplate.Proofs.Template.Reading
import SqlTemplate.Shape.Check

/-!
# What the check makes of its knowledge

The check keeps what it knows about variables in a list of its own. Operands leave the list as it
is. A pipeline puts the variables that it declares in front and forgets what was known about those
that it assigns. The alternative of a block is checked behind its body, with what the body has
declared still in front: so it can only be said of the body's own scopes what a list of nodes
forgets (`NodesForget`), and these are not the scopes of executions.
-/

set_option autoImplicit false

namespace SqlTemplate

namespace Check

variable {α β : Type} {types types' : KnownVariables}

theorem run_bind_eq_ok {m : Check α} {k : α → Check β} {b : β} :
    (m >>= k).run types = .ok (b, types') ↔
      ∃ a between, m.run types = .ok (a, between) ∧ (k a).run between = .ok (b, types') := by
  rw [StateT.run_bind, bind_eq_ok]
  simp only [Prod.exists]

theorem run_pure_eq_ok {a b : α} :
    (pure a : Check α).run types = .ok (b, types') ↔ a = b ∧ types = types' := by
  rw [StateT.run_pure]
  exact ⟨fun h => Prod.mk.inj (Except.ok.inj h), fun ⟨ha, ht⟩ => ha ▸ ht ▸ rfl⟩

theorem run_ofExcept_eq_ok {result : Except CheckFault α} {a : α} :
    (ofExcept result).run types = .ok (a, types') ↔ result = .ok a ∧ types = types' := by
  show (result >>= fun a => Except.ok (a, types)) = _ ↔ _
  rw [bind_eq_ok]
  constructor
  · rintro ⟨a', hresult, h⟩
    cases h
    exact ⟨hresult, rfl⟩
  · rintro ⟨hresult, rfl⟩
    exact ⟨a, hresult, rfl⟩

end Check

open Check

/-! ## Operands -/

section Operands

variable {dest : Shape} {dot : Known} {names : Names}

/-- An operand that is no function stands alone. -/
theorem checkCommand_operand (dest : Shape) (dot : Known) (piped : Bool) {a : Operand}
    (h : ∀ name, a ≠ .function name) (args : List Operand) :
    checkCommand dest dot piped (a :: args) = checkOperand dest dot a := by
  cases a with
  | function name => exact absurd rfl (h name)
  | _ => rfl

/-- Whether the check accepts an operand with its knowledge as it is. -/
def Operand.Accepted (dest : Shape) (dot : Known) (types : KnownVariables) (a : Operand) : Prop :=
  ∃ known, (checkOperand dest dot a).run types = .ok (known, types)

mutual

/-- An operand that the check accepts changes nothing, and everything in it is accepted. -/
theorem checkOperand_accepted {a : Operand} {known : Known} {types types' : KnownVariables}
    (hparts : ∀ part ∈ a.parts, part.Proper names)
    (h : (checkOperand dest dot a).run types = .ok (known, types')) :
    types' = types ∧ ∀ part ∈ a.parts, part.Accepted dest dot types := by
  match a with
  | .chain base fields =>
    have hself := h
    rw [checkOperand] at h
    obtain ⟨k, between, hbase, hfields⟩ := run_bind_eq_ok.mp h
    obtain ⟨rfl, hinner⟩ := checkOperand_accepted
      (fun part hp => hparts part (List.mem_cons_of_mem _ hp)) hbase
    obtain ⟨-, rfl⟩ := run_ofExcept_eq_ok.mp hfields
    exact ⟨rfl, List.forall_mem_cons.mpr ⟨⟨known, hself⟩, hinner⟩⟩
  | .pipe declared assigns commands =>
    obtain ⟨rfl, -, hcommands⟩ := hparts _ (Operand.mem_parts_self _)
    have hself := h
    rw [checkOperand] at h
    obtain ⟨k, between, hpipe, hbound⟩ := run_bind_eq_ok.mp h
    obtain ⟨rfl, hinner⟩ := checkCommands_accepted hcommands.2
      (fun part hp => hparts part (List.mem_cons_of_mem _ hp)) hpipe
    cases hbound
    exact ⟨rfl, List.forall_mem_cons.mpr ⟨⟨known, hself⟩, hinner⟩⟩
  | .field fields =>
    have hself := h
    obtain ⟨-, rfl⟩ := run_ofExcept_eq_ok.mp h
    exact ⟨rfl, List.forall_mem_singleton.mpr ⟨known, hself⟩⟩
  | .variable x fields =>
    have hself := h
    rw [checkOperand] at h
    obtain ⟨k, between, hvalue, hfields⟩ := run_bind_eq_ok.mp h
    cases hvalue
    obtain ⟨-, rfl⟩ := run_ofExcept_eq_ok.mp hfields
    exact ⟨rfl, List.forall_mem_singleton.mpr ⟨known, hself⟩⟩
  | .dot | .nil | .bool _ | .int _ | .float _ | .text _ | .function _ =>
    obtain ⟨rfl, rfl⟩ := run_pure_eq_ok.mp h
    exact ⟨rfl, List.forall_mem_singleton.mpr ⟨_, rfl⟩⟩

theorem checkOperands_accepted {operands : List Operand} {knowns : List Known}
    {types types' : KnownVariables}
    (hparts : ∀ part ∈ operandsParts operands, part.Proper names)
    (h : (checkOperands dest dot operands).run types = .ok (knowns, types')) :
    types' = types ∧ ∀ part ∈ operandsParts operands, part.Accepted dest dot types := by
  match operands with
  | [] =>
    obtain ⟨-, rfl⟩ := run_pure_eq_ok.mp h
    exact ⟨rfl, by simp [operandsParts]⟩
  | a :: rest =>
    rw [checkOperands] at h
    obtain ⟨known, between, ha, h⟩ := run_bind_eq_ok.mp h
    obtain ⟨others, between', hrest, hpure⟩ := run_bind_eq_ok.mp h
    obtain ⟨-, rfl⟩ := run_pure_eq_ok.mp hpure
    obtain ⟨rfl, hinner⟩ := checkOperand_accepted
      (fun part hp => hparts part (List.mem_append_left _ hp)) ha
    obtain ⟨rfl, hothers⟩ := checkOperands_accepted
      (fun part hp => hparts part (List.mem_append_right _ hp)) hrest
    exact ⟨rfl, List.forall_mem_append.mpr ⟨hinner, hothers⟩⟩

theorem checkCommand_accepted {piped : Bool} {command : Command} {known : Known}
    {types types' : KnownVariables}
    (hproper : ProperCommand command)
    (hparts : ∀ part ∈ operandsParts command, part.Proper names)
    (h : (checkCommand dest dot piped command).run types = .ok (known, types')) :
    types' = types ∧ ∀ part ∈ operandsParts command, part.Accepted dest dot types := by
  match command with
  | [] => exact hproper.elim
  | a :: args =>
    by_cases ha : ∃ name, a = .function name
    · obtain ⟨name, rfl⟩ := ha
      rw [checkCommand] at h
      obtain ⟨knowns, between, hargs, hcall⟩ := run_bind_eq_ok.mp h
      obtain ⟨rfl, hinner⟩ := checkOperands_accepted
        (fun part hp => hparts part (List.mem_append_right _ hp)) hargs
      split at hcall
      · cases hcall
      · obtain ⟨-, rfl⟩ := run_pure_eq_ok.mp hcall
        exact ⟨rfl, List.forall_mem_cons.mpr ⟨⟨_, rfl⟩, hinner⟩⟩
    · -- Only a function can have arguments.
      have hnot : ∀ name, a ≠ .function name := fun name hname => ha ⟨name, hname⟩
      cases args with
      | nil =>
          rw [checkCommand_operand dest dot piped hnot] at h
          simpa [operandsParts] using checkOperand_accepted
            (fun part hp => hparts part (List.mem_append_left _ hp)) h
      | cons b args =>
          cases a with
          | function name => exact absurd rfl (hnot name)
          | _ => cases hproper

theorem checkCommands_accepted {piped : Bool} {first known : Known} {commands : List Command}
    {types types' : KnownVariables}
    (hproper : ∀ command ∈ commands, ProperCommand command)
    (hparts : ∀ part ∈ commandsParts commands, part.Proper names)
    (h : (checkCommands dest dot piped first commands).run types = .ok (known, types')) :
    types' = types ∧ ∀ part ∈ commandsParts commands, part.Accepted dest dot types := by
  match commands with
  | [] =>
    obtain ⟨-, rfl⟩ := run_pure_eq_ok.mp h
    exact ⟨rfl, by simp [commandsParts]⟩
  | command :: rest =>
    rw [checkCommands] at h
    obtain ⟨k, between, hcommand, hrest⟩ := run_bind_eq_ok.mp h
    obtain ⟨rfl, hinner⟩ := checkCommand_accepted (hproper _ List.mem_cons_self)
      (fun part hp => hparts part (List.mem_append_left _ hp)) hcommand
    obtain ⟨rfl, hothers⟩ := checkCommands_accepted
      (fun command hc => hproper command (List.mem_cons_of_mem _ hc))
      (fun part hp => hparts part (List.mem_append_right _ hp)) hrest
    exact ⟨rfl, List.forall_mem_append.mpr ⟨hinner, hothers⟩⟩

end

/-- If the check accepts commands, then it accepts each. -/
theorem checkCommands_each {piped : Bool} {first known : Known} {commands : List Command}
    {types types' : KnownVariables} (hproper : ∀ command ∈ commands, ProperCommand command)
    (hparts : ∀ part ∈ commandsParts commands, part.Proper names)
    (h : (checkCommands dest dot piped first commands).run types = .ok (known, types'))
    {command : Command} (hmem : command ∈ commands) :
    ∃ piped known, (checkCommand dest dot piped command).run types = .ok (known, types) := by
  induction commands generalizing piped first with
  | nil => cases hmem
  | cons c rest ih =>
      rw [checkCommands] at h
      obtain ⟨k, between, hcommand, hrest⟩ := run_bind_eq_ok.mp h
      obtain ⟨rfl, -⟩ := checkCommand_accepted (hproper _ List.mem_cons_self)
        (fun part hp => hparts part (List.mem_append_left _ hp)) hcommand
      rcases List.mem_cons.mp hmem with rfl | hmem
      · exact ⟨piped, k, hcommand⟩
      · exact ih (fun command hc => hproper command (List.mem_cons_of_mem _ hc))
          (fun part hp => hparts part (List.mem_append_right _ hp)) hrest hmem

/-- The destination of a scan that the check accepts can be one, as far as is known. -/
theorem checkCommand_scan {f : String} (hf : isScanName f = true) {piped : Bool} {b : Operand}
    {args : List Operand} {known : Known} {types types' : KnownVariables}
    (h : (checkCommand dest dot piped (.function f :: b :: args)).run types = .ok (known, types')) :
    ∃ known types', (checkOperand dest dot b).run types = .ok (known, types') ∧
      known.canBePlace = true := by
  rw [checkCommand] at h
  obtain ⟨knowns, between, hargs, hcall⟩ := run_bind_eq_ok.mp h
  rw [checkOperands] at hargs
  obtain ⟨k, between', hb, hrest⟩ := run_bind_eq_ok.mp hargs
  obtain ⟨others, last, -, hpure⟩ := run_bind_eq_ok.mp hrest
  obtain ⟨rfl, -⟩ := run_pure_eq_ok.mp hpure
  refine ⟨k, between', hb, ?_⟩
  split at hcall
  · cases hcall
  · rename_i hnowhere
    simpa [scansNowhere, hf] using hnowhere

/-- The commands of a pipeline change nothing, and everything in them is accepted. -/
theorem Pipeline.Proper.checkCommands {context : PipelineContext} {p : Pipeline}
    (hp : p.Proper names context) {known : Known} {types types' : KnownVariables}
    (h : (checkCommands dest dot false .anything p.commands).run types = .ok (known, types')) :
    types' = types ∧ ∀ part ∈ p.parts, part.Accepted dest dot types :=
  checkCommands_accepted hp.commands.2 hp.parts h

end Operands

/-! ## Variables -/

namespace Known

/-- Whether knowledge may have become other knowledge: it is lost where an assignment has reached
it, and otherwise it is lost or kept. -/
def Faded (reached : Prop) (before after : Known) : Prop :=
  after = .anything ∨ (¬ reached ∧ after = before)

/-- Whether what is known came from what was known by assignments to the names in `A`, all of which
were noticed. -/
abbrev Fades (A : String → Prop) (before after : KnownVariables) : Prop :=
  Follows Faded A before after

/-- Whether what is known came from what was known by assignments to the names in `A` and
declarations, the last of which is the innermost. -/
def Grows (A : String → Prop) (declared : List String) (before after : KnownVariables) : Prop :=
  ∃ front outer, after = front ++ outer ∧ front.map (·.1) = declared.reverse ∧ Fades A before outer

variable {A B : String → Prop} {declared others : List String}
  {types types' types'' : KnownVariables}

namespace Fades

theorem refl (types : KnownVariables) : Fades (fun _ => False) types types :=
  Follows.refl (fun _ _ hp => .inr ⟨hp, rfl⟩) (fun _ => id) types

theorem imp (hBA : ∀ x, B x → A x) (h : Fades A types types') : Fades B types types' :=
  Follows.imp (fun x _ _ hR => hR.imp_right fun ⟨hx, heq⟩ => ⟨fun hB => hx (hBA x hB), heq⟩) h

theorem trans (h : Fades A types types') (h' : Fades B types' types'') :
    Fades (fun x => A x ∨ B x) types types'' := by
  refine Follows.trans ?_ h h'
  rintro p q k k' k'' hk (hk' | ⟨hq, rfl⟩)
  · exact .inl hk'
  · exact hk.imp_right fun ⟨hp, heq⟩ => ⟨not_or.mpr ⟨hp, hq⟩, heq⟩

theorem lookup (h : Fades A types types') (x : String) :
    Faded (A x) ((types.lookup x).getD .anything) ((types'.lookup x).getD .anything) := by
  rcases Follows.lookup h x with ⟨-, hnew⟩ | ⟨k, k', hold, hnew, hR⟩
  · exact .inl (by rw [hnew]; rfl)
  · rwa [hold, hnew]

end Fades

namespace Grows

theorem refl (types : KnownVariables) : Grows (fun _ => False) [] types types :=
  ⟨[], types, rfl, rfl, Fades.refl types⟩

theorem imp (hBA : ∀ x, B x → A x) (h : Grows A declared types types') :
    Grows B declared types types' := by
  obtain ⟨front, outer, heq, hfront, houter⟩ := h
  exact ⟨front, outer, heq, hfront, houter.imp hBA⟩

/-- Behind declarations, assignments to the declared names do not reach what was known before. -/
theorem trans (h : Grows A declared types types') (h' : Grows B others types' types'') :
    Grows (fun x => A x ∨ (x ∉ declared ∧ B x)) (declared ++ others) types types'' := by
  obtain ⟨front, outer, rfl, hfront, houter⟩ := h
  obtain ⟨more, between, rfl, hmore, hbetween⟩ := h'
  -- An assignment behind declarations reaches the innermost variable of its name, which may be
  -- one of these.
  obtain ⟨front', outer', rfl, hfront', houter'⟩ := Follows.append hbetween
  refine ⟨more ++ front', outer', by rw [List.append_assoc], ?_, ?_⟩
  · rw [List.map_append, hmore, hfront', hfront, List.reverse_append]
  · refine houter.trans (Fades.imp ?_ houter')
    rintro x ⟨hx, hB⟩
    exact ⟨hB, fun hmem => hx (by rwa [hfront, List.mem_reverse] at hmem)⟩

/-- Leaving a block drops what was put in front. -/
theorem keep (h : Grows A declared types types') :
    Fades A types (types'.drop (types'.length - types.length)) := by
  obtain ⟨front, outer, rfl, -, houter⟩ := h
  have hlength : types.length = outer.length := by
    have := congrArg List.length (Follows.names houter)
    simpa using this.symm
  have hdrop : (front ++ outer).length - types.length = front.length := by
    rw [List.length_append]
    omega
  rwa [hdrop, List.drop_left]

end Grows

end Known

namespace Check

variable {A B : String → Prop} {declared others : List String} {m n : Check Unit}

/-- Whether a step of the check declares variables and forgets those in `A`. -/
def Binds (A : String → Prop) (declared : List String) (m : Check Unit) : Prop :=
  ∀ types types', m.run types = .ok ((), types') → Known.Grows A declared types types'

theorem Binds.imp (hBA : ∀ x, B x → A x) (h : Binds A declared m) : Binds B declared m :=
  fun types types' hm => (h types types' hm).imp hBA

theorem Binds.none : Binds (fun _ => False) [] (pure ()) := by
  intro types types' h
  obtain ⟨-, rfl⟩ := run_pure_eq_ok.mp h
  exact Known.Grows.refl types

theorem Binds.andThen (hm : Binds A declared m) (hn : Binds B others n) :
    Binds (fun x => A x ∨ (x ∉ declared ∧ B x)) (declared ++ others) (m >>= fun _ => n) := by
  intro types types' h
  obtain ⟨⟨⟩, between, hfirst, hsecond⟩ := run_bind_eq_ok.mp h
  exact (hm _ _ hfirst).trans (hn _ _ hsecond)

/-- An assignment makes the innermost variable of its name forgotten. -/
theorem forget_fades (name : String) (types : KnownVariables) :
    Known.Fades (· = name) types (forget name types) := by
  induction types with
  | nil => trivial
  | cons e rest ih =>
      obtain ⟨n, known⟩ := e
      rw [forget]
      by_cases hn : n = name
      · rw [if_pos hn]
        refine ⟨rfl, .inl rfl, Follows.refl (fun _ _ hp => .inr ⟨hp, rfl⟩) ?_ rest⟩
        rintro x ⟨rfl, hx⟩
        exact hx hn.symm
      · rw [if_neg hn]
        exact ⟨rfl, .inr ⟨hn, rfl⟩, ih.imp fun x hx => hx.1⟩

theorem bind_binds (assigns : Bool) (name : String) (known : Known) :
    Binds (fun x => assigns = true ∧ x = name) (if assigns then [] else [name])
      (bind assigns name known) := by
  intro types types' h
  cases assigns with
  | false =>
      cases h
      exact ⟨[(name, known)], types, rfl, rfl, (Known.Fades.refl types).imp fun x hx =>
        absurd hx.1 Bool.false_ne_true⟩
  | true =>
      cases h
      exact ⟨[], forget name types, rfl, rfl, (forget_fades name types).imp fun x hx => hx.2⟩

theorem bindAll_binds (assigns : Bool) (known : Known) (names : List String) :
    Binds (fun x => assigns = true ∧ x ∈ names) (if assigns then [] else names)
      (bindAll assigns known names) := by
  induction names with
  | nil => cases assigns <;> exact Binds.none.imp fun x hx => absurd hx.2 List.not_mem_nil
  | cons name rest ih =>
      have h := (bind_binds assigns name known).andThen ih
      cases assigns with
      | false => exact h.imp fun x hx => absurd hx.1 Bool.false_ne_true
      | true =>
          refine h.imp ?_
          rintro x ⟨-, hx⟩
          exact (List.mem_cons.mp hx).imp (fun h => ⟨rfl, h⟩) fun h => ⟨by simp, rfl, h⟩

end Check

/-! ## Nodes -/

/-- What a block does before its body: it checks its pipeline and binds its variables, and knows
something about the dot of the body. -/
def checkHeader (dest : Shape) (dot : Known) (kind : BlockKind) (p : Pipeline) : Check Known :=
  match kind with
  | .range => do
    let known ← checkCommands dest dot false .anything p.commands
    checkItem p known.item
    return known.item
  | .scoped => do
    let known ← checkPipeline dest dot p
    return known.peel
  | .conditional => do
    let _ ← checkPipeline dest dot p
    return dot

/-- All blocks are checked in the same way behind their headers. -/
theorem checkNode_block (dest : Shape) (dot : Known) (kind : BlockKind) (line : Nat)
    (pipe : Pipeline) (body : List Node) (otherwise : Option (List Node)) :
    checkNode dest dot (.block kind line pipe body otherwise) = (do
      let mark ← Check.mark
      let inner ← checkHeader dest dot kind pipe
      checkNodes dest inner body
      checkOption dest dot otherwise
      Check.keep mark) := by
  cases kind <;> simp [checkNode, checkHeader]

mutual

/-- Whether the check forgets a variable from outside a node. The alternative of a block is checked
in the scope of its body. -/
def Node.Forgets (x : String) : Node → Prop
  | .text _ => False
  | .action _ pipe => pipe.Assigns x
  | .block _ _ pipe body otherwise =>
    pipe.Assigns x ∨ (x ∉ pipe.declares ∧
      (NodesForget x body ∨ (x ∉ nodesDeclares body ∧ OptionForgets x otherwise)))

/-- Whether the check forgets a variable from outside nodes. -/
def NodesForget (x : String) : List Node → Prop
  | [] => False
  | node :: rest => node.Forgets x ∨ (x ∉ node.declares ∧ NodesForget x rest)

/-- Whether the check forgets a variable from outside the alternative of a block. -/
def OptionForgets (x : String) : Option (List Node) → Prop
  | none => False
  | some nodes => NodesForget x nodes

end

section Nodes

variable {dest : Shape} {isFunction : String → Bool}

/-- The variables of a range. -/
theorem Pipeline.Proper.checkItem_binds {names : Names} {p : Pipeline}
    (hp : p.Proper names (.block .range)) (item : Known) :
    Check.Binds p.Assigns p.declares (checkItem p item) := by
  have hcount : p.declared.length ≤ 2 := hp.bindings
  rw [checkItem, Pipeline.declares]
  unfold Pipeline.Assigns
  rcases hd : p.declared with _ | ⟨index, _ | ⟨name, _ | ⟨third, rest⟩⟩⟩
  · cases p.assigns <;> exact Check.Binds.none.imp fun x hx => absurd hx.2 List.not_mem_nil
  · simpa using Check.bind_binds p.assigns index item
  · have h := (Check.bind_binds p.assigns index .anything).andThen
      (Check.bind_binds p.assigns name item)
    cases ha : p.assigns with
    | false =>
        rw [ha] at h
        exact h.imp fun x hx => absurd hx.1 Bool.false_ne_true
    | true =>
        rw [ha] at h
        refine h.imp ?_
        rintro x ⟨-, hx⟩
        exact (List.mem_cons.mp hx).imp (fun h => ⟨rfl, h⟩)
          fun h => ⟨by simp, rfl, List.mem_singleton.mp h⟩
  · rw [hd] at hcount
    simp at hcount

/-- A pipeline checks its commands and binds what is known about their value. -/
theorem Pipeline.Proper.run_checkPipeline {names : Names} {context : PipelineContext}
    {p : Pipeline} (hp : p.Proper names context) {dot known : Known}
    {types types' : KnownVariables} (h : (checkPipeline dest dot p).run types = .ok (known, types')) :
    (SqlTemplate.checkCommands dest dot false .anything p.commands).run types = .ok (known, types) ∧
      (Check.bindAll p.assigns known p.declared).run types = .ok ((), types') := by
  rw [checkPipeline] at h
  obtain ⟨k, between, hcommands, hrest⟩ := run_bind_eq_ok.mp h
  obtain ⟨⟨⟩, last, hbind, hpure⟩ := run_bind_eq_ok.mp hrest
  obtain ⟨rfl, rfl⟩ := run_pure_eq_ok.mp hpure
  obtain ⟨rfl, -⟩ := hp.checkCommands hcommands
  exact ⟨hcommands, hbind⟩

/-- The header of a range checks its commands and binds what is known about their items. -/
theorem Pipeline.Proper.run_checkHeader_range {names : Names} {p : Pipeline}
    (hp : p.Proper names (.block .range)) {dot inner : Known} {types types' : KnownVariables}
    (h : (checkHeader dest dot .range p).run types = .ok (inner, types')) :
    ∃ known, (SqlTemplate.checkCommands dest dot false .anything p.commands).run types
        = .ok (known, types) ∧
      (checkItem p known.item).run types = .ok ((), types') ∧ inner = known.item := by
  rw [checkHeader] at h
  obtain ⟨known, between, hcommands, hrest⟩ := run_bind_eq_ok.mp h
  obtain ⟨⟨⟩, last, hitem, hpure⟩ := run_bind_eq_ok.mp hrest
  obtain ⟨rfl, rfl⟩ := run_pure_eq_ok.mp hpure
  obtain ⟨rfl, -⟩ := hp.checkCommands hcommands
  exact ⟨known, hcommands, hitem, rfl⟩

/-- The header of any other block checks its commands and binds what is known about their value. -/
theorem Pipeline.Proper.run_checkHeader {names : Names} {kind : BlockKind} {p : Pipeline}
    (hkind : kind ≠ .range) (hp : p.Proper names (.block kind)) {dot inner : Known}
    {types types' : KnownVariables}
    (h : (checkHeader dest dot kind p).run types = .ok (inner, types')) :
    ∃ known, (SqlTemplate.checkCommands dest dot false .anything p.commands).run types
        = .ok (known, types) ∧
      (Check.bindAll p.assigns known p.declared).run types = .ok ((), types') ∧
      inner = if kind = .scoped then known.peel else dot := by
  match kind with
  | .range => exact absurd rfl hkind
  | .conditional | .scoped =>
    rw [checkHeader] at h
    obtain ⟨known, between, hpipe, hpure⟩ := run_bind_eq_ok.mp h
    obtain ⟨rfl, rfl⟩ := run_pure_eq_ok.mp hpure
    obtain ⟨hcommands, hbind⟩ := hp.run_checkPipeline hpipe
    exact ⟨known, hcommands, hbind, rfl⟩

theorem Pipeline.Proper.checkHeader_grows {names : Names} {kind : BlockKind} {p : Pipeline}
    (hp : p.Proper names (.block kind)) {dot inner : Known} {types types' : KnownVariables}
    (h : (checkHeader dest dot kind p).run types = .ok (inner, types')) :
    Known.Grows p.Assigns p.declares types types' := by
  by_cases hkind : kind = .range
  · subst hkind
    obtain ⟨known, -, hitem, -⟩ := hp.run_checkHeader_range h
    exact hp.checkItem_binds known.item _ _ hitem
  · obtain ⟨known, -, hbind, -⟩ := hp.run_checkHeader hkind h
    exact Check.bindAll_binds p.assigns known p.declared _ _ hbind

mutual

/-- The check puts the variables that a node declares in front, and forgets what it forgets. -/
theorem checkNode_grows {dot : Known} {scope : List String} {node : Node}
    (hnode : node.Proper isFunction scope) {types types' : KnownVariables}
    (h : (checkNode dest dot node).run types = .ok ((), types')) :
    Known.Grows (node.Forgets ·) node.declares types types' := by
  match node with
  | .text s =>
    obtain ⟨-, rfl⟩ := run_pure_eq_ok.mp h
    exact Known.Grows.refl types
  | .action line pipe =>
    rw [checkNode] at h
    obtain ⟨known, between, hpipe, hpure⟩ := run_bind_eq_ok.mp h
    obtain ⟨-, rfl⟩ := run_pure_eq_ok.mp hpure
    obtain ⟨-, hbind⟩ := Pipeline.Proper.run_checkPipeline hnode hpipe
    exact Check.bindAll_binds pipe.assigns known pipe.declared _ _ hbind
  | .block kind line pipe body otherwise =>
    obtain ⟨hpipe, hbody, hother⟩ := hnode
    rw [checkNode_block] at h
    obtain ⟨mark, between, hmark, hrest⟩ := run_bind_eq_ok.mp h
    cases hmark
    obtain ⟨inner, types₁, hheader, hrest₁⟩ := run_bind_eq_ok.mp hrest
    obtain ⟨⟨⟩, types₂, hnodes, hrest₂⟩ := run_bind_eq_ok.mp hrest₁
    obtain ⟨⟨⟩, types₃, hoption, hkeep⟩ := run_bind_eq_ok.mp hrest₂
    obtain ⟨declared, hgrows⟩ := checkOption_grows hother hoption
    -- The alternative is checked behind the body, so the block is one chain of three parts.
    have hblock :=
      (hpipe.checkHeader_grows hheader).trans ((checkNodes_grows hbody hnodes).trans hgrows)
    cases hkeep
    exact ⟨[], _, rfl, rfl, hblock.keep⟩

theorem checkNodes_grows {dot : Known} {scope : List String} {nodes : List Node}
    (hnodes : ProperNodes isFunction scope nodes) {types types' : KnownVariables}
    (h : (checkNodes dest dot nodes).run types = .ok ((), types')) :
    Known.Grows (NodesForget · nodes) (nodesDeclares nodes) types types' := by
  match nodes with
  | [] =>
    obtain ⟨-, rfl⟩ := run_pure_eq_ok.mp h
    exact Known.Grows.refl types
  | node :: rest =>
    rw [checkNodes] at h
    obtain ⟨⟨⟩, between, hfirst, hrest⟩ := run_bind_eq_ok.mp h
    exact (checkNode_grows hnodes.1 hfirst).trans (checkNodes_grows hnodes.2 hrest)

theorem checkOption_grows {dot : Known} {scope : List String} {otherwise : Option (List Node)}
    (hother : ProperOption isFunction scope otherwise) {types types' : KnownVariables}
    (h : (checkOption dest dot otherwise).run types = .ok ((), types')) :
    ∃ declared, Known.Grows (OptionForgets · otherwise) declared types types' := by
  match otherwise with
  | none =>
    obtain ⟨-, rfl⟩ := run_pure_eq_ok.mp h
    exact ⟨[], Known.Grows.refl types⟩
  | some nodes => exact ⟨nodesDeclares nodes, checkNodes_grows hother h⟩

end

end Nodes

end SqlTemplate
