import Mathlib
import SqlTemplate.Proofs.Execution.Binding
import SqlTemplate.Proofs.Shape.Knowledge
import SqlTemplate.Proofs.Shape.Typed

/-!
# Known values

The check is right about some variables if the values that an execution has for them are what is
known about them. Binding keeps that, and an operand that reads such variables only has a value that
is what the check knows about the operand. A variable about which the check may be wrong is stale.
-/

set_option autoImplicit false

namespace SqlTemplate

open Exec Variables

variable {σ : Type}

/-! ## Variables -/

/-- The value of a variable, if it has one: the dollar sign stands for the data unless it was
bound. -/
def Env.value? (env : Env σ) (vars : Variables) (x : String) : Option Value :=
  (vars.lookup x).or (if x = "$" then some env.root else none)

/-- What is known about a variable. -/
def Known.ofVariable (types : KnownVariables) (x : String) : Known :=
  (types.lookup x).getD .anything

/-- Whether the variables that are not stale have values as they are known. -/
def Fits (env : Env σ) (dest : Shape) (stale : String → Prop) (types : KnownVariables)
    (vars : Variables) : Prop :=
  ∀ x v, ¬ stale x → env.value? vars x = some v → (Known.ofVariable types x).Describes dest v

namespace Fits

variable {env : Env σ} {dest : Shape} {stale stale' A : String → Prop}
  {types types' : KnownVariables} {vars vars' : Variables}

theorem mono (h : Fits env dest stale types vars) (hstale : ∀ x, stale x → stale' x) :
    Fits env dest stale' types vars :=
  fun x v hx => h x v fun hx' => hx (hstale x hx')

/-- A declared variable has the value and the knowledge that it is declared with. -/
theorem declare (h : Fits env dest stale types vars) {known : Known} {v : Value}
    (hv : known.Describes dest v) (name : String) :
    Fits env dest (fun x => x ≠ name ∧ stale x) ((name, known) :: types) ((name, v) :: vars) := by
  intro x w hx hw
  rw [Env.value?, List.lookup_cons] at hw
  rw [Known.ofVariable, List.lookup_cons]
  by_cases heq : x = name
  · rw [beq_iff_eq.mpr heq] at hw ⊢
    cases hw
    exact hv
  · rw [beq_eq_false_iff_ne.mpr heq] at hw ⊢
    exact h x w (fun hstale => hx ⟨heq, hstale⟩) hw

/-- Variables that were not assigned fit as before. -/
theorem kept (h : Fits env dest stale types vars) (hkept : Kept A vars vars') :
    Fits env dest (fun x => stale x ∨ A x) types vars' := by
  intro x v hx hv
  rw [not_or] at hx
  rw [Env.value?, hkept.lookup hx.2] at hv
  exact h x v hx.1 hv

/-- Variables about which the check has forgotten more fit as before. -/
theorem faded (h : Fits env dest stale types vars) (hfades : Known.Fades A types types') :
    Fits env dest (fun x => ¬ A x ∧ stale x) types' vars := by
  intro x v hx hv
  rcases hfades.lookup x with hlost | ⟨hA, hsame⟩
  · rw [Known.ofVariable, hlost]
    trivial
  · rw [Known.ofVariable, hsame]
    exact h x v (fun hstale => hx ⟨hA, hstale⟩) hv

/-- What the check declares on its own is stale. -/
theorem grown {declared : List String} (h : Fits env dest stale types vars)
    (hgrows : Known.Grows A declared types types') :
    Fits env dest (fun x => x ∈ declared ∨ (¬ A x ∧ stale x)) types' vars := by
  obtain ⟨front, outer, rfl, hfront, hfades⟩ := hgrows
  intro x v hx hv
  rw [not_or] at hx
  have hnone : front.lookup x = none := by
    rw [SqlTemplate.lookup_eq_none, hfront, List.mem_reverse]
    exact hx.1
  rw [Known.ofVariable, List.lookup_append, hnone, Option.none_or]
  exact h.faded hfades x v hx.2 hv

/-- What the execution has put in front on its own is stale. -/
theorem behind {extra : Variables} (h : Fits env dest stale types vars) :
    Fits env dest (fun x => stale x ∨ x ∈ names extra) types (extra ++ vars) := by
  intro x v hx hv
  rw [not_or] at hx
  have hnone : List.lookup x extra = none := Variables.lookup_eq_none.mpr hx.2
  rw [Env.value?, List.lookup_append, hnone, Option.none_or] at hv
  exact h x v hx.1 hv

end Fits

section Binding

variable {env : Env σ} {dest : Shape} {stale : String → Prop} {types types' : KnownVariables}
  {known : Known} {v : Value}

/-- States whose variables fit. -/
def Frame.Fits (env : Env σ) (dest : Shape) (stale : String → Prop) (types : KnownVariables)
    (frame : Frame σ) : Prop :=
  SqlTemplate.Fits env dest stale types frame.vars

/-- Any failure. -/
def anyFault (_ : EvalFault) (_ : Frame σ) : Prop := True

/-- A variable that is bound fits: it has the value that is known, or nothing is known about it. -/
theorem bind_fits (assigns : Bool) (name : String) (hv : known.Describes dest v)
    (h : (Check.bind assigns name known).run types = .ok ((), types')) :
    Spec (Frame.Fits env dest stale types) (Exec.bind assigns name v)
      (fun _ => Frame.Fits env dest (fun x => x ≠ name ∧ stale x) types') anyFault := by
  intro frame hfits
  cases assigns with
  | false =>
      cases h
      rw [on_declare]
      exact hfits.declare hv name
  | true =>
      cases h
      rw [on_assign]
      cases hassign : Variables.assign name v frame.vars with
      | none => trivial
      | some vars =>
          refine ((hfits.kept (assign_kept hassign)).faded (Check.forget_fades name types)).mono ?_
          rintro x ⟨hne, hx⟩
          exact ⟨hne, hx.resolve_right hne⟩

theorem bindAll_fits (assigns : Bool) (declared : List String) (hv : known.Describes dest v)
    (h : (Check.bindAll assigns known declared).run types = .ok ((), types')) :
    Spec (Frame.Fits env dest stale types) (Exec.bindAll assigns v declared)
      (fun _ => Frame.Fits env dest (fun x => x ∉ declared ∧ stale x) types') anyFault := by
  induction declared generalizing types stale with
  | nil =>
      cases h
      exact Spec.pure fun _ hfits => Fits.mono hfits fun x hx => ⟨by simp, hx⟩
  | cons name rest ih =>
      obtain ⟨⟨⟩, between, hbind, hrest⟩ := Check.run_bind_eq_ok.mp h
      refine Spec.bind (bind_fits assigns name hv hbind) fun _ => ?_
      refine (ih hrest).imp_result fun _ _ hfits => Fits.mono hfits ?_
      rintro x ⟨hrest, hne, hx⟩
      exact ⟨by simp [hne, hrest], hx⟩

/-- The variables of a range fit in every round. -/
theorem Pipeline.Proper.bindItem_fits {scope : Names} {p : Pipeline}
    (hp : p.Proper scope (.block .range)) {item : Value} (hitem : known.Describes dest item)
    (h : (checkItem p known).run types = .ok ((), types')) (key : Value) :
    Spec (Frame.Fits env dest stale types) (bindItem p key item)
      (fun _ => Frame.Fits env dest (fun x => x ∉ p.declared ∧ stale x) types') anyFault := by
  have hcount : p.declared.length ≤ 2 := hp.bindings
  rw [checkItem] at h
  rw [bindItem]
  rcases hd : p.declared with _ | ⟨index, _ | ⟨name, _ | ⟨third, rest⟩⟩⟩
  · rw [hd] at h
    cases h
    exact Spec.pure fun _ hfits => Fits.mono hfits fun x hx => ⟨by simp, hx⟩
  · rw [hd] at h
    refine (bind_fits p.assigns index hitem h).imp_result fun _ _ hfits => Fits.mono hfits ?_
    exact fun x hx => ⟨by simp [hx.1], hx.2⟩
  · rw [hd] at h
    obtain ⟨⟨⟩, between, hkey, hname⟩ := Check.run_bind_eq_ok.mp h
    refine Spec.bind (bind_fits p.assigns index (Known.describes_anything key) hkey) fun _ => ?_
    refine (bind_fits p.assigns name hitem hname).imp_result fun _ _ hfits => Fits.mono hfits ?_
    exact fun x hx => ⟨by simp [hx.1, hx.2.1], hx.2.2⟩
  · rw [hd] at hcount
    simp at hcount

end Binding

/-! ## Fields -/

section Fields

variable {dest : Shape} {known : Known} {v : Value}

theorem Known.anything_fields {fields : List String} {k : Known}
    (h : Known.anything.fields fields = .ok k) : k = .anything := by
  induction fields with
  | nil =>
      cases h
      rfl
  | cons name rest ih => exact ih h

/-- A path is followed field by field. -/
theorem fields_dest (env : Env σ) (path : DestPath) (name : String) (rest : List String) :
    Exec.fields env (name :: rest) (.dest path) = Exec.fields env rest (.dest (path.child name)) := by
  cases rest <;> rfl

/-- A field of a type: the value is NULL, or nothing is known about the field, or it is there. -/
theorem Shape.Describes.knownField (dest : Shape) {s : Shape} (hv : s.Describes v)
    (hpeeled : s.peel = s) {name : String} {k : Known} (h : (Known.shape s).field name = .ok k) :
    v = .nil ∨ k = .anything ∨ ∃ entries w, v = .map entries ∧ findEntry name entries = some w ∧
      k.Describes dest w := by
  rw [Known.field, Known.peel, hpeeled] at h
  cases hlookup : s.lookup name with
  | found f =>
      simp only [hlookup] at h
      cases h
      rw [← hpeeled] at hlookup
      refine (Shape.Describes.field hv hlookup).imp_right fun hfield => .inr ?_
      obtain ⟨entries, w, rfl, hfind, hw⟩ := hfield
      exact ⟨entries, w, rfl, hfind, hw⟩
  | dynamic =>
      simp only [hlookup] at h
      cases h
      exact .inr (.inl rfl)
  | missing =>
      simp only [hlookup] at h
      cases h

/-- A field of a place in the destination is the place under it. -/
theorem Shape.Resolves.knownField {s : Shape} {path : DestPath}
    (hpath : dest.Resolves path.segments s) (hpeeled : s.peel = s) {name : String} {k : Known}
    (h : (Known.place (some s)).field name = .ok k) :
    k.Describes dest (.dest (path.child name)) := by
  obtain ⟨s', hresolve, hpeel⟩ := hpath
  rw [Known.field, Known.peel, hpeeled] at h
  rw [hpeeled] at hpeel
  cases hlookup : s.lookup name with
  | found f =>
      simp only [hlookup] at h
      cases h
      have hfound : s'.peel.lookup name = .found f := hpeel ▸ hlookup
      exact ⟨_, rfl, f, Shape.resolve_append hresolve hfound, rfl⟩
  | dynamic =>
      simp only [hlookup] at h
      cases h
      exact ⟨_, rfl⟩
  | missing =>
      simp only [hlookup] at h
      cases h

theorem Known.field_peel (known : Known) (name : String) :
    known.peel.field name = known.field name := by
  rw [Known.field, Known.field, Known.peel_peel]

/-- **Looking up a field.** If the check knows the field, then the value is NULL, or nothing is known
about what the field yields, or it yields a value that is what is known. -/
theorem Known.Describes.field (hv : known.Describes dest v) {name : String} {k : Known}
    (h : known.field name = .ok k) :
    v = .nil ∨ k = .anything ∨ ∃ w, k.Describes dest w ∧
      ∀ (env : Env σ) rest, Exec.fields env (name :: rest) v = Exec.fields env rest w := by
  rcases hv.peel with hnil | hpeel
  · exact .inl hnil
  rw [← Known.field_peel] at h
  have hpeeled := Known.peel_peel known
  cases hknown : known.peel with
  | anything =>
      rw [hknown] at h
      cases h
      exact .inr (.inl rfl)
  | literal =>
      rw [hknown] at h
      cases h
  | shape s =>
      rw [hknown] at h hpeel hpeeled
      have hs : s.peel = s := Known.shape.inj hpeeled
      have hfield := Shape.Describes.knownField dest hpeel hs h
      rcases hfield with hnil | hany | ⟨entries, w, rfl, hfind, hw⟩
      · exact .inl hnil
      · exact .inr (.inl hany)
      · exact .inr (.inr ⟨w, hw, fun env rest => by rw [Exec.fields, hfind]⟩)
  | place o =>
      rw [hknown] at h hpeel hpeeled
      cases o with
      | none =>
          cases h
          obtain ⟨path, rfl⟩ := hpeel
          exact .inr (.inr ⟨.dest (path.child name), ⟨_, rfl⟩, fun env => fields_dest env path name⟩)
      | some s =>
          obtain ⟨path, rfl, hpath⟩ := hpeel
          have hs : s.peel = s := Option.some.inj (Known.place.inj hpeeled)
          exact .inr (.inr ⟨_, hpath.knownField hs h, fun env => fields_dest env path name⟩)

end Fields

/-! ## Operands -/

/-- Whether the function that stands for the destination yields nothing else. -/
def World.YieldsDest (world : World σ) : Prop :=
  ∀ args w v, (world.call destName args w).1 = .ok v → v = .dest .root

section Operands

variable {env : Env σ} {dest : Shape} {dot : Known} {value : Value} {vars : Variables}
  {names : Names}

/-- States with the given variables in which the value is what is known. -/
def Frame.Yields (dest : Shape) (known : Known) (vars : Variables) (v : Value) (frame : Frame σ) :
    Prop :=
  known.Describes dest v ∧ frame.Has vars

/-- Operands that bind nothing keep the variables. -/
theorem keeps_vars (env : Env σ) (names : Names) (vars : Variables) :
    Keeps env (Frame.Has vars) (fun _ => True) anyFault (Operand.Proper names) where
  closed := ValueClosed.all
  fails _ _ _ _ := trivial
  read x _ _ := by
    intro frame hvars
    rw [on_valueOf]
    cases frame.vars.lookup x with
    | some v => exact ⟨trivial, hvars⟩
    | none => by_cases hdollar : x = "$" <;> simp [hdollar, anyFault, hvars]
  call f args _ _ _ := by
    intro frame hvars
    rw [on_callWorld]
    cases (env.world.call f args frame.world).1 with
    | ok v => exact ⟨trivial, hvars⟩
    | error cause => trivial
  bind declared _ _ _ hp _ := by
    obtain ⟨rfl, -, -⟩ := hp
    exact Spec.pure fun _ hvars => hvars

/-- Following fields yields what the check knows about them. -/
theorem fields_describes (env : Env σ) {fields : List String} {known k : Known} {v : Value}
    (hv : known.Describes dest v) (h : known.fields fields = .ok k) :
    Spec (Frame.Has vars) (Exec.fields env fields v) (Frame.Yields dest k vars) anyFault := by
  induction fields generalizing known v with
  | nil =>
      cases h
      exact Spec.pure fun _ hvars => ⟨hv, hvars⟩
  | cons name rest ih =>
      -- Where nothing is known about the rest, it is enough that the variables are kept.
      have hkeeps :=
        (keeps_vars env ⟨fun _ => false, []⟩ vars).fields (name :: rest) (v := v) trivial
      obtain ⟨between, hfield, hrest⟩ := bind_eq_ok.mp h
      rcases hv.field hfield with rfl | rfl | ⟨w, hw, heq⟩
      · exact fun _ _ => trivial
      · obtain rfl := Known.anything_fields hrest
        exact hkeeps
      · rw [heq]
        exact ih hw hrest

/-- A call of the destination yields the destination; nothing is known about other calls. -/
theorem call_describes (hworld : env.world.YieldsDest) {name : String}
    (hname : (Operand.function name).Proper names) (args : List Value) :
    Spec (Frame.Has vars) (Exec.call env name args)
      (Frame.Yields dest (knownFunction dest name) vars) anyFault := by
  by_cases hdest : name = destName
  · subst hdest
    have hknown : knownFunction dest destName = .place (some dest) := if_pos rfl
    rw [Exec.call, show Builtin.ofName? destName = none by decide, hknown]
    intro frame hvars
    rw [on_callWorld]
    have hanswer := hworld args frame.world
    cases hcall : (env.world.call destName args frame.world).1 with
    | ok v =>
        rw [hcall] at hanswer
        exact ⟨⟨.root, hanswer v rfl, dest, rfl, rfl⟩, hvars⟩
    | error cause => trivial
  · have hknown : knownFunction dest name = .anything := if_neg hdest
    rw [hknown]
    exact (keeps_vars env names vars).callFunction hname fun _ _ => trivial

mutual

/-- **The value of an operand is what the check knows about it**, if that is so for the dot and
the variables that the operand reads. -/
theorem evalOperand_describes (hworld : env.world.YieldsDest) (hdot : dot.Describes dest value)
    {types types' : KnownVariables} {a : Operand} (hparts : ∀ part ∈ a.parts, part.Proper names)
    (hreads : ∀ x fields, .variable x fields ∈ a.parts → ∀ v, env.value? vars x = some v →
      (Known.ofVariable types x).Describes dest v)
    {known : Known} (h : (checkOperand dest dot a).run types = .ok (known, types')) :
    Spec (Frame.Has vars) (evalOperand env value a) (Frame.Yields dest known vars) anyFault := by
  match a with
  | .dot =>
    cases h
    exact Spec.pure fun _ hvars => ⟨hdot, hvars⟩
  | .nil | .bool _ | .int _ | .float _ | .text _ =>
    cases h
    exact Spec.pure fun _ hvars => ⟨trivial, hvars⟩
  | .field fields => exact fields_describes env hdot (Check.run_ofExcept_eq_ok.mp h).1
  | .variable x fields =>
    rw [checkOperand] at h
    obtain ⟨k, between, hvalue, hfields⟩ := Check.run_bind_eq_ok.mp h
    cases hvalue
    rw [evalOperand]
    refine Spec.bind_of (V := fun v => (Known.ofVariable types x).Describes dest v) ?_ fun v hv =>
      fields_describes env hv (Check.run_ofExcept_eq_ok.mp hfields).1
    rintro frame rfl
    -- The knowledge is about the innermost variable of the name, and so is the lookup.
    have hread := hreads x fields (Operand.mem_parts_self _)
    rw [on_valueOf]
    rw [Env.value?] at hread
    cases hlookup : frame.vars.lookup x with
    | some v =>
        rw [hlookup] at hread
        exact ⟨hread v rfl, rfl⟩
    | none =>
        by_cases hdollar : x = "$"
        · rw [hlookup, if_pos hdollar] at hread
          simp only [if_pos hdollar]
          exact ⟨hread _ rfl, rfl⟩
        · simp only [if_neg hdollar]
          trivial
  | .function name =>
    cases h
    rw [evalOperand]
    exact Spec.ite (fun _ _ _ => trivial) fun _ =>
      call_describes hworld (hparts _ (Operand.mem_parts_self _)) []
  | .chain base fields =>
    rw [checkOperand] at h
    obtain ⟨k, between, hbase, hfields⟩ := Check.run_bind_eq_ok.mp h
    rw [evalOperand]
    exact Spec.bind_of (evalOperand_describes hworld hdot
      (fun part hp => hparts part (List.mem_cons_of_mem _ hp))
      (fun x fields hp => hreads x fields (List.mem_cons_of_mem _ hp)) hbase) fun v hv =>
        fields_describes env hv (Check.run_ofExcept_eq_ok.mp hfields).1
  | .pipe declared assigns commands =>
    obtain ⟨rfl, -, hcommands⟩ := hparts _ (Operand.mem_parts_self _)
    rw [checkOperand] at h
    obtain ⟨k, between, hpipe, hbound⟩ := Check.run_bind_eq_ok.mp h
    cases hbound
    rw [evalOperand]
    exact Spec.bind_of (evalCommands_describes hworld hdot none (Known.describes_anything _)
      hcommands.2 (fun part hp => hparts part (List.mem_cons_of_mem _ hp))
      (fun x fields hp => hreads x fields (List.mem_cons_of_mem _ hp)) hpipe) fun v hv =>
        Spec.pure fun _ hvars => ⟨hv, hvars⟩

theorem evalCommand_describes (hworld : env.world.YieldsDest) (hdot : dot.Describes dest value)
    (last : Option Value) {types types' : KnownVariables} {piped : Bool} {command : Command}
    (hproper : ProperCommand command)
    (hparts : ∀ part ∈ operandsParts command, part.Proper names)
    (hreads : ∀ x fields, .variable x fields ∈ operandsParts command →
      ∀ v, env.value? vars x = some v → (Known.ofVariable types x).Describes dest v)
    {known : Known} (h : (checkCommand dest dot piped command).run types = .ok (known, types')) :
    Spec (Frame.Has vars) (evalCommand env value last command) (Frame.Yields dest known vars)
      anyFault := by
  match command with
  | [] => exact hproper.elim
  | a :: args =>
    by_cases ha : ∃ name, a = .function name
    · obtain ⟨name, rfl⟩ := ha
      have hname := hparts _ (List.mem_append_left _ (Operand.mem_parts_self _))
      have hargs : ∀ part ∈ operandsParts args, part.Proper names := fun part hp =>
        hparts part (List.mem_append_right _ hp)
      rw [checkCommand] at h
      obtain ⟨knowns, between, -, hcall⟩ := Check.run_bind_eq_ok.mp h
      split at hcall
      · cases hcall
      · obtain ⟨rfl, -⟩ := Check.run_pure_eq_ok.mp hcall
        cases hs : shortCircuit? name with
        | some goOn =>
            -- Only the destination is known, and it does not short-circuit.
            have hknown : knownFunction dest name = .anything := by
              refine if_neg ?_
              rintro rfl
              rw [show shortCircuit? destName = none by decide] at hs
              cases hs
            rw [evalCommand_shortCircuit env value last hs, hknown]
            exact Spec.ite (fun _ _ _ => trivial) fun _ =>
              evalUntil_keeps (keeps_vars env names vars) trivial goOn last (fun _ _ => trivial)
                trivial args hargs
        | none =>
            rw [evalCommand_call env value last hs]
            exact Spec.bind_of (evalOperands_keeps (keeps_vars env names vars) trivial args hargs)
              fun vs _ => call_describes hworld hname (vs ++ last.toList)
    · have hnot : ∀ name, a ≠ .function name := fun name hname => ha ⟨name, hname⟩
      rw [checkCommand_operand dest dot piped hnot] at h
      rw [evalCommand_operand env value last hnot]
      exact Spec.ite (fun _ _ _ => trivial) fun _ => evalOperand_describes hworld hdot
        (fun part hp => hparts part (List.mem_append_left _ hp))
        (fun x fields hp => hreads x fields (List.mem_append_left _ hp)) h

theorem evalCommands_describes (hworld : env.world.YieldsDest) (hdot : dot.Describes dest value)
    (last : Option Value) {types types' : KnownVariables} {piped : Bool} {first : Known}
    (hlast : first.Describes dest (last.getD .nil)) {commands : List Command}
    (hproper : ∀ command ∈ commands, ProperCommand command)
    (hparts : ∀ part ∈ commandsParts commands, part.Proper names)
    (hreads : ∀ x fields, .variable x fields ∈ commandsParts commands →
      ∀ v, env.value? vars x = some v → (Known.ofVariable types x).Describes dest v)
    {known : Known}
    (h : (checkCommands dest dot piped first commands).run types = .ok (known, types')) :
    Spec (Frame.Has vars) (evalCommands env value last commands) (Frame.Yields dest known vars)
      anyFault := by
  match commands with
  | [] =>
    obtain ⟨rfl, -⟩ := Check.run_pure_eq_ok.mp h
    exact Spec.pure fun _ hvars => ⟨hlast, hvars⟩
  | command :: rest =>
    rw [checkCommands] at h
    obtain ⟨k, between, hcommand, hrest⟩ := Check.run_bind_eq_ok.mp h
    have hcommandParts := fun part hp => hparts part (List.mem_append_left _ hp)
    -- The commands behind it are checked with the same knowledge.
    obtain ⟨rfl, -⟩ :=
      checkCommand_accepted (hproper _ List.mem_cons_self) hcommandParts hcommand
    rw [evalCommands]
    exact Spec.bind_of (evalCommand_describes hworld hdot last (hproper _ List.mem_cons_self)
      hcommandParts (fun x fields hp => hreads x fields (List.mem_append_left _ hp)) hcommand)
      fun v hv => evalCommands_describes hworld hdot (some v) hv
        (fun command hc => hproper command (List.mem_cons_of_mem _ hc))
        (fun part hp => hparts part (List.mem_append_right _ hp))
        (fun x fields hp => hreads x fields (List.mem_append_right _ hp)) hrest

end

end Operands

end SqlTemplate
