import Mathlib
import SqlTemplate.Proofs.Execution.Worlds

/-!
# The marker alone changes nothing

A marked template calls the marker where the template prints. If the marker hands every value back,
this makes no difference: the two executions do the same to their worlds, call by call and text by
text, and end alike, also where a function fails or a text is refused. What an execution does is
kept in a trace, from which the calls of the marker are left out.
-/

set_option autoImplicit false

namespace SqlTemplate

variable {σ τ : Type}

/-! ## Writing that may be refused -/

namespace Exec.Agree

variable {R : σ → τ → Prop} {env : Env σ} {env' : Env τ}

/-- Two worlds that both take what is written, or both refuse it, leave states that are alike. -/
theorem afterWriting {f : Frame σ} {g : Frame τ} (h : Frame.Alike R f g) {w : Option σ}
    {w' : Option τ} (hw : Option.Rel R w w') :
    (Exec.afterWriting f w).1 = (Exec.afterWriting g w').1 ∧
      Frame.Alike R (Exec.afterWriting f w).2 (Exec.afterWriting g w').2 := by
  cases hw with
  | none => exact ⟨rfl, h⟩
  | some hR => exact ⟨rfl, h.vars, h.line, hR⟩

theorem literal_of_rel {s : String}
    (h : ∀ w w', R w w' → Option.Rel R (env.world.literal s w) (env'.world.literal s w')) :
    Agree R (Exec.literal env s) (Exec.literal env' s) := by
  intro f g hfg
  rw [on_literal, on_literal]
  exact afterWriting hfg (h _ _ hfg.world)

theorem print_of_rel {v : Value}
    (h : ∀ w w', R w w' → Option.Rel R (env.world.print v w) (env'.world.print v w')) :
    Agree R (Exec.print env v) (Exec.print env' v) := by
  intro f g hfg
  rw [on_print, on_print]
  exact afterWriting hfg (h _ _ hfg.world)

/-- A call that answers a value agrees with doing nothing, if the other world may stay as it is. -/
theorem callWorld_pure {name : String} {args : List Value} {v : Value}
    (h : ∀ w w', R w w' → (env.world.call name args w).1 = .ok v ∧
      R (env.world.call name args w).2 w') :
    Agree R (Exec.callWorld env name args) (Pure.pure v : Exec τ Value) := by
  intro f g hfg
  obtain ⟨hanswer, hR⟩ := h _ _ hfg.world
  rw [on_callWorld, hanswer]
  exact ⟨rfl, hfg.vars, hfg.line, hR⟩

end Exec.Agree

/-! ## Markers that hand values back -/

/-- Whether a world follows a host up to a relation: its marker hands back what it is handed and
leaves the relation as it is, and everything else the two worlds answer, take or refuse alike. -/
structure World.Follows (R : σ → τ → Prop) (marking : World σ) (host : World τ) : Prop where
  marker : ∀ v w w', R w w' → (marking.call markerName [v] w).1 = .ok v ∧
    R (marking.call markerName [v] w).2 w'
  call : ∀ name args w w', name ≠ markerName → R w w' →
    (marking.call name args w).1 = (host.call name args w').1 ∧
      R (marking.call name args w).2 (host.call name args w').2
  literal : ∀ s w w', R w w' → Option.Rel R (marking.literal s w) (host.literal s w')
  print : ∀ v w w', R w w' → Option.Rel R (marking.print v w) (host.print v w')

section Follows

variable {R : σ → τ → Prop} {marking : World σ} {host : World τ}

theorem World.Follows.printsThrough (h : World.Follows R marking host) (policy : MissingKey)
    (data : Value) :
    PrintsThrough R (· ≠ markerName) ⟨marking, policy, data⟩ ⟨host, policy, data⟩ where
  policy := rfl
  root := rfl
  call name args w w' hname _ hR := h.call name args w w' hname hR
  marker hmarker := hmarker rfl
  literal s := Exec.Agree.literal_of_rel (h.literal s)
  print v := by
    let env : Env σ := ⟨marking, policy, data⟩
    let env' : Env τ := ⟨host, policy, data⟩
    have hcall : Exec.Agree R (Exec.callWorld env markerName [v]) (pure v) :=
      Exec.Agree.callWorld_pure (h.marker v)
    have hprint : ∀ a, Exec.Agree R (Exec.print env a) (Exec.print env' a) := fun a =>
      Exec.Agree.print_of_rel (h.print a)
    have hboth := Exec.Agree.bind hcall hprint
    rwa [pure_bind] at hboth

/-- A marked template that calls no marker of its own comes to the result to which the template
comes with the host, and the worlds stay related. -/
theorem Template.execute_follows (h : World.Follows R marking host) {t : Template}
    (hcalls : ¬ t.Calls markerName) (policy : MissingKey) (data : Value)
    (seeds : List (String × Value)) {start : σ} {start' : τ} (hstart : R start start') :
    (t.mark.execute marking policy data seeds start).1
        = (t.execute host policy data seeds start').1 ∧
      R (t.mark.execute marking policy data seeds start).2
        (t.execute host policy data seeds start').2 := by
  refine t.execute_mark_agree (h.printsThrough policy data) ?_ seeds hstart
  intro p hp
  refine ⟨?_, fun _ => Exec.Agree.print_of_rel (h.print .nil)⟩
  rintro f hf rfl
  exact hcalls ⟨p, hp, hf⟩

end Follows

/-- Whether a world answers the marker with the value that it is handed, and nothing else happens
then, and does in everything else what the host does. -/
structure World.HandsBack (marking host : World σ) : Prop where
  marker : ∀ v w, marking.call markerName [v] w = (.ok v, w)
  call : ∀ name args w, name ≠ markerName → marking.call name args w = host.call name args w
  literal : ∀ s w, marking.literal s w = host.literal s w
  print : ∀ v w, marking.print v w = host.print v w

/-! ## Traces -/

/-- What an execution does to its world: it calls a function, or writes a text or a value. -/
inductive Interaction
  | call (name : String) (args : List Value)
  | literal (s : String)
  | print (v : Value)

namespace Interaction

/-- Whether the marker is called. -/
def isMarker : Interaction → Bool
  | .call name _ => name = markerName
  | _ => false

/-- A trace without the calls of the marker. -/
def unmarked (trace : List Interaction) : List Interaction := trace.filter fun i => !i.isMarker

theorem unmarked_append (trace : List Interaction) {i : Interaction} (h : i.isMarker = false) :
    unmarked (trace ++ [i]) = unmarked trace ++ [i] := by
  simp [unmarked, h]

theorem unmarked_append_marker (trace : List Interaction) (args : List Value) :
    unmarked (trace ++ [.call markerName args]) = unmarked trace := by
  simp [unmarked, isMarker]

end Interaction

/-- A world that keeps a trace of the calls it answers and of what it takes. -/
def World.traced (world : World σ) : World (σ × List Interaction) where
  call name args state :=
    ((world.call name args state.1).1, (world.call name args state.1).2,
      state.2 ++ [.call name args])
  literal s state := (world.literal s state.1).map (·, state.2 ++ [.literal s])
  print v state := (world.print v state.1).map (·, state.2 ++ [.print v])

/-- Two states go along with each other if they differ in the calls of the marker only. -/
def Interaction.Along (state state' : σ × List Interaction) : Prop :=
  state.1 = state'.1 ∧ Interaction.unmarked state.2 = state'.2

/-- What both worlds take, or both refuse, is added to both traces. -/
theorem Interaction.Along.map (trace : List Interaction) {i : Interaction} (hi : i.isMarker = false)
    (taken : Option σ) :
    Option.Rel Along (taken.map (·, trace ++ [i]))
      (taken.map (·, Interaction.unmarked trace ++ [i])) := by
  cases taken with
  | none => exact .none
  | some w => exact .some ⟨rfl, Interaction.unmarked_append trace hi⟩

namespace World.HandsBack

variable {marking host : World σ}

theorem follows (h : marking.HandsBack host) : World.Follows Eq marking host := by
  have hrefl : ∀ taken : Option σ, Option.Rel Eq taken taken := by
    rintro (_ | w)
    · exact .none
    · exact .some rfl
  refine ⟨?_, ?_, ?_, ?_⟩
  · rintro v w _ rfl
    rw [h.marker]
    exact ⟨rfl, rfl⟩
  · rintro name args w _ hname rfl
    rw [h.call name args w hname]
    exact ⟨rfl, rfl⟩
  · rintro s w _ rfl
    exact h.literal s w ▸ hrefl _
  · rintro v w _ rfl
    exact h.print v w ▸ hrefl _

theorem follows_traced (h : marking.HandsBack host) :
    World.Follows Interaction.Along marking.traced host.traced := by
  refine ⟨?_, ?_, ?_, ?_⟩
  · rintro v ⟨w, trace⟩ ⟨_, _⟩ ⟨rfl, rfl⟩
    simp only [World.traced, h.marker]
    exact ⟨trivial, rfl, Interaction.unmarked_append_marker trace [v]⟩
  · rintro name args ⟨w, trace⟩ ⟨_, _⟩ hname ⟨rfl, rfl⟩
    simp only [World.traced, h.call name args w hname]
    exact ⟨trivial, rfl, Interaction.unmarked_append trace (by simpa [Interaction.isMarker])⟩
  · rintro s ⟨w, trace⟩ ⟨_, _⟩ ⟨rfl, rfl⟩
    simp only [World.traced, h.literal]
    exact Interaction.Along.map trace (by rfl) _
  · rintro v ⟨w, trace⟩ ⟨_, _⟩ ⟨rfl, rfl⟩
    simp only [World.traced, h.print]
    exact Interaction.Along.map trace (by rfl) _

end World.HandsBack

/-! ## Executing a marked template -/

/-- **A marker that hands values back changes nothing.** Let a template call the marker nowhere.
Executing it marked, with a marker that hands values back, comes to the result and to the state of
the world to which executing it comes, and does to the world what that execution does, in the same
order, apart from the calls of the marker. -/
theorem Template.execute_mark {marking host : World σ} (hback : marking.HandsBack host)
    {t : Template} (hcalls : ¬ t.Calls markerName) (policy : MissingKey) (data : Value)
    (seeds : List (String × Value)) (start : σ) :
    t.mark.execute marking policy data seeds start = t.execute host policy data seeds start ∧
      (t.mark.execute marking.traced policy data seeds (start, [])).1
        = (t.execute host.traced policy data seeds (start, [])).1 ∧
      Interaction.unmarked (t.mark.execute marking.traced policy data seeds (start, [])).2.2
        = (t.execute host.traced policy data seeds (start, [])).2.2 := by
  obtain ⟨hresult, hworld⟩ :=
    t.execute_follows hback.follows hcalls policy data seeds (rfl : start = start)
  obtain ⟨htraced, -, htrace⟩ :=
    t.execute_follows hback.follows_traced hcalls policy data seeds
      (⟨rfl, rfl⟩ : Interaction.Along (start, []) (start, []))
  exact ⟨Prod.ext hresult hworld, htraced, htrace⟩

/-- A function that counts its calls answers the same numbers whether or not they are marked. -/
theorem Template.execute_mark_counted :
    let t : Template := ⟨"t", [.text "ids ", .block .range 1 ⟨[], false, [[.int 2]]⟩
      [.action 2 ⟨[], false, [[.function "next"]]⟩] none]⟩
    let host : World Nat := ⟨fun _ _ n => (.ok (.int (.ofNat n)), n + 1), fun _ n => some n,
      fun _ n => some n⟩
    let marking : World Nat := { host with
      call := fun name args n =>
        if name = markerName then (.ok (args.headD .nil), n) else host.call name args n }
    marking.HandsBack host ∧ ¬ t.Calls markerName ∧
      t.mark.execute marking .invalid .nil [] 0 = (.ok (), 2) ∧
      Interaction.unmarked (t.mark.execute marking.traced .invalid .nil [] (0, [])).2.2 =
        [.literal "ids ", .call "next" [], .print (.int 0), .call "next" [],
          .print (.int 1)] := by
  intro t host marking
  have hback : marking.HandsBack host :=
    ⟨fun _ _ => rfl, fun _ _ _ hname => if_neg hname, fun _ _ => rfl, fun _ _ => rfl⟩
  have hcalls : ¬ t.Calls markerName := by
    rintro ⟨p, hp, hf⟩
    simp only [t, nodesPipelines, Node.pipelines, optionPipelines, List.append_nil,
      List.nil_append, List.mem_cons, List.not_mem_nil, or_false] at hp
    rcases hp with rfl | rfl <;>
      simp [Pipeline.Calls, Pipeline.parts, commandsParts, operandsParts, Operand.parts,
        markerName] at hf
  obtain ⟨hrun, -, htrace⟩ := Template.execute_mark hback hcalls .invalid .nil [] 0
  exact ⟨hback, hcalls, hrun.trans (by rfl), htrace.trans (by rfl)⟩

end SqlTemplate
