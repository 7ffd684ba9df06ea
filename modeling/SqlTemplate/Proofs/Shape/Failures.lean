import Mathlib
import SqlTemplate.Proofs.Shape.Points

/-!
# Failures of an execution

The points to which an execution comes are all that there are: an execution that fails comes to a
point at which the next node fails on its own, in its text, its pipeline or the binding of
its variables, and not in a node inside it.
-/

set_option autoImplicit false

namespace SqlTemplate

open Exec Variables

variable {σ : Type}

namespace Point

/-- Whether the node that is next at a point fails on its own: its text is refused, its action
fails, the pipeline of a block fails, a range cannot go through the value, or it cannot bind its
variables in a round. -/
inductive Fails (env : Env σ) : Point σ → EvalFault → Prop
  | text {known types dot frame frame' s rest fault} :
    (Exec.literal env s).on frame = (.error fault, frame') →
    Fails env ⟨known, types, dot, frame, .text s :: rest⟩ fault
  | action {known types dot frame frame' line pipe rest fault} :
    (walkNode env dot (.action line pipe)).on frame = (.error fault, frame') →
    Fails env ⟨known, types, dot, frame, .action line pipe :: rest⟩ fault
  | header {known types dot frame frame' kind line pipe body otherwise rest fault} :
    kind ≠ .range →
    (evalPipeline env dot pipe).on { frame with line := line } = (.error fault, frame') →
    Fails env ⟨known, types, dot, frame, .block kind line pipe body otherwise :: rest⟩ fault
  | range {known types dot frame frame' line pipe body otherwise rest fault} :
    (evalCommands env dot none pipe.commands).on { frame with line := line }
      = (.error fault, frame') →
    Fails env ⟨known, types, dot, frame, .block .range line pipe body otherwise :: rest⟩ fault
  | items {known types dot frame frame' value line pipe body otherwise rest} :
    (evalCommands env dot none pipe.commands).on { frame with line := line } = (.ok value, frame') →
    rangeItems? value = none →
    Fails env ⟨known, types, dot, frame, .block .range line pipe body otherwise :: rest⟩
      (.at frame'.line (.rangeOver value.typeName))
  | round {known types dot value frame frame₁ frame₂ frame₃ line pipe body otherwise rest done key
      item left fault} :
    (evalCommands env dot none pipe.commands).on { frame with line := line } = (.ok value, frame₁) →
    rangeItems? value = some (done ++ (key, item) :: left) →
    (forEach (rangeRound env frame.vars.length pipe body) done).on frame₁ = (.ok (), frame₂) →
    (do Exec.keepVariables frame.vars.length; bindItem pipe key item : Exec σ Unit).on frame₂
      = (.error fault, frame₃) →
    Fails env ⟨known, types, dot, frame, .block .range line pipe body otherwise :: rest⟩ fault

end Point

section Failures

variable {env : Env σ} {dest : Shape} {fault : EvalFault}

/-- A step that is put together from two fails in one of them. -/
theorem Exec.on_bind_error {α β : Type} {m : Exec σ α} {k : α → Exec σ β}
    {frame frame' : Frame σ} (h : (m >>= k).on frame = (.error fault, frame')) :
    m.on frame = (.error fault, frame') ∨
      ∃ a next, m.on frame = (.ok a, next) ∧ (k a).on next = (.error fault, frame') := by
  rw [on_bind] at h
  rcases hm : m.on frame with ⟨result, next⟩
  rw [hm] at h
  cases result with
  | ok a => exact .inr ⟨a, next, rfl, h⟩
  | error fault' =>
      cases h
      exact .inl rfl

/-- A loop fails in one of its rounds. -/
theorem forEach_error {step : Value → Value → Exec σ Unit} {items : List (Value × Value)}
    {frame frame' : Frame σ} (h : (forEach step items).on frame = (.error fault, frame')) :
    ∃ done key item left next, items = done ++ (key, item) :: left ∧
      (forEach step done).on frame = (.ok (), next) ∧
      (step key item).on next = (.error fault, frame') := by
  induction items generalizing frame with
  | nil => cases h
  | cons e rest ih =>
      obtain ⟨key, item⟩ := e
      rw [forEach] at h
      rcases on_bind_error h with hstep | ⟨⟨⟩, next, hstep, hrest⟩
      · exact ⟨[], key, item, rest, frame, rfl, rfl, hstep⟩
      · obtain ⟨done, key', item', left, last, rfl, hdone, hfails⟩ := ih hrest
        refine ⟨(key, item) :: done, key', item', left, last, rfl, ?_, hfails⟩
        rw [forEach, on_bind, hstep]
        exact hdone

/-- A block other than a range fails in its header, or in the list that it executes. -/
theorem walkBlock_error {dot : Value} {frame frame' : Frame σ} {kind : BlockKind} {line : Nat}
    {pipe : Pipeline} {body : List Node} {otherwise : Option (List Node)} (hkind : kind ≠ .range)
    (h : (walkNode env dot (.block kind line pipe body otherwise)).on frame
      = (.error fault, frame')) :
    (evalPipeline env dot pipe).on { frame with line := line } = (.error fault, frame') ∨
      ∃ value next, (evalPipeline env dot pipe).on { frame with line := line } = (.ok value, next) ∧
        ∃ frame'', (value.isTruthy = true ∧
            (walkNodes env (if kind = .scoped then value else dot) body).on next
              = (.error fault, frame'') ∨
          value.isTruthy = false ∧
            (walkOption env dot otherwise).on next = (.error fault, frame'')) := by
  rw [walkNode_block env dot hkind] at h
  rcases on_bind_error h with hline | ⟨⟨⟩, frame₁, hline, h⟩
  · cases hline
  cases hline
  rcases on_bind_error h with hmark | ⟨mark, frame₁, hmark, h⟩
  · cases hmark
  cases hmark
  rcases on_bind_error h with heval | ⟨value, next, heval, h⟩
  · exact .inl heval
  refine .inr ⟨value, next, heval, ?_⟩
  cases htruthy : value.isTruthy with
  | true =>
      rw [if_pos htruthy] at h
      rcases on_bind_error h with hnodes | ⟨⟨⟩, frame₂, -, hkeep⟩
      · exact ⟨_, .inl ⟨rfl, hnodes⟩⟩
      · cases hkeep
  | false =>
      rw [if_neg (Bool.eq_false_iff.mp htruthy)] at h
      rcases on_bind_error h with hnodes | ⟨⟨⟩, frame₂, -, hkeep⟩
      · exact ⟨_, .inr ⟨rfl, hnodes⟩⟩
      · cases hkeep

/-- A range fails in its header, on a value that it cannot go through, in the alternative if there
is nothing to go through, or in a round behind other rounds. -/
theorem walkRange_error {dot : Value} {frame frame' : Frame σ} {line : Nat} {pipe : Pipeline}
    {body : List Node} {otherwise : Option (List Node)}
    (h : (walkNode env dot (.block .range line pipe body otherwise)).on frame
      = (.error fault, frame')) :
    (evalCommands env dot none pipe.commands).on { frame with line := line }
        = (.error fault, frame') ∨
      ∃ value next, (evalCommands env dot none pipe.commands).on { frame with line := line }
          = (.ok value, next) ∧
        (rangeItems? value = none ∧ fault = .at next.line (.rangeOver value.typeName) ∨
          rangeItems? value = some [] ∧
            (walkOption env dot otherwise).on next = (.error fault, frame') ∨
          ∃ done key item left last, rangeItems? value = some (done ++ (key, item) :: left) ∧
            (forEach (rangeRound env frame.vars.length pipe body) done).on next = (.ok (), last) ∧
            (rangeRound env frame.vars.length pipe body key item).on last
              = (.error fault, frame')) := by
  rw [walkNode_range] at h
  rcases on_bind_error h with hline | ⟨⟨⟩, frame₁, hline, h⟩
  · cases hline
  cases hline
  rcases on_bind_error h with hmark | ⟨mark, frame₁, hmark, h⟩
  · cases hmark
  cases hmark
  rcases on_bind_error h with heval | ⟨value, next, heval, h⟩
  · exact .inl heval
  refine .inr ⟨value, next, heval, ?_⟩
  cases hitems : rangeItems? value with
  | none =>
      simp only [hitems] at h
      cases h
      exact .inl ⟨rfl, rfl⟩
  | some items =>
      cases items with
      | nil =>
          simp only [hitems] at h
          exact .inr (.inl ⟨rfl, h⟩)
      | cons e items =>
          simp only [hitems] at h
          -- Leaving the range behind the last round cannot fail.
          rcases on_bind_error h with hloop | ⟨⟨⟩, frame₂, -, hkeep⟩
          · obtain ⟨done, key, item, left, last, hsplit, hdone, hround⟩ := forEach_error hloop
            exact .inr (.inr ⟨done, key, item, left, last, congrArg some hsplit, hdone, hround⟩)
          · cases hkeep

mutual

/-- **An execution of a node that fails comes to a point at which the next node fails on its
own.** -/
theorem walkNode_fails {known : Known} {types types' : KnownVariables} {dot : Value}
    {frame frame' : Frame σ} {node : Node}
    (hcheck : (checkNode dest known node).run types = .ok ((), types'))
    (h : (walkNode env dot node).on frame = (.error fault, frame')) (rest : List Node) :
    ∃ point, Point.Reaches env dest ⟨known, types, dot, frame, node :: rest⟩ point ∧
      point.Fails env fault := by
  match node with
  | .text s => exact ⟨_, .refl, .text h⟩
  | .action line pipe => exact ⟨_, .refl, .action h⟩
  | .block kind line pipe body otherwise =>
    obtain ⟨inner, inside, behind, last, hheader, hbody, hoption⟩ := run_checkNode_block hcheck
    by_cases hrange : kind = .range
    · subst hrange
      rcases walkRange_error h with heval | ⟨value, next, heval, ⟨hitems, rfl⟩ | ⟨hitems, h⟩ |
        ⟨done, key, item, left, next', hitems, hdone, hround⟩⟩
      · exact ⟨_, .refl, .range heval⟩
      · exact ⟨_, .refl, .items heval hitems⟩
      · match otherwise with
        | none => cases h
        | some nodes =>
          obtain ⟨point, hreaches, hfails⟩ := walkNodes_fails hoption h
          exact ⟨point, .head (.empty hheader hbody heval hitems) hreaches, hfails⟩
      · -- A round binds the variables of the header, and then executes the body.
        rw [rangeRound, ← bind_assoc] at hround
        rcases on_bind_error hround with hbind | ⟨⟨⟩, bound, hbind, hnodes⟩
        · exact ⟨_, .refl, .round heval hitems hdone hbind⟩
        · obtain ⟨point, hreaches, hfails⟩ := walkNodes_fails hbody hnodes
          exact ⟨point, .head (.round hheader heval hitems hdone hbind) hreaches, hfails⟩
    · rcases walkBlock_error hrange h with heval | ⟨value, next, heval, frame'', ⟨htruthy, h⟩ |
        ⟨htruthy, h⟩⟩
      · exact ⟨_, .refl, .header hrange heval⟩
      · obtain ⟨point, hreaches, hfails⟩ := walkNodes_fails hbody h
        exact ⟨point, .head (.body hrange hheader heval htruthy) hreaches, hfails⟩
      · match otherwise with
        | none => cases h
        | some nodes =>
          obtain ⟨point, hreaches, hfails⟩ := walkNodes_fails hoption h
          exact ⟨point, .head (.otherwise hrange hheader hbody heval htruthy) hreaches, hfails⟩

/-- **An execution of nodes that fails comes to a point at which the next node fails on its
own.** -/
theorem walkNodes_fails {known : Known} {types types' : KnownVariables} {dot : Value}
    {frame frame' : Frame σ} {nodes : List Node}
    (hcheck : (checkNodes dest known nodes).run types = .ok ((), types'))
    (h : (walkNodes env dot nodes).on frame = (.error fault, frame')) :
    ∃ point, Point.Reaches env dest ⟨known, types, dot, frame, nodes⟩ point ∧
      point.Fails env fault := by
  match nodes with
  | [] => cases h
  | node :: rest =>
    obtain ⟨between, hnode, hrest⟩ := run_checkNodes_cons hcheck
    rw [walkNodes] at h
    rcases on_bind_error h with hfirst | ⟨⟨⟩, next, hfirst, hlater⟩
    · exact walkNode_fails hnode hfirst rest
    · obtain ⟨point, hreaches, hfails⟩ := walkNodes_fails hrest hlater
      exact ⟨point, .head (.next hnode hfirst) hreaches, hfails⟩

end

end Failures

end SqlTemplate
