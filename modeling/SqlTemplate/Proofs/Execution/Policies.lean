import Mathlib
import SqlTemplate.Proofs.Execution.Congruence

/-!
# Policies on missing keys

The policy matters only where a map is asked for a key that it does not have. Under the strict
policy an execution stops there, so one that succeeds has met no such place, and does the same under
every other policy: a strict configuration can be relaxed without a change to any statement that
works (`Template.execute_relaxed`).
-/

set_option autoImplicit false

namespace SqlTemplate

variable {σ α β : Type}

namespace Exec

/-- **Whenever the first step yields a value, the second yields the same and leaves the same
state.** -/
def Refines (m n : Exec σ α) : Prop :=
  ∀ frame a next, m.on frame = (.ok a, next) → n.on frame = (.ok a, next)

namespace Refines

theorem refl (m : Exec σ α) : Refines m m := fun _ _ _ h => h

/-- A step that never yields a value is refined by every step. -/
theorem of_fails {m n : Exec σ α} (h : ∀ frame a, (m.on frame).1 ≠ .ok a) : Refines m n := by
  intro frame a next hm
  exact absurd (congrArg Prod.fst hm) (h frame a)

theorem bind {m n : Exec σ α} {k l : α → Exec σ β} (hm : Refines m n)
    (hk : ∀ a, Refines (k a) (l a)) : Refines (m >>= k) (n >>= l) := by
  intro frame b last h
  rw [on_bind] at h ⊢
  rcases hfirst : m.on frame with ⟨result, next⟩
  rw [hfirst] at h
  cases result with
  | error fault => cases h
  | ok a =>
      rw [hm frame a next hfirst]
      exact hk a next b last h

/-- Fields that are found under the strict policy are found under every policy. -/
theorem fields {env env' : Env σ} (hstrict : env.policy = .error) (names : List String)
    (v : Value) : Refines (Exec.fields env names v) (Exec.fields env' names v) := by
  induction names generalizing v with
  | nil => exact refl _
  | cons name rest ih =>
      cases v with
      | map entries =>
          rw [Exec.fields, Exec.fields]
          cases findEntry name entries with
          | some w => exact ih w
          | none =>
              -- The strict policy stops, whatever the other policy goes on with.
              rw [hstrict]
              refine of_fails fun frame a h => ?_
              cases h
      | dest path => exact refl _
      | nil => exact refl _
      | _ => exact refl _

/-- Two environments that differ in the policy only, which is strict in the first. -/
theorem congruent (world : World σ) (data : Value) (policy : MissingKey) :
    Congruent (fun _ => Refines) ⟨world, .error, data⟩ ⟨world, policy, data⟩ where
  pure a := refl (Pure.pure a)
  bind := bind
  stop reason := refl (Exec.stop reason)
  setLine line := refl (Exec.setLine line)
  mark := refl Exec.mark
  keepVariables count := refl (Exec.keepVariables count)
  bindVariable assigns name value := refl (Exec.bind assigns name value)
  valueOf name := refl (Exec.valueOf ⟨world, .error, data⟩ name)
  fields := fields rfl
  callWorld name args := refl (Exec.callWorld ⟨world, .error, data⟩ name args)
  literal s := refl (Exec.literal ⟨world, .error, data⟩ s)
  print v := refl (Exec.print ⟨world, .error, data⟩ v)

end Refines

end Exec

/-- An execution that succeeds under the strict policy succeeds under every policy, and leaves the
same world. -/
theorem Template.execute_refines (t : Template) (world : World σ) (data : Value)
    (seeds : List (String × Value)) (start : σ) (policy : MissingKey)
    (h : (t.execute world .error data seeds start).1 = .ok ()) :
    t.execute world policy data seeds start = t.execute world .error data seeds start := by
  have hwalk := walkNodes_congruent (Exec.Refines.congruent world data policy) data t.root
    (Frame.start seeds start)
  rw [execute_eq] at h
  rw [execute_eq, execute_eq]
  rcases hstrict : (walkNodes ⟨world, .error, data⟩ data t.root).on (Frame.start seeds start)
    with ⟨result, frame⟩
  rw [hstrict] at h
  cases result with
  | error fault => cases h
  | ok _ => rw [hwalk () frame hstrict]

/-- **A strict policy can be relaxed.** Let an execution succeed under the policy that stops at
missing keys. Under every other policy the execution succeeds too, leaves its world in the same
state, and does the same to it: it calls the same functions with the same arguments, and writes the
same texts and values, in the same order. -/
theorem Template.execute_relaxed (t : Template) (world : World σ) (data : Value)
    (seeds : List (String × Value)) (start : σ) (policy : MissingKey)
    (h : (t.execute world .error data seeds start).1 = .ok ()) :
    (t.execute world policy data seeds start).1 = .ok () ∧
      (t.execute world policy data seeds start).2 = (t.execute world .error data seeds start).2 ∧
      t.interactions world policy data seeds start =
        t.interactions world .error data seeds start := by
  have hplain := t.execute_refines world data seeds start policy h
  -- With a trace the execution succeeds as well, and so its trace is the same.
  have htraced : (t.execute world.traced .error data seeds (start, [])).1 = .ok () := by
    rw [execute_traced]
    exact h
  have htrace := t.execute_refines world.traced data seeds (start, []) policy htraced
  refine ⟨?_, ?_, ?_⟩
  · rw [hplain]
    exact h
  · rw [hplain]
  · rw [interactions, interactions, htrace]

/-- A statement that asks for a key behind a test works under all policies, although the key is
missing in one of the items. -/
theorem Template.execute_relaxed_tested :
    let t : Template := ⟨"t", [.block .range 1 ⟨["$p"], false, [[.field ["people"]]]⟩
      [.block .conditional 1 ⟨[], false, [[.function "and", .field ["known"],
          .variable "$p" ["name"]]]⟩
        [.action 1 ⟨[], false, [[.variable "$p" ["name"]], [.function "next"]]⟩]
        (some [.text "?"])] none]⟩
    let data : Value := .map [("people", .list [
      .map [("known", .bool true), ("name", .text "ann")], .map [("known", .bool false)]])]
    let world : World Nat := ⟨fun _ _ n => (.ok (.int (.ofNat n)), n + 1), fun _ n => some n,
      fun _ n => some n⟩
    (t.execute world .error data [] 0).1 = .ok () ∧
      (t.execute world .zero data [] 0).1 = .ok () ∧
      t.interactions world .zero data [] 0 =
        [.call "next" [.text "ann"], .print (.int 0), .literal "?"] := by
  intro t data world
  have hstrict : (t.execute world .error data [] 0).1 = .ok () := by rfl
  obtain ⟨hrelaxed, -, htrace⟩ := t.execute_relaxed world data [] 0 .zero hstrict
  exact ⟨hstrict, hrelaxed, htrace.trans (by rfl)⟩

end SqlTemplate
