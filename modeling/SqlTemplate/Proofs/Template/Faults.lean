import Mathlib
import SqlTemplate.Template.Block

/-!
# Faults of blocks and faults of pipelines

A source is refused either because its blocks do not fit together or because of something inside an
action. The two kinds of faults come from different readers: what reads a pipeline knows nothing of
blocks, so it never finds a fault of theirs.
-/

set_option autoImplicit false

namespace SqlTemplate

/-! ## Failures with a property -/

/-- Whether every failure that a result can be has a property. -/
def FailsWith {ε α : Type} (P : ε → Prop) (result : Except ε α) : Prop :=
  ∀ e, result = .error e → P e

namespace FailsWith

variable {ε ε' α β : Type} {P : ε → Prop} {result : Except ε α}

@[simp] theorem ok (a : α) : FailsWith P (.ok a) := fun _ h => nomatch h

@[simp] theorem error {e : ε} : FailsWith P (.error e : Except ε α) ↔ P e :=
  ⟨fun h => h e rfl, fun h e' he => by cases he; exact h⟩

theorem map {f : α → β} (h : FailsWith P result) : FailsWith P (result.map f) := by
  cases result with
  | ok a => exact ok (f a)
  | error e => exact error.mpr (error.mp h)

theorem bind {next : α → Except ε β} (h : FailsWith P result) (hnext : ∀ a, FailsWith P (next a)) :
    FailsWith P (result >>= next) := by
  cases result with
  | ok a => exact hnext a
  | error e => exact error.mpr (error.mp h)

theorem mapError {Q : ε' → Prop} {f : ε → ε'} (h : FailsWith P result) (hf : ∀ e, P e → Q (f e)) :
    FailsWith Q (result.mapError f) := by
  cases result with
  | ok a => exact ok a
  | error e => exact error.mpr (hf e (error.mp h))

end FailsWith

/-! ## Faults of blocks -/

/-- Whether the blocks of a source do not fit together: an end is missing, an end or an else stands
where none can be, or has other tokens behind it. -/
def ParseFault.isStructural : ParseFault → Bool
  | .unterminatedBlock _ => true
  | .unexpectedEnd => true
  | .unexpectedElse => true
  | .expectedEnd => true
  | .tokensAfterEnd => true
  | .tokensAfterElse => true
  | _ => false

/-- Whether a result is a failure only because of something inside an action. -/
abbrev FailsInside {α : Type} (result : Except ParseFault α) : Prop :=
  FailsWith (fun fault => fault.isStructural = false) result

/-! ## Operands and commands -/

section Operands

variable (names : Names)

theorem Names.requireVariable_failsInside (x : String) : FailsInside (names.requireVariable x) := by
  rw [requireVariable]
  split
  · exact FailsWith.ok _
  · exact FailsWith.error.mpr rfl

theorem Names.requireFunction_failsInside (f : String) : FailsInside (names.requireFunction f) := by
  rw [requireFunction]
  split
  · exact FailsWith.error.mpr rfl
  split
  · exact FailsWith.ok _
  · exact FailsWith.error.mpr rfl

theorem Names.word_failsInside (name : String) : FailsInside (names.word name) := by
  rw [word]
  split
  · exact FailsWith.ok _
  split
  · exact FailsWith.ok _
  split
  · exact FailsWith.ok _
  split
  · exact FailsWith.error.mpr rfl
  · exact (names.requireFunction_failsInside name).map

theorem Names.leaf_failsInside (lexeme : Lexeme) : FailsInside (names.leaf lexeme) := by
  match lexeme with
  | .variable x => exact (names.requireVariable_failsInside x).map
  | .name word => exact names.word_failsInside word
  | .dot | .field _ | .text _ | .int _ | .float _ => exact FailsWith.ok _
  | .leftParen | .rightParen | .comma | .pipe | .declare | .assign =>
    exact FailsWith.error.mpr rfl

theorem Operand.withField_failsInside (name : String) (a : Operand) :
    FailsInside (a.withField name) := by
  match a with
  | .field _ | .variable _ _ | .chain _ _ | .function _ | .pipe _ _ _ => exact FailsWith.ok _
  | .dot | .nil | .bool _ | .int _ | .float _ | .text _ => exact FailsWith.error.mpr rfl

theorem extendLast_failsInside (name : String) (operands : List Operand) :
    FailsInside (extendLast name operands) := by
  induction operands with
  | nil => exact FailsWith.ok _
  | cons a rest ih =>
      cases rest with
      | nil => exact (a.withField_failsInside name).map
      | cons b rest => exact ih.map

theorem closeCommand_failsInside (operands : List Operand) :
    FailsInside (closeCommand operands) := by
  match operands with
  | [] => exact FailsWith.error.mpr rfl
  | [a] =>
    rw [closeCommand]
    split
    · exact FailsWith.error.mpr rfl
    · exact FailsWith.ok _
  | a :: b :: rest =>
    rw [closeCommand]
    split
    · exact FailsWith.ok _
    · exact FailsWith.error.mpr rfl

theorem Binding.check_failsInside (context : PipelineContext) (b : Binding) :
    FailsInside (b.check context) := by
  rw [check]
  split
  · exact FailsWith.error.mpr rfl
  split
  · exact FailsWith.error.mpr rfl
  · exact FailsWith.ok _

mutual

theorem readOperand_failsInside (tree : TokenTree) : FailsInside (readOperand names tree) := by
  match tree with
  | .leaf t => exact names.leaf_failsInside t.lexeme
  | .group _ inner _ =>
    have hcommands : FailsInside (if inner.isEmpty then
        Except.error (ParseFault.missingValue .parentheses) else do
          let commands ← readCommands names [] inner
          .ok (Operand.pipe [] false commands)) := by
      split
      · exact FailsWith.error.mpr rfl
      · exact (readCommands_failsInside [] inner).bind fun _ => FailsWith.ok _
    rw [readOperand]
    split
    · exact (Binding.check_failsInside _ _).bind fun _ => hcommands
    · exact hcommands

theorem readCommands_failsInside (current : List Operand) (trees : List TokenTree) :
    FailsInside (readCommands names current trees) := by
  match trees with
  | [] => exact (closeCommand_failsInside current).map
  | tree :: rest =>
    rw [readCommands]
    split
    · refine (closeCommand_failsInside current).bind fun _ => ?_
      exact (readCommands_failsInside [] rest).bind fun _ => FailsWith.ok _
    split
    · exact (readOperand_failsInside tree).bind fun _ => readCommands_failsInside _ rest
    split
    · exact (extendLast_failsInside _ current).bind fun _ => readCommands_failsInside _ rest
    split
    · exact FailsWith.error.mpr rfl
    · exact (readOperand_failsInside tree).bind fun _ => readCommands_failsInside _ rest

end

/-! ## Pipelines -/

theorem Names.requireVariables_failsInside (vars : List String) :
    FailsInside (vars.forM names.requireVariable) := by
  induction vars with
  | nil => exact FailsWith.ok _
  | cons x rest ih => exact (names.requireVariable_failsInside x).bind fun _ => ih

theorem Pipeline.ofCommands_failsInside (context : PipelineContext) (declared : List String)
    (assigns : Bool) (trees : List TokenTree) :
    FailsInside (ofCommands names context declared assigns trees) := by
  rw [ofCommands]
  split
  · exact FailsWith.error.mpr rfl
  · exact (readCommands_failsInside names [] trees).map

/-- **A pipeline is refused because of something inside its action.** -/
theorem Pipeline.ofTokens_failsInside (context : PipelineContext) (tokens : List Token) :
    FailsInside (ofTokens names context tokens) := by
  rw [ofTokens, ofTrees]
  split
  · exact ofCommands_failsInside names context [] false _
  · rename_i b _
    have hcommands := ofCommands_failsInside names context b.vars b.assigns b.rest
    refine (b.check_failsInside context).bind fun _ => ?_
    split
    · exact (names.requireVariables_failsInside b.vars).bind fun _ => hcommands
    · exact hcommands

end Operands

end SqlTemplate
