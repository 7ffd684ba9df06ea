import Mathlib
import SqlTemplate.Proofs.Statement.Pieces
import SqlTemplate.Proofs.Statement.Spacing
import SqlTemplate.Proofs.Template.Derivation

/-!
# Literal text

Literal text goes into a statement without being bound, but not always as it is: it passes through
the same narrowing of blanks as everything else. It stands at the place where it is printed with its
runs of blanks narrowed, and it stands there unchanged just if its blanks are single spaces that
find something on either side (`Template.raw_stands`). So a text in quotes inside it may become
another one (`Template.raw_altered`).
-/

set_option autoImplicit false

namespace SqlTemplate

/-- The text of pieces, cut at one of them. -/
theorem Piece.renderAll_split (p : Placeholder) (before after : List Piece) (piece : Piece) :
    renderAll p 0 (before ++ piece :: after) =
      renderAll p 0 before ++ piece.render p (before.flatMap values).length ++
        renderAll p ((before ++ [piece]).flatMap values).length after := by
  rw [← List.singleton_append, ← List.append_assoc, renderAll_append, renderAll_append]
  simp [renderAll]

/-- **What becomes of literal text.** However the execution of a marked template ends, literal text
that it prints stands in the text of the statement, between what was printed before it and what was
printed behind it, with its blanks narrowed. It stands there as it is just if its blanks are spaces,
of which no two stand side by side, and if it neither begins with one where there is nothing before
it but blanks, nor ends with one where nothing but blanks comes behind it. -/
theorem Template.raw_stands {name source : String} {isFunction : String → Bool}
    {globals : List String} {t : Template} (h : parse name source isFunction globals = .ok t)
    (functions : Functions) (placeholder : Placeholder) (policy : MissingKey) (params : Value)
    (vars : List (String × Value)) {before after : List Piece} {sql : String}
    (hprinted : (t.record functions policy params vars).2 = before ++ .raw sql :: after) :
    let front := Piece.renderAll placeholder 0 before
    let behind := Piece.renderAll placeholder (before.flatMap Piece.values).length after
    let rendered := Rendering.run ⟨t.mark, functions, placeholder, policy⟩ params vars .empty
    let text := rendered.2.text.text
    StandsIn (normalize sql).toList front.toList behind.toList text.toList ∧
      (StandsIn sql.toList front.toList behind.toList text.toList ↔
        EvenlySpaced sql.toList ∧ (startsBlank sql.toList = true → solids front.toList ≠ []) ∧
          (endsBlank sql.toList = true → solids behind.toList ≠ [])) := by
  intro front behind rendered text
  have hrendered : rendered.2 = .ofPieces placeholder (t.record functions policy params vars).2 :=
    congrArg Prod.snd (run_eq_record h functions placeholder policy params vars)
  have hpieces : Piece.renderAll placeholder 0 (t.record functions policy params vars).2 =
      front ++ sql ++ behind := by
    rw [hprinted, Piece.renderAll_split]
    simp [Piece.render, Piece.values, front, behind]
  have hnormal : text = normalize (front ++ sql ++ behind) := by
    rw [← hpieces]
    exact congrArg (fun made => made.text.text) hrendered
  have htext : text.toList = narrowed (front.toList ++ sql.toList ++ behind.toList) := by
    rw [hnormal, ← narrowed_toList, String.toList_append, String.toList_append]
  rw [htext, ← narrowed_toList]
  exact ⟨narrowed_stands _ _ _, stands_iff⟩

/-- The template that prints a text of its parameters literally. -/
def rawTemplate : Template :=
  ⟨"raw", [.text "SELECT ", .action 1 ⟨[], false, [[.function "Raw", .field ["sql"]]]⟩]⟩

theorem parse_rawTemplate :
    Template.parse "raw" ("SELECT " ++ braced "Raw .sql") (· == "Raw") [] = .ok rawTemplate := by
  let phrases : List Phrase :=
    [.text "SELECT ", .pipeline 1 [⟨.name "Raw", false⟩, ⟨.field "sql", true⟩]]
  have hwords : Word.ofSource ("SELECT " ++ braced "Raw .sql") = .ok (phrasesWords phrases) := by
    cbv
  have hread : readPhrases (· == "Raw") ["$"] phrases = .ok rawTemplate.root := by
    rfl
  rw [Template.parse, readSource_of_phrases hwords, hread]
  rfl

/-- The space with which literal text begins stays, since there is other text in front of it. -/
theorem Template.raw_stands_spaced :
    let functions : Functions := [("Raw", rawFunction)]
    let params : Value := .map [("sql", .text " NOW()")]
    let rendered := Rendering.run ⟨rawTemplate.mark, functions, .question, .error⟩ params [] .empty
    (rawTemplate.record functions .error params []).2 = [.text "SELECT ", .raw " NOW()"] ∧
      StandsIn " NOW()".toList "SELECT ".toList [] rendered.2.text.text.toList := by
  intro functions params rendered
  have hprinted : (rawTemplate.record functions .error params []).2 =
      [.text "SELECT "] ++ .raw " NOW()" :: [] := by
    rfl
  have hstands := (Template.raw_stands parse_rawTemplate functions .question .error params []
    hprinted).2.mpr ⟨by simp [EvenlySpaced, isBlank], by decide, by decide⟩
  exact ⟨hprinted, hstands⟩

/-- Two blanks in quotes become one, so literal text need not stand in the statement. -/
theorem Template.raw_altered :
    let functions : Functions := [("Raw", rawFunction)]
    let params : Value := .map [("sql", .text "\x27a  b\x27")]
    let rendered := Rendering.run ⟨rawTemplate.mark, functions, .question, .error⟩ params [] .empty
    Template.parse "raw" ("SELECT " ++ braced "Raw .sql") (· == "Raw") [] = .ok rawTemplate ∧
      (rawTemplate.record functions .error params []).2 = [.text "SELECT ", .raw "\x27a  b\x27"] ∧
      rendered.1.isOk = true ∧ rendered.2.text.text = "SELECT \x27a b\x27" ∧
      ¬ "\x27a  b\x27".toList <:+: rendered.2.text.text.toList := by
  intro functions params rendered
  have htext : rendered.2.text.text = "SELECT \x27a b\x27" := by
    decide +kernel
  refine ⟨parse_rawTemplate, rfl, by decide +kernel, htext, ?_⟩
  rw [htext]
  decide

end SqlTemplate
