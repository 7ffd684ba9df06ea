import Mathlib
import SqlTemplate.Proofs.Execution.Invariant
import SqlTemplate.Proofs.Execution.Worlds
import SqlTemplate.Proofs.Template.Reading
import SqlTemplate.Statement.Rendering

/-!
# The pieces of a statement

What a statement consists of is decided by the unmarked template alone: its execution comes to
texts and to printed values, one after the other, and each leaves one piece. The text of the
statement, its arguments and its scans are read off the list of these pieces. In particular a value
that is not a fragment leaves a placeholder in the text and nothing else, and the numbers of the
placeholders are the positions of the arguments.
-/

set_option autoImplicit false

namespace SqlTemplate

/-! ## Pieces -/

/-- What a text of the template or a printed value leaves. -/
inductive Piece
  | text (s : String)
  | raw (sql : String)
  | scanner (sql : String) (dest : DestPath) (mapper : Option Mapper)
  | bound (v : Value)
  | list (items : List Value)

namespace Piece

/-- What a printed value leaves: a fragment what it says, any other value itself. -/
def ofPrinted : Value → Piece
  | .fragment (.raw sql) => .raw sql
  | .fragment (.scanner sql dest mapper) => .scanner sql dest mapper
  | .fragment (.list items) => .list items
  | v => .bound v

theorem ofPrinted_bound {v : Value} (h : ∀ f, v ≠ .fragment f) : ofPrinted v = .bound v := by
  unfold ofPrinted
  split
  · exact absurd rfl (h _)
  · exact absurd rfl (h _)
  · exact absurd rfl (h _)
  · rfl

theorem ofPrinted_ne_text (v : Value) (s : String) : ofPrinted v ≠ .text s := by
  unfold ofPrinted
  split <;> simp

/-- The values that a piece binds. -/
def values : Piece → List Value
  | .bound v => [v]
  | .list items => items
  | _ => []

/-- The scan that a piece registers: the place of the column, and what is done to it before. -/
def scan? : Piece → Option (DestPath × Option Mapper)
  | .scanner _ dest mapper => some (dest, mapper)
  | _ => none

/-- The text of a piece if `count` values were bound before it. -/
def render (p : Placeholder) (count : Nat) : Piece → String
  | .text s => s
  | .raw sql => sql
  | .scanner sql _ _ => sql
  | .bound _ => p.render (count + 1)
  | .list items =>
    "(" ++ ", ".intercalate ((List.range' (count + 1) items.length).map p.render) ++ ")"

/-- The text of pieces if `count` values were bound before them. -/
def renderAll (p : Placeholder) : Nat → List Piece → String
  | _, [] => ""
  | count, piece :: rest =>
    piece.render p count ++ renderAll p (count + piece.values.length) rest

theorem renderAll_append (p : Placeholder) (count : Nat) (pieces others : List Piece) :
    renderAll p count (pieces ++ others) =
      renderAll p count pieces ++ renderAll p (count + (pieces.flatMap values).length) others := by
  induction pieces generalizing count with
  | nil => simp [renderAll]
  | cons piece rest ih =>
      simp [renderAll, ih, String.append_assoc, Nat.add_assoc]

end Piece

namespace Spacing

theorem write_append (s : Spacing) (a b : String) : s.write (a ++ b) = (s.write a).write b := by
  simp [write, String.toList_append]

end Spacing

namespace Rendering

/-! ## What pieces make -/

/-- The rendering that pieces make. -/
def ofPieces (p : Placeholder) (pieces : List Piece) : Rendering where
  text := Spacing.empty.write (Piece.renderAll p 0 pieces)
  args := pieces.flatMap Piece.values
  dests := (pieces.filterMap Piece.scan?).map (·.1)
  mappers := (pieces.filterMap Piece.scan?).map (·.2)

theorem ofPieces_text (p : Placeholder) (pieces : List Piece) (s : String) :
    ofPieces p (pieces ++ [.text s]) = (ofPieces p pieces).write s := by
  simp [ofPieces, write, Piece.renderAll_append, Piece.renderAll, Piece.render, Piece.values,
    Piece.scan?, Spacing.write_append]

/-- Binding values one after the other appends them to the arguments and leaves their
placeholders. -/
theorem bindList_eq (p : Placeholder) (r : Rendering) (items : List Value) :
    r.bindList p items = ({ r with args := r.args ++ items },
      (List.range' (r.args.length + 1) items.length).map p.render) := by
  induction items generalizing r with
  | nil => simp [bindList]
  | cons v rest ih =>
      simp [bindList, bind, ih, List.range'_succ]

theorem intercept_bound (p : Placeholder) (r : Rendering) {v : Value}
    (h : ∀ f, v ≠ .fragment f) : r.intercept p v = r.bind p v := by
  unfold intercept
  split
  · exact absurd rfl (h _)
  · exact absurd rfl (h _)
  · exact absurd rfl (h _)
  · rfl

/-- Intercepting a value and writing what it leaves appends its piece. -/
theorem ofPieces_printed (p : Placeholder) (pieces : List Piece) (v : Value) :
    ofPieces p (pieces ++ [.ofPrinted v]) =
      ((ofPieces p pieces).intercept p v).1.write ((ofPieces p pieces).intercept p v).2 := by
  -- A fragment leaves what it says, and any other value is bound.
  by_cases h : ∃ f, v = .fragment f
  · obtain ⟨f, rfl⟩ := h
    cases f with
    | raw sql =>
        simp [ofPieces, Piece.ofPrinted, intercept, write, Piece.renderAll_append,
          Piece.renderAll, Piece.render, Piece.values, Piece.scan?, Spacing.write_append]
    | scanner sql dest mapper =>
        simp [ofPieces, Piece.ofPrinted, intercept, write, Piece.renderAll_append,
          Piece.renderAll, Piece.render, Piece.values, Piece.scan?, Spacing.write_append]
    | list items =>
        rw [intercept, bindList_eq]
        simp [ofPieces, Piece.ofPrinted, write, Piece.renderAll_append, Piece.renderAll,
          Piece.render, Piece.values, Piece.scan?, Spacing.write_append]
  · have hbound : ∀ f, v ≠ .fragment f := fun f hf => h ⟨f, hf⟩
    rw [intercept_bound p _ hbound, Piece.ofPrinted_bound hbound]
    simp [ofPieces, bind, write, Piece.renderAll_append, Piece.renderAll, Piece.render,
      Piece.values, Piece.scan?, Spacing.write_append]

end Rendering

/-! ## Recording pieces -/

/-- Answers a call as statements do; there is no marker. -/
def Functions.answer (functions : Functions) (name : String) (args : List Value) :
    Except Cause Value :=
  if name = destName then
    if args.isEmpty then .ok (.dest .root) else .error (.call .destArguments)
  else
    match functions.get? name with
    | some f => f args
    | none => .error (.call (.undefined name))

/-- The world that keeps the pieces of what it takes. -/
def recorder (functions : Functions) : World (List Piece) where
  call name args pieces := (functions.answer name args, pieces)
  literal s pieces := some (pieces ++ [.text s])
  print v pieces := some (pieces ++ [.ofPrinted v])

/-- Executes a template and keeps the pieces that it leaves. -/
def Template.record (t : Template) (functions : Functions) (policy : MissingKey) (params : Value)
    (vars : List (String × Value)) : Except EvalError Unit × List Piece :=
  t.execute (recorder functions) policy params vars []

theorem Rendering.call_marker (recipe : Recipe) (v : Value) (r : Rendering) :
    Rendering.call recipe markerName [v] r =
      (.ok (.text (r.intercept recipe.placeholder v).2), (r.intercept recipe.placeholder v).1) :=
  rfl

theorem Rendering.call_function (recipe : Recipe) {name : String} (h : name ≠ markerName)
    (args : List Value) (r : Rendering) :
    Rendering.call recipe name args r = (recipe.functions.answer name args, r) := by
  unfold call
  rw [if_neg h, Functions.answer]
  by_cases hd : name = destName
  · rw [if_pos hd, if_pos hd]
    cases args <;> rfl
  · rw [if_neg hd, if_neg hd]
    cases recipe.functions.get? name <;> rfl

/-- Rendering a marked template follows the recording of the template: what has been made is what
the pieces make. -/
theorem Rendering.printsThrough (recipe : Recipe) (policy : MissingKey) (params : Value)
    {Called : String → Prop} (hmarker : ¬ Called markerName) :
    PrintsThrough (fun r pieces => r = ofPieces recipe.placeholder pieces) Called
      ⟨Rendering.world recipe, policy, params⟩ ⟨recorder recipe.functions, policy, params⟩ where
  policy := rfl
  root := rfl
  marker := hmarker
  call name args r pieces hname _ hr := by
    have hne : name ≠ markerName := fun h => hmarker (h ▸ hname)
    show (Rendering.call recipe name args r).1 = recipe.functions.answer name args ∧ _
    refine ⟨?_, ?_⟩
    · rw [call_function recipe hne]
    · show (Rendering.call recipe name args r).2 = _
      rw [call_function recipe hne]
      exact hr
  literal s := by
    refine Exec.Agree.literal fun r pieces hr => ⟨_, _, rfl, rfl, ?_⟩
    rw [ofPieces_text, ← hr]
  print v := by
    refine Exec.Agree.printCall fun r pieces hr =>
      ⟨_, _, _, _, call_marker recipe v r, rfl, rfl, ?_⟩
    rw [ofPieces_printed, ← hr]
    rfl

section Runs

variable {t : Template} {isFunction : String → Bool} {globals : List String} {name source : String}

/-- The marker is no function of a template that was read. -/
theorem Template.parse_unmarked (h : Template.parse name source isFunction globals = .ok t) :
    ¬ t.Calls markerName := by
  intro hmarker
  have hreserved : isReserved markerName = true := by decide
  rw [Template.parse_calls_unreserved h hmarker] at hreserved
  cases hreserved

theorem Template.parse_followed {σ τ : Type} (h : parse name source isFunction globals = .ok t)
    (R : σ → τ → Prop) (env : Env σ) (env' : Env τ) :
    ∀ p ∈ nodesPipelines t.root, p.Followed R t.Calls env env' := fun p hp =>
  ⟨fun _ hf => ⟨p, hp, hf⟩, fun hempty => absurd hempty (Template.parse_commands h hp)⟩

/-- A run of the marked template comes to the result of the recording and to what its pieces
make. -/
theorem Template.run_eq_record (h : parse name source isFunction globals = .ok t)
    (functions : Functions) (placeholder : Placeholder) (policy : MissingKey) (params : Value)
    (vars : List (String × Value)) :
    Rendering.run ⟨t.mark, functions, placeholder, policy⟩ params vars .empty =
      ((t.record functions policy params vars).1,
        .ofPieces placeholder (t.record functions policy params vars).2) := by
  have henv := Rendering.printsThrough ⟨t.mark, functions, placeholder, policy⟩ policy params
    (parse_unmarked h)
  -- What has been made and the pieces are related at the start, so they are at the end.
  have hrun := t.execute_mark_agree henv (parse_followed h _ _ _) vars
    (show Rendering.empty = .ofPieces placeholder [] from rfl)
  exact Prod.ext hrun.1 hrun.2

end Runs

/-- What holds of the texts of a template and of what printed values leave holds of all pieces that
are recorded. -/
theorem Template.record_pieces {t : Template} {functions : Functions} {policy : MissingKey}
    {params : Value} {vars : List (String × Value)} {V : Value → Prop} {Good : Piece → Prop}
    (hV : ValueClosed V) (hparams : V params) (hvars : ∀ e ∈ vars, V e.2)
    (hanswers : ∀ f args v, t.Calls f → Builtin.ofName? f = none → (∀ a ∈ args, V a) →
      functions.answer f args = .ok v → V v)
    (htexts : ∀ s ∈ nodesTexts t.root, Good (.text s)) (hprinted : ∀ v, V v → Good (.ofPrinted v)) :
    ∀ piece ∈ (t.record functions policy params vars).2, Good piece := by
  -- The recorder puts one piece behind the others in every step.
  have happend : ∀ {pieces : List Piece} {piece : Piece}, (∀ a ∈ pieces, Good a) → Good piece →
      ∀ a ∈ pieces ++ [piece], Good a := by
    intro pieces piece hpieces hpiece
    simpa [or_imp, forall_and] using ⟨hpieces, hpiece⟩
  have hworld : WorldKeeps ⟨recorder functions, policy, params⟩ V
      (fun pieces => ∀ piece ∈ pieces, Good piece) t.Calls (· ∈ nodesTexts t.root) := by
    refine ⟨hV, hparams, ?_, ?_, ?_⟩
    · exact fun f args pieces hf hb hargs hpieces =>
        ⟨hpieces, fun v hv => hanswers f args v hf hb hargs hv⟩
    · intro s pieces _ hs hpieces hnext
      cases hnext
      exact happend hpieces (htexts s hs)
    · intro v pieces _ hv hpieces hnext
      cases hnext
      exact happend hpieces (hprinted v hv)
  exact t.execute_keeps hworld hvars (by simp)

/-- The recorded texts are texts of the template. -/
theorem Template.record_texts (t : Template) (functions : Functions) (policy : MissingKey)
    (params : Value) (vars : List (String × Value)) {s : String}
    (h : .text s ∈ (t.record functions policy params vars).2) : s ∈ nodesTexts t.root := by
  have hpieces : ∀ piece ∈ (t.record functions policy params vars).2,
      ∀ s, piece = .text s → s ∈ nodesTexts t.root := by
    refine t.record_pieces ValueClosed.all trivial (by simp) (by simp) ?_ ?_
    · rintro s hs _ ⟨rfl⟩
      exact hs
    · intro v _ s hv
      exact absurd hv (Piece.ofPrinted_ne_text v s)
  exact hpieces _ h s rfl

/-- **The pieces of a statement.** However the execution of a marked template ends, its text is the
normalized text of the pieces that the template alone leaves: the k-th value that they bind stands
there as the k-th placeholder. The arguments are the bound values in this order, and the scans
those of the scanner pieces. No placeholder style has a part in what the pieces are. -/
theorem Template.parse_pieces {name source : String} {isFunction : String → Bool}
    {globals : List String} {t : Template} (h : parse name source isFunction globals = .ok t)
    (functions : Functions) (placeholder : Placeholder) (policy : MissingKey) (params : Value)
    (vars : List (String × Value)) :
    let recorded := t.record functions policy params vars
    let rendered := Rendering.run ⟨t.mark, functions, placeholder, policy⟩ params vars .empty
    rendered.1 = recorded.1 ∧
      rendered.2.text.text = normalize (Piece.renderAll placeholder 0 recorded.2) ∧
      rendered.2.args = recorded.2.flatMap Piece.values ∧
      rendered.2.dests = (recorded.2.filterMap Piece.scan?).map (·.1) ∧
      rendered.2.mappers = (recorded.2.filterMap Piece.scan?).map (·.2) ∧
      rendered.2.dests.length = rendered.2.mappers.length ∧
      ∀ s, .text s ∈ recorded.2 → s ∈ nodesTexts t.root := by
  intro recorded rendered
  have hrendered : rendered = (recorded.1, .ofPieces placeholder recorded.2) :=
    Template.run_eq_record h functions placeholder policy params vars
  rw [hrendered]
  refine ⟨rfl, rfl, rfl, rfl, rfl, ?_, fun s => t.record_texts functions policy params vars⟩
  simp [Rendering.ofPieces]

/-- A bound value and a list of two make the arguments of a statement, in this order. -/
theorem Template.parse_pieces_list :
    let t : Template := ⟨"find", [.text "id = ", .action 1 ⟨[], false, [[.field ["id"]]]⟩,
      .text " AND tag IN ", .action 1 ⟨[], false, [[.field ["tags"]]]⟩]⟩
    let params : Value :=
      .map [("id", .int 7), ("tags", .fragment (.list [.text "a", .text "b"]))]
    let rendered := Rendering.run ⟨t.mark, [], .dollar, .error⟩ params [] .empty
    let source := "id = " ++ braced ".id" ++ " AND tag IN " ++ braced ".tags"
    Template.parse "find" source (fun _ => false) [] = .ok t ∧
      (t.record [] .error params []).2 = [.text "id = ", .bound (.int 7), .text " AND tag IN ",
        .list [.text "a", .text "b"]] ∧
      rendered.2.text.text = "id = $1 AND tag IN ($2, $3)" ∧
      rendered.2.args = [.int 7, .text "a", .text "b"] := by
  intro t params rendered source
  have hparse : Template.parse "find" source (fun _ => false) [] = .ok t := by
    cbv
  have hpieces : (t.record [] .error params []).2 = [.text "id = ", .bound (.int 7),
      .text " AND tag IN ", .list [.text "a", .text "b"]] := by
    cbv
  obtain ⟨-, htext, hargs, -⟩ := Template.parse_pieces hparse [] .dollar .error params []
  rw [hpieces] at htext hargs
  refine ⟨hparse, hpieces, htext.trans ?_, hargs⟩
  cbv

end SqlTemplate
