import Mathlib
import SqlTemplate.Proofs.Statement.Pieces

/-!
# Values do not reach the text

A template that calls only the functions every template has cannot make a fragment, so every value
that it prints is bound. Then the text of the statement depends on the texts and the number of
outputs that the execution came to, and on nothing else: two executions that come to the same ones
make the same text, whatever the values are.
-/

set_option autoImplicit false

namespace SqlTemplate

/-! ## Values without fragments -/

mutual

/-- Whether a value has no fragment inside, at any depth. -/
def Value.fragmentFree : Value → Bool
  | .fragment _ => false
  | .list items => itemsFragmentFree items
  | .map entries => entriesFragmentFree entries
  | _ => true

/-- Whether no item has a fragment inside. -/
def itemsFragmentFree : List Value → Bool
  | [] => true
  | v :: rest => v.fragmentFree && itemsFragmentFree rest

/-- Whether no entry has a fragment inside. -/
def entriesFragmentFree : List (String × Value) → Bool
  | [] => true
  | (_, v) :: rest => v.fragmentFree && entriesFragmentFree rest

end

theorem itemsFragmentFree_iff {items : List Value} :
    itemsFragmentFree items = true ↔ ∀ v ∈ items, v.fragmentFree = true := by
  induction items with
  | nil => simp [itemsFragmentFree]
  | cons v rest ih => simp [itemsFragmentFree, ih]

theorem entriesFragmentFree_iff {entries : Entries} :
    entriesFragmentFree entries = true ↔ ∀ e ∈ entries, e.2.fragmentFree = true := by
  induction entries with
  | nil => simp [entriesFragmentFree]
  | cons e rest ih => simp [entriesFragmentFree, ih]

/-- Nothing that a template makes of values brings a fragment in. -/
theorem ValueClosed.fragmentFree : ValueClosed fun v => v.fragmentFree = true where
  nil := rfl
  bool _ := rfl
  int _ := rfl
  float _ := rfl
  text _ := rfl
  dest _ := rfl
  zero v := by cases v <;> rfl
  item _ h := itemsFragmentFree_iff.mp h
  entry _ h := entriesFragmentFree_iff.mp h

/-! ## What an execution comes to -/

/-- A step by which an execution writes: a text of the template, or an output. -/
inductive OutputStep
  | text (s : String)
  | output
deriving Repr, DecidableEq

/-- A world with a log of what it takes. -/
def logged {σ : Type} (world : World σ) : World (σ × List OutputStep) where
  call name args state :=
    ((world.call name args state.1).1, (world.call name args state.1).2, state.2)
  literal s state := (world.literal s state.1).map (·, state.2 ++ [.text s])
  print v state := (world.print v state.1).map (·, state.2 ++ [.output])

/-- The texts and outputs that a run comes to, in their order. -/
def Rendering.steps (recipe : Recipe) (params : Value) (vars : List (String × Value)) :
    List OutputStep :=
  (recipe.template.execute (logged (world recipe)) recipe.policy params vars (.empty, [])).2.2

/-- The step that leaves a piece. -/
def Piece.step : Piece → OutputStep
  | .text s => .text s
  | _ => .output

theorem Piece.step_ofPrinted (v : Value) : (ofPrinted v).step = .output := by
  unfold ofPrinted
  split <;> rfl

/-- The log of a run tells the pieces apart as texts and outputs. -/
theorem Rendering.logged_printsThrough (recipe : Recipe) (policy : MissingKey) (params : Value)
    {Called : String → Prop} (hmarker : ¬ Called markerName) :
    PrintsThrough (fun state pieces => state.1 = ofPieces recipe.placeholder pieces ∧
        state.2 = pieces.map Piece.step) Called
      ⟨logged (world recipe), policy, params⟩ ⟨recorder recipe.functions, policy, params⟩ := by
  have hplain := Rendering.printsThrough recipe policy params hmarker
  refine ⟨⟨rfl, rfl, ?_⟩, hmarker, ?_, ?_⟩
  · intro name args state pieces hname hb hstate
    have hcall := hplain.call name args state.1 pieces hname hb hstate.1
    exact ⟨hcall.1, hcall.2, hstate.2⟩
  · intro s
    refine Exec.Agree.literal fun state pieces hstate => ⟨_, _, rfl, rfl, ?_, ?_⟩
    · rw [ofPieces_text, ← hstate.1]
    · simp [hstate.2, Piece.step]
  · intro v
    refine Exec.Agree.printCall fun state pieces hstate => ?_
    let next := state.1.intercept recipe.placeholder v
    refine ⟨.text next.2, (next.1, state.2), (next.1.write next.2, state.2 ++ [.output]),
      pieces ++ [.ofPrinted v], rfl, rfl, rfl, ?_, ?_⟩
    · rw [ofPieces_printed, ← hstate.1]
    · simp [hstate.2, Piece.step_ofPrinted]

/-- Keeping a log does not change a run: the log is that of the recorded pieces. -/
theorem Template.steps_eq_record {name source : String} {isFunction : String → Bool}
    {globals : List String} {t : Template} (h : parse name source isFunction globals = .ok t)
    (functions : Functions) (placeholder : Placeholder) (policy : MissingKey) (params : Value)
    (vars : List (String × Value)) :
    Rendering.steps ⟨t.mark, functions, placeholder, policy⟩ params vars =
      (t.record functions policy params vars).2.map Piece.step := by
  have henv := Rendering.logged_printsThrough ⟨t.mark, functions, placeholder, policy⟩ policy params
    (Template.parse_unmarked h)
  have hrun := t.execute_mark_agree henv (Template.parse_followed h _ _ _) vars
    (show (Rendering.empty, ([] : List OutputStep)).1 = .ofPieces placeholder [] ∧ _ from ⟨rfl, rfl⟩)
  exact hrun.2.2

/-! ## Two executions -/

/-- Whether a piece is a text of the template or a bound value. -/
def Piece.IsPlain : Piece → Prop
  | .text _ => True
  | .bound _ => True
  | _ => False

namespace Piece

theorem IsPlain.eq {piece : Piece} (h : piece.IsPlain) :
    (∃ s, piece = .text s) ∨ ∃ v, piece = .bound v := by
  cases piece with
  | text s => exact .inl ⟨s, rfl⟩
  | bound v => exact .inr ⟨v, rfl⟩
  | _ => cases h

/-- A plain piece leaves what its step tells. -/
theorem IsPlain.render_eq {a b : Piece} (ha : a.IsPlain) (hb : b.IsPlain) (h : a.step = b.step)
    (p : Placeholder) (count : Nat) :
    a.render p count = b.render p count ∧ a.values.length = b.values.length := by
  rcases ha.eq with ⟨s, rfl⟩ | ⟨v, rfl⟩ <;> rcases hb.eq with ⟨s', rfl⟩ | ⟨v', rfl⟩
  · cases h
    exact ⟨rfl, rfl⟩
  · cases h
  · cases h
  · exact ⟨rfl, rfl⟩

/-- Of plain pieces only the steps show in the text. -/
theorem renderAll_eq_of_steps (p : Placeholder) (count : Nat) {pieces others : List Piece}
    (hpieces : ∀ piece ∈ pieces, piece.IsPlain) (hothers : ∀ piece ∈ others, piece.IsPlain)
    (hsteps : pieces.map step = others.map step) :
    renderAll p count pieces = renderAll p count others ∧
      (pieces.flatMap values).length = (others.flatMap values).length := by
  induction pieces generalizing others count with
  | nil =>
      cases others with
      | nil => exact ⟨rfl, rfl⟩
      | cons b others => cases hsteps
  | cons a pieces ih =>
      cases others with
      | nil => cases hsteps
      | cons b others =>
          rw [List.map_cons, List.map_cons, List.cons.injEq] at hsteps
          rw [List.forall_mem_cons] at hpieces hothers
          have hhead := hpieces.1.render_eq hothers.1 hsteps.1 p count
          obtain ⟨htext, hvalues⟩ := ih (count + a.values.length) hpieces.2 hothers.2 hsteps.2
          refine ⟨?_, ?_⟩
          · rw [renderAll, renderAll, hhead.1, ← hhead.2, htext]
          · rw [List.flatMap_cons, List.flatMap_cons, List.length_append, List.length_append,
              hhead.2, hvalues]

theorem scans_eq_nil {pieces : List Piece} (h : ∀ piece ∈ pieces, piece.IsPlain) :
    pieces.filterMap scan? = [] := by
  rw [List.filterMap_eq_nil_iff]
  intro piece hpiece
  rcases (h piece hpiece).eq with ⟨s, rfl⟩ | ⟨v, rfl⟩ <;> rfl

theorem ofPrinted_isPlain {v : Value} (h : v.fragmentFree = true) : (ofPrinted v).IsPlain := by
  rw [ofPrinted_bound]
  · trivial
  · rintro f rfl
    cases h

end Piece

/-- Without functions of the host, all pieces are plain if the values have no fragments inside. -/
theorem Template.record_isPlain {t : Template} (hcalls : ∀ f, t.Calls f → Builtin.isName f = true)
    (functions : Functions) (policy : MissingKey) {params : Value} {vars : List (String × Value)}
    (hparams : params.fragmentFree = true) (hvars : ∀ e ∈ vars, e.2.fragmentFree = true) :
    ∀ piece ∈ (t.record functions policy params vars).2, piece.IsPlain := by
  refine t.record_pieces ValueClosed.fragmentFree hparams hvars ?_ (fun _ _ => trivial)
    (fun v => Piece.ofPrinted_isPlain)
  intro f _ _ hf hb
  have := hcalls f hf
  rw [Builtin.isName, hb] at this
  cases this

/-- **Values do not reach the text.** Let a template call only the functions that every template
has. Two executions of its marked form on values without fragments that come to the same texts and
outputs make the same text and equally many arguments, and register no scan. -/
theorem Template.parse_noninterference {name source : String} {isFunction : String → Bool}
    {globals : List String} {t : Template} (h : parse name source isFunction globals = .ok t)
    (hcalls : ∀ f, t.Calls f → Builtin.isName f = true) (placeholder : Placeholder)
    (functions functions' : Functions) (policy policy' : MissingKey) (params params' : Value)
    (vars vars' : List (String × Value)) (hparams : params.fragmentFree = true)
    (hparams' : params'.fragmentFree = true) (hvars : ∀ e ∈ vars, e.2.fragmentFree = true)
    (hvars' : ∀ e ∈ vars', e.2.fragmentFree = true)
    (hsteps : Rendering.steps ⟨t.mark, functions, placeholder, policy⟩ params vars =
      Rendering.steps ⟨t.mark, functions', placeholder, policy'⟩ params' vars') :
    let made := (Rendering.run ⟨t.mark, functions, placeholder, policy⟩ params vars .empty).2
    let made' := (Rendering.run ⟨t.mark, functions', placeholder, policy'⟩ params' vars' .empty).2
    made.text.text = made'.text.text ∧ made.args.length = made'.args.length ∧
      made.dests = [] ∧ made'.dests = [] ∧ made.mappers = [] ∧ made'.mappers = [] := by
  intro made made'
  have hmade : made = .ofPieces placeholder (t.record functions policy params vars).2 :=
    congrArg Prod.snd (t.run_eq_record h functions placeholder policy params vars)
  have hmade' : made' = .ofPieces placeholder (t.record functions' policy' params' vars').2 :=
    congrArg Prod.snd (t.run_eq_record h functions' placeholder policy' params' vars')
  have hplain := t.record_isPlain hcalls functions policy hparams hvars
  have hplain' := t.record_isPlain hcalls functions' policy' hparams' hvars'
  -- The steps are those of the pieces, and equal steps of plain pieces make equal texts.
  rw [t.steps_eq_record h, t.steps_eq_record h] at hsteps
  obtain ⟨htext, hlength⟩ := Piece.renderAll_eq_of_steps placeholder 0 hplain hplain' hsteps
  rw [hmade, hmade']
  simp only [Rendering.ofPieces, Piece.scans_eq_nil hplain, Piece.scans_eq_nil hplain', htext,
    hlength, List.map_nil, and_self]

/-- A name that looks like SQL leaves the text that any other name leaves. -/
theorem Template.parse_noninterference_hostile :
    let t : Template := ⟨"find", [.text "name = ", .action 1 ⟨[], false, [[.field ["name"]]]⟩]⟩
    let made (name : String) : Rendering :=
      (Rendering.run ⟨t.mark, [], .question, .error⟩ (.map [("name", .text name)]) [] .empty).2
    Template.parse "find" ("name = " ++ braced ".name") (fun _ => false) [] = .ok t ∧
      (made "'; DROP TABLE users; --").text.text = (made "Ada").text.text ∧
      (made "'; DROP TABLE users; --").args.length = (made "Ada").args.length := by
  intro t made
  have hparse : Template.parse "find" ("name = " ++ braced ".name") (fun _ => false) []
      = .ok t := by
    cbv
  have hcalls : ∀ f, t.Calls f → Builtin.isName f = true := by
    rintro f ⟨p, hp, hf⟩
    simp [t, nodesPipelines, Node.pipelines] at hp
    subst hp
    simp [Pipeline.Calls, Pipeline.parts, commandsParts, operandsParts, Operand.parts] at hf
  have h := Template.parse_noninterference hparse hcalls .question [] [] .error .error
    (.map [("name", .text "'; DROP TABLE users; --")]) (.map [("name", .text "Ada")]) [] []
    rfl rfl (by simp) (by simp) (by cbv)
  exact ⟨hparse, h.1, h.2.1⟩

end SqlTemplate
