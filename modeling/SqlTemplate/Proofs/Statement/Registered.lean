import Mathlib
import SqlTemplate.Proofs.Execution.Congruence
import SqlTemplate.Proofs.Statement.Pieces
import SqlTemplate.Proofs.Template.Occurrences
import SqlTemplate.Proofs.Value.Document
import SqlTemplate.Statement.Basic

/-!
# Registered functions

A template calls functions by name, and a name goes a long way: the reader takes some words for
literals, the execution knows some functions of its own, and the statement keeps names to itself and
has standard functions over which those of the configuration win. For every other name all of them
agree. It stands in the source where the template has a call, and each evaluation of that call calls
the function that was registered last under the name, with the values of the arguments, and nothing
else (`Statement.make_calls`). A function under one of the other names can be registered as well,
but is never called (`Statement.registered_ignored`).
-/

set_option autoImplicit false

namespace SqlTemplate

/-! ## The last function of a name -/

theorem lookup_putSorted {α : Type} (key k : String) (value : α) (items : List (String × α)) :
    (putSorted key value items).lookup k = if k = key then some value else items.lookup k := by
  induction items with
  | nil => exact lookup_cons_ite key k value []
  | cons e rest ih =>
      obtain ⟨x, a⟩ := e
      rw [putSorted]
      split
      · exact lookup_cons_ite key k value _
      · split
        · rename_i hkey
          subst hkey
          rw [lookup_cons_ite, lookup_cons_ite]
          split <;> rfl
        · rename_i hkey
          rw [lookup_cons_ite, lookup_cons_ite, ih]
          by_cases hk : k = key
          · rw [if_pos hk, if_pos hk, if_neg (hk ▸ hkey)]
          · rw [if_neg hk, if_neg hk]

namespace Functions

/-- The last function that was registered under a name is the one that the name has. -/
theorem get?_ofList (registered : List (String × Function)) (name : String) :
    (ofList registered).get? name = registered.reverse.lookup name := by
  show (registered.foldl (fun sorted e => putSorted e.1 e.2 sorted) []).lookup name = _
  rw [lookup_foldl_put lookup_putSorted, List.lookup_nil, Option.or_none]

/-- Functions that are added win over those that are there. -/
theorem get?_merge_ofList (fs : Functions) (registered : List (String × Function)) (name : String) :
    (fs.merge (ofList registered)).get? name =
      (registered.reverse.lookup name).or (fs.get? name) := by
  have hkeys : ((ofList registered).map (·.1)).Nodup := (sortKeys_sorted registered).nodup
  calc (fs.merge (ofList registered)).get? name
      = ((ofList registered).reverse.lookup name).or (fs.get? name) :=
        lookup_foldl_put lookup_putSorted name (ofList registered) fs
    _ = ((ofList registered).get? name).or (fs.get? name) := by rw [lookup_reverse hkeys]; rfl
    _ = (registered.reverse.lookup name).or (fs.get? name) := by rw [get?_ofList]

end Functions

/-! ## Calling one function -/

/-- Calls a function under its name, and does nothing else: the call alone is added to the trace,
and what the function answers is the value or the failure. -/
def Exec.callOnly {σ : Type} (f : Function) (name : String) (args : List Value) :
    Exec (σ × List Interaction) Value := do
  let frame ← get
  set { frame with world := (frame.world.1, frame.world.2 ++ [Interaction.call name args]) }
  match f args with
  | .ok value => return value
  | .error cause => throw (.function frame.line name cause)

section Calls

variable {recipe : Recipe} {name : String} {f : Function}

/-- A function that looks at its arguments one by one is one that every template has. -/
theorem shortCircuit?_eq_none (h : Builtin.isName name = false) : shortCircuit? name = none := by
  rw [shortCircuit?]
  split
  · rename_i hname
    subst hname
    cases h
  · split
    · rename_i hname
      subst hname
      cases h
    · rfl

/-- The world of a recipe answers with the function of the name. -/
theorem Rendering.call_registered (hmarker : name ≠ markerName) (hdest : name ≠ destName)
    (hf : recipe.functions.get? name = some f) (args : List Value) (r : Rendering) :
    Rendering.call recipe name args r = (f args, r) := by
  rw [Rendering.call_function recipe hmarker, Functions.answer, if_neg hdest, hf]

theorem Exec.call_registered (hmarker : name ≠ markerName) (hdest : name ≠ destName)
    (hf : recipe.functions.get? name = some f) (hbuiltin : Builtin.isName name = false)
    (data : Value) (args : List Value) :
    Exec.call ⟨(Rendering.world recipe).traced, recipe.policy, data⟩ name args =
      Exec.callOnly f name args := by
  have hnone : Builtin.ofName? name = none := by
    rw [Builtin.isName] at hbuiltin
    exact Option.not_isSome_iff_eq_none.mp (by simp [hbuiltin])
  rw [Exec.call, hnone]
  cases hargs : f args <;>
    simp only [Exec.callWorld, Exec.callOnly, World.traced, Rendering.world,
      Rendering.call_registered hmarker hdest hf, hargs]

end Calls

/-! ## Statements -/

namespace Statement

section Make

variable {name source : String} {config : Config} {params dest : Shape} {st : Statement}

/-- What a statement keeps of the template and the configuration of which it is made. -/
theorem make_ok (h : make name source config params dest = .ok st) :
    reservedFunction? config = none ∧
      ∃ t, Template.parse name source (knows config) config.vars = .ok t ∧
        st.recipe = ⟨t.mark, functions config, config.placeholder, config.missingKey⟩ := by
  rw [make] at h
  cases hreserved : reservedFunction? config with
  | some f =>
      rw [hreserved] at h
      cases h
  | none =>
      rw [hreserved] at h
      obtain ⟨_, -, h⟩ := bind_eq_ok.mp h
      obtain ⟨t, hparse, h⟩ := bind_eq_ok.mp h
      obtain ⟨_, -, h⟩ := bind_eq_ok.mp h
      cases h
      refine ⟨rfl, t, ?_, rfl⟩
      cases hp : Template.parse name source (knows config) config.vars with
      | ok t' =>
          rw [hp] at hparse
          cases hparse
          rfl
      | error e =>
          rw [hp] at hparse
          cases hparse

/-- No function of an accepted configuration has a name that a statement keeps to itself. -/
theorem not_reserved (h : reservedFunction? config = none) {n : String} {f : Function}
    (hf : config.functions.get? n = some f) : n ≠ markerName ∧ n ≠ destName := by
  have hmem : n ∈ config.functions.names := List.mem_map.mpr ⟨(n, f), mem_of_lookup hf, rfl⟩
  have hfree := List.find?_eq_none.mp h n hmem
  constructor
  · rintro rfl
    exact hfree (by decide)
  · rintro rfl
    exact hfree (by decide)

/-- **Registered functions are the ones called.** Let functions be registered with a configuration
that is accepted, `f` the last one under the name `n`, which is neither that of a function every
template has nor a literal word. Then wherever `n` stands in an action of the source, and nowhere
else, the template of the statement calls the function of that name. Each evaluation of such a call,
whatever the data, the variables and what was done before, calls `f` and nothing else, without
arguments if it is an operand, or with the values of its arguments and the value that is handed over
behind them if it begins a command. The environment in which it is evaluated is that of a run of the
statement, with each call recorded. -/
theorem make_calls (h : make name source config params dest = .ok st)
    {registered : List (String × Function)} (hregistered : config.functions = .ofList registered)
    {n : String} {f : Function} (hlast : registered.reverse.lookup n = some f)
    (hbuiltin : Builtin.isName n = false) (hliteral : n ∉ literalWords) :
    (∃ words, Word.ofSource source = .ok words ∧
      (words.filterMap Word.lexemes?).map (·.count (.name n)) =
        (nodesPipelines st.recipe.template.root).map (·.callees.count n)) ∧
    ∀ data dot : Value,
      let env : Env (Rendering × List Interaction) :=
        ⟨(Rendering.world st.recipe).traced, st.recipe.policy, data⟩
      (∀ vars start, ∃ trace, st.recipe.template.execute env.world env.policy env.root vars
          (start, []) = ((Rendering.run st.recipe data vars start).1,
            (Rendering.run st.recipe data vars start).2, trace)) ∧
      evalOperand env dot (.function n) = Exec.callOnly f n [] ∧
      ∀ (last : Option Value) (args : List Operand),
        evalCommand env dot last (.function n :: args) = (do
          let values ← evalOperands env dot args
          Exec.callOnly f n (values ++ last.toList)) := by
  obtain ⟨hreserved, t, hparse, hrecipe⟩ := make_ok h
  have hconfig : config.functions.get? n = some f := by
    rw [hregistered, Functions.get?_ofList, hlast]
  obtain ⟨hmarker, hdest⟩ := not_reserved hreserved hconfig
  have hfunction : st.recipe.functions.get? n = some f := by
    rw [hrecipe]
    show (standardFunctions.merge config.functions).get? n = some f
    rw [hregistered, Functions.get?_merge_ofList, hlast, Option.some_or]
  have hshort : shortCircuit? n = none := shortCircuit?_eq_none hbuiltin
  constructor
  · rw [hrecipe]
    exact Template.mark_callees hparse hliteral hmarker
  · intro data dot env
    refine ⟨fun vars start => ⟨_, Template.execute_traced _ _ _ data vars start⟩, ?_, ?_⟩
    · rw [evalOperand, hshort]
      exact Exec.call_registered hmarker hdest hfunction hbuiltin data []
    · intro last args
      rw [evalCommand_call env dot last hshort]
      refine congrArg _ (funext fun values => ?_)
      exact Exec.call_registered hmarker hdest hfunction hbuiltin data (values ++ last.toList)

/-- A template that is read and accepted makes a statement, unless a name is reserved. -/
theorem exists_make {t : Template} (hreserved : reservedFunction? config = none)
    (hparse : Template.parse name source (knows config) config.vars = .ok t)
    (hcheck : t.check params dest config.vars = .ok ()) :
    ∃ st, make name source config params dest = .ok st ∧
      st.recipe = ⟨t.mark, functions config, config.placeholder, config.missingKey⟩ := by
  rw [make, hreserved, hparse]
  show ∃ st, ((t.check params dest config.vars).mapError (Error.check name) >>= _) = _ ∧ _
  rw [hcheck]
  exact ⟨_, rfl, rfl⟩

end Make

/-- The template in which a function stands as a command with arguments, and as one of them. -/
def callTemplate : Template :=
  ⟨"q", [.text "SELECT ", .action 1 ⟨[], false,
    [[.dot], [.function "f", .int 1, .function "f"]]⟩]⟩

theorem parse_callTemplate {isFunction : String → Bool} (hknown : isFunction "f" = true) :
    Template.parse "q" ("SELECT " ++ braced ". | f 1 f") isFunction [] = .ok callTemplate := by
  let tokens : List Token :=
    [⟨.dot, false⟩, ⟨.pipe, true⟩, ⟨.name "f", true⟩, ⟨.int 1, true⟩, ⟨.name "f", true⟩]
  have hwords : Word.ofSource ("SELECT " ++ braced ". | f 1 f") =
      .ok (phrasesWords [.text "SELECT ", .pipeline 1 tokens]) := by
    cbv
  have htrees : TokenTree.ofTokens tokens = tokens.map .leaf := by rfl
  have hrequire : Names.requireFunction ⟨isFunction, ["$"]⟩ "f" = .ok () := by
    rw [Names.requireFunction, if_neg (by decide), if_pos (by simp [hknown])]
  have hword : Names.word ⟨isFunction, ["$"]⟩ "f" = .ok (.function "f") := by
    simp [Names.word, hrequire, keywords, Except.map]
  have hpipeline : Pipeline.ofTokens ⟨isFunction, ["$"]⟩ .action tokens =
      .ok ⟨[], false, [[.dot], [.function "f", .int 1, .function "f"]]⟩ := by
    rw [Pipeline.ofTokens, htrees]
    simp [tokens, Pipeline.ofTrees, Binding.ofTrees?, Pipeline.ofCommands, readCommands,
      readOperand, TokenTree.isPipe, TokenTree.gluedField?, TokenTree.spaced,
      TokenTree.beginsParen, Names.leaf, hword, closeCommand, Operand.isFunction, Operand.isNil,
      Except.map, ok_bind]
  have haction : readAction isFunction ["$"] 1 tokens =
      .ok ⟨[], false, [[.dot], [.function "f", .int 1, .function "f"]]⟩ := by
    show (Pipeline.ofTokens ⟨isFunction, ["$"]⟩ .action tokens).mapError _ = _
    rw [hpipeline]
    rfl
  refine Template.parse_of_phrases hwords ?_
  simp [readPhrases, Phrase.read, Node.declares, haction, Except.map, ok_bind]

/-- Of two functions of one name the second is called, as an argument and as a command, which gets
the value that is handed over behind its arguments. -/
theorem make_calls_second :
    let first : Function := fun _ => .ok (.int 1)
    let second : Function := fun args => .ok (.list args)
    let registered : List (String × Function) := [("f", first), ("g", first), ("f", second)]
    let config : Config := { Config.standard with functions := .ofList registered }
    ∃ st, make "q" ("SELECT " ++ braced ". | f 1 f") config (.int .i64) .unit = .ok st ∧
      (nodesPipelines st.recipe.template.root).map (·.callees.count "f") = [2] ∧
      let env : Env (Rendering × List Interaction) :=
        ⟨(Rendering.world st.recipe).traced, st.recipe.policy, .int 5⟩
      let value : Value := .list [.int 1, .list [], .int 5]
      (evalCommand env .nil (some (.int 5)) [.function "f", .int 1, .function "f"]).on
          ⟨[], 1, .empty, []⟩ =
        (.ok value, ⟨[], 1, .empty, [.call "f" [], .call "f" [.int 1, .list [], .int 5]]⟩) := by
  intro first second registered config
  have hlast : registered.reverse.lookup "f" = some second := by rfl
  have hknown : knows config "f" = true := by
    rw [knows, functions, Functions.contains, Functions.get?_merge_ofList, hlast]
    rfl
  have hreserved : reservedFunction? config = none := by decide +kernel
  have hcheck : callTemplate.check (.int .i64) .unit [] = .ok () := by rfl
  obtain ⟨st, hst, hrecipe⟩ := exists_make hreserved (parse_callTemplate hknown) hcheck
  obtain ⟨-, hcalls⟩ := make_calls hst rfl hlast (by decide) (by decide)
  obtain ⟨-, hoperand, hcommand⟩ := hcalls (.int 5) .nil
  refine ⟨st, hst, by rw [hrecipe]; rfl, ?_⟩
  intro env value
  rw [hcommand, evalOperands, evalOperands, evalOperands, hoperand]
  rfl

/-- A function that is registered under the name of one that every template has is accepted and
stands in the template, but it is not called, and neither is one under the name of a literal. -/
theorem registered_ignored :
    let seven : Function := fun _ => .ok (.int 7)
    let config (name : String) : Config :=
      { Config.standard with functions := .ofList [(name, seven)] }
    let data : Value := .list [.int 1, .int 2, .int 3]
    (∃ st, make "q" ("SELECT " ++ braced "len .") (config "len") (.list (.int .i64)) .unit
          = .ok st ∧
        (nodesPipelines st.recipe.template.root).map (·.callees.count "len") = [1] ∧
        (Rendering.run st.recipe data [] .empty).2.args = [.int 3] ∧
        st.recipe.template.interactions (Rendering.world st.recipe) st.recipe.policy data [] .empty
          = [.literal "SELECT ", .call markerName [.int 3], .print (.text "?")]) ∧
      ∃ st, make "q" ("SELECT " ++ braced "true") (config "true") (.list (.int .i64)) .unit
          = .ok st ∧
        (Rendering.run st.recipe data [] .empty).2.args = [.bool true] ∧
        st.recipe.template.interactions (Rendering.world st.recipe) st.recipe.policy data [] .empty
          = [.literal "SELECT ", .call markerName [.bool true], .print (.text "?")] := by
  intro seven config data
  constructor
  · let t : Template :=
      ⟨"q", [.text "SELECT ", .action 1 ⟨[], false, [[.function "len", .dot]]⟩]⟩
    have hwords : Word.ofSource ("SELECT " ++ braced "len .") = .ok (phrasesWords
        [.text "SELECT ", .pipeline 1 [⟨.name "len", false⟩, ⟨.dot, true⟩]]) := by
      cbv
    have hreserved : reservedFunction? (config "len") = none := by decide +kernel
    have hparse : Template.parse "q" ("SELECT " ++ braced "len .") (knows (config "len")) []
        = .ok t := Template.parse_of_phrases hwords (by rfl)
    obtain ⟨st, hst, hrecipe⟩ := exists_make hreserved hparse (by rfl)
    exact ⟨st, hst, by rw [hrecipe]; rfl, by rw [hrecipe]; rfl, by rw [hrecipe]; rfl⟩
  · let t : Template := ⟨"q", [.text "SELECT ", .action 1 ⟨[], false, [[.bool true]]⟩]⟩
    have hwords : Word.ofSource ("SELECT " ++ braced "true") = .ok (phrasesWords
        [.text "SELECT ", .pipeline 1 [⟨.name "true", false⟩]]) := by
      cbv
    have hreserved : reservedFunction? (config "true") = none := by decide +kernel
    have hparse : Template.parse "q" ("SELECT " ++ braced "true") (knows (config "true")) []
        = .ok t := Template.parse_of_phrases hwords (by rfl)
    obtain ⟨st, hst, hrecipe⟩ := exists_make hreserved hparse (by rfl)
    exact ⟨st, hst, by rw [hrecipe]; rfl, by rw [hrecipe]; rfl⟩

end Statement

end SqlTemplate
