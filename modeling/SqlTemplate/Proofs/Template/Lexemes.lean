import Mathlib
import SqlTemplate.Proofs.Template.Reading

/-!
# Pipelines as lexemes

A pipeline can be written out again: its binding in front, the operands of every command in their
order, bars between commands and parentheses around the pipelines inside. Reading goes through two
passes, of which the first groups tokens by their parentheses and the second appends fields to the
operand before them and cuts commands at bars. Neither loses or moves a token: the trees hold all
tokens (`TokenTree.tokensOf_ofTokens`), and the pipeline that is read from tokens is written with
just their lexemes (`Pipeline.lexemes_ofTokens`).
-/

set_option autoImplicit false

namespace SqlTemplate

/-! ## Writing pipelines -/

/-- The lexemes that bind variables: the variables, with commas between them, and the operator. -/
def bindingLexemes (assigns : Bool) : List String → List Lexeme
  | [] => []
  | [x] => [.variable x, if assigns then .assign else .declare]
  | x :: y :: rest => .variable x :: .comma :: bindingLexemes assigns (y :: rest)

mutual

/-- The lexemes that write an operand. -/
def Operand.lexemes : Operand → List Lexeme
  | .dot => [.dot]
  | .nil => [.name "nil"]
  | .bool b => [.name (if b then "true" else "false")]
  | .int n => [.int n]
  | .float x => [.float x]
  | .text s => [.text s]
  | .field names => names.map .field
  | .variable x names => .variable x :: names.map .field
  | .function f => [.name f]
  | .chain base names => base.lexemes ++ names.map .field
  | .pipe declared assigns commands =>
    .leftParen :: (bindingLexemes assigns declared ++ commandsLexemes commands ++ [.rightParen])

/-- The lexemes that write operands, one after the other. -/
def operandsLexemes : List Operand → List Lexeme
  | [] => []
  | a :: rest => a.lexemes ++ operandsLexemes rest

/-- The lexemes that write commands, with bars between them. -/
def commandsLexemes : List (List Operand) → List Lexeme
  | [] => []
  | [command] => operandsLexemes command
  | command :: next :: rest =>
    operandsLexemes command ++ .pipe :: commandsLexemes (next :: rest)

end

/-- The lexemes that write a pipeline. -/
def Pipeline.lexemes (p : Pipeline) : List Lexeme :=
  bindingLexemes p.assigns p.declared ++ commandsLexemes p.commands

theorem operandsLexemes_append (operands others : List Operand) :
    operandsLexemes (operands ++ others) = operandsLexemes operands ++ operandsLexemes others := by
  induction operands with
  | nil => rfl
  | cons a rest ih => simp [operandsLexemes, ih]

theorem commandsLexemes_cons (command : List Operand) {others : List (List Operand)}
    (h : others ≠ []) :
    commandsLexemes (command :: others) =
      operandsLexemes command ++ .pipe :: commandsLexemes others := by
  cases others with
  | nil => exact absurd rfl h
  | cons next rest => rw [commandsLexemes]

/-! ## The tokens of groups -/

namespace TokenTree

mutual

/-- The tokens of a tree, the parentheses of its groups among them. -/
def tokens : TokenTree → List Token
  | .leaf t => [t]
  | .group spaced inner closeSpaced =>
    ⟨.leftParen, spaced⟩ :: (tokensOf inner ++ [⟨.rightParen, closeSpaced⟩])

/-- The tokens of trees, one tree after the other. -/
def tokensOf : List TokenTree → List Token
  | [] => []
  | tree :: rest => tree.tokens ++ tokensOf rest

end

theorem tokensOf_append (trees others : List TokenTree) :
    tokensOf (trees ++ others) = tokensOf trees ++ tokensOf others := by
  induction trees with
  | nil => rfl
  | cons tree rest ih => simp [tokensOf, ih]

/-- The tokens in front of the innermost open group, its opening parenthesis the last of them. -/
def openTokens : List (Bool × List TokenTree) → List Token
  | [] => []
  | (spaced, outer) :: stack => openTokens stack ++ tokensOf outer ++ [⟨.leftParen, spaced⟩]

theorem tokensOf_unwind (stack : List (Bool × List TokenTree)) (trees : List TokenTree) :
    tokensOf (unwind stack trees) = openTokens stack ++ tokensOf trees := by
  induction stack generalizing trees with
  | nil => rfl
  | cons frame stack ih =>
      obtain ⟨spaced, outer⟩ := frame
      rw [unwind, ih]
      simp [openTokens, tokensOf_append, tokensOf, tokens]

/-- What has been grouped and what is still to be grouped are all of the tokens. -/
theorem tokensOf_nest (stack : List (Bool × List TokenTree)) (trees : List TokenTree)
    (rest : List Token) :
    tokensOf (nest stack trees rest) = openTokens stack ++ tokensOf trees ++ rest := by
  fun_induction nest stack trees rest with
  | case1 stack trees => rw [tokensOf_unwind, List.append_nil]
  | case2 stack trees t rest hopen ih =>
      obtain ⟨lexeme, spaced⟩ := t
      cases hopen
      rw [ih]
      simp [openTokens, tokensOf]
  | case3 trees t rest spaced outer stack hclose ih =>
      obtain ⟨lexeme, closeSpaced⟩ := t
      cases hclose
      rw [ih]
      simp [openTokens, tokensOf_append, tokensOf, tokens]
  | case4 stack trees t rest _ _ ih =>
      rw [ih]
      simp [tokensOf_append, tokensOf, tokens]

/-- **Grouping loses nothing.** -/
theorem tokensOf_ofTokens (tokens : List Token) : tokensOf (ofTokens tokens) = tokens := by
  rw [ofTokens, tokensOf_nest]
  rfl

end TokenTree

/-! ## Reading loses nothing -/

section Reading

open TokenTree

variable {names : Names} {name : String}

theorem Names.word_lexemes {a : Operand} (h : names.word name = .ok a) :
    a.lexemes = [.name name] := by
  rw [Names.word] at h
  split_ifs at h with htrue hfalse hnil hkeyword
  · cases h
    rw [htrue]
    rfl
  · cases h
    rw [hfalse]
    rfl
  · cases h
    rw [hnil]
    rfl
  · obtain ⟨_, -, rfl⟩ := map_eq_ok.mp h
    rfl

/-- The operand that a single token makes is written with its lexeme. -/
theorem Names.leaf_lexemes {lexeme : Lexeme} {a : Operand} (h : names.leaf lexeme = .ok a) :
    a.lexemes = [lexeme] := by
  match lexeme with
  | .variable x =>
    obtain ⟨_, -, rfl⟩ := map_eq_ok.mp h
    rfl
  | .name word => exact Names.word_lexemes h
  | .dot | .field _ | .text _ | .int _ | .float _ =>
    cases h
    rfl

theorem Operand.withField_lexemes {a b : Operand} (h : a.withField name = .ok b) :
    b.lexemes = a.lexemes ++ [.field name] := by
  match a with
  | .field _ | .variable _ _ | .chain _ _ | .function _ | .pipe _ _ _ =>
    cases h
    simp [Operand.lexemes]

theorem extendLast_lexemes {operands extended : List Operand} (hne : operands ≠ [])
    (h : extendLast name operands = .ok extended) :
    operandsLexemes extended = operandsLexemes operands ++ [.field name] := by
  induction operands generalizing extended with
  | nil => exact absurd rfl hne
  | cons a rest ih =>
      cases rest with
      | nil =>
          obtain ⟨b, hb, rfl⟩ := map_eq_ok.mp h
          simp [operandsLexemes, Operand.withField_lexemes hb]
      | cons next rest =>
          obtain ⟨others, hothers, rfl⟩ := map_eq_ok.mp h
          simp [operandsLexemes, ih (List.cons_ne_nil next rest) hothers]

theorem TokenTree.gluedField?_eq_some {tree : TokenTree} (h : tree.gluedField? = some name) :
    tree = .leaf ⟨.field name, false⟩ := by
  unfold gluedField? at h
  split at h
  · cases h
    rfl
  · cases h

theorem TokenTree.isPipe_eq_true {tree : TokenTree} (h : tree.isPipe = true) :
    ∃ spaced, tree = .leaf ⟨.pipe, spaced⟩ := by
  cases tree with
  | leaf t =>
      obtain ⟨lexeme, spaced⟩ := t
      obtain rfl : lexeme = .pipe := by simpa [isPipe] using h
      exact ⟨spaced, rfl⟩
  | group spaced inner closeSpaced => cases h

mutual

/-- An operand is written with the lexemes of the tree that it was read from. -/
theorem readOperand_lexemes {tree : TokenTree} {a : Operand} (h : readOperand names tree = .ok a) :
    a.lexemes = tree.tokens.map (·.lexeme) := by
  match tree with
  | .leaf t => exact Names.leaf_lexemes h
  | .group _ inner _ =>
    obtain ⟨commands, hread, rfl⟩ := readOperand_group h
    have hinner := readCommands_lexemes hread
    simp [Operand.lexemes, bindingLexemes, operandsLexemes, tokens, hinner]

/-- Commands are written with the lexemes of the operands that had been read before, and of the
trees. -/
theorem readCommands_lexemes {current : List Operand} {trees : List TokenTree}
    {commands : List Command} (h : readCommands names current trees = .ok commands) :
    commandsLexemes commands = operandsLexemes current ++ (tokensOf trees).map (·.lexeme) := by
  match trees with
  | [] =>
    obtain ⟨command, hclose, rfl⟩ := map_eq_ok.mp h
    obtain ⟨rfl, -⟩ := closeCommand_proper hclose
    simp [commandsLexemes, tokensOf]
  | tree :: rest =>
    rw [readCommands] at h
    split at h
    · -- A bar ends the command.
      rename_i hpipe
      obtain ⟨spaced, rfl⟩ := isPipe_eq_true hpipe
      obtain ⟨command, hclose, h⟩ := bind_eq_ok.mp h
      obtain ⟨others, hread, hothers⟩ := bind_eq_ok.mp h
      cases hothers
      obtain ⟨rfl, -⟩ := closeCommand_proper hclose
      have hothers := readCommands_lexemes hread
      have hne : others ≠ [] := (readCommands_proper (by simp [operandsParts]) hread).1.1
      rw [commandsLexemes_cons _ hne, hothers]
      simp [operandsLexemes, tokensOf, tokens]
    · split at h
      · rename_i hcurrent
        obtain rfl := List.isEmpty_iff.mp hcurrent
        obtain ⟨operand, hoperand, hread⟩ := bind_eq_ok.mp h
        rw [readCommands_lexemes hread]
        simp [operandsLexemes, tokensOf, readOperand_lexemes hoperand]
      · rename_i hcurrent
        split at h
        · -- A field that is glued on belongs to the operand before it.
          rename_i name hglued
          obtain rfl := gluedField?_eq_some hglued
          obtain ⟨extended, hextend, hread⟩ := bind_eq_ok.mp h
          rw [readCommands_lexemes hread,
            extendLast_lexemes (by simpa using hcurrent) hextend]
          simp [tokensOf, tokens]
        · split at h
          · cases h
          · obtain ⟨operand, hoperand, hread⟩ := bind_eq_ok.mp h
            rw [readCommands_lexemes hread, operandsLexemes_append]
            simp [operandsLexemes, tokensOf, readOperand_lexemes hoperand]

end

theorem Lexeme.binding?_eq_some {lexeme : Lexeme} {assigns : Bool}
    (h : lexeme.binding? = some assigns) : lexeme = if assigns then .assign else .declare := by
  match lexeme with
  | .declare | .assign =>
    cases h
    rfl

/-- A binding is written with the lexemes in front of the trees behind it. -/
theorem Binding.ofTrees?_lexemes {trees : List TokenTree} {b : Binding}
    (h : Binding.ofTrees? trees = some b) :
    (tokensOf trees).map (·.lexeme) =
      bindingLexemes b.assigns b.vars ++ (tokensOf b.rest).map (·.lexeme) := by
  unfold Binding.ofTrees? at h
  split at h
  · obtain ⟨assigns, hop, rfl⟩ := Option.map_eq_some_iff.mp h
    simp [tokensOf, tokens, bindingLexemes, Lexeme.binding?_eq_some hop]
  · obtain ⟨assigns, hop, rfl⟩ := Option.map_eq_some_iff.mp h
    simp [tokensOf, tokens, bindingLexemes, Lexeme.binding?_eq_some hop]
  · cases h

namespace Pipeline

theorem ofCommands_lexemes {context : PipelineContext} {declared : List String} {assigns : Bool}
    {trees : List TokenTree} {p : Pipeline}
    (h : ofCommands names context declared assigns trees = .ok p) :
    p.lexemes = bindingLexemes assigns declared ++ (tokensOf trees).map (·.lexeme) := by
  rw [ofCommands] at h
  split at h
  · cases h
  · obtain ⟨commands, hread, rfl⟩ := map_eq_ok.mp h
    rw [lexemes, readCommands_lexemes hread]
    rfl

theorem ofTrees_lexemes {context : PipelineContext} {trees : List TokenTree} {p : Pipeline}
    (h : ofTrees names context trees = .ok p) : p.lexemes = (tokensOf trees).map (·.lexeme) := by
  rw [ofTrees] at h
  split at h
  · rw [ofCommands_lexemes h]
    rfl
  · rename_i b hb
    rw [Binding.ofTrees?_lexemes hb]
    obtain ⟨_, -, h⟩ := bind_eq_ok.mp h
    split at h
    · obtain ⟨_, -, h⟩ := bind_eq_ok.mp h
      exact ofCommands_lexemes h
    · exact ofCommands_lexemes h

/-- **No token is lost.** A pipeline that is read from tokens, wherever it stands, is written with
the lexemes of these tokens, in their order. -/
theorem lexemes_ofTokens {context : PipelineContext} {tokens : List Token} {p : Pipeline}
    (h : ofTokens names context tokens = .ok p) : p.lexemes = tokens.map (·.lexeme) := by
  rw [ofTrees_lexemes h, tokensOf_ofTokens]

/-- Two variables, and fields behind parentheses with a bar in them. -/
theorem lexemes_ofTokens_nested :
    let tokens : List Token := [⟨.variable "$i", true⟩, ⟨.comma, false⟩, ⟨.variable "$x", true⟩,
      ⟨.declare, true⟩, ⟨.name "f", true⟩, ⟨.leftParen, true⟩, ⟨.field "A", false⟩,
      ⟨.field "B", false⟩, ⟨.pipe, true⟩, ⟨.name "f", true⟩, ⟨.leftParen, false⟩,
      ⟨.variable "$", false⟩, ⟨.field "C", false⟩, ⟨.rightParen, false⟩, ⟨.rightParen, false⟩,
      ⟨.field "D", false⟩, ⟨.name "nil", true⟩, ⟨.pipe, true⟩, ⟨.name "f", true⟩,
      ⟨.field "E", false⟩]
    let inner : Operand := .pipe [] false [[.field ["A", "B"]],
      [.function "f", .pipe [] false [[.variable "$" ["C"]]]]]
    let p : Pipeline := ⟨["$i", "$x"], false,
      [[.function "f", .chain inner ["D"], .nil], [.chain (.function "f") ["E"]]]⟩
    ofTokens ⟨fun f => f = "f", ["$"]⟩ (.block .range) tokens = .ok p ∧
      p.lexemes = tokens.map (·.lexeme) := by
  intro tokens inner p
  have hread : ofTokens ⟨fun f => f = "f", ["$"]⟩ (.block .range) tokens = .ok p := by
    rfl
  exact ⟨hread, lexemes_ofTokens hread⟩

end Pipeline

end Reading

end SqlTemplate
