import SqlTemplate.Template.Fault
import SqlTemplate.Number.Decimal
import SqlTemplate.Number.Integer
import SqlTemplate.Text.Blank
import SqlTemplate.Text.Letter

/-!
# Tokens

The body of an action as a list of tokens. Every token knows whether blanks set it off from the
one before it.
-/

set_option autoImplicit false

namespace SqlTemplate

/-- What a token is. -/
inductive Lexeme
  | dot
  | field (name : String)
  | variable (name : String)
  | name (name : String)
  | text (s : String)
  | int (n : Int64)
  | float (x : Float)
  | pipe
  | leftParen
  | rightParen
  | comma
  | declare
  | assign
deriving Repr, DecidableEq

/-- A token and whether a blank stands before it. -/
structure Token where
  lexeme : Lexeme
  spaced : Bool
deriving Repr, DecidableEq

namespace Token

/-- A token that could be read, and the text behind it. -/
abbrev Scanned := Except ParseFault (Lexeme × List Char)

/-! ## Numbers -/

/-- The characters of a number, whether they make a fraction or have an exponent, and the text
behind them. Underscores are passed over. -/
def numberChars : Bool → List Char → List Char × Bool × List Char
  | f, [] => ([], f, [])
  | f, c :: rest =>
    if c.isDigit then
      let (text, f', behind) := numberChars f rest
      (c :: text, f', behind)
    else if c = '_' then numberChars f rest
    else if c = '.' ∧ f = false then
      let (text, f', behind) := numberChars true rest
      (c :: text, f', behind)
    else if c = 'e' ∨ c = 'E' then
      match rest with
      | [] => ([c], true, [])
      | s :: rest' =>
        if s = '-' ∨ s = '+' then
          let (text, f', behind) := numberChars true rest'
          (c :: s :: text, f', behind)
        else
          let (text, f', behind) := numberChars true (s :: rest')
          (c :: text, f', behind)
    else ([], f, c :: rest)
termination_by structural _ s => s

/-- The number that the characters of a token write. -/
def numberLexeme (text : List Char) (isFloat : Bool) : Except ParseFault Lexeme :=
  if isFloat then
    match readDouble text with
    | .ok x => .ok (.float x)
    | .error _ => .error (.badNumber text)
  else
    match readInt64 text with
    | .ok n => .ok (.int n)
    | .error _ => .error (.badNumber text)

/-- Reads a number whose first character, a digit, a sign or a point, is `c`. -/
def scanNumber (c : Char) (rest : List Char) : Scanned :=
  let (text, isFloat, behind) := numberChars (c = '.') rest
  match behind with
  | [] => (numberLexeme (c :: text) isFloat).map (·, [])
  | d :: _ =>
    if isNameChar d then .error (.badNumber (c :: text ++ [d]))
    else (numberLexeme (c :: text) isFloat).map (·, behind)

/-! ## Texts -/

/-- The character that an escape stands for. -/
def escaped? (c : Char) : Option Char :=
  if c = 'n' then some '\n'
  else if c = 't' then some '\t'
  else if c = 'r' then some '\r'
  else if c = '\\' ∨ c = '"' ∨ c = '\'' then some c
  else none

/-- Reads a quoted text from behind its opening quote. -/
def scanQuoted : List Char → Except ParseFault (List Char × List Char)
  | [] => .error .unterminatedText
  | '"' :: rest => .ok ([], rest)
  | ['\\'] => .error .unterminatedText
  | '\\' :: c :: rest =>
    match escaped? c with
    | some e => (scanQuoted rest).map fun (text, behind) => (e :: text, behind)
    | none => .error (.unknownEscape c)
  | c :: rest => (scanQuoted rest).map fun (text, behind) => (c :: text, behind)

/-- Reads a raw text from behind its opening quote. -/
def scanRaw : List Char → Except ParseFault (List Char × List Char)
  | [] => .error .unterminatedRawText
  | c :: rest =>
    if c = '\x60' then .ok ([], rest)
    else (scanRaw rest).map fun (text, behind) => (c :: text, behind)

/-! ## Tokens -/

/-- Reads the characters of a name. -/
def nameChars (s : List Char) : List Char × List Char :=
  (s.takeWhile isNameChar, s.dropWhile isNameChar)

/-- Whether the text begins with a digit. -/
def beginsDigit (s : List Char) : Bool :=
  (s.head?.map Char.isDigit).getD false

/-- Whether the text begins with a name. -/
def beginsName (s : List Char) : Bool :=
  (s.head?.map isNameStart).getD false

/-- The token that a single character makes. -/
def mark? (c : Char) : Option Lexeme :=
  if c = '|' then some .pipe
  else if c = '(' then some .leftParen
  else if c = ')' then some .rightParen
  else if c = ',' then some .comma
  else if c = '=' then some .assign
  else none

/-- Reads a token that begins with a point: a number, a field or the point itself. -/
def scanPoint (rest : List Char) : Scanned :=
  if beginsDigit rest then scanNumber '.' rest
  else if beginsName rest then
    .ok (.field (String.ofList (nameChars rest).1), (nameChars rest).2)
  else .ok (.dot, rest)

/-- Reads a token that begins with a letter or a digit, or with the sign of a number. -/
def scanWord (c : Char) (rest : List Char) : Scanned :=
  if c.isDigit then scanNumber c rest
  else if (c = '-' ∨ c = '+') ∧ (beginsDigit rest || rest.head? = some '.') then
    scanNumber c rest
  else if isNameStart c then
    .ok (.name (String.ofList (c :: (nameChars rest).1)), (nameChars rest).2)
  else .error (.unexpectedCharacter c)

/-- The token of a text. -/
def textLexeme (text : List Char) : Lexeme :=
  .text (String.ofList text)

/-- Reads a token whose first character is `c`. -/
def scan (c : Char) (rest : List Char) : Scanned :=
  match mark? c with
  | some lexeme => .ok (lexeme, rest)
  | none =>
    if c = ':' ∧ rest.head? = some '=' then .ok (.declare, rest.drop 1)
    else if c = '.' then scanPoint rest
    else if c = '$' then
      .ok (.variable (String.ofList ('$' :: (nameChars rest).1)), (nameChars rest).2)
    else if c = '"' then
      (scanQuoted rest).map fun p => (textLexeme p.1, p.2)
    else if c = '\x60' then
      (scanRaw rest).map fun p => (textLexeme p.1, p.2)
    else scanWord c rest

/-! ## What is left is shorter -/

theorem length_numberChars (f : Bool) (s : List Char) :
    (numberChars f s).2.2.length ≤ s.length := by
  fun_induction numberChars f s <;> simp_all <;> omega

theorem length_scanQuoted {s a b : List Char} (h : scanQuoted s = .ok (a, b)) :
    b.length ≤ s.length := by
  fun_induction scanQuoted s generalizing a b with
  | case1 | case3 | case5 => cases h
  | case2 rest =>
    cases h
    simp
  | case4 | case6 =>
    rename_i ih
    revert h
    cases hq : scanQuoted _ with
    | error e => intro h; cases h
    | ok p =>
      intro h
      cases h
      have := ih hq
      simp only [List.length_cons]
      omega

theorem length_scanRaw {s a b : List Char} (h : scanRaw s = .ok (a, b)) :
    b.length ≤ s.length := by
  fun_induction scanRaw s generalizing a b with
  | case1 => cases h
  | case2 =>
    cases h
    simp
  | case3 =>
    rename_i ih
    revert h
    cases hq : scanRaw _ with
    | error e => intro h; cases h
    | ok p =>
      intro h
      cases h
      have := ih hq
      simp only [List.length_cons]
      omega

theorem length_map_ok {α : Type} {f : α → Lexeme} {r : Except ParseFault (α × List Char)}
    {l : Lexeme} {b : List Char} {n : Nat} (h : r.map (fun p => (f p.1, p.2)) = .ok (l, b))
    (hr : ∀ x y, r = .ok (x, y) → y.length ≤ n) : b.length ≤ n := by
  cases r with
  | error e => cases h
  | ok p =>
    simp only [Except.map, Except.ok.injEq, Prod.mk.injEq] at h
    rw [← h.2]
    exact hr p.1 p.2 rfl

theorem length_dropWhile (p : Char → Bool) (s : List Char) :
    (s.dropWhile p).length ≤ s.length :=
  (List.dropWhile_sublist p).length_le

theorem length_scanNumber {c : Char} {rest b : List Char} {l : Lexeme}
    (h : scanNumber c rest = .ok (l, b)) : b.length ≤ rest.length := by
  have hn := length_numberChars (c = '.') rest
  unfold scanNumber at h
  generalize numberChars (c = '.') rest = p at h hn
  obtain ⟨text, isFloat, behind⟩ := p
  cases behind with
  | nil =>
    cases hl : numberLexeme (c :: text) isFloat with
    | error e => simp [hl, Except.map] at h
    | ok x =>
      simp only [hl, Except.map, Except.ok.injEq, Prod.mk.injEq] at h
      simp [← h.2]
  | cons d behind =>
    simp only at h
    split at h
    · cases h
    · cases hl : numberLexeme (c :: text) isFloat with
      | error e => simp [hl, Except.map] at h
      | ok x =>
        simp only [hl, Except.map, Except.ok.injEq, Prod.mk.injEq] at h
        rw [← h.2]
        exact hn

theorem length_nameChars (s : List Char) : (nameChars s).2.length ≤ s.length :=
  length_dropWhile _ _

theorem length_of_ok {x l : Lexeme} {y b : List Char} {n : Nat}
    (h : (.ok (x, y) : Scanned) = .ok (l, b)) (hy : y.length ≤ n) : b.length ≤ n := by
  cases h
  exact hy

theorem length_scanPoint {rest b : List Char} {l : Lexeme}
    (h : scanPoint rest = .ok (l, b)) : b.length ≤ rest.length := by
  unfold scanPoint at h
  split at h
  · exact length_scanNumber h
  split at h
  · exact length_of_ok h (length_nameChars rest)
  · exact length_of_ok h (Nat.le_refl _)

theorem length_scanWord {c : Char} {rest b : List Char} {l : Lexeme}
    (h : scanWord c rest = .ok (l, b)) : b.length ≤ rest.length := by
  unfold scanWord at h
  split at h
  · exact length_scanNumber h
  split at h
  · exact length_scanNumber h
  split at h
  · exact length_of_ok h (length_nameChars rest)
  · cases h

theorem length_scan {c : Char} {rest b : List Char} {l : Lexeme}
    (h : scan c rest = .ok (l, b)) : b.length ≤ rest.length := by
  unfold scan at h
  split at h
  · exact length_of_ok h (Nat.le_refl _)
  split at h
  · exact length_of_ok h (by rw [List.length_drop]; exact Nat.sub_le _ _)
  split at h
  · exact length_scanPoint h
  split at h
  · exact length_of_ok h (length_nameChars rest)
  split at h
  · exact length_map_ok h fun _ _ => length_scanQuoted
  split at h
  · exact length_map_ok h fun _ _ => length_scanRaw
  · exact length_scanWord h

/-! ## The tokens of a body -/

/-- The tokens of the body of an action. -/
def ofBody (s : List Char) : Except ParseFault (List Token) :=
  match _hs : s.dropWhile isBlank with
  | [] => .ok []
  | c :: rest =>
    match _hc : scan c rest with
    | .error e => .error e
    | .ok (lexeme, behind) => do
      let others ← ofBody behind
      .ok (⟨lexeme, (s.head?.map isBlank).getD false⟩ :: others)
termination_by s.length
decreasing_by
  have h₁ := length_scan _hc
  have h₂ := length_dropWhile isBlank s
  rw [_hs, List.length_cons] at h₂
  omega

end Token

end SqlTemplate
