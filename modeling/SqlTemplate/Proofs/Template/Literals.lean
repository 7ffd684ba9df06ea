import Mathlib
import SqlTemplate.Proofs.Template.Faults
import SqlTemplate.Proofs.Template.Interiors

/-!
# Literals that end

The literals of an action are read twice. The search for its closing delimiter goes through them to
find a delimiter outside of them, and the reader of tokens makes texts of them. Between the two the
body may lose a trim mark. They agree on where literals end: all literals in the body of an action
end (`LiteralsEnd`), whatever is read in front of them, so a body is refused for a character, a
number or an escape, but never for a literal without an end (`ofSource_literals`).
-/

set_option autoImplicit false

namespace SqlTemplate

namespace Segment

/-! ## Texts whose literals end -/

/-- Whether all literals in a text end. -/
inductive LiteralsEnd : List Char → Prop
  | nil : LiteralsEnd []
  | plain {c : Char} {s : List Char} : c ≠ '"' → c ≠ '\x60' → LiteralsEnd s → LiteralsEnd (c :: s)
  | quoted {literal s : List Char} : Quotable literal → LiteralsEnd s →
    LiteralsEnd ('"' :: (literal ++ '"' :: s))
  | raw {literal s : List Char} : '\x60' ∉ literal → LiteralsEnd s →
    LiteralsEnd ('\x60' :: (literal ++ '\x60' :: s))

/-- What is enclosed has no literal that goes on behind it. -/
theorem Enclosed.literalsEnd {s : List Char} (h : Enclosed s) : LiteralsEnd s := by
  induction h with
  | nil => exact .nil
  | plain hquote hraw _ _ ih => exact .plain hquote hraw ih
  | quoted hliteral _ ih => exact .quoted hliteral ih
  | raw hliteral _ ih => exact .raw hliteral ih

namespace LiteralsEnd

variable {c : Char} {s rest : List Char}

/-- A character that opens no literal can be taken off the front. -/
theorem tail (h : LiteralsEnd (c :: s)) (hquote : c ≠ '"') (hraw : c ≠ '\x60') :
    LiteralsEnd s := by
  cases h with
  | plain _ _ hs => exact hs
  | quoted => exact absurd rfl hquote
  | raw => exact absurd rfl hraw

/-- So can one of a class to which no quote belongs. -/
theorem tail_of {p : Char → Bool} (hquote : p '"' = false) (hraw : p '\x60' = false)
    (h : LiteralsEnd (c :: s)) (hc : p c = true) : LiteralsEnd s := by
  have hne : ∀ d, p d = false → c ≠ d := by
    rintro d hd rfl
    rw [hd] at hc
    cases hc
  exact h.tail (hne _ hquote) (hne _ hraw)

/-- So can a run of them. -/
theorem dropWhile {p : Char → Bool} (hquote : p '"' = false) (hraw : p '\x60' = false)
    (h : LiteralsEnd s) : LiteralsEnd (s.dropWhile p) := by
  induction s with
  | nil => exact h
  | cons c s ih =>
      rw [List.dropWhile_cons]
      split
      · rename_i hc
        exact ih (h.tail_of hquote hraw hc)
      · exact h

/-- Behind a literal something is left if the last character of the text is not its quote. -/
theorem behind_of_concat {q : Char} {literal t : List Char} (hq : c ≠ q)
    (h : s ++ [c] = q :: (literal ++ q :: t)) :
    ∃ t', t = t' ++ [c] ∧ s = q :: (literal ++ q :: t') := by
  rcases t.eq_nil_or_concat with rfl | ⟨t', d, rfl⟩
  · have hlast : s ++ [c] = (q :: literal) ++ [q] := h
    exact absurd (List.append_singleton_inj.mp hlast).2 hq
  · have hlast : s ++ [c] = q :: (literal ++ q :: t') ++ [d] := by simpa using h
    obtain ⟨rfl, rfl⟩ := List.append_singleton_inj.mp hlast
    exact ⟨t', List.concat_eq_append, rfl⟩

/-- A character that closes no literal can be taken off the back. -/
theorem of_concat (h : LiteralsEnd (s ++ [c])) (hquote : c ≠ '"') (hraw : c ≠ '\x60') :
    LiteralsEnd s := by
  generalize ht : s ++ [c] = t at h
  induction h generalizing s with
  | nil => simp at ht
  | plain hd hd' _ ih =>
      cases s with
      | nil => exact .nil
      | cons d s =>
          obtain ⟨rfl, rfl⟩ := List.cons.inj ht
          exact .plain hd hd' (ih rfl)
  | quoted hliteral _ ih =>
      obtain ⟨t', rfl, rfl⟩ := behind_of_concat hquote ht
      exact .quoted hliteral (ih rfl)
  | raw hliteral _ ih =>
      obtain ⟨t', rfl, rfl⟩ := behind_of_concat hraw ht
      exact .raw hliteral (ih rfl)

/-- A trim mark can be taken off the back. -/
theorem dropTrim (h : LiteralsEnd s) : LiteralsEnd (Segment.dropTrim s).1 := by
  rw [dropTrim_eq]
  dsimp only
  split
  · rename_i htrim
    rw [eq_concat_of_beginsTrim htrim] at h
    exact h.of_concat (by decide) (by decide)
  · exact h

end LiteralsEnd

end Segment

/-! ## Tokens -/

/-- Whether a token is refused for the characters that it is written with. -/
def ParseFault.isMisspelling : ParseFault → Bool
  | .unexpectedCharacter _ => true
  | .badNumber _ => true
  | .unknownEscape _ => true
  | _ => false

namespace Token

open Segment (LiteralsEnd Quotable)

/-- Whether a token has been read, and all literals behind it end, or it is refused because it is
misspelt. -/
def Legible : Scanned → Prop
  | .ok (_, behind) => LiteralsEnd behind
  | .error fault => fault.isMisspelling = true

variable {c : Char} {s rest : List Char}

/-- Whether a number may go on with the character. -/
def isNumberChar (c : Char) : Bool :=
  c.isDigit || c = '_' || c = '.' || c = 'e' || c = 'E' || c = '-' || c = '+'

/-- No number goes on into a literal. -/
theorem numberChars_literalsEnd (f : Bool) (h : LiteralsEnd s) :
    LiteralsEnd (numberChars f s).2.2 := by
  have hskip : ∀ {c : Char} {s : List Char}, LiteralsEnd (c :: s) → isNumberChar c = true →
      LiteralsEnd s := fun h hc => h.tail_of (by decide) (by decide) hc
  fun_induction numberChars f s with
  | case1 => exact h
  | case2 f c rest hdigit text f' behind hrest ih =>
      have hnumber := ih (hskip h (by simp [isNumberChar, hdigit]))
      rwa [hrest] at hnumber
  | case3 f rest _ ih => exact ih (hskip h rfl)
  | case4 f c rest _ _ hpoint text f' behind hrest ih =>
      have hnumber := ih (hskip h (by simp [isNumberChar, hpoint.1]))
      rwa [hrest] at hnumber
  | case5 => exact .nil
  | case6 f c _ _ _ hexponent sign rest hsign text f' behind hrest ih =>
      have hbehind := hskip h (by rcases hexponent with rfl | rfl <;> rfl)
      have hnumber := ih (hskip hbehind (by rcases hsign with rfl | rfl <;> rfl))
      rwa [hrest] at hnumber
  | case7 f c _ _ _ hexponent sign rest _ text f' behind hrest ih =>
      have hnumber := ih (hskip h (by rcases hexponent with rfl | rfl <;> rfl))
      rwa [hrest] at hnumber
  | case8 => exact h

theorem numberLexeme_legible {behind : List Char} (h : LiteralsEnd behind) (text : List Char)
    (isFloat : Bool) : Legible ((numberLexeme text isFloat).map (·, behind)) := by
  rw [numberLexeme]
  split
  · split
    · exact h
    · rfl
  · split
    · exact h
    · rfl

theorem scanNumber_legible (h : LiteralsEnd rest) (c : Char) : Legible (scanNumber c rest) := by
  have hbehind : LiteralsEnd (numberChars (c = '.') rest).2.2 := numberChars_literalsEnd _ h
  rw [scanNumber]
  generalize numberChars (c = '.') rest = number at hbehind
  obtain ⟨text, isFloat, behind⟩ := number
  cases behind with
  | nil => exact numberLexeme_legible hbehind _ _
  | cons d behind =>
      dsimp only
      split
      · rfl
      · exact numberLexeme_legible hbehind _ _

theorem nameChars_literalsEnd (h : LiteralsEnd s) : LiteralsEnd (nameChars s).2 :=
  h.dropWhile (by decide) (by decide)

theorem scanPoint_legible (h : LiteralsEnd rest) : Legible (scanPoint rest) := by
  rw [scanPoint]
  split
  · exact scanNumber_legible h '.'
  split
  · exact nameChars_literalsEnd h
  · exact h

theorem scanWord_legible (h : LiteralsEnd rest) (c : Char) : Legible (scanWord c rest) := by
  rw [scanWord]
  split
  · exact scanNumber_legible h c
  split
  · exact scanNumber_legible h c
  split
  · exact nameChars_literalsEnd h
  · rfl

/-- In a quoted literal a character that is neither quote nor backslash stands for itself. -/
theorem scanQuoted_plain (hquote : c ≠ '"') (hslash : c ≠ '\\') (s : List Char) :
    scanQuoted (c :: s) = (scanQuoted s).map fun (text, behind) => (c :: text, behind) :=
  scanQuoted.eq_5 c s hquote (fun hc _ => hslash hc) fun _ _ hc _ => hslash hc

/-- A quoted literal is read to its end, unless an escape in it is unknown. -/
theorem scanQuoted_quotable {literal : List Char} (h : Quotable literal) (rest : List Char) :
    (∃ text, scanQuoted (literal ++ '"' :: rest) = .ok (text, rest)) ∨
      ∃ c, scanQuoted (literal ++ '"' :: rest) = .error (.unknownEscape c) := by
  induction h with
  | nil => exact .inl ⟨[], rfl⟩
  | @plain c s hquote hslash _ ih =>
      rw [List.cons_append, scanQuoted_plain hquote hslash]
      rcases ih with ⟨text, htext⟩ | ⟨e, he⟩
      · exact .inl ⟨c :: text, by rw [htext]; rfl⟩
      · exact .inr ⟨e, by rw [he]; rfl⟩
  | @escaped c s _ ih =>
      rw [List.cons_append, List.cons_append, scanQuoted]
      cases escaped? c with
      | none => exact .inr ⟨c, rfl⟩
      | some e =>
          rcases ih with ⟨text, htext⟩ | ⟨e', he⟩
          · exact .inl ⟨e :: text, by rw [htext]; rfl⟩
          · exact .inr ⟨e', by rw [he]; rfl⟩

/-- A raw literal is read to its end. -/
theorem scanRaw_literal {literal : List Char} (h : '\x60' ∉ literal) (rest : List Char) :
    scanRaw (literal ++ '\x60' :: rest) = .ok (literal, rest) := by
  induction literal with
  | nil => rfl
  | cons c literal ih =>
      rw [List.mem_cons, not_or] at h
      rw [List.cons_append, scanRaw, if_neg (Ne.symm h.1), ih h.2]
      rfl

theorem scan_quote (s : List Char) :
    scan '"' s = (scanQuoted s).map fun p => (textLexeme p.1, p.2) := rfl

theorem scan_backquote (s : List Char) :
    scan '\x60' s = (scanRaw s).map fun p => (textLexeme p.1, p.2) := rfl

/-- **A token is read where literals end**: up to a text in which they do, or it is misspelt. -/
theorem scan_legible (h : LiteralsEnd (c :: rest)) : Legible (scan c rest) := by
  by_cases hquote : c = '"'
  · subst hquote
    cases h with
    | plain hne => exact absurd rfl hne
    | @quoted literal s hliteral hs =>
        rw [scan_quote]
        rcases scanQuoted_quotable hliteral s with ⟨text, htext⟩ | ⟨e, he⟩
        · rw [htext]
          exact hs
        · rw [he]
          rfl
  by_cases hraw : c = '\x60'
  · subst hraw
    cases h with
    | plain _ hne => exact absurd rfl hne
    | @raw literal s hliteral hs =>
        rw [scan_backquote, scanRaw_literal hliteral]
        exact hs
  have hrest : LiteralsEnd rest := h.tail hquote hraw
  rw [scan]
  split
  · exact hrest
  split
  · rename_i hdeclare
    obtain ⟨s, rfl⟩ := List.head?_eq_some_iff.mp hdeclare.2
    exact hrest.tail (by decide) (by decide)
  split
  · exact scanPoint_legible hrest
  split
  · exact nameChars_literalsEnd hrest
  · exact scanWord_legible hrest c

/-- The body of an action in which all literals end is refused only because a token is misspelt. -/
theorem ofBody_misspelt (h : LiteralsEnd s) :
    FailsWith (fun fault => fault.isMisspelling = true) (ofBody s) := by
  fun_induction ofBody s with
  | case1 => exact FailsWith.ok _
  | case2 s c rest hs e he =>
      have hbehind : LiteralsEnd (c :: rest) := hs ▸ h.dropWhile (by decide) (by decide)
      have hlegible := scan_legible hbehind
      rw [he] at hlegible
      exact FailsWith.error.mpr hlegible
  | case3 s c rest hs lexeme behind hscan ih =>
      have hbehind : LiteralsEnd (c :: rest) := hs ▸ h.dropWhile (by decide) (by decide)
      have hlegible := scan_legible hbehind
      rw [hscan] at hlegible
      exact (ih hlegible).bind fun _ => FailsWith.ok _

end Token

/-! ## Sources -/

namespace Segment

/-- In the body of an action that is no comment all literals end. -/
theorem takeAction_literalsEnd {s rest : List Char} {d : Delimited}
    (h : takeAction s = some (d, rest)) (hcomment : beginsComment d.body = false) :
    LiteralsEnd d.body := by
  rw [takeAction_eq] at h
  obtain ⟨⟨inner, rest'⟩, hcut, heq⟩ := Option.map_eq_some_iff.mp h
  obtain ⟨rfl, -⟩ := Prod.mk.inj heq
  rcases (cutInterior_eq_some hcut).2 with hbegins | henclosed
  · exact absurd hbegins (by simpa using hcomment)
  · exact henclosed.literalsEnd.dropTrim

/-- So they do in the bodies of the actions that a source is cut into. -/
theorem ofSource_literalsEnd {source : String} {segments : List Segment} {line : Nat}
    {body : List Char} (h : ofSource source = .ok segments)
    (haction : .action line body ∈ segments) : LiteralsEnd body := by
  obtain ⟨_, _, _, _, d, _, hact, hcomment, rfl⟩ := opens_of_mem_cut h haction
  exact takeAction_literalsEnd hact hcomment

end Segment

/-! ## Messages -/

/-- How the wording of a misspelling begins. -/
theorem ParseFault.message_of_isMisspelling {fault : ParseFault} (h : fault.isMisspelling = true) :
    ∃ front ∈ ["unexpected character ", "bad number syntax: ", "unknown escape sequence \\"],
      front.toList <+: fault.message.toList := by
  have hprefix : ∀ {front behind : String}, front.toList <+: (front ++ behind).toList := by
    intro front behind
    rw [String.toList_append]
    exact List.prefix_append _ _
  cases fault with
  | unexpectedCharacter c =>
      have hmessage : (unexpectedCharacter c).message =
          "unexpected character " ++ (quotedChar c ++ " in action") := String.append_assoc ..
      exact ⟨_, by simp, hmessage ▸ hprefix⟩
  | badNumber text =>
      have hmessage : (badNumber text).message = "bad number syntax: " ++ String.ofList text := rfl
      exact ⟨_, by simp, hmessage ▸ hprefix⟩
  | unknownEscape c =>
      have hmessage : (unknownEscape c).message =
          "unknown escape sequence \\" ++ c.toString := rfl
      exact ⟨_, by simp, hmessage ▸ hprefix⟩
  | _ => cases h

/-- So it is not that of a literal without an end. -/
theorem ParseFault.message_ne_of_isMisspelling {fault : ParseFault}
    (h : fault.isMisspelling = true) : fault.message ≠ "unterminated quoted string" ∧
      fault.message ≠ "unterminated raw quoted string" := by
  have hfronts : ∀ front ∈ ["unexpected character ", "bad number syntax: ",
      "unknown escape sequence \\"], ¬ front.toList <+: "unterminated quoted string".toList ∧
        ¬ front.toList <+: "unterminated raw quoted string".toList := by
    decide
  obtain ⟨front, hfront, hprefix⟩ := message_of_isMisspelling h
  constructor
  · intro heq
    exact (hfronts front hfront).1 (heq ▸ hprefix)
  · intro heq
    exact (hfronts front hfront).2 (heq ▸ hprefix)

namespace Segment

/-- **The two readings of literals agree.** -/
theorem ofSource_literals {source : String} {segments : List Segment} {line : Nat}
    {body : List Char} (h : ofSource source = .ok segments)
    (haction : .action line body ∈ segments) :
    ∀ fault, Token.ofBody body = .error fault → fault.message ≠ "unterminated quoted string" ∧
      fault.message ≠ "unterminated raw quoted string" := by
  intro fault hfault
  have hmisspelt : fault.isMisspelling = true :=
    Token.ofBody_misspelt (ofSource_literalsEnd h haction) fault hfault
  exact ParseFault.message_ne_of_isMisspelling hmisspelt

/-- A body that is refused, for an escape in front of the closing delimiter in its literal. -/
theorem ofSource_literals_escape :
    let source := "a " ++ braced "- f \x60\"\x60 \"\\q \x7d\x7d -\" -"
    let body := " f \x60\"\x60 \"\\q \x7d\x7d -\" ".toList
    let segments : List Segment := [.text "a", .action 1 body]
    ofSource source = .ok segments ∧ .action 1 body ∈ segments ∧
      Token.ofBody body = .error (.unknownEscape 'q') ∧
      ParseFault.message (.unknownEscape 'q') ≠ "unterminated quoted string" ∧
      ParseFault.message (.unknownEscape 'q') ≠ "unterminated raw quoted string" := by
  intro source body segments
  have hsource : ofSource source = .ok segments := by
    cbv
  have haction : .action 1 body ∈ segments := by simp [segments]
  have hfault : Token.ofBody body = .error (.unknownEscape 'q') := by
    simp only [body]
    cbv
  exact ⟨hsource, haction, hfault, ofSource_literals hsource haction _ hfault⟩

end Segment

end SqlTemplate
