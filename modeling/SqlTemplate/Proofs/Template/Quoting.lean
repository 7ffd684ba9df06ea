import Mathlib
import SqlTemplate.Proofs.Template.Literals
import SqlTemplate.Template.Block

/-!
# Texts as literals

A text is written in an action between double quotes, with a backslash in front of every quote and
every backslash in it, or between backquotes as it is, if there is no backquote in it. Both ways
give the text back (`Template.parse_literal`): whatever stands in it, the search for the closing
delimiter passes it, and it is taken neither for a trim mark nor for a comment.
-/

set_option autoImplicit false

namespace SqlTemplate

/-! ## Literals -/

namespace Token

open Segment (Quotable Enclosed beginsComment beginsTrim)

/-- A text as it stands between double quotes. -/
def escape (s : List Char) : List Char :=
  s.flatMap fun c => if c = '\\' ∨ c = '"' then ['\\', c] else [c]

section Escape

variable {c : Char}

theorem escape_special (hc : c = '\\' ∨ c = '"') (s : List Char) :
    escape (c :: s) = '\\' :: c :: escape s := by
  rw [escape, List.flatMap_cons, if_pos hc]
  rfl

theorem escape_plain (hc : ¬ (c = '\\' ∨ c = '"')) (s : List Char) :
    escape (c :: s) = c :: escape s := by
  rw [escape, List.flatMap_cons, if_neg hc]
  rfl

theorem escape_quotable (s : List Char) : Quotable (escape s) := by
  induction s with
  | nil => exact .nil
  | cons c s ih =>
      by_cases hc : c = '\\' ∨ c = '"'
      · rw [escape_special hc]
        exact .escaped ih
      · rw [escape_plain hc]
        rw [not_or] at hc
        exact .plain hc.2 hc.1 ih

/-- What was written between double quotes is read back. -/
theorem scanQuoted_escape (s rest : List Char) :
    scanQuoted (escape s ++ '"' :: rest) = .ok (s, rest) := by
  induction s with
  | nil => rfl
  | cons c s ih =>
      by_cases hc : c = '\\' ∨ c = '"'
      · have hescape : escaped? c = some c := by
          rcases hc with rfl | rfl <;> rfl
        rw [escape_special hc, List.cons_append, List.cons_append, scanQuoted, hescape, ih]
        rfl
      · rw [escape_plain hc, List.cons_append]
        rw [not_or] at hc
        rw [scanQuoted_plain hc.2 hc.1, ih]
        rfl

end Escape

/-- The literals of a text. -/
inductive Spells (s : List Char) : List Char → Prop
  | quoted : Spells s ('"' :: (escape s ++ ['"']))
  | raw : '\x60' ∉ s → Spells s ('\x60' :: (s ++ ['\x60']))

/-- The body that sets a literal off by blanks. -/
def setOff (literal : List Char) : List Char := ' ' :: (literal ++ [' '])

namespace Spells

variable {s literal : List Char}

/-- No closing delimiter in a literal closes its action. -/
theorem enclosed (h : Spells s literal) : Enclosed (setOff literal) := by
  have hblank : Enclosed [' '] := .plain (by decide) (by decide) (absurd · (by decide)) .nil
  have hliteral : Enclosed (literal ++ [' ']) := by
    cases h with
    | quoted => simpa using hblank.quoted (escape_quotable s)
    | raw hraw => simpa using hblank.raw hraw
  exact .plain (by decide) (by decide) (absurd · (by decide)) hliteral

/-- A literal begins no comment. -/
theorem beginsComment_setOff (h : Spells s literal) : beginsComment (setOff literal) = false := by
  cases h with
  | quoted => rfl
  | raw => rfl

/-- The text of a literal is read from its first character on. -/
theorem scan_eq (h : Spells s literal) (rest : List Char) :
    ∃ c behind, literal ++ rest = c :: behind ∧ isBlank c = false ∧
      scan c behind = .ok (textLexeme s, rest) := by
  cases h with
  | quoted =>
      refine ⟨'"', escape s ++ '"' :: rest, by simp, by decide, ?_⟩
      rw [scan_quote, scanQuoted_escape]
      rfl
  | raw hraw =>
      refine ⟨'\x60', s ++ '\x60' :: rest, by simp, by decide, ?_⟩
      rw [scan_backquote, scanRaw_literal hraw]
      rfl

end Spells

/-! ## Bodies -/

theorem ofBody_blank {s : List Char} (h : s.dropWhile isBlank = []) : ofBody s = .ok [] := by
  rw [ofBody]
  split
  · rfl
  · rename_i hs
    cases h.symm.trans hs

theorem ofBody_cons {s rest behind : List Char} {c : Char} {lexeme : Lexeme}
    (h : s.dropWhile isBlank = c :: rest) (hscan : scan c rest = .ok (lexeme, behind)) :
    ofBody s = (do
      let others ← ofBody behind
      .ok (⟨lexeme, (s.head?.map isBlank).getD false⟩ :: others)) := by
  rw [ofBody]
  split
  · rename_i hs
    cases h.symm.trans hs
  · rename_i hs
    cases h.symm.trans hs
    split
    · rename_i hfault
      cases hscan.symm.trans hfault
    · rename_i hread
      cases hscan.symm.trans hread
      rfl

/-- A literal set off by blanks is a single token. -/
theorem Spells.ofBody_setOff {s literal : List Char} (h : Spells s literal) :
    ofBody (setOff literal) = .ok [⟨textLexeme s, true⟩] := by
  obtain ⟨c, behind, hliteral, hblank, hscan⟩ := h.scan_eq [' ']
  have hfront : (setOff literal).dropWhile isBlank = c :: behind := by
    calc (setOff literal).dropWhile isBlank = (literal ++ [' ']).dropWhile isBlank := rfl
      _ = c :: behind := by rw [hliteral, List.dropWhile_cons_of_neg (by simp [hblank])]
  have hend : ofBody [' '] = .ok [] := ofBody_blank rfl
  rw [ofBody_cons hfront hscan, hend]
  rfl

end Token

/-! ## Templates -/

namespace Segment

/-- A source that is a single action without trim marks. -/
theorem ofSource_braced {interior : List Char} (h : Enclosed interior)
    (hcomment : beginsComment interior = false) (hfront : beginsTrim interior = false)
    (hback : beginsTrim interior.reverse = false) :
    ofSource (braced (String.ofList interior)) = .ok [.action 1 interior] := by
  have hgap : cutAt openMark (braced (String.ofList interior)).toList =
      some ([], interior ++ closeMark ++ []) := by
    refine (cutAt_eq_some_iff (by decide)).mpr ⟨?_, by decide⟩
    simp [braced, openMark, closeMark]
  have htrim : takeTrim interior = (false, interior) := by
    rw [takeTrim_eq, hfront]
    rfl
  have hdrop : dropTrim interior = (interior, false) := by
    rw [dropTrim_eq, hback]
    rfl
  have hact : takeAction (interior ++ closeMark ++ []) = some (⟨false, interior, false⟩, []) := by
    have hbounded : Bounded (takeTrim interior).2 := by
      rw [htrim, Bounded, hcomment]
      exact h
    rw [takeAction_append hbounded, htrim, hdrop]
  have hown : ofAction (1 + lineFeeds []) ⟨false, interior, false⟩ = .ok [.action 1 interior] := by
    rw [ofAction, hcomment]
    rfl
  rw [ofSource, cut_action hgap hact, hown, cut_last (by decide)]
  rfl

end Segment

/-- An action whose only token is a text prints it. -/
theorem Reading.segment_text {isFunction : String → Bool} {body : List Char} {s : String}
    {isSpaced : Bool} (h : Token.ofBody body = .ok [⟨.text s, isSpaced⟩]) (r : Reading)
    (line : Nat) : r.segment isFunction (.action line body) =
      .ok (r.push (.action line ⟨[], false, [[.text s]]⟩)) := by
  have hpipe : r.pipeline isFunction .action line [⟨.text s, isSpaced⟩] =
      .ok ⟨[], false, [[.text s]]⟩ := by
    have htokens : Pipeline.ofTokens ⟨isFunction, r.vars⟩ .action [⟨.text s, isSpaced⟩] =
        .ok ⟨[], false, [[.text s]]⟩ := by
      rfl
    rw [pipeline, htokens]
  have hscope : Pipeline.scope ⟨[], false, [[.text s]]⟩ r.vars = r.vars := List.append_nil _
  rw [segment, h]
  show (do
    let pipe ← r.pipeline isFunction .action line [⟨.text s, isSpaced⟩]
    Except.ok { r.push (.action line pipe) with vars := pipe.scope r.vars }) = _
  rw [hpipe, ok_bind, hscope]
  rfl

/-- A literal set off by blanks makes an action that prints its text. -/
theorem Token.Spells.parse {s literal : List Char} (h : Spells s literal) (name : String)
    (isFunction : String → Bool) (globals : List String) :
    Template.parse name (braced (String.ofList (setOff literal))) isFunction globals =
      .ok ⟨name, [.action 1 ⟨[], false, [[.text (String.ofList s)]]⟩]⟩ := by
  have hback : Segment.beginsTrim (setOff literal).reverse = false := by
    simp [setOff, Segment.beginsTrim]
  have hsource : Segment.ofSource (braced (String.ofList (setOff literal))) =
      .ok [.action 1 (setOff literal)] :=
    Segment.ofSource_braced h.enclosed h.beginsComment_setOff rfl hback
  have hsegments : [Segment.action 1 (setOff literal)].foldlM (Reading.segment isFunction)
      (Reading.start globals) = .ok ((Reading.start globals).push
        (.action 1 ⟨[], false, [[.text (String.ofList s)]]⟩)) := by
    rw [List.foldlM_cons, Reading.segment_text h.ofBody_setOff, ok_bind]
    rfl
  rw [Template.parse, readSource, hsource, ok_bind, hsegments]
  rfl

/-- **A text is read back from its literals**, the quoted one and, if there is no backquote in it,
the raw one. -/
theorem Template.parse_literal (name s : String) (isFunction : String → Bool)
    (globals : List String) :
    let escaped := String.ofList (Token.escape s.toList)
    let printed : Template := ⟨name, [.action 1 ⟨[], false, [[.text s]]⟩]⟩
    parse name (braced (" \"" ++ escaped ++ "\" ")) isFunction globals = .ok printed ∧
      ('\x60' ∉ s.toList →
        parse name (braced (" \x60" ++ s ++ "\x60 ")) isFunction globals = .ok printed) := by
  intro escaped printed
  constructor
  · have hquoted : Token.Spells s.toList ('"' :: (Token.escape s.toList ++ ['"'])) := .quoted
    have hsource : String.ofList (Token.setOff ('"' :: (Token.escape s.toList ++ ['"']))) =
        " \"" ++ escaped ++ "\" " := by
      rw [String.ext_iff]
      simp [Token.setOff, escaped]
    have hparse := hquoted.parse name isFunction globals
    rwa [hsource, String.ofList_toList] at hparse
  · intro hs
    have hraw : Token.Spells s.toList ('\x60' :: (s.toList ++ ['\x60'])) := .raw hs
    have hsource : String.ofList (Token.setOff ('\x60' :: (s.toList ++ ['\x60']))) =
        " \x60" ++ s ++ "\x60 " := by
      rw [String.ext_iff]
      simp [Token.setOff]
    have hparse := hraw.parse name isFunction globals
    rwa [hsource, String.ofList_toList] at hparse

/-- A text with both delimiters, a comment, trim marks, a quote, a backslash and a line feed. -/
theorem Template.parse_literal_delimiters :
    let s := "\x7d\x7d -\x7b\x7b/* \"\\\n*/ - "
    let escaped := "\x7d\x7d -\x7b\x7b/* \\\"\\\\\n*/ - "
    let printed : Template := ⟨"t", [.action 1 ⟨[], false, [[.text s]]⟩]⟩
    parse "t" (braced (" \"" ++ escaped ++ "\" ")) (fun _ => false) [] = .ok printed ∧
      '\x60' ∉ s.toList ∧
      parse "t" (braced (" \x60" ++ s ++ "\x60 ")) (fun _ => false) [] = .ok printed := by
  intro s escaped printed
  have hescaped : String.ofList (Token.escape s.toList) = escaped := by
    decide
  have hs : '\x60' ∉ s.toList := by decide
  obtain ⟨hquoted, hraw⟩ := Template.parse_literal "t" s (fun _ => false) []
  rw [hescaped] at hquoted
  exact ⟨hquoted, hs, hraw hs⟩

end SqlTemplate
