import Mathlib
import SqlTemplate.Proofs.Statement.Pieces
import SqlTemplate.Proofs.Statement.Spacing

/-!
# The words of a text

Narrowing leaves of a text its words, with single spaces between them. While text is taken, the flag
says what the words alone cannot: whether the next character begins another word or goes on with the
last one. `Spacing.Tells` ties text and flag to the characters that have been taken, and every
character keeps it, so that it does not matter into which pieces a text was cut or what had been
written before it was dropped (`Spacing.edits_text`).
-/

set_option autoImplicit false

namespace SqlTemplate

/-! ## Words -/

/-- The words of a text: its longest stretches without blanks. -/
def wordsOf (chars : List Char) : List (List Char) :=
  (chars.splitOnP isBlank).filter (· ≠ [])

section Words

variable {c : Char} {word : List Char}

/-- A blank belongs to no word, and no word goes on behind it. -/
theorem wordsOf_append_blank (hc : isBlank c = true) (front behind : List Char) :
    wordsOf (front ++ c :: behind) = wordsOf front ++ wordsOf behind := by
  rw [wordsOf, List.splitOnP_append_cons front behind hc, List.filter_append]
  rfl

theorem wordsOf_solid (hne : word ≠ []) (hword : ∀ c ∈ word, isBlank c = false) :
    wordsOf word = [word] := by
  rw [wordsOf, List.splitOnP_eq_singleton hword]
  simp [hne]

theorem wordsOf_nil : wordsOf [] = [] := rfl

/-- Where the last word of a text begins: what follows goes on with this word, which has no
characters yet if the text ends in a blank. -/
theorem exists_lastWord (chars : List Char) : ∃ (words : List (List Char)) (last : List Char),
    (∀ c ∈ last, isBlank c = false) ∧ (last = [] ↔ chars = [] ∨ endsBlank chars = true) ∧
      ∀ behind, wordsOf (chars ++ behind) = words ++ wordsOf (last ++ behind) := by
  induction chars using List.reverseRecOn with
  | nil => exact ⟨[], [], by simp, by simp, fun _ => rfl⟩
  | append_singleton front c ih =>
      cases hc : isBlank c with
      | true =>
          refine ⟨wordsOf front, [], by simp, by simp [endsBlank, hc], fun behind => ?_⟩
          rw [List.append_assoc, List.singleton_append, wordsOf_append_blank hc, List.nil_append]
      | false =>
          obtain ⟨words, last, hlast, -, hwords⟩ := ih
          refine ⟨words, last ++ [c], ?_, by simp [endsBlank, hc], fun behind => ?_⟩
          · simpa [or_imp, forall_and, hc] using hlast
          · rw [List.append_assoc, hwords, List.append_assoc]

theorem ne_nil_of_mem_wordsOf {chars : List Char} (h : word ∈ wordsOf chars) : word ≠ [] := by
  simpa using (List.mem_filter.mp h).2

/-- A space stands behind every word but the last. -/
theorem intercalate_concat (words : List (List Char)) (word : List Char) :
    [' '].intercalate (words ++ [word]) = words.flatMap (· ++ [' ']) ++ word := by
  induction words with
  | nil => simp
  | cons first rest ih =>
      rw [List.cons_append, List.intercalate_cons_of_ne_nil (by simp), ih]
      simp

theorem intercalate_space {words : List (List Char)} (h : words ≠ []) :
    [' '].intercalate words ++ [' '] = words.flatMap (· ++ [' ']) := by
  obtain ⟨front, word, rfl⟩ := (List.eq_nil_or_concat words).resolve_left h
  simp [intercalate_concat]

theorem intercalate_wordsOf_eq_nil {chars : List Char} :
    [' '].intercalate (wordsOf chars) = [] ↔ wordsOf chars = [] := by
  rcases List.eq_nil_or_concat (wordsOf chars) with hnil | ⟨words, word, hwords⟩
  · simp [hnil]
  · have hmem : word ∈ wordsOf chars := by simp [hwords]
    have hword : word ≠ [] := ne_nil_of_mem_wordsOf hmem
    rw [hwords, List.concat_eq_append, intercalate_concat]
    simp [hword]

end Words

namespace Spacing

variable {s : Spacing} {c : Char} {chars : List Char}

/-- What the text and the flag say of the characters that have been taken: the text is their words
with single spaces between them, and a run has begun behind it just if there are words and the
last character is a blank. -/
structure Tells (s : Spacing) (chars : List Char) : Prop where
  text : s.text.toList = [' '].intercalate (wordsOf chars)
  pending : s.pending = true ↔ wordsOf chars ≠ [] ∧ endsBlank chars = true

theorem tells_empty : empty.Tells [] := ⟨rfl, by simp [empty, endsBlank]⟩

/-- With the space that is pending, the text stops where the next character goes on. -/
theorem Tells.spaced (h : s.Tells chars) {words : List (List Char)} {last : List Char}
    (hlast : ∀ c ∈ last, isBlank c = false)
    (hnil : last = [] ↔ chars = [] ∨ endsBlank chars = true)
    (hwords : wordsOf chars = words ++ wordsOf last) :
    s.spaced = words.flatMap (· ++ [' ']) ++ last := by
  rw [Spacing.spaced, h.text]
  by_cases hbegins : last = []
  · rw [hbegins, wordsOf_nil, List.append_nil] at hwords
    rw [hwords, hbegins, List.append_nil]
    by_cases hfirst : words = []
    · have hpending : s.pending = false := by simp [Bool.eq_false_iff, h.pending, hwords, hfirst]
      simp [hpending, hfirst]
    · have hchars : chars ≠ [] := by
        rintro rfl
        exact hfirst hwords.symm
      have hblank : endsBlank chars = true := (hnil.mp hbegins).resolve_left hchars
      have hpending : s.pending = true := h.pending.mpr ⟨hwords ▸ hfirst, hblank⟩
      rw [if_pos hpending, intercalate_space hfirst]
  · have hpending : s.pending = false := by
      rw [Bool.eq_false_iff]
      exact fun hp => hbegins (hnil.mpr (.inr (h.pending.mp hp).2))
    rw [hwords, wordsOf_solid hbegins hlast, intercalate_concat]
    simp [hpending]

/-- One more character keeps text and flag true to what has been taken. -/
theorem Tells.push (h : s.Tells chars) (c : Char) : (s.push c).Tells (chars ++ [c]) := by
  cases hc : isBlank c with
  | true =>
      have hsame : wordsOf (chars ++ [c]) = wordsOf chars := by
        rw [wordsOf_append_blank hc, wordsOf_nil, List.append_nil]
      have hempty : s.text = "" ↔ wordsOf chars = [] := by
        rw [← intercalate_wordsOf_eq_nil, ← h.text, String.toList_eq_nil_iff]
      rw [push_blank hc]
      exact ⟨hsame ▸ h.text, by simp [hsame, hempty, endsBlank, hc]⟩
  | false =>
      -- The character begins a word or goes on with the last one.
      obtain ⟨words, last, hlast, hnil, hwords⟩ := exists_lastWord chars
      have hspaced := h.spaced hlast hnil (by simpa using hwords [])
      have hmore : wordsOf (chars ++ [c]) = words ++ [last ++ [c]] := by
        rw [hwords, wordsOf_solid (by simp) (by simpa [or_imp, forall_and, hc] using hlast)]
      rw [push_solid hc]
      refine ⟨?_, by simp [endsBlank, hc]⟩
      rw [String.toList_ofList, hmore, intercalate_concat, hspaced, List.append_assoc]

/-- Text and flag are true to all that is taken from the start. -/
theorem tells_takes (chars : List Char) : (empty.takes chars).Tells chars := by
  induction chars using List.reverseRecOn with
  | nil => exact tells_empty
  | append_singleton front c ih =>
      rw [takes_append]
      exact ih.push c

end Spacing

/-- **What is left of a text is its words**, with single spaces between them. -/
theorem normalize_toList (text : String) :
    (normalize text).toList = [' '].intercalate (wordsOf text.toList) :=
  (Spacing.tells_takes text.toList).text

/-! ## What is narrow stays as it is -/

theorem Spacing.Narrow.takes_text_eq {s : Spacing} (h : s.Narrow) :
    (empty.takes s.text.toList).text = s.text := by
  rw [← String.toList_inj]
  by_cases hnil : s.text.toList = []
  · rw [hnil]
    rfl
  · have hspaced : (empty.takes s.text.toList).spaced = [] ++ s.text.toList :=
      narrow_empty.takes_even h.even h.starts
    exact spaced_eq_text hspaced hnil h.ends

/-- Text that has been narrowed is not narrowed any further. -/
theorem normalize_normalize (text : String) : normalize (normalize text) = normalize text :=
  (Spacing.narrow_empty.takes text.toList).takes_text_eq

theorem Spacing.Narrow.no_spaces {s : Spacing} (h : s.Narrow) :
    s.text.toList.head? ≠ some ' ' ∧ s.text.toList.getLast? ≠ some ' ' ∧
      ¬ [' ', ' '] <:+: s.text.toList := by
  have hspace : isBlank ' ' = true := rfl
  refine ⟨fun hhead => ?_, fun hlast => ?_, fun hdouble => ?_⟩
  · have hstarts := h.starts
    simp [startsBlank, hhead, hspace] at hstarts
  · have hends := h.ends
    simp [endsBlank, hlast, hspace] at hends
  · obtain ⟨front, behind, htext⟩ := hdouble
    have heven := h.even
    rw [← htext, evenlySpaced_append, evenlySpaced_append] at heven
    simpa [EvenlySpaced, hspace] using heven.1.2.1

/-! ## Pieces and fresh starts -/

namespace Spacing

/-- What is done to spacing: a piece is written, or all text is dropped. -/
inductive Edit
  | write (piece : String)
  | reset

/-- Whether an edit writes. -/
def Edit.isWrite : Edit → Bool
  | .write _ => true
  | .reset => false

/-- The piece that an edit writes. -/
def Edit.piece : Edit → String
  | .write piece => piece
  | .reset => ""

/-- What has been written since all text was last dropped. -/
def written (edits : List Edit) : String :=
  String.join ((edits.rtakeWhile Edit.isWrite).map Edit.piece)

/-- What an edit makes of spacing. -/
def edit (s : Spacing) : Edit → Spacing
  | .write piece => s.write piece
  | .reset => empty

/-- What edits make of spacing, one after the other. -/
def edits (s : Spacing) (edits : List Edit) : Spacing := edits.foldl edit s

/-- Edits leave what one piece would that holds all that was written since text was last dropped. -/
theorem edits_eq_write (edits : List Edit) : empty.edits edits = empty.write (written edits) := by
  induction edits using List.reverseRecOn with
  | nil => rfl
  | append_singleton before last ih =>
      have hlast : empty.edits (before ++ [last]) = (empty.edits before).edit last :=
        List.foldl_concat ..
      rw [hlast, ih]
      cases last with
      | write piece =>
          have hwritten : written (before ++ [.write piece]) = written before ++ piece := by
            rw [written, List.rtakeWhile_concat_pos _ _ _ rfl]
            simp [written, Edit.piece]
          rw [hwritten, write_append]
          rfl
      | reset =>
          have hwritten : written (before ++ [.reset]) = "" := by
            rw [written, List.rtakeWhile_concat_neg _ _ _ (by simp [Edit.isWrite])]
            rfl
          rw [hwritten]
          rfl

/-- **Text is narrowed the same however it is cut.** Whatever pieces are written, and however often
all text is dropped in between, what is left are the words of all that has been written since, with
single spaces between them. -/
theorem edits_text (edits : List Edit) :
    let text := written edits
    let narrow := (empty.edits edits).text
    narrow.toList = [' '].intercalate (wordsOf text.toList) ∧ narrow = normalize text ∧
      (∀ others, written others = text → (empty.edits others).text = narrow) ∧
      narrow.toList.head? ≠ some ' ' ∧ narrow.toList.getLast? ≠ some ' ' ∧
      ¬ [' ', ' '] <:+: narrow.toList ∧ normalize narrow = narrow := by
  intro text narrow
  have hnarrow : narrow = normalize text := congrArg Spacing.text (edits_eq_write edits)
  obtain ⟨hhead, hlast, hdouble⟩ := (narrow_empty.takes text.toList).no_spaces
  refine ⟨?_, hnarrow, fun others hothers => ?_, ?_, ?_, ?_, ?_⟩
  · rw [hnarrow, normalize_toList]
  · rw [edits_eq_write, hothers, hnarrow]
    rfl
  · rwa [hnarrow]
  · rwa [hnarrow]
  · rwa [hnarrow]
  · rw [hnarrow, normalize_normalize]

/-- The same text in other pieces, behind a text that is dropped. -/
theorem edits_text_split :
    let edits : List Edit := [.write "x ", .reset, .write "\n SELECT ", .write "\t", .write "1 "]
    let others : List Edit := [.write "\n SEL", .write "ECT \t1 "]
    written others = written edits ∧ (empty.edits others).text = (empty.edits edits).text ∧
      (empty.edits edits).text = "SELECT 1" := by
  intro edits others
  have hwritten : written others = written edits := by
    decide
  exact ⟨hwritten, (edits_text edits).2.2.1 others hwritten, by decide⟩

end Spacing

end SqlTemplate
