import Mathlib
import SqlTemplate.Proofs.Basic
import SqlTemplate.Proofs.Template.Parts
import SqlTemplate.Template.Segment

/-!
# Sources and their segments

A source that is cut into segments is put together again from gaps and actions: a gap is a text
without an opening delimiter, and an action is an interior between its delimiters. Which text a gap
leaves, and with which body and line an action goes on, is read off them without the search that
found them (`segmentsOf`), and `ofSource_splits` says that these are the segments. A closing
delimiter in a literal closes nothing: outside of comments, interiors are `Enclosed`.
-/

set_option autoImplicit false

namespace SqlTemplate

namespace Segment

/-! ## Searching -/

/-- A cut in a text is one in the rest of it, with what stood in front put back. -/
theorem map_cut_eq_some {cut : Option (List Char × List Char)} {f : List Char → List Char}
    {a b : List Char} : (cut.map fun (before, behind) => (f before, behind)) = some (a, b) ↔
      ∃ before, cut = some (before, b) ∧ f before = a := by
  rw [Option.map_eq_some_iff]
  constructor
  · rintro ⟨⟨before, behind⟩, hcut, heq⟩
    cases heq
    exact ⟨before, hcut, rfl⟩
  · rintro ⟨before, hcut, rfl⟩
    exact ⟨(before, b), hcut, rfl⟩

/-- A search that succeeds has come to the first occurrence: the pattern begins nowhere in front of
it, not even with characters that are in front. -/
theorem cutAt_eq_some_iff {pattern s a b : List Char} (hpattern : pattern ≠ []) :
    cutAt pattern s = some (a, b) ↔
      s = a ++ pattern ++ b ∧ ¬ pattern <:+: a ++ pattern.dropLast := by
  have hlength : 0 < pattern.length := List.length_pos_iff.mpr hpattern
  -- A text in front of an occurrence is followed by all but the last character of the pattern.
  have hfront : ∀ a b : List Char, a ++ pattern.dropLast <+: a ++ pattern ++ b := by
    intro a b
    rw [List.append_assoc]
    exact (List.prefix_append_right_inj a).mpr ((List.dropLast_prefix pattern).trans ⟨b, rfl⟩)
  induction s generalizing a with
  | nil =>
      rw [cutAt, if_neg hpattern]
      constructor
      · intro h
        cases h
      · rintro ⟨h, -⟩
        have := congrArg List.length h
        simp only [List.length_nil, List.length_append] at this
        omega
  | cons c rest ih =>
      rw [cutAt]
      by_cases hstart : pattern <+: c :: rest
      · rw [if_pos (List.isPrefixOf_iff_prefix.mpr hstart)]
        obtain ⟨behind, hbehind⟩ := hstart
        rw [← hbehind, List.drop_left]
        constructor
        · intro h
          cases h
          refine ⟨rfl, fun hinfix => ?_⟩
          have := hinfix.length_le
          simp only [List.nil_append, List.length_dropLast] at this
          omega
        · rintro ⟨heq, hfirst⟩
          -- Anything in front of the occurrence would be room for the pattern to begin earlier.
          have ha : a = [] := by
            by_contra hne
            have hroom : 0 < a.length := List.length_pos_iff.mpr hne
            have hbegins : pattern <+: pattern ++ behind := ⟨behind, rfl⟩
            have hearlier : a ++ pattern.dropLast <+: pattern ++ behind := heq ▸ hfront a b
            refine hfirst (List.prefix_of_prefix_length_le hbegins hearlier ?_).isInfix
            simp only [List.length_append, List.length_dropLast]
            omega
          subst ha
          simpa using heq
      · rw [if_neg (by simpa using hstart), map_cut_eq_some]
        constructor
        · rintro ⟨a', hcut, rfl⟩
          obtain ⟨rfl, hfirst⟩ := ih.mp hcut
          refine ⟨rfl, fun hinfix => ?_⟩
          rcases List.infix_cons_iff.mp hinfix with hstarts | hinfix
          · exact hstart (hstarts.trans (hfront (c :: a') b))
          · exact hfirst hinfix
        · rintro ⟨heq, hfirst⟩
          cases a with
          | nil => exact absurd ⟨b, heq.symm⟩ hstart
          | cons d a' =>
              obtain ⟨rfl, rfl⟩ := List.cons.inj heq
              refine ⟨a', ih.mpr ⟨rfl, fun hinfix => hfirst ?_⟩, rfl⟩
              exact hinfix.trans (List.suffix_cons c _).isInfix

/-- A search fails if the pattern does not occur. -/
theorem cutAt_eq_none_iff {pattern s : List Char} (hpattern : pattern ≠ []) :
    cutAt pattern s = none ↔ ¬ pattern <:+: s := by
  induction s with
  | nil => simp [cutAt, hpattern]
  | cons c rest ih =>
      rw [cutAt, List.infix_cons_iff, not_or, ← ih]
      by_cases hstart : pattern <+: c :: rest
      · simp [hstart]
      · simp [hstart]

/-! ## Interiors -/

/-- Whether characters can stand between two double quotes: a quote or a backslash stands behind a
backslash. -/
inductive Quotable : List Char → Prop
  | nil : Quotable []
  | plain {c : Char} {s : List Char} : c ≠ '"' → c ≠ '\\' → Quotable s → Quotable (c :: s)
  | escaped {c : Char} {s : List Char} : Quotable s → Quotable ('\\' :: c :: s)

/-- Whether a text can be the interior of an action that is no comment: all literals in it end, and
outside of them no brace stands before another one or at the end, where it would close the action
too early. -/
inductive Enclosed : List Char → Prop
  | nil : Enclosed []
  | plain {c : Char} {s : List Char} : c ≠ '"' → c ≠ '\x60' →
    (c = '\x7d' → ∃ d rest, s = d :: rest ∧ d ≠ '\x7d') → Enclosed s → Enclosed (c :: s)
  | quoted {literal s : List Char} : Quotable literal → Enclosed s →
    Enclosed ('"' :: literal ++ '"' :: s)
  | raw {literal s : List Char} : '\x60' ∉ literal → Enclosed s →
    Enclosed ('\x60' :: literal ++ '\x60' :: s)

/-- What a search for the closing delimiter has gone through, from where it stands: inside a
literal, that is the rest of the literal and what stands behind it. -/
def LiteralMode.Passed : LiteralMode → List Char → Prop
  | .plain, s => Enclosed s
  | .quoted, s => ∃ literal rest, s = literal ++ '"' :: rest ∧ Quotable literal ∧ Enclosed rest
  | .raw, s => ∃ literal rest, s = literal ++ '\x60' :: rest ∧ '\x60' ∉ literal ∧ Enclosed rest

/-- The search stops at a closing delimiter outside of literals. -/
theorem cutAtClose_passed {mode : LiteralMode} {s a b : List Char}
    (h : cutAtClose mode s = some (a, b)) : s = a ++ closeMark ++ b ∧ mode.Passed a := by
  fun_induction cutAtClose mode s generalizing a b with
  | case1 => cases h
  | case2 rest =>
      cases h
      exact ⟨rfl, .nil⟩
  | case3 c rest hbraces mode =>
      rename_i ih
      obtain ⟨a', hcut, rfl⟩ := map_cut_eq_some.mp h
      obtain ⟨rfl, hpassed⟩ := ih hcut
      refine ⟨rfl, ?_⟩
      simp only [mode] at hpassed
      by_cases hquote : c = '"'
      · rw [if_pos hquote] at hpassed
        obtain ⟨literal, rest, rfl, hliteral, hrest⟩ := hpassed
        rw [hquote]
        exact .quoted hliteral hrest
      · rw [if_neg hquote] at hpassed
        by_cases hraw : c = '\x60'
        · rw [if_pos hraw] at hpassed
          obtain ⟨literal, rest, rfl, hliteral, hrest⟩ := hpassed
          rw [hraw]
          exact .raw hliteral hrest
        · rw [if_neg hraw] at hpassed
          refine .plain hquote hraw ?_ hpassed
          -- Two braces, or one and the first of the delimiter, would have stopped the search.
          rintro rfl
          cases a' with
          | nil => exact (hbraces _ rfl rfl).elim
          | cons d rest =>
              refine ⟨d, rest, rfl, ?_⟩
              rintro rfl
              exact hbraces _ rfl rfl
  | case4 => cases h
  | case5 c rest ih =>
      obtain ⟨a', hcut, rfl⟩ := (map_cut_eq_some (f := fun body => '\\' :: c :: body)).mp h
      obtain ⟨rfl, literal, rest, rfl, hliteral, hrest⟩ := ih hcut
      exact ⟨rfl, '\\' :: c :: literal, rest, rfl, .escaped hliteral, hrest⟩
  | case6 c rest hend hescape ih =>
      obtain ⟨a', hcut, rfl⟩ := map_cut_eq_some.mp h
      obtain ⟨rfl, hpassed⟩ := ih hcut
      refine ⟨rfl, ?_⟩
      by_cases hquote : c = '"'
      · rw [if_pos hquote] at hpassed
        exact ⟨[], a', by rw [hquote]; rfl, .nil, hpassed⟩
      · rw [if_neg hquote] at hpassed
        obtain ⟨literal, rest, rfl, hliteral, hrest⟩ := hpassed
        refine ⟨c :: literal, rest, rfl, .plain hquote ?_ hliteral, hrest⟩
        rintro rfl
        cases literal with
        | nil => exact hescape _ _ rfl rfl
        | cons d literal => exact hescape _ _ rfl rfl
  | case7 c rest ih =>
      obtain ⟨a', hcut, rfl⟩ := map_cut_eq_some.mp h
      obtain ⟨rfl, hpassed⟩ := ih hcut
      refine ⟨rfl, ?_⟩
      by_cases hraw : c = '\x60'
      · rw [if_pos hraw] at hpassed
        exact ⟨[], a', by rw [hraw]; rfl, List.not_mem_nil, hpassed⟩
      · rw [if_neg hraw] at hpassed
        obtain ⟨literal, rest, rfl, hliteral, hrest⟩ := hpassed
        refine ⟨c :: literal, rest, rfl, ?_, hrest⟩
        rw [List.mem_cons, not_or]
        exact ⟨Ne.symm hraw, hliteral⟩

/-! ## Actions -/

/-- Whether a text begins with a trim mark. One at its end is found in the text read backwards. -/
def beginsTrim : List Char → Bool
  | '-' :: c :: _ => isBlank c
  | _ => false

/-- The action with an interior: its trim marks, and what is left without them. -/
def delimited (interior : List Char) : Delimited :=
  let behindMark := if beginsTrim interior then interior.tail else interior
  { trimsBefore := beginsTrim interior
    body := if beginsTrim interior.reverse then behindMark.dropLast else behindMark
    trimsBehind := beginsTrim interior.reverse }

/-- Whether an action is a comment. -/
def Delimited.isComment (d : Delimited) : Bool := beginsComment d.body && isWholeComment d.body

theorem eq_cons_of_beginsTrim {s : List Char} (h : beginsTrim s = true) : s = '-' :: s.tail := by
  unfold beginsTrim at h
  split at h
  · rfl
  · cases h

theorem eq_concat_of_beginsTrim {s : List Char} (h : beginsTrim s.reverse = true) :
    s = s.dropLast ++ ['-'] := by
  have := congrArg List.reverse (eq_cons_of_beginsTrim h)
  rwa [List.reverse_reverse, List.reverse_cons, List.tail_reverse, List.reverse_reverse] at this

/-- What is behind a solid character makes no trim mark. -/
theorem beginsTrim_append {s rest : List Char} {c : Char} (hc : isBlank c = false)
    (hrest : beginsTrim (c :: rest) = false) : beginsTrim (s ++ c :: rest) = beginsTrim s := by
  match s with
  | [] => exact hrest
  | [d] =>
      by_cases hd : d = '-'
      · subst hd
        exact hc
      · simp [beginsTrim, hd]
  | d :: e :: s =>
      by_cases hd : d = '-'
      · subst hd
        rfl
      · simp [beginsTrim, hd]

theorem takeTrim_eq (s : List Char) :
    takeTrim s = (beginsTrim s, if beginsTrim s then s.tail else s) := by
  unfold takeTrim beginsTrim
  split
  · split <;> simp [*]
  · simp

theorem dropTrim_eq (s : List Char) :
    dropTrim s = (if beginsTrim s.reverse then s.dropLast else s, beginsTrim s.reverse) := by
  have hlast : s.dropLast = s.reverse.tail.reverse := by simp
  rw [hlast, dropTrim]
  unfold beginsTrim
  split
  · split <;> simp [*]
  · simp

theorem dropTrim_prefix_self (s : List Char) : (dropTrim s).1 <+: s := by
  rw [dropTrim_eq]
  dsimp only
  split
  · exact List.dropLast_prefix s
  · exact List.prefix_rfl

/-- Taking a trim mark off the back leaves a front that ends in another character. -/
theorem prefix_dropTrim {front s : List Char} {c : Char} (hc : c ≠ '-') (h : front ++ [c] <+: s) :
    front ++ [c] <+: (dropTrim s).1 := by
  rw [dropTrim_eq]
  by_cases htrim : beginsTrim s.reverse = true
  · rw [eq_concat_of_beginsTrim htrim, List.prefix_concat_iff] at h
    rw [if_pos htrim]
    refine h.resolve_left fun heq => hc ?_
    simpa using congrArg List.getLast? heq
  · rwa [if_neg htrim]

theorem beginsComment_iff {s : List Char} : beginsComment s = true ↔
    ∃ gap : List Char, (∀ c ∈ gap, isBlank c = true) ∧ gap ++ commentOpen <+: s := by
  rw [beginsComment, trimFront, List.isPrefixOf_iff_prefix]
  constructor
  · intro h
    refine ⟨s.takeWhile isBlank, fun c => List.mem_takeWhile_imp, ?_⟩
    have := (List.prefix_append_right_inj (s.takeWhile isBlank)).mpr h
    rwa [List.takeWhile_append_dropWhile] at this
  · rintro ⟨gap, hgap, rest, rfl⟩
    rw [List.append_assoc, List.dropWhile_append_of_pos hgap]
    exact ⟨rest, rfl⟩

/-- An action without its closing delimiter is a comment, or nothing in it could have closed it
earlier. -/
theorem cutInterior_eq_some {s interior rest : List Char}
    (h : cutInterior s = some (interior, rest)) : s = interior ++ closeMark ++ rest ∧
      (beginsComment (dropTrim interior).1 = true ∨ Enclosed interior) := by
  rw [cutInterior] at h
  split at h
  case isTrue hcomment =>
    obtain ⟨⟨comment, behind⟩, hcut, h⟩ := Option.bind_eq_some_iff.mp h
    obtain ⟨⟨gap, rest'⟩, hclose, h⟩ := Option.bind_eq_some_iff.mp h
    cases h
    obtain ⟨rfl, -⟩ := (cutAt_eq_some_iff (by decide)).mp hcut
    obtain ⟨rfl, -⟩ := (cutAt_eq_some_iff (by decide)).mp hclose
    refine ⟨by simp only [List.append_assoc], Or.inl ?_⟩
    obtain ⟨blanks, hblanks, hopen⟩ := beginsComment_iff.mp hcomment
    -- The mark that ends the comment is not among the blanks in front of it.
    have hlength : blanks.length ≤ comment.length := by
      by_contra hlt
      have hclosing : comment ++ ['*'] <+: comment ++ commentClose ++ (gap ++ closeMark ++ rest) :=
        ⟨'/' :: (gap ++ closeMark ++ rest), by simp [commentClose]⟩
      have hstar : comment ++ ['*'] <+: blanks := by
        refine List.prefix_of_prefix_length_le hclosing ((List.prefix_append _ _).trans hopen) ?_
        simp only [List.length_append, List.length_singleton]
        omega
      have := hblanks '*' (hstar.subset (by simp))
      exact absurd this (by decide)
    refine beginsComment_iff.mpr ⟨blanks, hblanks, ?_⟩
    have hfront : blanks ++ commentOpen <+: comment ++ commentClose := by
      refine List.prefix_of_prefix_length_le hopen (List.prefix_append _ _) ?_
      simp only [List.length_append, commentOpen, commentClose, List.length_cons, List.length_nil]
      omega
    have hback : (comment ++ ['*']) ++ ['/'] <+: comment ++ commentClose ++ gap :=
      ⟨gap, by simp [commentClose]⟩
    have := prefix_dropTrim (by decide) hback
    rw [List.append_assoc] at this
    exact hfront.trans this
  case isFalse =>
    obtain ⟨rfl, hpassed⟩ := cutAtClose_passed h
    exact ⟨rfl, Or.inr hpassed⟩

theorem takeAction_eq (s : List Char) : takeAction s = (cutInterior (takeTrim s).2).map fun cut =>
    (⟨(takeTrim s).1, (dropTrim cut.1).1, (dropTrim cut.1).2⟩, cut.2) := rfl

theorem takeAction_eq_some {s rest : List Char} {d : Delimited}
    (h : takeAction s = some (d, rest)) : ∃ interior, s = interior ++ closeMark ++ rest ∧
      d = delimited interior ∧ (beginsComment d.body = true ∨ Enclosed interior) := by
  rw [takeAction_eq, takeTrim_eq] at h
  obtain ⟨⟨inner, rest'⟩, hcut, heq⟩ := Option.map_eq_some_iff.mp h
  obtain ⟨rfl, rfl⟩ := Prod.mk.inj heq
  obtain ⟨hs, hinner⟩ := cutInterior_eq_some hcut
  dsimp only at hs hinner ⊢
  by_cases htrim : beginsTrim s = true
  · rw [if_pos htrim] at hs
    have hs : s = ('-' :: inner) ++ closeMark ++ rest' := by
      rw [eq_cons_of_beginsTrim htrim, hs]
      rfl
    have hfront : beginsTrim ('-' :: inner) = true := by
      rw [← htrim, hs, List.append_assoc]
      exact (beginsTrim_append (by decide) rfl).symm
    -- The mark at the front is part of the interior, but not of a mark at its end.
    have hback : beginsTrim ('-' :: inner).reverse = beginsTrim inner.reverse := by
      rw [List.reverse_cons]
      exact beginsTrim_append (by decide) rfl
    refine ⟨'-' :: inner, hs, ?_, ?_⟩
    · rw [delimited, hfront, hback, htrim, dropTrim_eq]
      rfl
    · exact hinner.imp_right (.plain (by decide) (by decide) (fun h => absurd h (by decide)))
  · rw [if_neg htrim] at hs
    have hclose : beginsTrim (inner ++ closeMark ++ rest') = beginsTrim inner := by
      rw [List.append_assoc]
      exact beginsTrim_append (by decide) rfl
    have hfront : beginsTrim inner = false := by
      rw [← Bool.not_eq_true, ← hclose, ← hs]
      exact htrim
    refine ⟨inner, hs, ?_, hinner⟩
    rw [delimited, hfront, dropTrim_eq, Bool.eq_false_of_not_eq_true htrim]
    rfl

/-! ## Segments -/

/-- A gap and the interior of the action behind it. -/
structure Part where
  gap : List Char
  interior : List Char
deriving Repr, DecidableEq

namespace Part

/-- The text of a part. -/
def text (p : Part) : List Char := p.gap ++ openMark ++ p.interior ++ closeMark

/-- The action of a part. -/
def action (p : Part) : Delimited := delimited p.interior

end Part

/-- The segments of parts and the gap behind them. In front of the parts stand the characters
`before`, and at their end an action that trims what follows if `behindTrim`. -/
def segmentsOf (before : List Char) (behindTrim : Bool) : List Part → List Char → List Segment
  | [], last => ofText (trimGap behindTrim false last)
  | p :: parts, last =>
    ofText (trimGap behindTrim p.action.trimsBefore p.gap) ++
      (if p.action.isComment then []
        else [.action (1 + lineFeeds (before ++ p.gap)) p.action.body]) ++
      segmentsOf (before ++ p.text) p.action.trimsBehind parts last

theorem lineFeeds_append (s t : List Char) : lineFeeds (s ++ t) = lineFeeds s + lineFeeds t :=
  List.count_append

/-- The lines that a part takes up: those of its gap, and those that are passed up to what is behind
it. -/
theorem lineFeeds_part (p : Part) (rest : List Char) :
    lineFeeds p.gap + lineFeeds ((p.interior ++ closeMark ++ rest).take
      ((p.interior ++ closeMark ++ rest).length - rest.length)) = lineFeeds p.text := by
  have htake : (p.interior ++ closeMark ++ rest).take
      ((p.interior ++ closeMark ++ rest).length - rest.length) = p.interior ++ closeMark := by
    rw [List.length_append, Nat.add_sub_cancel, List.take_left]
  have hopen : lineFeeds openMark = 0 := by decide
  rw [htake, Part.text]
  simp only [lineFeeds_append, hopen]
  omega

/-- What an action leaves; one that begins as a comment is one. -/
theorem ofAction_eq_ok {line : Nat} {d : Delimited} {segments : List Segment}
    (h : ofAction line d = .ok segments) :
    beginsComment d.body = d.isComment ∧
      segments = if d.isComment then [] else [.action line d.body] := by
  rw [ofAction] at h
  rw [Delimited.isComment]
  split at h
  · split at h
    · cases h
      simp [*]
    · cases h
  · cases h
    simp [*]

theorem cut_splits {line : Nat} {behindTrim : Bool} {s before : List Char}
    {segments : List Segment} (h : cut line behindTrim s = .ok segments)
    (hline : line = 1 + lineFeeds before) : ∃ parts last,
      s = parts.flatMap Part.text ++ last ∧
      (∀ p ∈ parts, ¬ openMark <:+: p.gap ++ openMark.dropLast ∧
        (p.action.isComment = true ∨ Enclosed p.interior)) ∧
      ¬ openMark <:+: last ∧ segments = segmentsOf before behindTrim parts last := by
  fun_induction cut line behindTrim s generalizing before segments with
  | case1 line behindTrim s hgap =>
      cases h
      exact ⟨[], s, rfl, nofun, (cutAt_eq_none_iff (by decide)).mp hgap, rfl⟩
  | case2 => cases h
  | case3 line behindTrim s gap behindOpen hgap here d rest hact =>
      rename_i ih
      obtain ⟨own, hown, h⟩ := bind_eq_ok.mp h
      obtain ⟨others, hothers, h⟩ := bind_eq_ok.mp h
      obtain ⟨rfl, hfirst⟩ := (cutAt_eq_some_iff (by decide)).mp hgap
      obtain ⟨interior, rfl, rfl, hinterior⟩ := takeAction_eq_some hact
      obtain ⟨hcomment, rfl⟩ := ofAction_eq_ok hown
      let p : Part := ⟨gap, interior⟩
      -- The next action is on the line that the characters up to here lead to.
      have hnext : here + lineFeeds ((interior ++ closeMark ++ rest).take
          ((interior ++ closeMark ++ rest).length - rest.length)) =
          1 + lineFeeds (before ++ p.text) := by
        have hpart := lineFeeds_part p rest
        simp only [p] at hpart
        rw [lineFeeds_append]
        simp only [here, p, hline]
        omega
      obtain ⟨parts, last, rfl, hparts, hlast, rfl⟩ := ih hothers hnext
      refine ⟨p :: parts, last, ?_, ?_, hlast, ?_⟩
      · simp [p, Part.text]
      · rw [List.forall_mem_cons]
        rw [hcomment] at hinterior
        exact ⟨⟨hfirst, hinterior⟩, hparts⟩
      · cases h
        have hhere : here = 1 + lineFeeds (before ++ gap) := by
          simp only [here, hline, lineFeeds_append]
          omega
        rw [hhere]
        rfl

/-- **A source that can be cut is made of gaps and actions, and its segments are theirs.** No gap
holds an opening delimiter, not even together with the first brace of the action behind it. -/
theorem ofSource_splits {source : String} {segments : List Segment}
    (h : ofSource source = .ok segments) : ∃ parts last,
      source.toList = parts.flatMap Part.text ++ last ∧
      (∀ p ∈ parts, ¬ openMark <:+: p.gap ++ openMark.dropLast ∧
        (p.action.isComment = true ∨ Enclosed p.interior)) ∧
      ¬ openMark <:+: last ∧ segments = segmentsOf [] false parts last :=
  cut_splits h rfl

/-- A field between two trim marks, a comment and a literal with closing delimiters in them. -/
theorem ofSource_splits_field :
    let source := "a " ++ braced "- .A -" ++ "\n" ++ braced "/* \x7d\x7d */" ++
      braced "f \"\x7d\x7d\"" ++ "\n"
    let segments : List Segment := [.text "a", .action 1 " .A ".toList,
      .action 2 "f \"\x7d\x7d\"".toList, .text "\n"]
    ofSource source = .ok segments ∧ ∃ parts last,
      source.toList = parts.flatMap Part.text ++ last ∧
      (∀ p ∈ parts, ¬ openMark <:+: p.gap ++ openMark.dropLast ∧
        (p.action.isComment = true ∨ Enclosed p.interior)) ∧
      ¬ openMark <:+: last ∧ segments = segmentsOf [] false parts last := by
  intro source segments
  have hsegments : ofSource source = .ok segments := by
    cbv
  exact ⟨hsegments, ofSource_splits hsegments⟩

end Segment

end SqlTemplate
