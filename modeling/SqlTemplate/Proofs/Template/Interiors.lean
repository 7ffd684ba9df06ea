import Mathlib
import SqlTemplate.Proofs.Template.Comments

/-!
# Where actions begin and end

The closing delimiter of an action is the first one outside of its literals, or the first one behind
the mark that ends its comment. Which texts stand in front of it is said without the search
(`Bounded`), and it is found behind exactly these (`cutInterior_eq_some_iff`). The next action opens
at the first opening delimiter behind it. So it is said as well where actions open (`OpensBehind`),
and whatever becomes of a source when it is cut, the lines that are given are the lines of these
places (`opens_of_mem_cut`, `opens_of_cut_error`).
-/

set_option autoImplicit false

namespace SqlTemplate

namespace Segment

/-! ## Literals -/

/-- The search goes through a quoted literal as a whole. -/
theorem cutAtClose_quoted {literal : List Char} (h : Quotable literal) (rest : List Char) :
    cutAtClose .quoted (literal ++ '"' :: rest) =
      (cutAtClose .plain rest).map fun (body, behind) => (literal ++ '"' :: body, behind) := by
  induction h with
  | nil =>
      rw [List.nil_append, cutAtClose, if_pos rfl]
      · rfl
      · simp
      · simp
  | @plain c s hquote hslash _ ih =>
      rw [List.cons_append, cutAtClose, if_neg hquote, ih, Option.map_map]
      · rfl
      · exact fun hc _ => hslash hc
      · exact fun _ _ hc _ => hslash hc
  | @escaped c s _ ih =>
      rw [List.cons_append, List.cons_append, cutAtClose, ih, Option.map_map]
      rfl

/-- The search goes through a raw literal as a whole. -/
theorem cutAtClose_raw {literal : List Char} (h : '\x60' ∉ literal) (rest : List Char) :
    cutAtClose .raw (literal ++ '\x60' :: rest) =
      (cutAtClose .plain rest).map fun (body, behind) => (literal ++ '\x60' :: body, behind) := by
  induction literal with
  | nil =>
      rw [List.nil_append, cutAtClose, if_pos rfl]
      rfl
  | cons c literal ih =>
      rw [List.mem_cons, not_or] at h
      rw [List.cons_append, cutAtClose, if_neg (Ne.symm h.1), ih h.2, Option.map_map]
      rfl

/-- The search goes through what is enclosed, and stops at the delimiter behind it. -/
theorem cutAtClose_enclosed {s : List Char} (h : Enclosed s) (rest : List Char) :
    cutAtClose .plain (s ++ closeMark ++ rest) = some (s, rest) := by
  rw [List.append_assoc]
  induction h with
  | nil => rfl
  | @plain c s hquote hraw hbrace _ ih =>
      have hopen : ∀ t, c = '\x7d' → s ++ (closeMark ++ rest) = '\x7d' :: t → False := by
        intro t hc ht
        obtain ⟨d, s', rfl, hd⟩ := hbrace hc
        exact hd (List.cons.inj ht).1
      rw [List.cons_append, cutAtClose, if_neg hquote, if_neg hraw, ih]
      · rfl
      · exact hopen
  | @quoted literal s hliteral _ ih =>
      have hsplit : '"' :: literal ++ '"' :: s ++ (closeMark ++ rest) =
          '"' :: (literal ++ '"' :: (s ++ (closeMark ++ rest))) := by simp
      rw [hsplit, cutAtClose, if_pos rfl, cutAtClose_quoted hliteral, ih]
      · rfl
      · simp
  | @raw literal s hliteral _ ih =>
      have hsplit : '\x60' :: literal ++ '\x60' :: s ++ (closeMark ++ rest) =
          '\x60' :: (literal ++ '\x60' :: (s ++ (closeMark ++ rest))) := by simp
      rw [hsplit, cutAtClose, if_neg (by decide), if_pos rfl, cutAtClose_raw hliteral, ih]
      · rfl
      · simp

/-! ## Interiors -/

/-- Whether a text can stand between the delimiters of an action, behind its trim mark if it has
one: a comment goes on to the first closing delimiter behind the first mark that ends it, and all
else is enclosed. -/
def Bounded (s : List Char) : Prop :=
  if beginsComment s = true then
    ∃ comment gap, s = comment ++ commentClose ++ gap ∧
      ¬ commentClose <:+: comment ++ commentClose.dropLast ∧
      ¬ closeMark <:+: gap ++ closeMark.dropLast
  else Enclosed s

/-- A closing delimiter does not make what is in front of it a comment. -/
theorem beginsComment_append (s rest : List Char) :
    beginsComment (s ++ closeMark ++ rest) = beginsComment s := by
  rw [List.append_assoc]
  induction s with
  | nil => rfl
  | cons c s ih =>
      by_cases hc : isBlank c = true
      · simpa [beginsComment, trimFront, hc] using ih
      · cases s with
        | nil => simp [beginsComment, trimFront, hc, commentOpen, closeMark, List.isPrefixOf]
        | cons d s => simp [beginsComment, trimFront, hc, commentOpen, List.isPrefixOf]

/-- **An action ends at the delimiter that bounds its interior.** -/
theorem cutInterior_eq_some_iff {s interior rest : List Char} :
    cutInterior s = some (interior, rest) ↔
      s = interior ++ closeMark ++ rest ∧ Bounded interior := by
  have hmark : commentClose ≠ [] := by decide
  have hclose : closeMark ≠ [] := by decide
  constructor
  · intro h
    have hs : s = interior ++ closeMark ++ rest := (cutInterior_eq_some h).1
    refine ⟨hs, ?_⟩
    have hbegins : beginsComment s = beginsComment interior := by
      rw [hs, beginsComment_append]
    rw [Bounded, ← hbegins]
    rw [cutInterior] at h
    by_cases hcomment : beginsComment s = true
    · rw [if_pos hcomment] at h ⊢
      obtain ⟨⟨comment, behind⟩, hcut, h⟩ := Option.bind_eq_some_iff.mp h
      obtain ⟨⟨gap, rest'⟩, hgap, h⟩ := Option.bind_eq_some_iff.mp h
      cases h
      exact ⟨comment, gap, rfl, ((cutAt_eq_some_iff hmark).mp hcut).2,
        ((cutAt_eq_some_iff hclose).mp hgap).2⟩
    · rw [if_neg hcomment] at h ⊢
      exact (cutAtClose_passed h).2
  · rintro ⟨rfl, h⟩
    rw [Bounded] at h
    by_cases hcomment : beginsComment interior = true
    · rw [if_pos hcomment] at h
      obtain ⟨comment, gap, rfl, hfirst, hgap⟩ := h
      have hbegins :
          beginsComment (comment ++ commentClose ++ gap ++ closeMark ++ rest) = true := by
        rw [beginsComment_append, hcomment]
      have hcut : cutAt commentClose (comment ++ commentClose ++ gap ++ closeMark ++ rest) =
          some (comment, gap ++ closeMark ++ rest) :=
        (cutAt_eq_some_iff hmark).mpr ⟨by simp only [List.append_assoc], hfirst⟩
      have hnext : cutAt closeMark (gap ++ closeMark ++ rest) = some (gap, rest) :=
        (cutAt_eq_some_iff hclose).mpr ⟨rfl, hgap⟩
      exact cutInterior_comment hbegins hcut hnext
    · rw [if_neg hcomment] at h
      rw [cutInterior, beginsComment_append, if_neg hcomment]
      exact cutAtClose_enclosed h rest

/-! ## Actions -/

/-- The closing delimiter is no part of a trim mark in front. -/
theorem takeTrim_append (interior rest : List Char) :
    takeTrim (interior ++ closeMark ++ rest) =
      ((takeTrim interior).1, (takeTrim interior).2 ++ closeMark ++ rest) := by
  have hbegins : beginsTrim (interior ++ closeMark ++ rest) = beginsTrim interior := by
    rw [List.append_assoc]
    exact beginsTrim_append (by decide) rfl
  rw [takeTrim_eq, takeTrim_eq, hbegins]
  by_cases htrim : beginsTrim interior = true
  · rw [if_pos htrim, if_pos htrim, eq_cons_of_beginsTrim htrim]
    rfl
  · rw [if_neg htrim, if_neg htrim]

/-- The action with an interior, read from behind its opening delimiter. -/
theorem takeAction_append {interior : List Char} (h : Bounded (takeTrim interior).2)
    (rest : List Char) :
    takeAction (interior ++ closeMark ++ rest) =
      some (⟨(takeTrim interior).1, (dropTrim (takeTrim interior).2).1,
        (dropTrim (takeTrim interior).2).2⟩, rest) := by
  rw [takeAction_eq, takeTrim_append, cutInterior_eq_some_iff.mpr ⟨rfl, h⟩]
  rfl

/-- An action that is found has a bounded interior. -/
theorem takeAction_bounded {s rest : List Char} {d : Delimited}
    (h : takeAction s = some (d, rest)) :
    ∃ interior, s = interior ++ closeMark ++ rest ∧ Bounded (takeTrim interior).2 := by
  obtain ⟨interior, rfl, -, -⟩ := takeAction_eq_some h
  rw [takeAction_eq, takeTrim_append] at h
  obtain ⟨⟨inner, rest'⟩, hcut, heq⟩ := Option.map_eq_some_iff.mp h
  obtain ⟨-, rfl⟩ := Prod.mk.inj heq
  obtain ⟨hsplit, hinner⟩ := cutInterior_eq_some_iff.mp hcut
  have heq : (takeTrim interior).2 = inner :=
    List.append_cancel_right (List.append_cancel_right hsplit)
  exact ⟨interior, rfl, heq ▸ hinner⟩

/-! ## Openings -/

/-- Whether the opening delimiter of an action of a source stands behind the text `before`: behind
the gap in front of the first action, or in the rest of the source behind the first action. -/
inductive OpensBehind : List Char → List Char → Prop
  | first {gap rest : List Char} : ¬ openMark <:+: gap ++ openMark.dropLast →
    OpensBehind (gap ++ openMark ++ rest) gap
  | next {p : Part} {rest before : List Char} : ¬ openMark <:+: p.gap ++ openMark.dropLast →
    Bounded (takeTrim p.interior).2 → OpensBehind rest before →
    OpensBehind (p.text ++ rest) (p.text ++ before)

theorem opens_first {s gap behindOpen : List Char}
    (hgap : cutAt openMark s = some (gap, behindOpen)) : OpensBehind s gap := by
  obtain ⟨rfl, hfirst⟩ := (cutAt_eq_some_iff (by decide)).mp hgap
  exact .first hfirst

/-- The gap and the interior of an action that is cut off a source, and what they say about where it
opens and where those behind it do. -/
theorem exists_part {s gap behindOpen rest : List Char} {d : Delimited}
    (hgap : cutAt openMark s = some (gap, behindOpen))
    (hact : takeAction behindOpen = some (d, rest)) : ∃ p : Part, p.gap = gap ∧
      behindOpen = p.interior ++ closeMark ++ rest ∧
      ∀ before, OpensBehind rest before → OpensBehind s (p.text ++ before) := by
  obtain ⟨rfl, hfirst⟩ := (cutAt_eq_some_iff (by decide)).mp hgap
  obtain ⟨interior, rfl, hbounded⟩ := takeAction_bounded hact
  let p : Part := ⟨gap, interior⟩
  refine ⟨p, rfl, rfl, fun before hopens => ?_⟩
  have hnext : OpensBehind (p.text ++ rest) (p.text ++ before) := .next hfirst hbounded hopens
  simpa [p, Part.text] using hnext

theorem ofText_ne_action {s body : List Char} {line : Nat} : .action line body ∉ ofText s := by
  rw [ofText]
  split <;> simp

theorem mem_ofAction {line here : Nat} {d : Delimited} {own : List Segment} {body : List Char}
    (h : ofAction line d = .ok own) (hmem : .action here body ∈ own) :
    here = line ∧ body = d.body ∧ beginsComment d.body = false := by
  obtain ⟨hcomment, rfl⟩ := ofAction_eq_ok h
  rw [hcomment]
  split at hmem
  · cases hmem
  · rename_i hnot
    obtain ⟨rfl, rfl⟩ := Segment.action.inj (List.mem_singleton.mp hmem)
    exact ⟨rfl, rfl, by simpa using hnot⟩

theorem ofAction_eq_error {line : Nat} {d : Delimited} {e : LineFault}
    (h : ofAction line d = .error e) : e = ⟨line, .commentEndsEarly⟩ := by
  rw [ofAction] at h
  split_ifs at h
  cases h
  rfl

/-- **An action of a source bears the line on which it opens**, and is no comment. -/
theorem opens_of_mem_cut {line here : Nat} {behindTrim : Bool} {s body : List Char}
    {segments : List Segment} (h : cut line behindTrim s = .ok segments)
    (hmem : .action here body ∈ segments) : ∃ before, OpensBehind s before ∧
      here = line + lineFeeds before ∧ ∃ behind d rest, takeAction behind = some (d, rest) ∧
        beginsComment d.body = false ∧ body = d.body := by
  fun_induction cut line behindTrim s generalizing segments with
  | case1 =>
      cases h
      exact absurd hmem ofText_ne_action
  | case2 => cases h
  | case3 line behindTrim s gap behindOpen hgap line' d rest hact =>
      rename_i ih
      obtain ⟨own, hown, h⟩ := bind_eq_ok.mp h
      obtain ⟨others, hothers, h⟩ := bind_eq_ok.mp h
      cases h
      rw [List.append_assoc] at hmem
      rcases List.mem_append.mp hmem with htext | hbehind
      · exact absurd htext ofText_ne_action
      rcases List.mem_append.mp hbehind with hhere | hlater
      · obtain ⟨rfl, rfl, hcomment⟩ := mem_ofAction hown hhere
        exact ⟨gap, opens_first hgap, rfl, behindOpen, d, rest, hact, hcomment, rfl⟩
      · obtain ⟨p, rfl, rfl, hopens⟩ := exists_part hgap hact
        obtain ⟨before, hbefore, rfl, hbody⟩ := ih hothers hlater
        refine ⟨p.text ++ before, hopens before hbefore, ?_, hbody⟩
        rw [lineFeeds_append, ← lineFeeds_part p rest]
        omega

/-- **A source that cannot be cut is refused for an action, on the line on which it opens.** -/
theorem opens_of_cut_error {line : Nat} {behindTrim : Bool} {s : List Char} {e : LineFault}
    (h : cut line behindTrim s = .error e) : (∃ before, OpensBehind s before ∧
      e.line = line + lineFeeds before) ∧ e.fault ∈ [.unclosedAction, .commentEndsEarly] := by
  fun_induction cut line behindTrim s with
  | case1 => cases h
  | case2 line behindTrim s gap behindOpen hgap line' hact =>
      cases h
      exact ⟨⟨gap, opens_first hgap, rfl⟩, by simp⟩
  | case3 line behindTrim s gap behindOpen hgap line' d rest hact =>
      rename_i ih
      rcases bind_eq_error.mp h with hown | ⟨own, -, h⟩
      · rw [ofAction_eq_error hown]
        exact ⟨⟨gap, opens_first hgap, rfl⟩, by simp⟩
      rcases bind_eq_error.mp h with hothers | ⟨others, -, h⟩
      · obtain ⟨p, rfl, rfl, hopens⟩ := exists_part hgap hact
        obtain ⟨⟨before, hbefore, hline⟩, hfault⟩ := ih hothers
        refine ⟨⟨p.text ++ before, hopens before hbefore, ?_⟩, hfault⟩
        rw [hline, lineFeeds_append, ← lineFeeds_part p rest]
        omega
      · cases h

end Segment

end SqlTemplate
