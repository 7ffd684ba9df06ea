import Mathlib
import SqlTemplate.Proofs.Template.Splitting

/-!
# Comments

What a comment leaves of a source: nothing, whatever stands in it. The mark that ends a comment is
searched from the mark that opens it, and the two may share their star. A comment that begins with
a slash is therefore over at once for the search, which goes on to the next closing delimiter: if
one stands in the comment, the action is cut there and what is left of it is no comment.
`ofSource_comment` says this for every comment between two texts.
-/

set_option autoImplicit false

namespace SqlTemplate

namespace Segment

/-! ## Marks -/

/-- A mark that comes up at the end of a text has its first character there already. -/
theorem mark_infix_concat {x y c : Char} {s : List Char} :
    [x, y] <:+: s ++ [c] ↔ [x, y] <:+: s ∨ (s.getLast? = some x ∧ c = y) := by
  have hend : [x, y] <:+ s ++ [c] ↔ s.getLast? = some x ∧ c = y := by
    constructor
    · rintro ⟨front, h⟩
      have h : (front ++ [x]) ++ [y] = s ++ [c] := by simpa using h
      obtain ⟨rfl, rfl⟩ := List.append_singleton_inj.mp h
      exact ⟨List.getLast?_concat, rfl⟩
    · rintro ⟨hlast, rfl⟩
      obtain ⟨front, rfl⟩ := List.getLast?_eq_some_iff.mp hlast
      exact ⟨front, by simp⟩
  rw [List.infix_concat_iff, hend, or_comm]

/-- A search goes the same way in a longer text. -/
theorem cutAt_append {pattern s a b : List Char} (hpattern : pattern ≠ [])
    (h : cutAt pattern s = some (a, b)) (behind : List Char) :
    cutAt pattern (s ++ behind) = some (a, b ++ behind) := by
  obtain ⟨rfl, hfirst⟩ := (cutAt_eq_some_iff hpattern).mp h
  refine (cutAt_eq_some_iff hpattern).mpr ⟨?_, hfirst⟩
  rw [List.append_assoc]

/-! ## Whole comments -/

theorem trim_infix_self (p : Char → Bool) (s : List Char) : trim p s <:+: s := by
  refine List.IsInfix.trans (List.IsPrefix.isInfix ?_) (List.dropWhile_suffix p).isInfix
  rw [trim, trimBack, ← List.reverse_suffix, List.reverse_reverse]
  exact List.dropWhile_suffix p

/-- What ends before the comment does is no whole comment. -/
theorem isWholeComment_eq_false {body content : List Char}
    (hbody : body <+: commentOpen ++ content) (hcontent : ¬ commentClose <:+: content) :
    isWholeComment body = false := by
  by_contra hwhole
  rw [isWholeComment, Bool.not_eq_false, Bool.and_eq_true, decide_eq_true_iff,
    List.isSuffixOf_iff_suffix] at hwhole
  obtain ⟨hlength, front, hfront⟩ := hwhole
  obtain ⟨left, right, hinfix⟩ := (trim_infix_self isBlank body).trans hbody.isInfix
  rw [← hfront] at hinfix hlength
  rw [List.length_append] at hlength
  -- Four characters are enough for two marks, so the second one is behind the first.
  have hroom : commentOpen.length ≤ (left ++ front).length := by
    rw [List.length_append]
    simp only [commentOpen, commentClose, List.length_cons, List.length_nil] at hlength ⊢
    omega
  refine hcontent ⟨(left ++ front).drop commentOpen.length, right, ?_⟩
  calc (left ++ front).drop commentOpen.length ++ commentClose ++ right
      = (left ++ front ++ commentClose ++ right).drop commentOpen.length := by
        rw [List.append_assoc (left ++ front), List.drop_append_of_le_length hroom,
          List.append_assoc]
    _ = (commentOpen ++ content).drop commentOpen.length := by
        rw [← hinfix]
        simp only [List.append_assoc]
    _ = content := List.drop_left

theorem trim_comment (content : List Char) :
    trim isBlank (commentOpen ++ content ++ commentClose) =
      commentOpen ++ content ++ commentClose := by
  have hback : (commentOpen ++ content ++ commentClose).reverse =
      '/' :: '*' :: (commentOpen ++ content).reverse := by
    rw [List.reverse_append]
    rfl
  calc trim isBlank (commentOpen ++ content ++ commentClose)
      = ((commentOpen ++ content ++ commentClose).reverse.dropWhile isBlank).reverse := rfl
    _ = ('/' :: '*' :: (commentOpen ++ content).reverse).reverse := by
        rw [hback]
        rfl
    _ = commentOpen ++ content ++ commentClose := by
        rw [← hback, List.reverse_reverse]

theorem ofAction_comment (line : Nat) (trimsBefore trimsBehind : Bool) (content : List Char) :
    ofAction line ⟨trimsBefore, commentOpen ++ content ++ commentClose, trimsBehind⟩ = .ok [] := by
  have hwhole : isWholeComment (commentOpen ++ content ++ commentClose) = true := by
    rw [isWholeComment, trim_comment, Bool.and_eq_true, decide_eq_true_iff,
      List.isSuffixOf_iff_suffix]
    refine ⟨?_, List.suffix_append _ _⟩
    simp only [List.length_append, commentOpen, commentClose, List.length_cons, List.length_nil]
    omega
  have hbegins : beginsComment (commentOpen ++ content ++ commentClose) = true := rfl
  simp only [ofAction, hbegins, hwhole, if_true]

/-! ## Cutting comments -/

section Comment

variable {content behind : List Char}

theorem cutInterior_comment {s comment gap rest : List Char} (hs : beginsComment s = true)
    (hcut : cutAt commentClose s = some (comment, behind))
    (hclose : cutAt closeMark behind = some (gap, rest)) :
    cutInterior s = some (comment ++ commentClose ++ gap, rest) := by
  rw [cutInterior, if_pos hs, hcut]
  simp only [Option.bind_eq_bind, Option.bind_some, hclose]

/-- The search for the end of a comment that does not begin with a slash. -/
theorem cutAt_comment (hcontent : ¬ commentClose <:+: content) (hslash : ¬ ['/'] <+: content) :
    cutAt commentClose (commentOpen ++ (content ++ commentClose ++ behind)) =
      some (commentOpen ++ content, behind) := by
  refine (cutAt_eq_some_iff (by decide)).mpr ⟨rfl, ?_⟩
  intro hinfix
  -- The mark begins neither with the slash in front nor with the star behind it, and at the end
  -- of the content only its star stands.
  rcases List.infix_cons_iff.mp hinfix with hfront | hinfix
  · exact absurd (List.cons_prefix_cons.mp hfront).1 (by decide)
  · rcases List.infix_cons_iff.mp hinfix with hfront | hinfix
    · have hfront := (List.cons_prefix_cons.mp hfront).2
      cases content with
      | nil => exact absurd (List.cons_prefix_cons.mp hfront).1 (by decide)
      | cons c rest => exact hslash ⟨rest, by rw [(List.cons_prefix_cons.mp hfront).1]; rfl⟩
    · rcases mark_infix_concat.mp hinfix with hinfix | ⟨-, heq⟩
      · exact hcontent hinfix
      · exact absurd heq (by decide)

/-- A slash behind the opening mark ends the comment, with the star of that mark. -/
theorem cutAt_slash (rest : List Char) :
    cutAt commentClose (commentOpen ++ '/' :: rest) = some (['/'], rest) := by
  refine (cutAt_eq_some_iff (by decide)).mpr ⟨rfl, by decide⟩

/-- The closing delimiter behind a comment is the next one if none stands in the comment. -/
theorem cutAt_closeMark (hcontent : ¬ closeMark <:+: content) :
    cutAt closeMark (content ++ commentClose ++ closeMark ++ behind) =
      some (content ++ commentClose, behind) := by
  refine (cutAt_eq_some_iff (by decide)).mpr ⟨rfl, ?_⟩
  have hsplit : content ++ commentClose ++ closeMark.dropLast =
      ((content ++ ['*']) ++ ['/']) ++ ['\x7d'] := by
    simp [commentClose, closeMark]
  rw [hsplit, closeMark]
  simp only [mark_infix_concat, List.getLast?_concat]
  simp [closeMark] at hcontent ⊢
  exact hcontent

theorem takeAction_of_cut {interior : List Char}
    (hcut : cutInterior (commentOpen ++ content) = some (interior, behind)) :
    takeAction (commentOpen ++ content) =
      some (⟨false, (dropTrim interior).1, (dropTrim interior).2⟩, behind) := by
  have htrim : takeTrim (commentOpen ++ content) = (false, commentOpen ++ content) := rfl
  rw [takeAction_eq, htrim, hcut]
  rfl

theorem dropTrim_comment (content : List Char) :
    dropTrim (content ++ commentClose) = (content ++ commentClose, false) := by
  have htrim : beginsTrim (content ++ commentClose).reverse = false := by
    rw [List.reverse_append]
    rfl
  rw [dropTrim_eq, htrim]
  rfl

/-- The action of a comment from behind its opening delimiter. -/
theorem takeAction_comment (hcontent : ¬ commentClose <:+: content)
    (hearly : ¬ (['/'] <+: content ∧ closeMark <:+: content)) :
    takeAction (commentOpen ++ (content ++ commentClose ++ closeMark ++ behind)) =
      some (⟨false, commentOpen ++ content ++ commentClose, false⟩, behind) := by
  have hcut : cutInterior (commentOpen ++ (content ++ commentClose ++ closeMark ++ behind)) =
      some (commentOpen ++ content ++ commentClose, behind) := by
    by_cases hslash : ['/'] <+: content
    · obtain ⟨rest, rfl⟩ := hslash
      have hrest : ¬ closeMark <:+: rest := fun h =>
        hearly ⟨⟨rest, rfl⟩, h.trans (List.suffix_cons '/' rest).isInfix⟩
      exact cutInterior_comment rfl (cutAt_slash _) (cutAt_closeMark hrest)
    · have hcomment : cutAt commentClose
          (commentOpen ++ (content ++ commentClose ++ (closeMark ++ behind))) =
            some (commentOpen ++ content, closeMark ++ behind) := cutAt_comment hcontent hslash
      have hclose : cutAt closeMark (closeMark ++ behind) = some ([], behind) := rfl
      rw [← List.append_assoc] at hcomment
      have hinterior := cutInterior_comment rfl hcomment hclose
      rwa [List.append_nil, ← List.append_assoc _ _ behind] at hinterior
  rw [takeAction_of_cut hcut, dropTrim_comment]

/-- A comment that begins with a slash is cut at the first closing delimiter in it, and refused. -/
theorem takeAction_early (hcontent : ¬ commentClose <:+: '/' :: content)
    (hclose : closeMark <:+: content) (behind : List Char) : ∃ d rest,
    takeAction (commentOpen ++ ('/' :: content ++ behind)) = some (d, rest) ∧
      ∀ line, ofAction line d = .error ⟨line, .commentEndsEarly⟩ := by
  obtain ⟨⟨front, rest⟩, hcut⟩ : ∃ cut, cutAt closeMark content = some cut := by
    rw [← Option.ne_none_iff_exists', ne_eq, cutAt_eq_none_iff (by decide), not_not]
    exact hclose
  have hinterior := cutInterior_comment rfl (cutAt_slash (content ++ behind))
    (cutAt_append (by decide) hcut behind)
  obtain ⟨rfl, -⟩ := (cutAt_eq_some_iff (by decide)).mp hcut
  refine ⟨_, _, takeAction_of_cut hinterior, fun line => ?_⟩
  set interior := ['/'] ++ commentClose ++ front with hset
  have hslash : commentOpen ++ ['/'] <+: (dropTrim interior).1 :=
    prefix_dropTrim (by decide) ⟨front, rfl⟩
  have hbegins : beginsComment (dropTrim interior).1 = true :=
    beginsComment_iff.mpr ⟨[], nofun, (List.prefix_append _ _).trans hslash⟩
  have hwhole : isWholeComment (dropTrim interior).1 = false := by
    have hfront : interior <+: commentOpen ++ '/' :: (front ++ closeMark ++ rest) :=
      ⟨closeMark ++ rest, by simp [hset, commentOpen, commentClose]⟩
    exact isWholeComment_eq_false ((dropTrim_prefix_self interior).trans hfront) hcontent
  simp only [ofAction, hbegins, hwhole, if_true]
  rfl

end Comment

/-! ## Sources -/

theorem cut_last {line : Nat} {behindTrim : Bool} {s : List Char} (h : ¬ openMark <:+: s) :
    cut line behindTrim s = .ok (ofText (trimGap behindTrim false s)) := by
  rw [cut]
  split
  · rfl
  · rename_i hgap
    rw [(cutAt_eq_none_iff (by decide)).mpr h] at hgap
    cases hgap

theorem cut_action {line : Nat} {behindTrim : Bool} {s gap behindOpen rest : List Char}
    {d : Delimited} (hgap : cutAt openMark s = some (gap, behindOpen))
    (hact : takeAction behindOpen = some (d, rest)) : cut line behindTrim s = (do
      let own ← ofAction (line + lineFeeds gap) d
      let others ← cut (line + lineFeeds gap +
        lineFeeds (behindOpen.take (behindOpen.length - rest.length))) d.trimsBehind rest
      .ok (ofText (trimGap behindTrim d.trimsBefore gap) ++ own ++ others)) := by
  rw [cut]
  split
  · rename_i hnone
    rw [hgap] at hnone
    cases hnone
  · rename_i hsome
    cases hgap.symm.trans hsome
    split
    · rename_i hnone
      rw [hact] at hnone
      cases hnone
    · rename_i hsome
      cases hact.symm.trans hsome
      rfl

/-- **A comment vanishes between two texts** unless it begins with a slash and a closing delimiter
stands in it; then the source is refused. -/
theorem ofSource_comment {a b content : String} (ha : ¬ openMark <:+: a.toList)
    (hlast : a.toList.getLast? ≠ some '\x7b') (hb : ¬ openMark <:+: b.toList)
    (hcontent : ¬ commentClose <:+: content.toList) :
    ofSource (a ++ braced ("/*" ++ content ++ "*/") ++ b) =
      if ['/'] <+: content.toList ∧ closeMark <:+: content.toList then
        .error ⟨1 + lineFeeds a.toList, .commentEndsEarly⟩
      else .ok (ofText a.toList ++ ofText b.toList) := by
  have hsource : (a ++ braced ("/*" ++ content ++ "*/") ++ b).toList = a.toList ++ openMark ++
      (commentOpen ++ (content.toList ++ commentClose ++ closeMark ++ b.toList)) := by
    simp [braced, openMark, commentOpen, commentClose, closeMark]
  have hgap : cutAt openMark (a ++ braced ("/*" ++ content ++ "*/") ++ b).toList = some (a.toList,
      commentOpen ++ (content.toList ++ commentClose ++ closeMark ++ b.toList)) := by
    refine (cutAt_eq_some_iff (by decide)).mpr ⟨hsource, fun hinfix => ?_⟩
    rcases mark_infix_concat.mp hinfix with hinfix | ⟨heq, -⟩
    · exact ha hinfix
    · exact hlast heq
  rw [ofSource]
  split
  case isTrue hearly =>
    obtain ⟨⟨rest, hslash⟩, hclose⟩ := hearly
    rw [← hslash] at hgap hcontent hclose
    have hrest : closeMark <:+: rest := by
      refine (List.infix_cons_iff.mp hclose).resolve_left fun hfront => ?_
      exact absurd (List.cons_prefix_cons.mp hfront).1 (by decide)
    obtain ⟨d, behind, hact, hrefused⟩ :=
      takeAction_early hcontent hrest (commentClose ++ closeMark ++ b.toList)
    rw [List.append_assoc (['/'] ++ rest), List.append_assoc] at hgap
    rw [cut_action hgap hact, hrefused]
    rfl
  case isFalse hearly =>
    rw [cut_action hgap (takeAction_comment hcontent hearly), ofAction_comment, ok_bind,
      cut_last hb, ok_bind]
    simp [trimGap]

/-- A literal with a closing delimiter in a comment. -/
theorem ofSource_comment_literal : ¬ commentClose <:+: " \"\x7d\x7d\" ".toList ∧
    ofSource ("a" ++ braced ("/*" ++ " \"\x7d\x7d\" " ++ "*/") ++ "b") =
      .ok [.text "a", .text "b"] := by
  have hcontent : ¬ commentClose <:+: " \"\x7d\x7d\" ".toList := by decide
  exact ⟨hcontent, ofSource_comment (by decide) (by decide) (by decide) hcontent⟩

/-- A comment that begins with a slash and has a closing delimiter in it does not vanish. -/
theorem not_forall_ofSource_comment : ¬ ∀ a b content : String,
    ¬ openMark <:+: a.toList → a.toList.getLast? ≠ some '\x7b' → ¬ openMark <:+: b.toList →
      ¬ commentClose <:+: content.toList →
      ofSource (a ++ braced ("/*" ++ content ++ "*/") ++ b) =
        .ok (ofText a.toList ++ ofText b.toList) := by
  intro h
  have hrefused : ofSource ("a" ++ braced ("/*" ++ "/ \x7d\x7d " ++ "*/") ++ "b") =
      .error ⟨1, .commentEndsEarly⟩ := by
    cbv
  have hvanishes := h "a" "b" "/ \x7d\x7d " (by decide) (by decide) (by decide) (by decide)
  cases hrefused.symm.trans hvanishes

end Segment

end SqlTemplate
