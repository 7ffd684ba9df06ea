import SqlTemplate.Template.Fault
import SqlTemplate.Text.Blank

/-!
# Segments

A source is cut into literal text and actions between double braces. A minus sign next to a
delimiter, set off by a blank, takes the blanks of the text on that side away. A comment is an
action that leaves nothing.
-/

set_option autoImplicit false

namespace SqlTemplate

/-- A piece of a source: text, or the interior of an action and the line it opens on. -/
inductive Segment
  | text (s : String)
  | action (line : Nat) (body : List Char)
deriving Repr, DecidableEq

namespace Segment

/-! ## Delimiters -/

/-- The text before the first occurrence of a pattern and the text behind it. -/
def cutAt (pattern : List Char) : List Char → Option (List Char × List Char)
  | [] => if pattern = [] then some ([], []) else none
  | c :: rest =>
    if pattern.isPrefixOf (c :: rest) then some ([], (c :: rest).drop pattern.length)
    else (cutAt pattern rest).map fun (before, behind) => (c :: before, behind)

/-- The opening delimiter. -/
def openMark : List Char := ['\x7b', '\x7b']

/-- The closing delimiter. -/
def closeMark : List Char := ['\x7d', '\x7d']

/-- The mark that opens a comment. -/
def commentOpen : List Char := ['/', '*']

/-- The mark that closes a comment. -/
def commentClose : List Char := ['*', '/']

/-- Where a search for the closing delimiter stands: in the open, or inside a literal. -/
inductive LiteralMode
  | plain
  | quoted
  | raw
deriving Repr, DecidableEq

/-- The interior of an action up to the first closing delimiter outside literals, and the text
behind the delimiter. A backslash in a quoted literal covers the character after it. -/
def cutAtClose : LiteralMode → List Char → Option (List Char × List Char)
  | _, [] => none
  | .plain, '\x7d' :: '\x7d' :: rest => some ([], rest)
  | .plain, c :: rest =>
    let mode := if c = '"' then .quoted else if c = '\x60' then .raw else .plain
    (cutAtClose mode rest).map fun (body, behind) => (c :: body, behind)
  | .quoted, ['\\'] => none
  | .quoted, '\\' :: c :: rest =>
    (cutAtClose .quoted rest).map fun (body, behind) => ('\\' :: c :: body, behind)
  | .quoted, c :: rest =>
    (cutAtClose (if c = '"' then .plain else .quoted) rest).map
      fun (body, behind) => (c :: body, behind)
  | .raw, c :: rest =>
    (cutAtClose (if c = '\x60' then .plain else .raw) rest).map
      fun (body, behind) => (c :: body, behind)

/-- Whether the interior of an action begins as a comment. -/
def beginsComment (s : List Char) : Bool :=
  commentOpen.isPrefixOf (trimFront isBlank s)

/-- The interior of an action and the text behind its closing delimiter. In a comment the
delimiter is looked for behind the mark that closes the comment. -/
def cutInterior (s : List Char) : Option (List Char × List Char) :=
  if beginsComment s then do
    let (comment, behind) ← cutAt commentClose s
    let (gap, rest) ← cutAt closeMark behind
    some (comment ++ commentClose ++ gap, rest)
  else cutAtClose .plain s

/-! ## Actions -/

/-- An action taken apart: whether it trims the text before it, its body, and whether it trims the
text behind it. -/
structure Delimited where
  trimsBefore : Bool
  body : List Char
  trimsBehind : Bool
deriving Repr, DecidableEq

/-- Takes a trim mark off the front of what follows an opening delimiter. -/
def takeTrim : List Char → Bool × List Char
  | '-' :: c :: rest => if isBlank c then (true, c :: rest) else (false, '-' :: c :: rest)
  | s => (false, s)

/-- Takes a trim mark off the back of an interior. -/
def dropTrim (interior : List Char) : List Char × Bool :=
  match interior.reverse with
  | '-' :: c :: rest => if isBlank c then ((c :: rest).reverse, true) else (interior, false)
  | _ => (interior, false)

/-- Reads an action from behind its opening delimiter: the action, and the text behind it. -/
def takeAction (s : List Char) : Option (Delimited × List Char) :=
  let (trimsBefore, s) := takeTrim s
  (cutInterior s).map fun (interior, rest) =>
    let (body, trimsBehind) := dropTrim interior
    (⟨trimsBefore, body, trimsBehind⟩, rest)

/-- Whether a body that begins as a comment is one: the comment fills it. -/
def isWholeComment (body : List Char) : Bool :=
  let t := trim isBlank body
  4 ≤ t.length && commentClose.isSuffixOf t

/-- The segments that an action leaves. -/
def ofAction (line : Nat) (d : Delimited) : Except LineFault (List Segment) :=
  if beginsComment d.body then
    if isWholeComment d.body then .ok [] else .error ⟨line, .commentEndsEarly⟩
  else .ok [.action line d.body]

/-- The segments that a text leaves: one, unless it is empty. -/
def ofText (s : List Char) : List Segment :=
  if s = [] then [] else [.text (String.ofList s)]

/-- A text between two actions with the blanks taken away that the actions trim. -/
def trimGap (behindTrim beforeTrim : Bool) (s : List Char) : List Char :=
  let s := if behindTrim then trimFront isBlank s else s
  if beforeTrim then trimBack isBlank s else s

/-- The number of line feeds in a text. -/
def lineFeeds (s : List Char) : Nat :=
  s.count '\n'

/-! ## What is cut off is shorter -/

theorem length_cutAt {pattern s a b : List Char} (h : cutAt pattern s = some (a, b)) :
    b.length ≤ s.length := by
  induction s generalizing a b with
  | nil =>
    simp only [cutAt] at h
    split at h
    · simp only [Option.some.injEq, Prod.mk.injEq] at h
      simp [← h.2]
    · cases h
  | cons c rest ih =>
    simp only [cutAt] at h
    split at h
    · simp only [Option.some.injEq, Prod.mk.injEq] at h
      rw [← h.2, List.length_drop]
      omega
    · obtain ⟨⟨x, y⟩, hxy, he⟩ := Option.map_eq_some_iff.1 h
      simp only [Prod.mk.injEq] at he
      have := ih hxy
      rw [← he.2, List.length_cons]
      omega

theorem length_cutAtClose {mode : LiteralMode} {s a b : List Char}
    (h : cutAtClose mode s = some (a, b)) : b.length ≤ s.length := by
  fun_induction cutAtClose mode s generalizing a b with
  | case1 => cases h
  | case2 rest =>
    simp only [Option.some.injEq, Prod.mk.injEq] at h
    simp only [← h.2, List.length_cons]
    omega
  | case4 => cases h
  | case3 | case5 | case6 | case7 =>
    rename_i ih
    obtain ⟨⟨x, y⟩, hxy, he⟩ := Option.map_eq_some_iff.1 h
    simp only [Prod.mk.injEq] at he
    have := ih hxy
    rw [← he.2]
    simp only [List.length_cons]
    omega

theorem length_cutInterior {s a b : List Char} (h : cutInterior s = some (a, b)) :
    b.length ≤ s.length := by
  unfold cutInterior at h
  split at h
  · simp only [Option.bind_eq_bind, Option.bind_eq_some_iff, Option.some.injEq,
      Prod.mk.injEq, Prod.exists] at h
    obtain ⟨x, y, hxy, u, v, huv, _, rfl⟩ := h
    exact Nat.le_trans (length_cutAt huv) (length_cutAt hxy)
  · exact length_cutAtClose h

theorem length_takeTrim (s : List Char) : (takeTrim s).2.length ≤ s.length := by
  unfold takeTrim
  split
  · split <;> simp
  · exact Nat.le_refl _

theorem length_takeAction {s : List Char} {d : Delimited} {b : List Char}
    (h : takeAction s = some (d, b)) : b.length ≤ s.length := by
  unfold takeAction at h
  obtain ⟨⟨x, y⟩, hxy, he⟩ := Option.map_eq_some_iff.1 h
  simp only [Prod.mk.injEq] at he
  rw [← he.2]
  exact Nat.le_trans (length_cutInterior hxy) (length_takeTrim s)

theorem length_cutAt_openMark {s a b : List Char} (h : cutAt openMark s = some (a, b)) :
    b.length < s.length := by
  induction s generalizing a b with
  | nil => simp [cutAt, openMark] at h
  | cons c rest ih =>
    simp only [cutAt] at h
    split at h
    · simp only [Option.some.injEq, Prod.mk.injEq] at h
      rw [← h.2, List.length_drop]
      simp only [openMark, List.length_cons, List.length_nil]
      omega
    · obtain ⟨⟨x, y⟩, hxy, he⟩ := Option.map_eq_some_iff.1 h
      simp only [Prod.mk.injEq] at he
      have := ih hxy
      rw [← he.2, List.length_cons]
      omega

/-! ## Cutting a source -/

/-- Cuts a source from `line` on; `behindTrim` tells whether the action before it trims it. -/
def cut (line : Nat) (behindTrim : Bool) (s : List Char) : Except LineFault (List Segment) :=
  match _hgap : cutAt openMark s with
  | none => .ok (ofText (trimGap behindTrim false s))
  | some (gap, behindOpen) =>
    let line := line + lineFeeds gap
    match _hact : takeAction behindOpen with
    | none => .error ⟨line, .unclosedAction⟩
    | some (d, rest) => do
      let own ← ofAction line d
      let next := line + lineFeeds (behindOpen.take (behindOpen.length - rest.length))
      let others ← cut next d.trimsBehind rest
      .ok (ofText (trimGap behindTrim d.trimsBefore gap) ++ own ++ others)
termination_by s.length
decreasing_by
  exact Nat.lt_of_le_of_lt (length_takeAction _hact) (length_cutAt_openMark _hgap)

/-- The segments of a source. -/
def ofSource (source : String) : Except LineFault (List Segment) :=
  cut 1 false source.toList

end Segment

end SqlTemplate
