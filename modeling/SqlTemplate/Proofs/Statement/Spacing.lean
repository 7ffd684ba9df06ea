import Mathlib
import SqlTemplate.Statement.Spacing

/-!
# Narrowed text

What becomes of text whose runs of blanks are narrowed while it is taken in pieces. A run may be
replaced by any other, so layout does not show (`Spacing.takes_relaid`). What is taken between
other text stands there narrowed, and it stands there unchanged just if its blanks are single
spaces that find something on either side (`narrowed_stands`, `stands_iff`).
-/

set_option autoImplicit false

namespace SqlTemplate

/-! ## Runs of blanks -/

/-- Whether two texts differ only in their runs of blanks: where one has a run, the other has one
too. -/
inductive Relaid : List Char → List Char → Prop
  | nil : Relaid [] []
  | solid {c : Char} {s t : List Char} (hc : isBlank c = false) (h : Relaid s t) :
      Relaid (c :: s) (c :: t)
  | blanks {run other s t : List Char} (hrun : run ≠ []) (hother : other ≠ [])
      (hblank : ∀ c ∈ run, isBlank c = true) (hblank' : ∀ c ∈ other, isBlank c = true)
      (h : Relaid s t) : Relaid (run ++ s) (other ++ t)

/-- The characters of a text that are no blanks. -/
def solids (chars : List Char) : List Char := chars.filter fun c => !isBlank c

@[simp] theorem solids_append (chars others : List Char) :
    solids (chars ++ others) = solids chars ++ solids others :=
  List.filter_append ..

theorem solids_cons (c : Char) (rest : List Char) :
    solids (c :: rest) = if isBlank c then solids rest else c :: solids rest := by
  cases hc : isBlank c <;> simp [solids, hc]

theorem solids_eq_nil {chars : List Char} : solids chars = [] ↔ ∀ c ∈ chars, isBlank c = true := by
  simp [solids]

namespace Spacing

variable {s : Spacing} {c : Char} {chars : List Char}

/-- Takes characters one after the other. -/
def takes (s : Spacing) (chars : List Char) : Spacing := chars.foldl push s

theorem write_eq_takes (s : Spacing) (piece : String) : s.write piece = s.takes piece.toList := rfl

theorem takes_cons (s : Spacing) (c : Char) (chars : List Char) :
    s.takes (c :: chars) = (s.push c).takes chars := rfl

theorem takes_append (s : Spacing) (chars others : List Char) :
    s.takes (chars ++ others) = (s.takes chars).takes others :=
  List.foldl_append ..

theorem push_blank (h : isBlank c = true) : s.push c = { s with pending := s.text ≠ "" } := by
  rw [push, if_pos h]

/-- A run of blanks leaves what a single one does. -/
theorem takes_blanks (hrun : chars ≠ []) (hblank : ∀ c ∈ chars, isBlank c = true) :
    s.takes chars = { s with pending := s.text ≠ "" } := by
  induction chars generalizing s with
  | nil => exact absurd rfl hrun
  | cons c rest ih =>
      rw [List.forall_mem_cons] at hblank
      rw [takes_cons, push_blank hblank.1]
      by_cases hrest : rest = []
      · rw [hrest]
        rfl
      · rw [ih hrest hblank.2]

/-- **Layout does not show**: texts that differ only in their runs of blanks leave the same. -/
theorem takes_relaid {others : List Char} (h : Relaid chars others) (s : Spacing) :
    s.takes chars = s.takes others := by
  induction h generalizing s with
  | nil => rfl
  | solid _ _ ih => exact ih _
  | blanks hrun hother hblank hblank' _ ih =>
      rw [takes_append, takes_append, takes_blanks hrun hblank, takes_blanks hother hblank']
      exact ih _

/-! ## The text and the space behind it -/

/-- The text with the space that a run behind it becomes if anything follows. -/
def spaced (s : Spacing) : List Char := s.text.toList ++ if s.pending then [' '] else []

theorem solids_spaced (s : Spacing) : solids s.spaced = solids s.text.toList := by
  cases hp : s.pending <;> simp [spaced, hp, solids, isBlank]

theorem push_solid (h : isBlank c = false) :
    s.push c = ⟨String.ofList (s.spaced ++ [c]), false⟩ := by
  obtain ⟨text, pending⟩ := s
  rw [push, if_neg (by simp [h])]
  cases pending <;> simp [spaced, ← String.toList_inj]

/-- Once there is text, what is taken does not depend on how it begins. -/
theorem takes_behind {u v : List Char} (hv : v ≠ []) (pending : Bool) (chars : List Char) :
    takes ⟨String.ofList (u ++ v), pending⟩ chars =
      ⟨String.ofList (u ++ (takes ⟨String.ofList v, pending⟩ chars).text.toList),
        (takes ⟨String.ofList v, pending⟩ chars).pending⟩ := by
  induction chars generalizing v pending with
  | nil => simp [takes]
  | cons c rest ih =>
      rw [takes_cons, takes_cons]
      cases hc : isBlank c with
      | true =>
          rw [push_blank hc, push_blank hc]
          have hne : String.ofList (u ++ v) ≠ "" := by simp [← String.toList_inj, hv]
          have hne' : String.ofList v ≠ "" := by simp [← String.toList_inj, hv]
          simp only [hne, hne', ne_eq, not_false_eq_true, decide_true]
          exact ih hv true
      | false =>
          rw [push_solid hc, push_solid hc]
          have hspaced : spaced ⟨String.ofList (u ++ v), pending⟩ ++ [c]
              = u ++ (spaced ⟨String.ofList v, pending⟩ ++ [c]) := by
            simp [spaced]
          rw [hspaced]
          exact ih (by simp) false

end Spacing

/-! ## Evenly spaced text -/

/-- Whether a text has a blank at its front. -/
def startsBlank (chars : List Char) : Bool := chars.head?.any isBlank

/-- Whether a text has a blank at its end. -/
def endsBlank (chars : List Char) : Bool := chars.getLast?.any isBlank

/-- Whether every blank of a text is a space, and no two of them stand side by side. -/
def EvenlySpaced (chars : List Char) : Prop :=
  (∀ c ∈ chars, isBlank c = true → c = ' ') ∧
    chars.IsChain fun c d => isBlank c = false ∨ isBlank d = false

theorem evenlySpaced_append {chars others : List Char} :
    EvenlySpaced (chars ++ others) ↔ EvenlySpaced chars ∧ EvenlySpaced others ∧
      (endsBlank chars = false ∨ startsBlank others = false) := by
  have hmeet : (∀ c ∈ chars.getLast?, ∀ d ∈ others.head?, isBlank c = false ∨ isBlank d = false) ↔
      (endsBlank chars = false ∨ startsBlank others = false) := by
    rw [endsBlank, startsBlank]
    cases chars.getLast? <;> cases others.head? <;> simp
  rw [EvenlySpaced, EvenlySpaced, EvenlySpaced, List.isChain_append, hmeet, List.forall_mem_append]
  tauto

theorem startsBlank_append {chars others : List Char} (h : chars ≠ []) :
    startsBlank (chars ++ others) = startsBlank chars := by
  cases chars with
  | nil => exact absurd rfl h
  | cons c rest => rfl

theorem endsBlank_append {chars others : List Char} (h : others ≠ []) :
    endsBlank (chars ++ others) = endsBlank others := by
  rw [endsBlank, endsBlank, List.getLast?_append_of_ne_nil _ h]

/-- Blanks in front of a blank. -/
theorem startsBlank_blanks {chars others : List Char} (hchars : solids chars = [])
    (h : startsBlank others = true) : startsBlank (chars ++ others) = true := by
  cases chars with
  | nil => exact h
  | cons c rest => simpa [startsBlank] using solids_eq_nil.mp hchars c List.mem_cons_self

/-- Blanks behind a blank. -/
theorem endsBlank_blanks {chars others : List Char} (hothers : solids others = [])
    (h : endsBlank chars = true) : endsBlank (chars ++ others) = true := by
  by_cases hne : others = []
  · rw [hne, List.append_nil, h]
  · rw [endsBlank_append hne, endsBlank, List.getLast?_eq_some_getLast hne]
    exact solids_eq_nil.mp hothers _ (List.getLast_mem hne)

namespace Spacing

variable {s : Spacing} {c : Char} {chars : List Char}

/-- What holds of all text that is taken from the start: it is evenly spaced, with no blank at
either end, and a run behind it has begun only if there is text. -/
structure Narrow (s : Spacing) : Prop where
  even : EvenlySpaced s.text.toList
  starts : startsBlank s.text.toList = false
  ends : endsBlank s.text.toList = false
  pending : s.pending = true → s.text.toList ≠ []

theorem Narrow.spaced_even (h : s.Narrow) : EvenlySpaced s.spaced := by
  rw [spaced, evenlySpaced_append]
  exact ⟨h.even, by cases s.pending <;> simp [EvenlySpaced], .inl h.ends⟩

theorem Narrow.spaced_starts (h : s.Narrow) : startsBlank s.spaced = false := by
  by_cases htext : s.text.toList = []
  · have hp : s.pending = false := by
      by_contra hp
      exact h.pending (by simpa using hp) htext
    simp [spaced, htext, hp, startsBlank]
  · rw [spaced, startsBlank_append htext, h.starts]

theorem Narrow.push (h : s.Narrow) (c : Char) : (s.push c).Narrow := by
  cases hc : isBlank c with
  | true =>
      rw [push_blank hc]
      exact ⟨h.even, h.starts, h.ends, by simp⟩
  | false =>
      have hsingle : EvenlySpaced [c] := ⟨by simp [hc], by simp⟩
      have hstarts : startsBlank [c] = false := by simp [startsBlank, hc]
      rw [push_solid hc]
      refine ⟨?_, ?_, ?_, nofun⟩
      · rw [String.toList_ofList, evenlySpaced_append]
        exact ⟨h.spaced_even, hsingle, .inr hstarts⟩
      · rw [String.toList_ofList]
        by_cases hspaced : s.spaced = []
        · rw [hspaced]
          exact hstarts
        · rw [startsBlank_append hspaced, h.spaced_starts]
      · rw [String.toList_ofList, endsBlank_append (by simp)]
        simp [endsBlank, hc]

theorem Narrow.takes (h : s.Narrow) (chars : List Char) : (s.takes chars).Narrow := by
  induction chars generalizing s with
  | nil => exact h
  | cons c rest ih => exact ih (h.push c)

theorem narrow_empty : Spacing.empty.Narrow := ⟨by simp [empty, EvenlySpaced], rfl, rfl, nofun⟩

/-- The space that is pending behind a blank was pending before it, or comes with it. -/
theorem Narrow.push_blank_spaced (h : s.Narrow) (hc : isBlank c = true) :
    ∃ space, (s.push c).spaced = s.spaced ++ space ∧ solids space = [] := by
  rw [push_blank hc]
  by_cases htext : s.text = ""
  · have hp : s.pending = false := by
      by_contra hp
      exact h.pending (by simpa using hp) (by simp [htext])
    exact ⟨[], by simp [spaced, htext, hp], rfl⟩
  · cases hp : s.pending with
    | true => exact ⟨[], by simp [spaced, htext, hp], rfl⟩
    | false => exact ⟨[' '], by simp [spaced, htext, hp], rfl⟩

/-- Taking text leaves what there was, and the space behind it if anything but blanks follows. -/
theorem Narrow.takes_text (h : s.Narrow) (chars : List Char) : ∃ back,
    (s.takes chars).text.toList = (if solids chars = [] then s.text.toList else s.spaced) ++ back ∧
      solids back = solids chars := by
  induction chars generalizing s with
  | nil => exact ⟨[], by simp [Spacing.takes, solids]⟩
  | cons c rest ih =>
      obtain ⟨back, htext, hback⟩ := ih (h.push c)
      rw [takes_cons, htext]
      cases hc : isBlank c with
      | true =>
          rw [solids_cons, if_pos hc]
          by_cases hrest : solids rest = []
          · exact ⟨back, by simp [hrest, push_blank hc], hback⟩
          · obtain ⟨space, hspace, hspaces⟩ := h.push_blank_spaced hc
            exact ⟨space ++ back, by simp [hrest, hspace], by simp [hspaces, hback]⟩
      | false =>
          have hpush : (s.push c).text.toList = s.spaced ++ [c] := by simp [push_solid hc]
          have hpush' : (s.push c).spaced = s.spaced ++ [c] := by simp [push_solid hc, spaced]
          exact ⟨c :: back, by simp [solids_cons, hc, hpush, hpush'],
            by simp [solids_cons, hc, hback]⟩

theorem Narrow.solids_takes (h : s.Narrow) (chars : List Char) :
    solids (s.takes chars).text.toList = solids s.text.toList ++ solids chars := by
  obtain ⟨back, htext, hback⟩ := h.takes_text chars
  rw [htext, solids_append, hback]
  split
  · rfl
  · rw [solids_spaced]

/-- Text that is taken comes behind what there was. -/
theorem Narrow.takes_grows (h : s.Narrow) (chars : List Char) : ∃ back,
    (s.takes chars).text.toList = s.text.toList ++ back ∧ solids back = solids chars := by
  obtain ⟨back, htext, hback⟩ := h.takes_text chars
  rw [htext]
  split
  · exact ⟨back, rfl, hback⟩
  · refine ⟨(if s.pending then [' '] else []) ++ back, by simp [spaced], ?_⟩
    rw [solids_append, hback]
    cases s.pending <;> rfl

/-- Text that goes on evenly is taken as it is. -/
theorem Narrow.takes_even (h : s.Narrow) (heven : EvenlySpaced (s.spaced ++ chars))
    (hstarts : startsBlank (s.spaced ++ chars) = false) :
    (s.takes chars).spaced = s.spaced ++ chars := by
  induction chars generalizing s with
  | nil => simp [Spacing.takes]
  | cons c rest ih =>
      have hpush : (s.push c).spaced = s.spaced ++ [c] := by
        cases hc : isBlank c with
        | false => simp [push_solid hc, spaced]
        | true =>
            obtain ⟨-, hrest, hmeet⟩ := evenlySpaced_append.mp heven
            have hspace : c = ' ' := hrest.1 c List.mem_cons_self hc
            have hends : endsBlank s.spaced = false :=
              hmeet.resolve_right (by simp [startsBlank, hc])
            have hp : s.pending = false := by
              cases hp : s.pending with
              | false => rfl
              | true => simp [spaced, hp, endsBlank, isBlank] at hends
            have htext : s.text ≠ "" := by
              intro htext
              simp [spaced, hp, htext, startsBlank, hc] at hstarts
            rw [push_blank hc]
            simp [spaced, htext, hp, hspace]
      have hsplit : (s.push c).spaced ++ rest = s.spaced ++ c :: rest := by simp [hpush]
      rw [takes_cons, ih (h.push c) (hsplit ▸ heven) (hsplit ▸ hstarts), hsplit]

end Spacing

/-! ## Text between other text -/

/-- Whether a text stands in another one, with the given texts, blanks apart, in front of it and
behind it. -/
def StandsIn (piece before behind text : List Char) : Prop :=
  ∃ front back, text = front ++ piece ++ back ∧ solids front = solids before ∧
    solids back = solids behind

/-- The text that is left of characters. -/
def narrowed (chars : List Char) : List Char := (Spacing.empty.takes chars).text.toList

theorem narrowed_toList (text : String) : narrowed text.toList = (normalize text).toList := rfl

variable {before piece behind : List Char}

namespace Spacing

variable {s : Spacing} {chars : List Char}

theorem Narrow.text_eq_nil (h : s.Narrow) (hsolids : solids s.text.toList = []) :
    s.text.toList = [] := by
  have hstarts := h.starts
  cases htext : s.text.toList with
  | nil => rfl
  | cons c rest =>
      have hc : isBlank c = true := solids_eq_nil.mp hsolids c (by simp [htext])
      simp [htext, startsBlank, hc] at hstarts

/-- What is taken is taken narrowed, behind what there was and a space if one is pending. -/
theorem Narrow.takes_narrowed (h : s.Narrow) (chars : List Char) :
    ∃ front, (s.takes chars).text.toList = front ++ narrowed chars ∧
      solids front = solids s.text.toList := by
  by_cases hsolids : solids chars = []
  · -- Nothing but blanks is taken, and nothing is left of it.
    have hnarrowed : narrowed chars = [] := by
      refine (narrow_empty.takes chars).text_eq_nil ?_
      rw [narrow_empty.solids_takes, hsolids]
      rfl
    obtain ⟨back, htext, hback⟩ := h.takes_text chars
    refine ⟨_, (List.append_nil _).symm.trans (congrArg _ hnarrowed.symm), ?_⟩
    rw [h.solids_takes, hsolids, List.append_nil]
  · -- The blanks in front make a space at most, and the rest is taken from its first character on.
    have hsplit : chars.takeWhile isBlank ++ chars.dropWhile isBlank = chars :=
      List.takeWhile_append_dropWhile
    have hblanks : ∀ c ∈ chars.takeWhile isBlank, isBlank c = true := fun c hc =>
      List.mem_takeWhile_imp hc
    generalize chars.takeWhile isBlank = run at hsplit hblanks
    cases hrest : chars.dropWhile isBlank with
    | nil =>
        rw [hrest, List.append_nil] at hsplit
        exact absurd (solids_eq_nil.mpr (hsplit ▸ hblanks)) hsolids
    | cons c rest =>
        have hc : isBlank c = false := by
          have := List.head?_dropWhile_not isBlank chars
          simpa [hrest] using this
        rw [hrest] at hsplit
        have hempty : empty.takes run = empty := by
          by_cases hrun : run = []
          · rw [hrun]
            rfl
          · rw [takes_blanks hrun hblanks]
            rfl
        have hleft : empty.takes chars = Spacing.takes ⟨String.ofList [c], false⟩ rest := by
          rw [← hsplit, takes_append, hempty, takes_cons, push_solid hc]
          rfl
        refine ⟨(s.takes run).spaced, ?_, ?_⟩
        · rw [narrowed, hleft, ← hsplit, takes_append, takes_cons, push_solid hc,
            takes_behind (by simp), String.toList_ofList]
        · rw [solids_spaced, h.solids_takes, solids_eq_nil.mpr hblanks, List.append_nil]

end Spacing

/-- **Text between other text stands there narrowed.** -/
theorem narrowed_stands (before piece behind : List Char) :
    StandsIn (narrowed piece) before behind (narrowed (before ++ piece ++ behind)) := by
  have hbefore := Spacing.narrow_empty.takes before
  obtain ⟨front, hpiece, hfront⟩ := hbefore.takes_narrowed piece
  obtain ⟨back, hbehind, hback⟩ := (hbefore.takes piece).takes_grows behind
  refine ⟨front, back, ?_, ?_, hback⟩
  · rw [narrowed, Spacing.takes_append, Spacing.takes_append, hbehind, hpiece]
  · rw [hfront, Spacing.narrow_empty.solids_takes]
    rfl

namespace Spacing

variable {s : Spacing}

/-- Evenly spaced text is taken as it is, unless it has a blank at its front and there is no text
yet. -/
theorem Narrow.takes_piece (h : s.Narrow) (heven : EvenlySpaced piece)
    (hstarts : startsBlank piece = true → solids s.text.toList ≠ []) :
    ∃ front, (s.takes piece).spaced = front ++ piece ∧ solids front = solids s.text.toList := by
  cases hblank : startsBlank piece with
  | false =>
      refine ⟨s.spaced, h.takes_even ?_ ?_, solids_spaced s⟩
      · exact evenlySpaced_append.mpr ⟨h.spaced_even, heven, .inr hblank⟩
      · by_cases hspaced : s.spaced = []
        · rw [hspaced]
          exact hblank
        · rw [startsBlank_append hspaced, h.spaced_starts]
  | true =>
      -- A space that is pending is the one with which the text begins.
      have htext : s.text.toList ≠ [] := fun htext => hstarts hblank (by rw [htext]; rfl)
      have hdropped : ({ s with pending := false } : Spacing).takes piece = s.takes piece := by
        cases piece with
        | nil => simp [startsBlank] at hblank
        | cons c rest =>
            have hc : isBlank c = true := by simpa [startsBlank] using hblank
            rw [takes_cons, takes_cons, push_blank hc, push_blank hc]
      have hnarrow : ({ s with pending := false } : Spacing).Narrow :=
        ⟨h.even, h.starts, h.ends, nofun⟩
      have hspaced : ({ s with pending := false } : Spacing).spaced = s.text.toList := by
        simp [spaced]
      rw [← hdropped, ← hspaced]
      refine ⟨_, hnarrow.takes_even ?_ ?_, rfl⟩
      · rw [hspaced]
        exact evenlySpaced_append.mpr ⟨h.even, heven, .inl h.ends⟩
      · rw [hspaced, startsBlank_append htext, h.starts]

/-- No space is pending behind text that ends in something else. -/
theorem spaced_eq_text {front : List Char} (hspaced : s.spaced = front ++ piece)
    (hpiece : piece ≠ []) (hends : endsBlank piece = false) : s.text.toList = front ++ piece := by
  cases hp : s.pending with
  | false => simpa [spaced, hp] using hspaced
  | true =>
      have hblank : endsBlank s.spaced = true := by simp [spaced, hp, endsBlank, isBlank]
      rw [hspaced, endsBlank_append hpiece, hends] at hblank
      cases hblank

end Spacing

/-- **When text stands between other text as it is**: just if it is evenly spaced, and a blank at
its front or its end has something else on its other side. -/
theorem stands_iff : StandsIn piece before behind (narrowed (before ++ piece ++ behind)) ↔
    EvenlySpaced piece ∧ (startsBlank piece = true → solids before ≠ []) ∧
      (endsBlank piece = true → solids behind ≠ []) := by
  constructor
  · rintro ⟨front, back, htext, hfront, hback⟩
    have hnarrow : (Spacing.empty.takes (before ++ piece ++ behind)).Narrow :=
      Spacing.narrow_empty.takes _
    have heven := hnarrow.even
    have hstarts := hnarrow.starts
    have hends := hnarrow.ends
    rw [← narrowed, htext] at heven hstarts hends
    refine ⟨(evenlySpaced_append.mp (evenlySpaced_append.mp heven).1).2.1, ?_, ?_⟩
    · -- Blanks in front of a blank would stand at the front of the text.
      intro hblank hbefore
      have hpiece : piece ≠ [] := by
        rintro rfl
        cases hblank
      have hstarts' : startsBlank (piece ++ back) = true := by
        rw [startsBlank_append hpiece, hblank]
      rw [List.append_assoc, startsBlank_blanks (hfront.trans hbefore) hstarts'] at hstarts
      cases hstarts
    · intro hblank hbehind
      have hpiece : piece ≠ [] := by
        rintro rfl
        cases hblank
      have hends' : endsBlank (front ++ piece) = true := by
        rw [endsBlank_append hpiece, hblank]
      rw [endsBlank_blanks (hback.trans hbehind) hends'] at hends
      cases hends
  · rintro ⟨heven, hstarts, hends⟩
    have hbefore := Spacing.narrow_empty.takes before
    have hsolids : solids (Spacing.empty.takes before).text.toList = solids before := by
      rw [Spacing.narrow_empty.solids_takes]
      rfl
    by_cases hpiece : piece = []
    · rw [hpiece]
      exact narrowed_stands before [] behind
    · obtain ⟨front, hspaced, hfront⟩ := hbefore.takes_piece heven (hsolids ▸ hstarts)
      obtain ⟨back, htext, hback⟩ := (hbefore.takes piece).takes_text behind
      refine ⟨front, back, ?_, hfront.trans hsolids, hback⟩
      rw [narrowed, Spacing.takes_append, Spacing.takes_append, htext]
      split
      · rename_i hbehind
        have hends : endsBlank piece = false := by
          cases hblank : endsBlank piece with
          | false => rfl
          | true => exact absurd hbehind (hends hblank)
        rw [Spacing.spaced_eq_text hspaced hpiece hends]
      · rw [hspaced]

end SqlTemplate
