import Mathlib
import SqlTemplate.Json.Reader
import SqlTemplate.Json.Writer
import SqlTemplate.Proofs.Value.Document

/-!
# The reader reads what the writer writes

A document without doubles is read back from its compact form if it is not nested too deep
(`Json.ofText?_write`). A number ends where no digit follows, so every form is read in front of a
text that does not go on with a number, as the closing brackets and commas behind it do not.
-/

set_option autoImplicit false

namespace SqlTemplate

namespace Json

/-! ## Texts -/

theorem unit?_control : ∀ n < 32,
    unit? '0' '0' (Nat.digitChar (n / 16)) (Nat.digitChar (n % 16)) = some n := by
  decide

theorem takeText_escape (c : Char) (s : List Char) :
    takeText .strict (escape c ++ s) = (takeText .strict s).map fun (t, r) => (c :: t, r) := by
  rw [escape]
  split
  · subst c; rfl
  split
  · subst c; rfl
  split
  · subst c; rfl
  split
  · subst c; rfl
  split
  · subst c; rfl
  split
  · subst c; rfl
  split
  · subst c; rfl
  split
  · rename_i hcontrol
    show takeText .strict ('\\' :: 'u' :: '0' :: '0' :: _ :: _ :: s) = _
    rw [takeText, unit?_control c.toNat hcontrol]
    simp only
    rw [if_neg (by omega), if_neg (by omega), Char.ofNat_toNat]
  · rename_i hquote hbackslash _ _ _ _ _ hcontrol
    show takeText .strict (c :: s) = _
    rw [takeText]
    · rw [if_pos ⟨hbackslash, by simpa [TextRule.strict] using hcontrol⟩]
    · exact hquote
    · exact fun _ _ _ _ _ h _ => hbackslash h
    · exact fun _ _ h _ => hbackslash h

theorem takeText_write (s : List Char) (rest : List Char) :
    takeText .strict (s.flatMap escape ++ '"' :: rest) = some (s, rest) := by
  induction s with
  | nil => rfl
  | cons c s ih =>
      rw [List.flatMap_cons, List.append_assoc, takeText_escape, ih, Option.map_some]

/-! ## Numbers -/

/-- Whether a text does not go on with a number. -/
def Ends (rest : List Char) : Prop :=
  ∀ c ∈ rest.head?, c.isDigit = false ∧ c ≠ '.' ∧ c ≠ 'e' ∧ c ≠ 'E'

theorem ends_nil : Ends [] := nofun

theorem ends_comma (rest : List Char) : Ends (',' :: rest) := by simp [Ends]

theorem ends_bracket (rest : List Char) : Ends (']' :: rest) := by simp [Ends]

theorem ends_brace (rest : List Char) : Ends ('\x7d' :: rest) := by simp [Ends]

/-- Only zero is written with a zero in front. -/
theorem toDigits_head {n : Nat} (h : 0 < n) :
    ∃ c digits, Nat.toDigits 10 n = c :: digits ∧ c ≠ '0' := by
  induction n using Nat.strong_induction_on with
  | h n ih =>
      by_cases hn : n < 10
      · refine ⟨_, [], Nat.toDigits_of_lt_base hn, ?_⟩
        interval_cases n <;> decide
      · obtain ⟨c, digits, hdigits, hc⟩ := ih (n / 10) (by omega) (by omega)
        exact ⟨c, digits ++ [Nat.digitChar (n % 10)],
          by rw [Nat.toDigits_of_base_le (by decide) (by omega), hdigits, List.cons_append], hc⟩

theorem takeWhile_digits (n : Nat) {rest : List Char} (hrest : Ends rest) :
    (Nat.toDigits 10 n ++ rest).takeWhile Char.isDigit = Nat.toDigits 10 n := by
  have hend : rest.takeWhile Char.isDigit = [] := by
    cases rest with
    | nil => rfl
    | cons c rest => exact List.takeWhile_cons_of_neg (by simp [(hrest c rfl).1])
  rw [List.takeWhile_append_of_pos, hend, List.append_nil]
  exact fun c hc => Nat.isDigit_of_mem_toDigits (by decide) (by decide) hc

theorem takeWhole_digits (n : Nat) {rest : List Char} (hrest : Ends rest) :
    takeWhole (Nat.toDigits 10 n ++ rest) = some (Nat.toDigits 10 n, rest) := by
  rcases Nat.eq_zero_or_pos n with rfl | hn
  · have hend : (rest.head?.map Char.isDigit).getD false = false := by
      cases rest with
      | nil => rfl
      | cons c rest => simpa using (hrest c rfl).1
    show takeWhole ('0' :: rest) = _
    rw [takeWhole, hend]
    rfl
  · obtain ⟨c, digits, hdigits, hc⟩ := toDigits_head hn
    have hwhile := takeWhile_digits n hrest
    rw [hdigits] at hwhile ⊢
    rw [List.cons_append] at hwhile ⊢
    rw [takeWhole, hwhile, if_neg (List.cons_ne_nil _ _), ← List.cons_append, List.drop_left]
    exact fun _ h => hc (List.cons.inj h).1

theorem takePoint_ends {rest : List Char} (hrest : Ends rest) :
    takePoint rest = some (none, rest) := by
  cases rest with
  | nil => rfl
  | cons c rest =>
      rw [takePoint]
      exact fun _ h => (hrest c rfl).2.1 (List.cons.inj h).1

theorem takeExponent_ends {rest : List Char} (hrest : Ends rest) :
    takeExponent rest = some (none, rest) := by
  cases rest with
  | nil => rfl
  | cons c rest =>
      obtain ⟨-, -, hsmall, hcapital⟩ := hrest c rfl
      exact if_neg (not_or.mpr ⟨hsmall, hcapital⟩)

theorem toDigits_cons (n : Nat) :
    ∃ c digits, Nat.toDigits 10 n = c :: digits ∧ c.isDigit = true := by
  obtain ⟨c, digits, hdigits⟩ := List.exists_cons_of_ne_nil (Nat.toDigits_ne_nil (n := n) (b := 10))
  have hc : c ∈ Nat.toDigits 10 n := by simp [hdigits]
  exact ⟨c, digits, hdigits, Nat.isDigit_of_mem_toDigits (by decide) (by decide) hc⟩

theorem takeNumber_whole {n : Nat} (h : n ≤ significandLimit) {rest : List Char}
    (hrest : Ends rest) :
    takeNumber (Nat.toDigits 10 n ++ rest) = some (.integer n, rest) := by
  have hsign : ∀ digits, Nat.toDigits 10 n ++ rest ≠ '-' :: digits := fun digits heq => by
    obtain ⟨c, tail, hdigits, hc⟩ := toDigits_cons n
    rw [hdigits] at heq
    rw [(List.cons.inj heq).1] at hc
    cases hc
  rw [takeNumber]
  · simp [takeWhole_digits n hrest, takePoint_ends hrest, takeExponent_ends hrest,
      NumberParts.toJson, h]
  · exact hsign

theorem takeNumber_negative {n : Nat} (hpos : 0 < n) (h : n ≤ int64Floor) {rest : List Char}
    (hrest : Ends rest) :
    takeNumber ('-' :: (Nat.toDigits 10 n ++ rest)) = some (.integer (-n), rest) := by
  rw [takeNumber]
  simp [takeWhole_digits n hrest, takePoint_ends hrest, takeExponent_ends hrest,
    NumberParts.toJson, h, hpos]

theorem toString_toList (n : Int) :
    (toString n).toList = (if n < 0 then ['-'] else []) ++ Nat.toDigits 10 n.natAbs := by
  rw [Int.toString_eq_repr, Int.repr_eq_if]
  by_cases hn : n < 0
  · rw [if_neg (by omega), if_pos hn, String.toList_append, Nat.toList_repr,
      show (-n).toNat = n.natAbs by omega]
    rfl
  · rw [if_pos (by omega), if_neg hn, Nat.toList_repr, show n.toNat = n.natAbs by omega]
    rfl

theorem takeNumber_integer {n : Int} (hlow : -(int64Floor : Int) ≤ n) (hhigh : n ≤ significandLimit)
    {rest : List Char} (hrest : Ends rest) :
    takeNumber ((toString n).toList ++ rest) = some (.integer n, rest) := by
  rw [toString_toList]
  by_cases hn : n < 0
  · rw [if_pos hn, List.append_assoc, List.singleton_append,
      takeNumber_negative (by omega) (by omega) hrest, Int.ofNat_natAbs_of_nonpos hn.le, neg_neg]
  · rw [if_neg hn, List.nil_append, takeNumber_whole (by omega) hrest,
      Int.natAbs_of_nonneg (by omega)]

/-! ## Documents -/

/-- Whether a document has no doubles, holds whole numbers of 64 bits and sorted objects, and is
nested so deep at most. -/
def Printable : Nat → Json → Prop
  | depth + 1, .array items => ∀ item ∈ items, Printable depth item
  | depth + 1, .object fields => KeysSorted fields ∧ ∀ field ∈ fields, Printable depth field.2
  | _, .integer n => -(int64Floor : Int) ≤ n ∧ n ≤ significandLimit
  | _, .null | _, .bool _ | _, .text _ => True
  | _, _ => False

/-- A number begins with a digit or its sign. -/
theorem toString_cons (n : Int) :
    ∃ c tail, (toString n).toList = c :: tail ∧ (c = '-' ∨ c.isDigit = true) := by
  rw [toString_toList]
  by_cases hn : n < 0
  · exact ⟨'-', _, by rw [if_pos hn]; rfl, .inl rfl⟩
  · obtain ⟨c, digits, hdigits, hc⟩ := toDigits_cons n.natAbs
    exact ⟨c, digits, by rw [if_neg hn, List.nil_append, hdigits], .inr hc⟩

/-- A document begins neither with white space nor with a bracket that closes. -/
theorem write_cons {depth : Nat} {j : Json} (h : j.Printable depth) :
    ∃ c tail, j.write.toList = c :: tail ∧ isSpace c = false ∧ c ≠ ']' := by
  cases j with
  | null => exact ⟨'n', _, rfl, rfl, by decide⟩
  | bool b =>
      cases b
      · exact ⟨'f', _, rfl, rfl, by decide⟩
      · exact ⟨'t', _, rfl, rfl, by decide⟩
  | integer n =>
      obtain ⟨c, tail, htext, hc⟩ := toString_cons n
      refine ⟨c, tail, htext, ?_⟩
      rcases hc with rfl | hc
      · exact ⟨rfl, by decide⟩
      · simp only [isSpace, Bool.or_eq_false_iff, decide_eq_false_iff_not]
        refine ⟨⟨⟨⟨?_, ?_⟩, ?_⟩, ?_⟩, ?_⟩ <;> rintro rfl <;> cases hc
  | double x => cases depth <;> cases h
  | text s => exact ⟨'"', _, by rw [write, writeText]; simp; rfl, rfl, by decide⟩
  | array items => exact ⟨'[', _, by rw [write]; simp; rfl, rfl, by decide⟩
  | object fields => exact ⟨'\x7b', _, by rw [write]; simp; rfl, rfl, by decide⟩

theorem skipSpace_cons {c : Char} (hc : isSpace c = false) (s : List Char) :
    skipSpace (c :: s) = c :: s := by
  rw [skipSpace, List.dropWhile_cons_of_neg (by simp [hc])]

theorem skipSpace_write {depth : Nat} {j : Json} (h : j.Printable depth) (rest : List Char) :
    skipSpace (j.write.toList ++ rest) = j.write.toList ++ rest := by
  obtain ⟨c, tail, htext, hc, -⟩ := write_cons h
  rw [htext, List.cons_append, skipSpace_cons hc]

/-- Whether a document is read back by a reader of values. -/
def ReadBack (item : List Char → Option (Json × List Char)) (j : Json) : Prop :=
  ∀ rest, Ends rest → item (j.write.toList ++ rest) = some (j, rest)

theorem writeText_toList (s : String) :
    (writeText s).toList = '"' :: (s.toList.flatMap escape ++ ['"']) := by
  rw [writeText, String.toList_ofList]
  rfl

/-- The form of a field. -/
def fieldForm (field : String × Json) : List Char :=
  (writeText field.1).toList ++ ':' :: field.2.write.toList

/-- Forms with commas between them. -/
def joined : List (List Char) → List Char
  | [] => []
  | [form] => form
  | form :: next :: forms => form ++ ',' :: joined (next :: forms)

theorem writeItems_toList (items : List Json) :
    (writeItems items).toList = joined (items.map fun j => j.write.toList) := by
  induction items with
  | nil => rfl
  | cons j items ih =>
      cases items with
      | nil => rfl
      | cons next items =>
          rw [writeItems, String.toList_append, String.toList_append, List.append_assoc, ih]
          · rfl
          · nofun

theorem writeFields_toList (fields : List (String × Json)) :
    (writeFields fields).toList = joined (fields.map fieldForm) := by
  induction fields with
  | nil => rfl
  | cons field fields ih =>
      cases fields with
      | nil =>
          rw [writeFields]
          simp [joined, fieldForm]
      | cons next fields =>
          rw [writeFields]
          · simp [joined, fieldForm, ih]
          · nofun

/-- A document has more characters than parts, which is the fuel that reading these takes. -/
theorem length_le_joined (forms : List (List Char)) (opening closing : Char) (rest : List Char) :
    forms.length ≤ (opening :: (joined forms ++ closing :: rest)).length := by
  have hforms : forms.length ≤ (joined forms).length + 1 := by
    induction forms with
    | nil => simp
    | cons form forms ih =>
        cases forms with
        | nil => simp
        | cons next forms =>
            rw [joined]
            simp only [List.length_append, List.length_cons] at *
            omega
  simp only [List.length_append, List.length_cons]
  omega

theorem joined_starts (c : Char) (form : List Char) (forms : List (List Char)) :
    ∃ tail, joined ((c :: form) :: forms) = c :: tail := by
  cases forms with
  | nil => exact ⟨form, rfl⟩
  | cons next forms => exact ⟨_, rfl⟩

section Parts

variable {depth : Nat} {item : List Char → Option (Json × List Char)}

theorem takeItems_write {items : List Json} (hne : items ≠ [])
    (hprintable : ∀ j ∈ items, j.Printable depth) (hitem : ∀ j ∈ items, ReadBack item j)
    {fuel : Nat} (hfuel : items.length ≤ fuel) (rest : List Char) :
    takeItems item fuel (joined (items.map fun j => j.write.toList) ++ ']' :: rest) =
      some (items, rest) := by
  induction items generalizing fuel with
  | nil => exact absurd rfl hne
  | cons j items ih =>
      obtain ⟨hj, hrest⟩ := List.forall_mem_cons.mp hprintable
      obtain ⟨hback, hbacks⟩ := List.forall_mem_cons.mp hitem
      obtain ⟨fuel, rfl⟩ := Nat.exists_eq_add_one_of_ne_zero (n := fuel) (by
        rw [List.length_cons] at hfuel
        omega)
      cases items with
      | nil =>
          rw [List.map_singleton, joined, takeItems, skipSpace_write hj,
            hback _ (ends_bracket rest)]
          rfl
      | cons next items =>
          have hmore := ih (List.cons_ne_nil _ _) hrest hbacks (Nat.le_of_succ_le_succ hfuel)
          rw [List.map_cons] at hmore
          rw [List.map_cons, List.map_cons, joined, List.append_assoc, List.cons_append, takeItems,
            skipSpace_write hj, hback _ (ends_comma _)]
          simp [skipSpace, isSpace, hmore]

theorem takeFields_last (key : String) {j : Json} {s rest : List Char}
    (hj : item (skipSpace s) = some (j, '\x7d' :: rest)) (fuel : Nat) :
    takeFields item (fuel + 1) ((writeText key).toList ++ ':' :: s) = some ([(key, j)], rest) := by
  rw [writeText_toList]
  simp [takeFields, skipSpace_cons, isSpace, takeText_write, hj]

theorem takeFields_more (key : String) {j : Json} {s more rest : List Char} {fuel : Nat}
    {fields : List (String × Json)} (hj : item (skipSpace s) = some (j, ',' :: more))
    (hmore : takeFields item fuel more = some (fields, rest)) :
    takeFields item (fuel + 1) ((writeText key).toList ++ ':' :: s) =
      some ((key, j) :: fields, rest) := by
  rw [writeText_toList]
  simp [takeFields, skipSpace_cons, isSpace, takeText_write, hj, hmore]

theorem takeFields_write {fields : List (String × Json)} (hne : fields ≠ [])
    (hprintable : ∀ field ∈ fields, Printable depth field.2)
    (hitem : ∀ field ∈ fields, ReadBack item field.2) {fuel : Nat} (hfuel : fields.length ≤ fuel)
    (rest : List Char) :
    takeFields item fuel (joined (fields.map fieldForm) ++ '\x7d' :: rest) =
      some (fields, rest) := by
  induction fields generalizing fuel with
  | nil => exact absurd rfl hne
  | cons field fields ih =>
      obtain ⟨key, j⟩ := field
      obtain ⟨hj, hrest⟩ := List.forall_mem_cons.mp hprintable
      obtain ⟨hback, hbacks⟩ := List.forall_mem_cons.mp hitem
      obtain ⟨fuel, rfl⟩ := Nat.exists_eq_add_one_of_ne_zero (n := fuel) (by
        rw [List.length_cons] at hfuel
        omega)
      cases fields with
      | nil =>
          rw [List.map_singleton, joined, fieldForm, List.append_assoc, List.cons_append]
          refine takeFields_last key ?_ fuel
          rw [skipSpace_write hj, hback _ (ends_brace rest)]
      | cons next fields =>
          have hmore := ih (List.cons_ne_nil _ _) hrest hbacks (Nat.le_of_succ_le_succ hfuel)
          rw [List.map_cons, List.map_cons, joined, fieldForm, List.append_assoc, List.append_assoc,
            List.cons_append, List.cons_append]
          refine takeFields_more key ?_ hmore
          exact (congrArg item (skipSpace_write hj _)).trans (hback _ (ends_comma _))

end Parts

theorem takeValue_number {c : Char} (hc : c = '-' ∨ c.isDigit = true) (depth : Nat)
    (tail : List Char) : takeValue (depth + 1) (c :: tail) = takeNumber (c :: tail) := by
  rcases hc with rfl | hc
  · rfl
  · rw [takeValue] <;> rintro _ h <;> cases (List.cons.inj h).1 <;> cases hc

theorem takeValue_array {depth : Nat} {items : List Json}
    (hprintable : ∀ j ∈ items, j.Printable depth)
    (hitem : ∀ j ∈ items, ReadBack (takeValue (depth + 1)) j) :
    ReadBack (takeValue (depth + 2)) (.array items) := by
  intro rest _
  have htext : (write (.array items)).toList ++ rest =
      '[' :: (joined (items.map fun j => j.write.toList) ++ ']' :: rest) := by
    rw [write, ← writeItems_toList]
    simp
  cases items with
  | nil => rfl
  | cons first items =>
      obtain ⟨c, form, hfirst, hspace, hbracket⟩ := write_cons (hprintable first (by simp))
      obtain ⟨tail, hstart⟩ := joined_starts c form (items.map fun j => j.write.toList)
      have hfuel := length_le_joined ((first :: items).map fun j => j.write.toList) '[' ']' rest
      rw [List.length_map] at hfuel
      have hitems := takeItems_write (List.cons_ne_nil _ _) hprintable hitem hfuel rest
      rw [htext, takeValue, if_neg (Nat.succ_ne_zero depth), hitems, List.map_cons, hfirst, hstart,
        List.cons_append, skipSpace_cons hspace]
      split
      · rename_i heq
        exact absurd (List.cons.inj heq).1 hbracket
      · rfl

theorem takeValue_object {depth : Nat} {fields : List (String × Json)} (hsorted : KeysSorted fields)
    (hprintable : ∀ field ∈ fields, Printable depth field.2)
    (hitem : ∀ field ∈ fields, ReadBack (takeValue (depth + 1)) field.2) :
    ReadBack (takeValue (depth + 2)) (.object fields) := by
  intro rest _
  have htext : (write (.object fields)).toList ++ rest =
      '\x7b' :: (joined (fields.map fieldForm) ++ '\x7d' :: rest) := by
    rw [write, ← writeFields_toList]
    simp
  cases fields with
  | nil => rfl
  | cons first fields =>
      have hfirst : fieldForm first = '"' :: _ :=
        congrArg (· ++ ':' :: first.2.write.toList) (writeText_toList first.1)
      obtain ⟨tail, hstart⟩ := joined_starts '"' _ (fields.map fieldForm)
      have hfuel := length_le_joined ((first :: fields).map fieldForm) '\x7b' '\x7d' rest
      rw [List.length_map] at hfuel
      have hfields := takeFields_write (List.cons_ne_nil _ _) hprintable hitem hfuel rest
      rw [htext, takeValue, if_neg (Nat.succ_ne_zero depth), hfields, List.map_cons, hfirst, hstart,
        List.cons_append, skipSpace_cons rfl]
      simp [ofFields, sortKeys_eq_self hsorted]

/-- A document is read back from its form, in front of anything that does not go on with a
number. -/
theorem takeValue_write {depth : Nat} {j : Json} (h : j.Printable depth) :
    ReadBack (takeValue (depth + 1)) j := by
  match depth, j with
  | _, .null => exact fun _ _ => rfl
  | _, .bool b => exact fun _ _ => by cases b <;> rfl
  | depth, .integer n =>
      intro rest hrest
      have hrange : -(int64Floor : Int) ≤ n ∧ n ≤ significandLimit := by
        cases depth <;> exact h
      have hnumber := takeNumber_integer hrange.1 hrange.2 hrest
      obtain ⟨c, tail, htext, hc⟩ := toString_cons n
      rw [write]
      rw [htext, List.cons_append] at hnumber ⊢
      rw [takeValue_number hc, hnumber]
  | depth, .double x => cases depth <;> cases h
  | _, .text s =>
      intro rest _
      rw [write, writeText_toList, List.cons_append, List.append_assoc, takeValue,
        List.singleton_append, takeText_write]
      simp
  | 0, .array items => cases h
  | 0, .object fields => cases h
  | depth + 1, .array items => exact takeValue_array h fun j hj => takeValue_write (h j hj)
  | depth + 1, .object fields =>
      exact takeValue_object h.1 h.2 fun field hfield => takeValue_write (h.2 field hfield)

/-- **The reader reads what the writer writes**, unless it is nested too deep. -/
theorem ofText?_write {j : Json} (h : j.Printable 127) : ofText? j.write = some j := by
  have hback := takeValue_write h [] ends_nil
  rw [← skipSpace_write h, List.append_nil] at hback
  rw [ofText?, depthLimit, hback]
  rfl

end Json

/-! ## Documents of values -/

mutual

/-- How deep lists and maps are nested in a value. -/
def Value.depth : Value → Nat
  | .list items => depthOfItems items + 1
  | .map entries => depthOfEntries entries + 1
  | _ => 0

def depthOfItems : List Value → Nat
  | [] => 0
  | v :: rest => max v.depth (depthOfItems rest)

def depthOfEntries : List (String × Value) → Nat
  | [] => 0
  | (_, v) :: rest => max v.depth (depthOfEntries rest)

end

mutual

theorem Value.toJson?_printable {v : Value} (h : v.Every Value.Discrete) {depth : Nat}
    (hdepth : v.depth ≤ depth) {j : Json} (hj : v.toJson? = some j) : j.Printable depth := by
  match v with
  | .nil | .bool _ | .text _ => cases hj; cases depth <;> trivial
  | .int n =>
      have hlow := n.minValue_le_toInt
      have hhigh := n.toInt_lt
      simp only [Int64.toInt_minValue] at hlow
      have hrange : -(int64Floor : Int) ≤ n.toInt ∧ n.toInt ≤ Json.significandLimit := by
        simp only [int64Floor, Json.significandLimit]
        omega
      cases hj
      cases depth <;> exact hrange
  | .list items =>
      obtain ⟨js, hjs, rfl⟩ := Option.map_eq_some_iff.mp hj
      rw [Value.depth] at hdepth
      obtain ⟨depth, rfl⟩ := Nat.exists_eq_add_one_of_ne_zero (n := depth) (by omega)
      exact jsonOfValues?_printable h.2 (by omega) hjs
  | .map entries =>
      obtain ⟨fields, hfields, rfl⟩ := Option.map_eq_some_iff.mp hj
      rw [Value.depth] at hdepth
      obtain ⟨depth, rfl⟩ := Nat.exists_eq_add_one_of_ne_zero (n := depth) (by omega)
      have hperm : (sortKeys fields).Perm fields := sortKeys_perm (jsonOfEntries_keys hfields ▸ h.1)
      exact ⟨sortKeys_sorted fields, fun field hfield =>
        jsonOfEntries?_printable h.2 (by omega) hfields field (hperm.mem_iff.mp hfield)⟩
  | .bytes _ => cases hj
  | .float _ | .instant _ | .fragment _ | .dest _ => exact absurd h id

theorem jsonOfValues?_printable {items : List Value} (h : EveryItem Value.Discrete items)
    {depth : Nat} (hdepth : depthOfItems items ≤ depth) {js : List Json}
    (hjs : jsonOfValues? items = some js) : ∀ j ∈ js, j.Printable depth := by
  match items with
  | [] => cases hjs; simp
  | v :: rest =>
      simp only [jsonOfValues?, Option.bind_eq_bind, Option.bind_eq_some_iff,
        Option.some.injEq] at hjs
      obtain ⟨j, hj, js, hjs, rfl⟩ := hjs
      rw [depthOfItems, Nat.max_le] at hdepth
      exact List.forall_mem_cons.mpr ⟨Value.toJson?_printable h.1 hdepth.1 hj,
        jsonOfValues?_printable h.2 hdepth.2 hjs⟩

theorem jsonOfEntries?_printable {entries : List (String × Value)}
    (h : EveryEntry Value.Discrete entries) {depth : Nat}
    (hdepth : depthOfEntries entries ≤ depth) {fields : List (String × Json)}
    (hfields : jsonOfEntries? entries = some fields) :
    ∀ field ∈ fields, Json.Printable depth field.2 := by
  match entries with
  | [] => cases hfields; simp
  | (key, v) :: rest =>
      simp only [jsonOfEntries?, Option.bind_eq_bind, Option.bind_eq_some_iff,
        Option.some.injEq] at hfields
      obtain ⟨j, hj, js, hjs, rfl⟩ := hfields
      rw [depthOfEntries, Nat.max_le] at hdepth
      exact List.forall_mem_cons.mpr ⟨Value.toJson?_printable h.1 hdepth.1 hj,
        jsonOfEntries?_printable h.2 hdepth.2 hjs⟩

end

/-- The document of a value is read back if the value is nested at most 127 deep. -/
theorem Value.ofText?_document {v : Value} (h : v.Every Value.Discrete) (hdepth : v.depth ≤ 127)
    {j : Json} (hj : v.toJson? = some j) : Json.ofText? j.write = some j :=
  Json.ofText?_write (v.toJson?_printable h hdepth hj)

end SqlTemplate
