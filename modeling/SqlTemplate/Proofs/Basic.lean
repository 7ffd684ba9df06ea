import Mathlib
import SqlTemplate.Template.Eval

/-!
# Results, entries and variables

Facts about the data that everything else goes through: results that may be failures, entries
found by a key, and the variables of an execution, of which binding changes a value or puts one in
front, and leaving a block drops what was put in front.
-/

set_option autoImplicit false

namespace SqlTemplate

/-! ## Results -/

section Results

variable {ε α β : Type} {result : Except ε α}

theorem bind_eq_ok {next : α → Except ε β} {b : β} :
    (result >>= next) = .ok b ↔ ∃ a, result = .ok a ∧ next a = .ok b := by
  cases result with
  | error e => exact ⟨fun h => (nomatch h), fun ⟨_, h, _⟩ => (nomatch h)⟩
  | ok a => exact ⟨fun h => ⟨a, rfl, h⟩, fun ⟨_, h, hb⟩ => by cases h; exact hb⟩

theorem bind_eq_error {next : α → Except ε β} {e : ε} :
    (result >>= next) = .error e ↔ result = .error e ∨ ∃ a, result = .ok a ∧ next a = .error e := by
  cases result with
  | error e' =>
      constructor
      · intro h
        cases h
        exact .inl rfl
      · rintro (h | ⟨_, h, _⟩)
        · cases h
          rfl
        · cases h
  | ok a =>
      constructor
      · intro h
        exact .inr ⟨a, rfl, h⟩
      · rintro (h | ⟨_, h, he⟩)
        · cases h
        · cases h
          exact he

theorem map_eq_ok {f : α → β} {b : β} :
    result.map f = .ok b ↔ ∃ a, result = .ok a ∧ f a = b := by
  cases result with
  | error e => exact ⟨fun h => (nomatch h), fun ⟨_, h, _⟩ => (nomatch h)⟩
  | ok a =>
      refine ⟨fun h => ⟨a, rfl, Except.ok.inj h⟩, fun ⟨_, h, hb⟩ => ?_⟩
      cases h
      exact congrArg _ hb

theorem ok_bind (a : α) (next : α → Except ε β) : (Except.ok a >>= next) = next a := rfl

theorem map_eq_bind (f : α → β) : result.map f = (result >>= fun a => .ok (f a)) := by
  cases result <;> rfl

/-- A list of results is a result if each of them is. -/
theorem mapM_eq_ok {f : α → Except ε β} {items : List α} {results : List β} :
    items.mapM f = .ok results ↔ List.Forall₂ (fun a b => f a = .ok b) items results := by
  induction items generalizing results with
  | nil =>
      rw [List.mapM_nil, List.forall₂_nil_left_iff]
      exact ⟨fun h => (Except.ok.inj h).symm, fun h => h ▸ rfl⟩
  | cons a rest ih =>
      rw [List.mapM_cons, List.forall₂_cons_left_iff, bind_eq_ok]
      constructor
      · rintro ⟨b, hb, h⟩
        obtain ⟨others, hothers, h⟩ := bind_eq_ok.mp h
        exact ⟨b, others, hb, ih.mp hothers, (Except.ok.inj h).symm⟩
      · rintro ⟨b, others, hb, hothers, rfl⟩
        exact ⟨b, hb, bind_eq_ok.mpr ⟨others, ih.mpr hothers, rfl⟩⟩

/-- What stands in the second of two related lists is related to something in the first. -/
theorem exists_of_mem_right {R : α → β → Prop} {items : List α} {others : List β}
    (h : List.Forall₂ R items others) {b : β} (hb : b ∈ others) : ∃ a ∈ items, R a b := by
  induction h with
  | nil => cases hb
  | @cons a _ _ _ hR _ ih =>
      rcases List.mem_cons.mp hb with rfl | hb
      · exact ⟨a, List.mem_cons_self, hR⟩
      · obtain ⟨a', ha', hR'⟩ := ih hb
        exact ⟨a', List.mem_cons_of_mem a ha', hR'⟩

end Results

/-! ## Entries -/

theorem mem_of_lookup {κ β : Type} [DecidableEq κ] {x : κ} {b : β} {entries : List (κ × β)}
    (h : entries.lookup x = some b) : (x, b) ∈ entries := by
  induction entries with
  | nil => cases h
  | cons e rest ih =>
      obtain ⟨k, c⟩ := e
      rw [List.lookup_cons] at h
      split at h
      · rename_i hk
        cases h
        simp [beq_iff_eq.mp hk]
      · exact List.mem_cons_of_mem _ (ih h)

/-- Among entries with distinct keys, each is the one that its key finds. -/
theorem lookup_of_mem {κ β : Type} [DecidableEq κ] {entries : List (κ × β)}
    (hkeys : (entries.map (·.1)).Nodup) {x : κ} {b : β} (h : (x, b) ∈ entries) :
    entries.lookup x = some b := by
  induction entries with
  | nil => cases h
  | cons e rest ih =>
      obtain ⟨y, c⟩ := e
      rw [List.map_cons, List.nodup_cons] at hkeys
      rw [List.lookup_cons]
      rcases List.mem_cons.mp h with heq | hmem
      · cases heq
        rw [beq_self_eq_true]
      · have hne : x ≠ y := by
          rintro rfl
          exact hkeys.1 (List.mem_map.mpr ⟨_, hmem, rfl⟩)
        rw [beq_eq_false_iff_ne.mpr hne]
        exact ih hkeys.2 hmem

theorem lookup_eq_none {κ β : Type} [DecidableEq κ] {x : κ} {entries : List (κ × β)} :
    entries.lookup x = none ↔ x ∉ entries.map (·.1) := by
  induction entries with
  | nil => simp
  | cons e rest ih =>
      obtain ⟨k, c⟩ := e
      rw [List.lookup_cons]
      by_cases hk : x = k
      · simp [hk]
      · rw [beq_eq_false_iff_ne.mpr hk, List.map_cons, List.mem_cons, not_or]
        exact ⟨fun h => ⟨hk, ih.mp h⟩, fun h => ih.mpr h.2⟩

theorem exists_lookup {κ β : Type} [DecidableEq κ] {x : κ} {entries : List (κ × β)} :
    x ∈ entries.map (·.1) ↔ ∃ b, entries.lookup x = some b := by
  rw [← Option.ne_none_iff_exists', ne_eq, lookup_eq_none, not_not]

theorem lookup_cons_ite {κ β : Type} [DecidableEq κ] (key x : κ) (b : β)
    (entries : List (κ × β)) :
    List.lookup x ((key, b) :: entries) = if x = key then some b else entries.lookup x := by
  rw [List.lookup_cons]
  by_cases hx : x = key
  · rw [beq_iff_eq.mpr hx, if_pos hx]
  · rw [beq_eq_false_iff_ne.mpr hx, if_neg hx]

/-- Where each key stands once, it finds the same from either side. -/
theorem lookup_reverse {κ β : Type} [DecidableEq κ] {entries : List (κ × β)}
    (hkeys : (entries.map (·.1)).Nodup) (x : κ) :
    entries.reverse.lookup x = entries.lookup x := by
  cases hx : entries.lookup x with
  | some b =>
      refine lookup_of_mem ?_ (List.mem_reverse.mpr (mem_of_lookup hx))
      rwa [List.map_reverse, List.nodup_reverse]
  | none =>
      rw [lookup_eq_none] at hx ⊢
      simpa using hx

/-- Of values that are put under keys one after the other, a key has the last. -/
theorem lookup_foldl_put {κ β : Type} [DecidableEq κ]
    {put : κ → β → List (κ × β) → List (κ × β)}
    (hput : ∀ key x b entries,
      (put key b entries).lookup x = if x = key then some b else entries.lookup x)
    (x : κ) (entries front : List (κ × β)) :
    (entries.foldl (fun m e => put e.1 e.2 m) front).lookup x =
      (entries.reverse.lookup x).or (front.lookup x) := by
  induction entries generalizing front with
  | nil => rfl
  | cons e rest ih =>
      obtain ⟨key, b⟩ := e
      rw [List.foldl_cons, ih, hput, List.reverse_cons, List.lookup_append, Option.or_assoc,
        lookup_cons_ite]
      by_cases hx : x = key
      · rw [if_pos hx, if_pos hx, Option.some_or]
      · rw [if_neg hx, if_neg hx, List.lookup_nil, Option.none_or]

theorem lookup_filter_ne {κ β : Type} [DecidableEq κ] (x y : κ) (entries : List (κ × β)) :
    (entries.filter fun e => e.1 ≠ y).lookup x = if x = y then none else entries.lookup x := by
  induction entries with
  | nil => simp
  | cons e rest ih =>
      obtain ⟨k, c⟩ := e
      by_cases hk : k = y
      · rw [List.filter_cons_of_neg (by simpa using hk), ih]
        by_cases hx : x = y
        · simp only [if_pos hx]
        · rw [if_neg hx, if_neg hx, List.lookup_cons, beq_eq_false_iff_ne.mpr (hk ▸ hx)]
      · rw [List.filter_cons_of_pos (by simpa using hk), List.lookup_cons, List.lookup_cons, ih]
        by_cases hx : x = k
        · subst hx
          simp [hk]
        · rw [beq_eq_false_iff_ne.mpr hx]

/-- The field of a map is one of its entries. -/
theorem mem_of_findEntry {name : String} {v : Value} {entries : Entries}
    (h : findEntry name entries = some v) : ∃ e ∈ entries, e.2 = v := by
  rw [findEntry, Option.or_eq_some_iff] at h
  rcases h with h | ⟨_, h⟩
  · exact ⟨(name, v), mem_of_lookup h, rfl⟩
  · obtain ⟨e, he, rfl⟩ := Option.map_eq_some_iff.mp h
    exact ⟨e, List.mem_of_find?_eq_some he, rfl⟩

/-! ## Entries that are changed in place -/

section Follows

variable {β : Type} {R : Prop → β → β → Prop} {A B : String → Prop}

/-- Whether entries came from others by changing values in place. Only the first entry of a name can
be reached by the name, so `R` is told whether a name is in `A` there, and that it is not
at every later entry of the name. -/
def Follows (R : Prop → β → β → Prop) (A : String → Prop) :
    List (String × β) → List (String × β) → Prop
  | [], [] => True
  | (x, b) :: old, (y, c) :: new =>
    x = y ∧ R (A x) b c ∧ Follows R (fun z => A z ∧ z ≠ x) old new
  | _, _ => False

theorem Follows.names {old new : List (String × β)} (h : Follows R A old new) :
    new.map (·.1) = old.map (·.1) := by
  induction old generalizing new A with
  | nil =>
      cases new with
      | nil => rfl
      | cons e new => exact h.elim
  | cons e old ih =>
      cases new with
      | nil => exact h.elim
      | cons e' new =>
          obtain ⟨hname, -, hrest⟩ := h
          rw [List.map_cons, List.map_cons, ih hrest, hname]

/-- If no name is reached, nothing has to change. -/
theorem Follows.refl (hR : ∀ p b, ¬ p → R p b b) (hA : ∀ x, ¬ A x) (entries : List (String × β)) :
    Follows R A entries entries := by
  induction entries generalizing A with
  | nil => trivial
  | cons e rest ih => exact ⟨rfl, hR _ _ (hA _), ih fun x hx => hA x hx.1⟩

theorem Follows.imp (hR : ∀ x b c, R (A x) b c → R (B x) b c) {old new : List (String × β)}
    (h : Follows R A old new) : Follows R B old new := by
  induction old generalizing new A B with
  | nil =>
      cases new with
      | nil => trivial
      | cons e new => exact h.elim
  | cons e old ih =>
      cases new with
      | nil => exact h.elim
      | cons e' new =>
          obtain ⟨hname, hvalue, hrest⟩ := h
          refine ⟨hname, hR _ _ _ hvalue, ih ?_ hrest⟩
          intro x b c hx
          -- Behind the first entry of a name, neither condition reaches the name any more.
          by_cases hxe : x = e.1
          · have hA : (A x ∧ x ≠ e.1) = False := by simp [hxe]
            have hB : (B x ∧ x ≠ e.1) = False := by simp [hxe]
            rwa [hB, ← hA]
          · have hA : (A x ∧ x ≠ e.1) = A x := by simp [hxe]
            have hB : (B x ∧ x ≠ e.1) = B x := by simp [hxe]
            rw [hA] at hx
            rw [hB]
            exact hR x b c hx

theorem Follows.trans (hR : ∀ p q b c d, R p b c → R q c d → R (p ∨ q) b d)
    {first second third : List (String × β)} (h : Follows R A first second)
    (h' : Follows R B second third) : Follows R (fun x => A x ∨ B x) first third := by
  induction first generalizing second third A B with
  | nil =>
      cases second with
      | nil =>
          cases third with
          | nil => trivial
          | cons e third => exact h'.elim
      | cons e second => exact h.elim
  | cons e first ih =>
      cases second with
      | nil => exact h.elim
      | cons e' second =>
          cases third with
          | nil => exact h'.elim
          | cons e'' third =>
              obtain ⟨hname, hvalue, hrest⟩ := h
              obtain ⟨hname', hvalue', hrest'⟩ := h'
              rw [← hname] at hvalue' hrest'
              refine ⟨hname.trans hname', hR _ _ _ _ _ hvalue hvalue', ?_⟩
              -- What is reached behind the entry is reached by one of the two changes there.
              have hshadow : (fun x => (A x ∨ B x) ∧ x ≠ e.1)
                  = fun x => (A x ∧ x ≠ e.1) ∨ (B x ∧ x ≠ e.1) :=
                funext fun x => propext or_and_right
              rw [hshadow]
              exact ih hrest hrest'

/-- Entries that follow a list in two parts have two such parts. -/
theorem Follows.append {front old new : List (String × β)} (h : Follows R A (front ++ old) new) :
    ∃ front' old', new = front' ++ old' ∧ front'.map (·.1) = front.map (·.1) ∧
      Follows R (fun x => A x ∧ x ∉ front.map (·.1)) old old' := by
  induction front generalizing new A with
  | nil => exact ⟨[], new, rfl, rfl, by simpa using h⟩
  | cons e front ih =>
      cases new with
      | nil => exact h.elim
      | cons e' new =>
          obtain ⟨hname, -, hrest⟩ := h
          obtain ⟨front', old', rfl, hnames, hold⟩ := ih hrest
          refine ⟨e' :: front', old', rfl, ?_, ?_⟩
          · rw [List.map_cons, List.map_cons, hnames, hname]
          · have hshadow : (fun x => A x ∧ x ∉ (e :: front).map (·.1))
                = fun x => (A x ∧ x ≠ e.1) ∧ x ∉ front.map (·.1) := by
              funext x
              simp [and_assoc]
            rw [hshadow]
            exact hold

/-- The first entries of a name are related as `R` says. -/
theorem Follows.lookup {old new : List (String × β)} (h : Follows R A old new) (x : String) :
    (old.lookup x = none ∧ new.lookup x = none) ∨
      ∃ b c, old.lookup x = some b ∧ new.lookup x = some c ∧ R (A x) b c := by
  induction old generalizing new A with
  | nil =>
      cases new with
      | nil => exact .inl ⟨rfl, rfl⟩
      | cons e new => exact h.elim
  | cons e old ih =>
      cases new with
      | nil => exact h.elim
      | cons e' new =>
          obtain ⟨y, b⟩ := e
          obtain ⟨z, c⟩ := e'
          obtain ⟨rfl, hvalue, hrest⟩ := h
          rw [List.lookup_cons, List.lookup_cons]
          by_cases hx : x = y
          · subst hx
            simp only [beq_self_eq_true]
            exact .inr ⟨b, c, rfl, rfl, hvalue⟩
          · rw [beq_eq_false_iff_ne.mpr hx]
            have hA : (A x ∧ x ≠ y) = A x := by simp [hx]
            simpa only [hA] using ih hrest

end Follows

/-! ## Variables -/

namespace Variables

/-- The names of the variables, the innermost first. -/
def names (vars : Variables) : List String := vars.map (·.1)

theorem names_append (front vars : Variables) :
    names (front ++ vars) = names front ++ names vars :=
  List.map_append

/-- Whether a value may have become another at a place that assignments reach or not. -/
def Changed (reached : Prop) (before after : Value) : Prop := reached ∨ before = after

/-- Whether variables came from others by assignments to the names in `A`. -/
abbrev Kept (A : String → Prop) (before after : Variables) : Prop := Follows Changed A before after

namespace Kept

variable {A B : String → Prop} {vars vars' vars'' : Variables}

theorem refl (vars : Variables) : Kept (fun _ => False) vars vars :=
  Follows.refl (fun _ _ _ => .inr rfl) (fun _ h => h) vars

theorem imp (hAB : ∀ x, A x → B x) (h : Kept A vars vars') : Kept B vars vars' :=
  Follows.imp (fun x _ _ hR => hR.imp_left (hAB x)) h

theorem trans (h : Kept A vars vars') (h' : Kept A vars' vars'') : Kept A vars vars'' := by
  refine imp (fun x hx => hx.elim id id) (Follows.trans ?_ h h')
  rintro p q b c d (hp | rfl) (hq | rfl)
  · exact .inl (.inl hp)
  · exact .inl (.inl hp)
  · exact .inl (.inr hq)
  · exact .inr rfl

theorem names (h : Kept A vars vars') : vars'.names = vars.names := Follows.names h

theorem lookup (h : Kept A vars vars') {x : String} (hx : ¬ A x) :
    List.lookup x vars' = List.lookup x vars := by
  rcases Follows.lookup h x with ⟨hold, hnew⟩ | ⟨b, c, hold, hnew, hR⟩
  · rw [hold, hnew]
  · rw [hold, hnew, hR.resolve_left hx]

end Kept

/-- An assignment changes the innermost variable of its name. -/
theorem assign_kept {name : String} {value : Value} {vars vars' : Variables}
    (h : assign name value vars = some vars') : Kept (· = name) vars vars' := by
  induction vars generalizing vars' with
  | nil => cases h
  | cons e rest ih =>
      obtain ⟨n, v⟩ := e
      rw [assign] at h
      split at h
      · rename_i hn
        cases h
        -- Later variables of the name stay as they are.
        refine ⟨rfl, .inl hn, Follows.refl (fun _ _ _ => .inr rfl) ?_ rest⟩
        rintro x ⟨rfl, hx⟩
        exact hx hn.symm
      · rename_i hn
        obtain ⟨rest', hrest, rfl⟩ := Option.map_eq_some_iff.mp h
        refine ⟨rfl, .inr rfl, Kept.imp ?_ (ih hrest)⟩
        rintro x rfl
        exact ⟨rfl, Ne.symm hn⟩

theorem assign_eq_none {name : String} {value : Value} {vars : Variables} :
    assign name value vars = none ↔ name ∉ vars.names := by
  induction vars with
  | nil => simp [assign, names]
  | cons e rest ih =>
      obtain ⟨n, v⟩ := e
      rw [assign]
      by_cases hn : n = name
      · simp [hn, names]
      · rw [if_neg hn, Option.map_eq_none_iff, ih]
        simp [names, Ne.symm hn]

/-- The values after an assignment are the assigned one and values from before. -/
theorem assign_values {V : Value → Prop} {name : String} {value : Value} {vars vars' : Variables}
    (h : assign name value vars = some vars') (hvalue : V value) (hvars : ∀ e ∈ vars, V e.2) :
    ∀ e ∈ vars', V e.2 := by
  induction vars generalizing vars' with
  | nil => cases h
  | cons e rest ih =>
      obtain ⟨n, v⟩ := e
      rw [List.forall_mem_cons] at hvars
      rw [assign] at h
      split at h
      · cases h
        exact List.forall_mem_cons.mpr ⟨hvalue, hvars.2⟩
      · obtain ⟨rest', hrest, rfl⟩ := Option.map_eq_some_iff.mp h
        exact List.forall_mem_cons.mpr ⟨hvars.1, ih hrest hvars.2⟩

theorem lookup_eq_none {name : String} {vars : Variables} :
    vars.lookup name = none ↔ name ∉ vars.names :=
  SqlTemplate.lookup_eq_none

/-- Keeping as many variables as there were before others came in front drops those others. -/
theorem keep_append (extra vars : Variables) : keep vars.length (extra ++ vars) = vars := by
  simp [keep]

theorem mem_of_mem_keep {count : Nat} {vars : Variables} {e : String × Value}
    (h : e ∈ keep count vars) : e ∈ vars :=
  List.mem_of_mem_drop h

end Variables

end SqlTemplate
