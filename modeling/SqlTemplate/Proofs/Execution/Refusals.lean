import Mathlib
import SqlTemplate.Proofs.Execution.Congruence

/-!
# Writers that refuse

A template writes its text piece by piece to a writer, which may refuse a piece. The execution stops
there: what the writer holds then is a beginning of what a writer without limits would be given, and
the calls of functions are the first ones of the execution that is not stopped
(`Template.execute_failStop`).
-/

set_option autoImplicit false

namespace SqlTemplate

variable {σ α β : Type}

/-! ## Writers -/

/-- A writer: whether it accepts another piece of text when it holds some already. -/
abbrev Writer := List String → String → Bool

namespace Writer

/-- The writer that accepts everything. -/
def endless : Writer := fun _ _ => true

/-- The pieces that a writer accepts, one after the other, until it refuses one. -/
def accepted (w : Writer) (held : List String) : List String → List String
  | [] => []
  | piece :: rest => if w held piece then piece :: w.accepted (held ++ [piece]) rest else []

/-- Whether a writer accepts all of the pieces. -/
def Accepts (w : Writer) (held pieces : List String) : Prop := w.accepted held pieces = pieces

instance (w : Writer) (held pieces : List String) : Decidable (w.Accepts held pieces) :=
  inferInstanceAs (Decidable (_ = _))

variable (w : Writer) {held : List String}

theorem accepts_nil : w.Accepts held [] := rfl

theorem accepts_cons {piece : String} {rest : List String} :
    w.Accepts held (piece :: rest) ↔
      w held piece = true ∧ w.Accepts (held ++ [piece]) rest := by
  rw [Accepts, accepted]
  cases w held piece with
  | true => simp [Accepts]
  | false => simp

theorem endless_accepts (held pieces : List String) : endless.Accepts held pieces := by
  induction pieces generalizing held with
  | nil => exact accepts_nil endless
  | cons piece rest ih => exact (accepts_cons endless).2 ⟨rfl, ih (held ++ [piece])⟩

/-- A writer holds a beginning of what it was given. -/
theorem accepted_prefix (held pieces : List String) : w.accepted held pieces <+: pieces := by
  induction pieces generalizing held with
  | nil => exact List.prefix_rfl
  | cons piece rest ih =>
      rw [accepted]
      cases w held piece with
      | true => exact (List.prefix_cons_inj piece).2 (ih (held ++ [piece]))
      | false => exact List.nil_prefix

/-- Behind what it has accepted, a writer goes on with the rest. -/
theorem accepted_append {pieces : List String} (h : w.Accepts held pieces) (rest : List String) :
    w.accepted held (pieces ++ rest) = pieces ++ w.accepted (held ++ pieces) rest := by
  induction pieces generalizing held with
  | nil => simp
  | cons piece pieces ih =>
      obtain ⟨hpiece, hpieces⟩ := (w.accepts_cons).1 h
      rw [List.cons_append, accepted, if_pos hpiece, ih hpieces]
      simp

/-- Behind what it has refused, nothing reaches a writer. -/
theorem accepted_append_of_not {pieces : List String} (h : ¬ w.Accepts held pieces)
    (rest : List String) : w.accepted held (pieces ++ rest) = w.accepted held pieces := by
  induction pieces generalizing held with
  | nil => exact absurd w.accepts_nil h
  | cons piece pieces ih =>
      rw [List.cons_append, accepted, accepted]
      cases hpiece : w held piece with
      | true =>
          have hpieces : ¬ w.Accepts (held ++ [piece]) pieces :=
            fun haccepts => h (w.accepts_cons.2 ⟨hpiece, haccepts⟩)
          rw [if_pos rfl, if_pos rfl, ih hpieces]
      | false => rfl

theorem accepts_append {pieces rest : List String} :
    w.Accepts held (pieces ++ rest) ↔
      w.Accepts held pieces ∧ w.Accepts (held ++ pieces) rest := by
  induction pieces generalizing held with
  | nil => simp [accepts_nil]
  | cons piece pieces ih =>
      rw [List.cons_append, accepts_cons, accepts_cons, ih, and_assoc]
      simp

/-- A writer that does not accept all has refused one of the pieces. -/
theorem not_accepts_iff {pieces : List String} :
    ¬ w.Accepts held pieces ↔
      ∃ before piece rest, pieces = before ++ piece :: rest ∧ w (held ++ before) piece = false := by
  constructor
  · intro h
    induction pieces generalizing held with
    | nil => exact absurd w.accepts_nil h
    | cons piece rest ih =>
        cases hpiece : w held piece with
        | false => exact ⟨[], piece, rest, rfl, by simpa using hpiece⟩
        | true =>
            have hrest : ¬ w.Accepts (held ++ [piece]) rest :=
              fun haccepts => h (w.accepts_cons.2 ⟨hpiece, haccepts⟩)
            obtain ⟨before, refused, behind, rfl, hrefused⟩ := ih hrest
            exact ⟨piece :: before, refused, behind, rfl, by simpa using hrefused⟩
  · rintro ⟨before, piece, rest, rfl, hrefused⟩ haccepts
    obtain ⟨-, hbehind⟩ := w.accepts_append.1 haccepts
    obtain ⟨hpiece, -⟩ := w.accepts_cons.1 hbehind
    rw [hrefused] at hpiece
    cases hpiece

end Writer

/-! ## Printers -/

/-- A way of cutting the text of every value into the pieces in which it is written. -/
structure Printer where
  pieces : Value → List String
  join_pieces : ∀ v, String.join (pieces v) = v.toText

mutual

/-- The pieces in which a value is written. Numbers and instants are formatted elsewhere, which may
cut their texts in its own way. -/
def Value.written (cut : String → List String) : Value → List String
  | .nil => ["<nil>"]
  | .bool b => [if b then "true" else "false"]
  | .int n => cut (toString n.toInt)
  | .float x => cut (writeDouble .plain x)
  | .text s => [s]
  | .bytes data => [utf8Lossy data]
  | .instant t => cut t.toText
  | .list items => "[" :: (writtenItems cut " " items ++ ["]"])
  | .map entries => "map[" :: (writtenEntries cut entries ++ ["]"])
  | .fragment f => f.written cut
  | .dest path => "Dest" :: path.segments.flatMap fun segment => [".", segment]

/-- The pieces in which a fragment is written. -/
def Fragment.written (cut : String → List String) : Fragment → List String
  | .raw sql => [sql]
  | .scanner sql _ _ => [sql]
  | .list items => "(" :: (writtenItems cut ", " items ++ [")"])

/-- The pieces of values, with a separator between them. -/
def writtenItems (cut : String → List String) (separator : String) : List Value → List String
  | [] => []
  | [v] => v.written cut
  | v :: w :: rest => v.written cut ++ separator :: writtenItems cut separator (w :: rest)

/-- The pieces of entries, with spaces between them. -/
def writtenEntries (cut : String → List String) : List (String × Value) → List String
  | [] => []
  | [(k, v)] => k :: ":" :: v.written cut
  | (k, v) :: e :: rest => k :: ":" :: (v.written cut ++ " " :: writtenEntries cut (e :: rest))

end

section Written

variable {cut : String → List String}

theorem join_segments (segments : List String) :
    String.join (segments.flatMap fun segment => [".", segment])
      = String.join (segments.map ("." ++ ·)) := by
  induction segments with
  | nil => rfl
  | cons segment rest ih =>
      simp only [List.flatMap_cons, List.cons_append, List.nil_append, List.map_cons,
        String.join_cons, ih, String.append_assoc]

mutual

/-- The pieces of a value are its text. -/
theorem Value.join_written (hcut : ∀ s, String.join (cut s) = s) (v : Value) :
    String.join (v.written cut) = v.toText := by
  match v with
  | .nil | .bool _ | .text _ | .bytes _ =>
      rw [Value.written, Value.toText, String.join_cons, String.join_nil, String.append_empty]
  | .int _ | .float _ | .instant _ => rw [Value.written, Value.toText, hcut]
  | .list items =>
      simp only [Value.written, Value.toText, String.join_cons, String.join_append,
        join_writtenItems hcut " " items, String.join_nil, String.append_empty,
        String.append_assoc]
  | .map entries =>
      simp only [Value.written, Value.toText, String.join_cons, String.join_append,
        join_writtenEntries hcut entries, String.join_nil, String.append_empty,
        String.append_assoc]
  | .fragment f => rw [Value.written, Value.toText, f.join_written hcut]
  | .dest path =>
      rw [Value.written, Value.toText, DestPath.toText, String.join_cons, String.join_cons,
        join_segments]

theorem Fragment.join_written (hcut : ∀ s, String.join (cut s) = s) (f : Fragment) :
    String.join (f.written cut) = f.toText := by
  match f with
  | .raw _ | .scanner _ _ _ =>
      rw [Fragment.written, Fragment.toText, String.join_cons, String.join_nil,
        String.append_empty]
  | .list items =>
      simp only [Fragment.written, Fragment.toText, String.join_cons, String.join_append,
        join_writtenItems hcut ", " items, String.join_nil, String.append_empty,
        String.append_assoc]

theorem join_writtenItems (hcut : ∀ s, String.join (cut s) = s) (separator : String)
    (items : List Value) :
    String.join (writtenItems cut separator items) = joinTexts separator items := by
  match items with
  | [] => rfl
  | [v] => rw [writtenItems, joinTexts, v.join_written hcut]
  | v :: w :: rest =>
      rw [writtenItems, joinTexts, String.join_append, String.join_cons, v.join_written hcut,
        join_writtenItems hcut separator (w :: rest), String.append_assoc]

theorem join_writtenEntries (hcut : ∀ s, String.join (cut s) = s)
    (entries : List (String × Value)) :
    String.join (writtenEntries cut entries) = joinEntries entries := by
  match entries with
  | [] => rfl
  | [(k, v)] =>
      rw [writtenEntries, joinEntries, String.join_cons, String.join_cons, v.join_written hcut,
        String.append_assoc]
  | (k, v) :: e :: rest =>
      simp only [writtenEntries, joinEntries, String.join_cons, String.join_append,
        v.join_written hcut, join_writtenEntries hcut (e :: rest), String.append_assoc]

end

end Written

/-- The printer that writes lists, maps, fragments and paths part by part, and cuts the texts of
numbers and instants in a given way. -/
def Printer.display (cut : String → List String) (hcut : ∀ s, String.join (cut s) = s) : Printer :=
  ⟨Value.written cut, Value.join_written hcut⟩

example : (Printer.display (fun s => [s]) (by simp)).pieces (.list [.text "a", .map [("k", .nil)]])
    = ["[", "a", " ", "map[", "k", ":", "<nil>", "]", "]"] := by
  decide

/-! ## Executions that write piece by piece -/

/-- What is written at once: a literal text as a whole, or a value in its pieces. -/
inductive Printer.Writes (p : Printer) : List String → Prop
  | literal (s : String) : p.Writes [s]
  | value (v : Value) : p.Writes (p.pieces v)

/-- The host of an execution with the calls that it has answered, and the pieces that a writer
holds. -/
structure Recording (σ : Type) where
  host : σ
  calls : List (String × List Value)
  held : List String

namespace Recording

/-- The recording at the start. -/
def start (host : σ) : Recording σ := ⟨host, [], []⟩

/-- The recording when the writer has accepted all of the pieces. -/
def write (w : Writer) (pieces : List String) (r : Recording σ) : Option (Recording σ) :=
  if w.Accepts r.held pieces then some { r with held := r.held ++ pieces } else none

/-- Nothing of one recording is missing in the other. -/
structure Extends (r next : Recording σ) : Prop where
  calls : r.calls <+: next.calls
  held : r.held <+: next.held

/-- Between two recordings the writer has refused nothing. -/
structure Grows (w : Writer) (r next : Recording σ) : Prop where
  calls : r.calls <+: next.calls
  held : ∃ pieces, next.held = r.held ++ pieces ∧ w.Accepts r.held pieces

/-- The writer refuses what the other recording has next. -/
structure Blocked (p : Printer) (w : Writer) (r next : Recording σ) : Prop where
  calls : r.calls <+: next.calls
  held : ∃ pieces, p.Writes pieces ∧ ¬ w.Accepts r.held pieces ∧ r.held ++ pieces <+: next.held

theorem Extends.trans {r s t : Recording σ} (h : r.Extends s) (h' : s.Extends t) : r.Extends t :=
  ⟨h.calls.trans h'.calls, h.held.trans h'.held⟩

section

variable {p : Printer} {w : Writer} {r s t : Recording σ}

theorem Grows.refl (w : Writer) (r : Recording σ) : r.Grows w r :=
  ⟨List.prefix_rfl, [], (List.append_nil r.held).symm, w.accepts_nil⟩

theorem Grows.trans (h : r.Grows w s) (h' : s.Grows w t) : r.Grows w t := by
  obtain ⟨pieces, hs, haccepts⟩ := h.held
  obtain ⟨further, ht, hfurther⟩ := h'.held
  rw [hs] at ht hfurther
  refine ⟨h.calls.trans h'.calls, pieces ++ further, ?_, ?_⟩
  · rw [ht, List.append_assoc]
  · exact w.accepts_append.2 ⟨haccepts, hfurther⟩

theorem Grows.accepts {host : σ} (h : (start host).Grows w s) : w.Accepts [] s.held := by
  obtain ⟨pieces, hs, haccepts⟩ := h.held
  rwa [hs]

theorem Grows.extends (h : r.Grows w s) : r.Extends s := by
  obtain ⟨pieces, hs, -⟩ := h.held
  exact ⟨h.calls, hs ▸ List.prefix_append r.held pieces⟩

theorem Blocked.extends (h : r.Blocked p w s) : r.Extends s := by
  obtain ⟨pieces, -, -, hheld⟩ := h.held
  exact ⟨h.calls, (List.prefix_append r.held pieces).trans hheld⟩

/-- Up to the refusal and in front of the refused piece, a writer has what it would accept of
all. -/
theorem Blocked.accepted (h : r.Blocked p w s) (haccepts : w.Accepts [] r.held) :
    ∃ pieces, p.Writes pieces ∧ ¬ w.Accepts r.held pieces ∧ r.held ++ pieces <+: s.held ∧
      r.held ++ w.accepted r.held pieces = w.accepted [] s.held := by
  obtain ⟨pieces, hwrites, hrefused, rest, hheld⟩ := h.held
  refine ⟨pieces, hwrites, hrefused, ⟨rest, hheld⟩, ?_⟩
  calc r.held ++ w.accepted r.held pieces
      = r.held ++ w.accepted r.held (pieces ++ rest) := by
        rw [w.accepted_append_of_not hrefused rest]
    _ = w.accepted [] (r.held ++ (pieces ++ rest)) := (w.accepted_append haccepts _).symm
    _ = w.accepted [] s.held := by rw [← List.append_assoc, hheld]

theorem Blocked.not_accepts (h : r.Blocked p w s) : ¬ w.Accepts [] s.held := by
  intro haccepts
  obtain ⟨pieces, -, hrefused, rest, hheld⟩ := h.held
  rw [← hheld] at haccepts
  obtain ⟨hpieces, -⟩ := w.accepts_append.1 haccepts
  exact hrefused (w.accepts_append.1 hpieces).2

theorem Blocked.trans (h : r.Blocked p w s) (h' : s.Extends t) : r.Blocked p w t := by
  obtain ⟨pieces, hwrites, hrefused, hheld⟩ := h.held
  exact ⟨h.calls.trans h'.calls, pieces, hwrites, hrefused, hheld.trans h'.held⟩

end

end Recording

/-- The world of a host, in which text goes to a writer. -/
def World.writing (host : String → List Value → σ → Except Cause Value × σ) (p : Printer)
    (w : Writer) : World (Recording σ) where
  call name args r :=
    let (answer, next) := host name args r.host
    (answer, { r with host := next, calls := r.calls ++ [(name, args)] })
  literal s r := r.write w [s]
  print v r := r.write w (p.pieces v)

/-! ## Two executions, one of them with a writer without limits -/

namespace Exec

/-- What a step comes to with a writer, against what it comes to without limits: the same, if the
writer has refused nothing; or else it has stopped where the writer has refused a piece. -/
inductive Reaches (p : Printer) (w : Writer) (r : Recording σ) :
    Except EvalFault α × Frame (Recording σ) → Except EvalFault α × Frame (Recording σ) → Prop
  | whole (result : Except EvalFault α) (last : Frame (Recording σ)) (h : result ≠ .error .write)
      (grows : r.Grows w last.world) : Reaches p w r (result, last) (result, last)
  | short (result : Except EvalFault α) (last stopped : Frame (Recording σ))
      (grows : r.Grows w stopped.world) (blocked : stopped.world.Blocked p w last.world) :
      Reaches p w r (.error .write, stopped) (result, last)

/-- **From every state, the step with a writer comes to what the step without limits comes to, or
stops where a piece is refused.** -/
def FailStop (p : Printer) (w : Writer) (m n : Exec (Recording σ) α) : Prop :=
  ∀ frame, Reaches p w frame.world (m.on frame) (n.on frame)

/-- Without limits a step only adds to a recording. -/
theorem Reaches.extends {p : Printer} {w : Writer} {r : Recording σ}
    {x y : Except EvalFault α × Frame (Recording σ)} (h : Reaches p w r x y) :
    r.Extends y.2.world := by
  cases h with
  | whole result last _ grows => exact grows.extends
  | short result last stopped grows blocked => exact grows.extends.trans blocked.extends

/-- What follows a step to which nothing was refused is counted from where the step began. -/
theorem Reaches.after {p : Printer} {w : Writer} {r s : Recording σ}
    {x y : Except EvalFault α × Frame (Recording σ)} (h : Reaches p w s x y) (hs : r.Grows w s) :
    Reaches p w r x y := by
  cases h with
  | whole result last hresult grows => exact .whole result last hresult (hs.trans grows)
  | short result last stopped grows blocked =>
      exact .short result last stopped (hs.trans grows) blocked

namespace FailStop

variable {p : Printer} {w : Writer}

/-- A step that leaves the world alone. -/
theorem of_quiet {m n : Exec (Recording σ) α}
    (h : ∀ frame, m.on frame = n.on frame ∧ (n.on frame).1 ≠ .error .write ∧
      (n.on frame).2.world = frame.world) : FailStop p w m n := by
  intro frame
  obtain ⟨hsame, hresult, hworld⟩ := h frame
  have hgrows : frame.world.Grows w (n.on frame).2.world := hworld.symm ▸ .refl w frame.world
  rw [hsame]
  exact .whole _ _ hresult hgrows

theorem pure (a : α) : FailStop p w (pure a : Exec (Recording σ) α) (pure a) :=
  of_quiet fun _ => ⟨rfl, nofun, rfl⟩

/-- A failure that tells the line is none of writing. -/
theorem throwAt (fault : Nat → EvalFault) (h : ∀ line, fault line ≠ .write) :
    FailStop p w (do throw (fault (← get).line) : Exec (Recording σ) α)
      (do throw (fault (← get).line)) :=
  of_quiet fun frame => ⟨rfl, fun hwrite => h frame.line (Except.error.inj hwrite), rfl⟩

theorem stop (reason : EvalReason) :
    FailStop p w (Exec.stop reason : Exec (Recording σ) α) (Exec.stop reason) := by
  refine throwAt (.at · reason) fun line h => ?_
  cases h

theorem bind {m n : Exec (Recording σ) α} {k l : α → Exec (Recording σ) β}
    (hm : FailStop p w m n) (hk : ∀ a, FailStop p w (k a) (l a)) :
    FailStop p w (m >>= k) (n >>= l) := by
  intro frame
  have hfirst := hm frame
  rw [on_bind, on_bind]
  generalize m.on frame = x at hfirst
  generalize n.on frame = y at hfirst
  cases hfirst with
  | whole result last hresult grows =>
      cases result with
      | ok a => exact (hk a last).after grows
      | error fault =>
          refine .whole _ _ ?_ grows
          rintro ⟨⟩
          exact hresult rfl
  | short result last stopped grows blocked =>
      -- The step without limits may go on; what it adds does not undo the refusal.
      cases result with
      | ok a => exact .short _ _ stopped grows (blocked.trans (hk a last).extends)
      | error fault => exact .short _ last stopped grows blocked

theorem bindVariable (assigns : Bool) (name : String) (value : Value) :
    FailStop p w (Exec.bind assigns name value : Exec (Recording σ) Unit)
      (Exec.bind assigns name value) := by
  refine of_quiet fun frame => ?_
  cases assigns with
  | false => exact ⟨rfl, nofun, rfl⟩
  | true =>
      rw [on_assign]
      cases Variables.assign name value frame.vars with
      | some vars => exact ⟨rfl, nofun, rfl⟩
      | none => exact ⟨rfl, nofun, rfl⟩

variable {env env' : Env (Recording σ)}

theorem valueOf (hroot : env.root = env'.root) (name : String) :
    FailStop p w (Exec.valueOf env name) (Exec.valueOf env' name) := by
  refine of_quiet fun frame => ?_
  rw [on_valueOf, on_valueOf, hroot]
  cases frame.vars.lookup name with
  | some value => exact ⟨rfl, nofun, rfl⟩
  | none =>
      dsimp only
      by_cases h : name = "$"
      · rw [if_pos h]
        exact ⟨rfl, nofun, rfl⟩
      · rw [if_neg h]
        exact ⟨rfl, nofun, rfl⟩

theorem fields (hpolicy : env.policy = env'.policy) (names : List String) (v : Value) :
    FailStop p w (Exec.fields env names v) (Exec.fields env' names v) := by
  induction names generalizing v with
  | nil => exact pure v
  | cons name rest ih =>
      cases v with
      | map entries =>
          rw [Exec.fields, Exec.fields, hpolicy]
          cases findEntry name entries with
          | some item => exact ih item
          | none =>
              cases env'.policy with
              | invalid => exact ih _
              | zero => exact ih _
              | error =>
                  refine throwAt (.missingKey · name) fun line h => ?_
                  cases h
      | dest path => exact pure _
      | nil => exact stop _
      | _ => exact stop _

/-- What is written reaches both writers, or is refused by the one that has limits. -/
theorem afterWriting {pieces : List String} (h : p.Writes pieces)
    (frame : Frame (Recording σ)) :
    Reaches p w frame.world (Exec.afterWriting frame (frame.world.write w pieces))
      (Exec.afterWriting frame (frame.world.write .endless pieces)) := by
  have hendless : frame.world.write .endless pieces =
      some { frame.world with held := frame.world.held ++ pieces } :=
    if_pos (Writer.endless_accepts frame.world.held pieces)
  rw [hendless, Recording.write]
  by_cases haccepts : w.Accepts frame.world.held pieces
  · rw [if_pos haccepts]
    exact .whole _ _ nofun ⟨List.prefix_rfl, pieces, rfl, haccepts⟩
  · rw [if_neg haccepts]
    exact .short _ _ frame (.refl w frame.world)
      ⟨List.prefix_rfl, pieces, h, haccepts, List.prefix_rfl⟩

/-- The same host with a writer, and without limits. -/
theorem congruent (host : String → List Value → σ → Except Cause Value × σ) (p : Printer)
    (w : Writer) (policy : MissingKey) (data : Value) :
    Congruent (fun _ => FailStop p w) ⟨World.writing host p w, policy, data⟩
      ⟨World.writing host p .endless, policy, data⟩ where
  pure := pure
  bind := bind
  stop := stop
  setLine _ := of_quiet fun _ => ⟨rfl, nofun, rfl⟩
  mark := of_quiet fun _ => ⟨rfl, nofun, rfl⟩
  keepVariables _ := of_quiet fun _ => ⟨rfl, nofun, rfl⟩
  bindVariable := bindVariable
  valueOf := valueOf rfl
  fields := fields rfl
  callWorld name args frame := by
    rw [on_callWorld, on_callWorld]
    refine .whole _ _ ?_ ⟨List.prefix_append _ _, [], (List.append_nil _).symm, w.accepts_nil⟩
    show (host name args frame.world.host).1.mapError (EvalFault.function frame.line name) ≠
      .error .write
    cases (host name args frame.world.host).1 with
    | ok answer => nofun
    | error cause => nofun
  literal s frame := by
    rw [on_literal, on_literal]
    exact afterWriting (.literal s) frame
  print v frame := by
    rw [on_print, on_print]
    exact afterWriting (.value v) frame

end FailStop

end Exec

/-! ## Whole templates -/

theorem EvalError.mapError_ne_write (template : String) {result : Except EvalFault α}
    (h : result ≠ .error .write) :
    result.mapError (EvalError.mk template) ≠ .error ⟨template, .write⟩ := by
  intro hwrite
  cases result with
  | ok a => cases hwrite
  | error fault =>
      cases hwrite
      exact h rfl

/-- **Nothing happens behind a refusal.** Let a template be executed with a writer that may refuse a
piece of text, and stores nothing of a piece that it refuses, and let the full execution be the one
with a writer that accepts everything. The calls of functions are the first calls of the full
execution, with the same arguments. The execution fails to write exactly if the full one comes to
a piece that the writer refuses; if not, it ends like the full execution, with the same result, the
same host, and the same text. If it does, the writer holds what it had accepted before, and the
pieces in front of the refused one of the literal text or the value at which the execution stopped:
the text that the writer holds is a beginning of the text of the full execution, namely as much of
it as the writer accepts. -/
theorem Template.execute_failStop (t : Template)
    (host : String → List Value → σ → Except Cause Value × σ) (p : Printer) (w : Writer)
    (policy : MissingKey) (data : Value) (seeds : List (String × Value)) (start : σ) :
    let full := t.execute (World.writing host p .endless) policy data seeds (Recording.start start)
    let run := t.execute (World.writing host p w) policy data seeds (Recording.start start)
    run.2.calls <+: full.2.calls ∧
      (run.1 = .error ⟨t.name, .write⟩ ↔ ∃ before piece rest,
        full.2.held = before ++ piece :: rest ∧ w before piece = false) ∧
      (run.1 ≠ .error ⟨t.name, .write⟩ → run = full) ∧
      (run.1 = .error ⟨t.name, .write⟩ → ∃ pieces, p.Writes pieces ∧
        ¬ w.Accepts run.2.held pieces ∧ run.2.held ++ pieces <+: full.2.held ∧
        run.2.held ++ w.accepted run.2.held pieces = w.accepted [] full.2.held ∧
        w.accepted [] full.2.held <+: full.2.held) := by
  have hreaches := walkNodes_congruent (Exec.FailStop.congruent host p w policy data) data t.root
    (Frame.start seeds (Recording.start start))
  rw [execute_eq, execute_eq]
  revert hreaches
  generalize (walkNodes _ data t.root).on (Frame.start seeds (Recording.start start)) = x
  generalize (walkNodes _ data t.root).on (Frame.start seeds (Recording.start start)) = y
  intro hreaches full run
  -- A piece is refused exactly if the writer does not accept all of the full text.
  have hrefused : ¬ w.Accepts [] full.2.held ↔ ∃ before piece rest,
      full.2.held = before ++ piece :: rest ∧ w before piece = false := w.not_accepts_iff
  rw [← hrefused]
  cases hreaches with
  | whole result last hresult grows =>
      have hrun := EvalError.mapError_ne_write t.name hresult
      refine ⟨List.prefix_rfl, ?_, fun _ => rfl, fun h => absurd h hrun⟩
      exact ⟨fun h => absurd h hrun, fun h => absurd grows.accepts h⟩
  | short result last stopped grows blocked =>
      obtain ⟨pieces, hwrites, hnot, hheld, heq⟩ := blocked.accepted grows.accepts
      refine ⟨blocked.calls, ⟨fun _ => blocked.not_accepts, fun _ => rfl⟩, fun h => absurd rfl h,
        fun _ => ?_⟩
      exact ⟨pieces, hwrites, hnot, hheld, heq, w.accepted_prefix [] _⟩

end SqlTemplate
