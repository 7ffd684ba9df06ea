import Mathlib
import SqlTemplate.Proofs.Template.Literals

/-!
# The lines of parse errors

A source that is refused is refused on a line. Every action bears the line on which its opening
delimiter stands, and an open block bears the line of the action that opened it, so what the reader
of blocks refuses it refuses on such a line (`Reading.StaysOn`). One fault has no line: an end
outside of every block is reported on line zero, where an else in its place would be reported on the
line of its action.
-/

set_option autoImplicit false

namespace SqlTemplate

/-- Whether an action of a source opens on a line. -/
def Segment.OpensOn (source : String) (line : Nat) : Prop :=
  ∃ before, OpensBehind source.toList before ∧ line = 1 + lineFeeds before

/-- Whether a fault is reported on one of the lines, or is the one that is reported on none. -/
def LineFault.Located (L : Nat → Prop) (e : LineFault) : Prop :=
  if e.fault = .unexpectedEnd then e.line = 0 else L e.line

theorem LineFault.located {L : Nat → Prop} {e : LineFault} (hline : L e.line)
    (hfault : e.fault ≠ .unexpectedEnd) : e.Located L := by
  rw [Located, if_neg hfault]
  exact hline

/-! ## Faults inside actions -/

theorem ParseFault.ne_unexpectedEnd_of_isStructural {fault : ParseFault}
    (h : fault.isStructural = false) : fault ≠ .unexpectedEnd := by
  rintro rfl
  cases h

theorem ParseFault.ne_unexpectedEnd_of_isMisspelling {fault : ParseFault}
    (h : fault.isMisspelling = true) : fault ≠ .unexpectedEnd := by
  rintro rfl
  cases h

namespace Reading

variable {isFunction : String → Bool} {L : Nat → Prop} {line : Nat}

/-! ## Blocks -/

/-- Whether the open blocks bear lines of the class, or a fault is located on one. -/
def StaysOn (L : Nat → Prop) : Except LineFault Reading → Prop
  | .ok r => ∀ b ∈ r.blocks, L b.line
  | .error e => e.Located L

/-- A pipeline is refused on the line of its action. -/
theorem pipeline_located (isFunction : String → Bool) (hline : L line) (r : Reading)
    (context : PipelineContext) (tokens : List Token) :
    FailsWith (LineFault.Located L) (r.pipeline isFunction context line tokens) := by
  have hinside := Pipeline.ofTokens_failsInside ⟨isFunction, r.vars⟩ context tokens
  rw [pipeline]
  split
  · exact FailsWith.ok _
  · rename_i fault hfault
    have hstructural : fault.isStructural = false := hinside fault hfault
    exact FailsWith.error.mpr
      (LineFault.located hline (ParseFault.ne_unexpectedEnd_of_isStructural hstructural))

theorem openBlock_staysOn {r : Reading} (h : ∀ b ∈ r.blocks, L b.line) (hline : L line)
    (kind : BlockKind) (sharesEnd : Bool) (tokens : List Token) :
    StaysOn L (r.openBlock isFunction kind line sharesEnd tokens) := by
  have hpipe := pipeline_located isFunction hline r (.block kind) tokens
  rw [openBlock]
  cases hp : r.pipeline isFunction (.block kind) line tokens with
  | error e => exact hpipe e hp
  | ok pipe => exact List.forall_mem_cons.mpr ⟨hline, h⟩

/-- What is left open when blocks are closed was open before. -/
theorem closeBlocks_suffix {blocks : List OpenBlock} {nodes : List Node} {r : Reading}
    (h : closeBlocks blocks nodes = some r) : r.blocks <:+ blocks := by
  induction blocks generalizing nodes with
  | nil => cases h
  | cons b blocks ih =>
      rw [closeBlocks] at h
      split at h
      · exact (ih h).trans (List.suffix_cons b blocks)
      · cases h
        exact List.suffix_cons b blocks

theorem endBlock_staysOn {r : Reading} (h : ∀ b ∈ r.blocks, L b.line) (hline : L line)
    (tokens : List Token) : StaysOn L (r.endBlock line tokens) := by
  rw [endBlock]
  split
  · exact LineFault.located hline nofun
  split
  · rename_i hclose
    exact fun b hb => h b ((closeBlocks_suffix hclose).subset hb)
  · -- The only fault without a line.
    rfl

theorem elseBlock_staysOn {r : Reading} (h : ∀ b ∈ r.blocks, L b.line) (hline : L line)
    (tokens : List Token) : StaysOn L (r.elseBlock isFunction line tokens) := by
  rw [elseBlock]
  split
  · exact LineFault.located hline nofun
  rename_i b blocks hblocks
  rw [hblocks] at h
  split
  · exact LineFault.located hline nofun
  -- The block whose alternative begins bears its line still.
  have halternative : ∀ b' ∈ { b with body := some r.nodes } :: blocks, L b'.line := by
    rw [List.forall_mem_cons] at h ⊢
    exact h
  split
  · exact halternative
  split
  · exact openBlock_staysOn halternative hline _ _ _
  · exact LineFault.located hline nofun

theorem action_staysOn {r : Reading} (h : ∀ b ∈ r.blocks, L b.line) (hline : L line)
    (tokens : List Token) : StaysOn L (r.action isFunction line tokens) := by
  cases tokens with
  | nil => exact LineFault.located hline nofun
  | cons first rest =>
      rw [action]
      cases ActionKind.ofLexeme first.lexeme with
      | close => exact endBlock_staysOn h hline rest
      | alternative => exact elseBlock_staysOn h hline rest
      | opens kind => exact openBlock_staysOn h hline kind false rest
      | unsupported word => exact LineFault.located hline nofun
      | plain =>
          have hpipe := pipeline_located isFunction hline r .action (first :: rest)
          cases hp : r.pipeline isFunction .action line (first :: rest) with
          | error e => exact hpipe e hp
          | ok pipe => exact h

/-! ## Segments -/

theorem segment_staysOn {r : Reading} (h : ∀ b ∈ r.blocks, L b.line) (s : Segment)
    (hs : ∀ line body, s = .action line body → L line ∧ Segment.LiteralsEnd body) :
    StaysOn L (r.segment isFunction s) := by
  cases s with
  | text s => exact h
  | action line body =>
      obtain ⟨hline, hends⟩ := hs line body rfl
      rw [segment]
      cases htokens : Token.ofBody body with
      | ok tokens => exact action_staysOn h hline tokens
      | error fault =>
          have hmisspelt : fault.isMisspelling = true := Token.ofBody_misspelt hends fault htokens
          exact LineFault.located hline (ParseFault.ne_unexpectedEnd_of_isMisspelling hmisspelt)

/-- The segments of a source are read on the lines of its actions. -/
theorem segments_staysOn (isFunction : String → Bool) {segments : List Segment}
    (hsegments : ∀ line body, .action line body ∈ segments → L line ∧ Segment.LiteralsEnd body)
    {r : Reading} (h : ∀ b ∈ r.blocks, L b.line) :
    StaysOn L (segments.foldlM (segment isFunction) r) := by
  induction segments generalizing r with
  | nil => exact h
  | cons s rest ih =>
      have hs : StaysOn L (r.segment isFunction s) :=
        segment_staysOn h s fun line body heq =>
          hsegments line body (heq ▸ List.mem_cons_self)
      have hrest : ∀ line body, .action line body ∈ rest → L line ∧ Segment.LiteralsEnd body :=
        fun line body hmem => hsegments line body (List.mem_cons_of_mem s hmem)
      rw [List.foldlM_cons]
      cases hread : r.segment isFunction s with
      | error e =>
          rw [hread] at hs
          exact hs
      | ok next =>
          rw [hread] at hs
          exact ih hrest hs

theorem finish_located {r : Reading} (h : ∀ b ∈ r.blocks, L b.line) :
    FailsWith (LineFault.Located L) r.finish := by
  rw [finish]
  split
  · exact FailsWith.ok _
  · rename_i b blocks hblocks
    rw [hblocks] at h
    exact FailsWith.error.mpr (LineFault.located (h b List.mem_cons_self) nofun)

end Reading

/-! ## Sources -/

/-- A source is refused on a line of its actions. -/
theorem readSource_located (isFunction : String → Bool) (globals : List String) (source : String) :
    FailsWith (LineFault.Located (Segment.OpensOn source))
      (readSource isFunction globals source) := by
  intro e he
  rcases bind_eq_error.mp he with hcut | ⟨segments, hcut, he⟩
  · obtain ⟨hopens, hfault⟩ := Segment.opens_of_cut_error hcut
    refine LineFault.located hopens ?_
    intro hend
    rw [hend] at hfault
    simp at hfault
  have hsegments : ∀ line body, .action line body ∈ segments →
      Segment.OpensOn source line ∧ Segment.LiteralsEnd body := by
    intro line body hmem
    obtain ⟨before, hbefore, hline, -⟩ := Segment.opens_of_mem_cut hcut hmem
    exact ⟨⟨before, hbefore, hline⟩, Segment.ofSource_literalsEnd hcut hmem⟩
  have hstart : ∀ b ∈ (Reading.start globals).blocks, Segment.OpensOn source b.line := nofun
  have hstays := Reading.segments_staysOn isFunction hsegments hstart
  rcases bind_eq_error.mp he with hread | ⟨r, hread, he⟩
  · rw [hread] at hstays
    exact hstays
  · rw [hread] at hstays
    exact Reading.finish_located hstays e he

/-- **A parse error bears the line on which an action of the source opens**, unless it is that of an
end outside of every block, which bears none. -/
theorem Template.parse_line {name source : String} {isFunction : String → Bool}
    {globals : List String} {e : ParseError}
    (h : parse name source isFunction globals = .error e) :
    if e.fault = .unexpectedEnd then e.line = 0 else Segment.OpensOn source e.line := by
  rw [parse] at h
  split at h
  · cases h
  · rename_i fault hfault
    cases h
    exact readSource_located isFunction globals source fault hfault

/-- A second else, refused on its own line. -/
theorem Template.parse_line_else :
    let source := braced "if .A" ++ "\n" ++ braced "else" ++ "\n" ++ braced "- else"
    let e : ParseError := ⟨"t", 3, .expectedEnd⟩
    parse "t" source (fun _ => false) [] = .error e ∧
      if e.fault = .unexpectedEnd then e.line = 0 else Segment.OpensOn source e.line := by
  intro source e
  have hparse : parse "t" source (fun _ => false) [] = .error e := by
    cbv
  exact ⟨hparse, Template.parse_line hparse⟩

/-- An end outside of every block is refused, but not on a line on which an action opens. -/
theorem Template.parse_end_unlocated :
    let source := "a\n" ++ braced "end"
    let e : ParseError := ⟨"t", 0, .unexpectedEnd⟩
    parse "t" source (fun _ => false) [] = .error e ∧ ¬ Segment.OpensOn source e.line := by
  intro source e
  have hparse : parse "t" source (fun _ => false) [] = .error e := by
    cbv
  refine ⟨hparse, ?_⟩
  rintro ⟨before, -, hline⟩
  have hzero : 0 = 1 + Segment.lineFeeds before := hline
  omega

/-- An else in its place is refused on its line. -/
example : Template.parse "t" ("a\n" ++ braced "else") (fun _ => false) [] =
    .error ⟨"t", 2, .unexpectedElse⟩ := by
  cbv

end SqlTemplate
