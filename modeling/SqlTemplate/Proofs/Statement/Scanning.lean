import Mathlib
import SqlTemplate.Proofs.Statement.Columns

/-!
# Rows and mappers

The operations that yield typed values differ in the rows that they look at: the first, the only
one, or all of them. Mappers are applied row by row, and within a row from column to column, up to
the first that fails. Where a scan may stop, and with which error, is said without its steps
(`Targets.RowScan`, `Targets.RowsScan`); every operation ends in this way (`Access.finish_scans`).
-/

set_option autoImplicit false

namespace SqlTemplate

variable {α β : Type}

/-! ## Applications of mappers -/

/-- The application of a mapper to a column of a row, which is the one at `position`. -/
structure Application where
  position : Nat
  row : Row
  column : Nat
  mapper : Mapper
  value : Value

namespace Application

/-- What is told of an application. -/
def event (x : Application) : Event := .mapped x.position x.column x.value

/-- What an application comes to. -/
def outcome (x : Application) (transforms : Transforms) : Except Cause Value :=
  x.mapper.apply transforms x.value

/-- Whether an application yields a value. -/
def Passes (x : Application) (transforms : Transforms) : Prop :=
  ∃ v, x.outcome transforms = .ok v

/-- The error of an application that fails: it names the column. -/
def error (x : Application) (cause : Cause) : Error :=
  .mapper (x.row.columns[x.column]?.getD ("#" ++ toString (x.column + 1))) cause

/-- Whether an application is in an earlier row, or in the same row in an earlier column. -/
def Before (x y : Application) : Prop :=
  x.position < y.position ∨ x.position = y.position ∧ x.column < y.column

theorem Passes.not_error {x : Application} {transforms : Transforms} {cause : Cause}
    (h : x.Passes transforms) : x.outcome transforms ≠ .error cause := by
  obtain ⟨v, hv⟩ := h
  rw [hv]
  nofun

theorem Before.asymm {x y : Application} (h : x.Before y) : ¬ y.Before x := by
  unfold Before at h ⊢
  omega

end Application

namespace Targets

/-- The application for a column, if it has a mapper. -/
def Cell.schedule (position : Nat) (row : Row) (cell : Cell) : List Application :=
  match cell.mapper with
  | none => []
  | some mapper => [⟨position, row, cell.column, mapper, cell.value⟩]

/-- The applications for a row, if it has as many columns as there are places. -/
def rowSchedule (targets : Targets) (position : Nat) (row : Row) : List Application :=
  if row.values.length = targets.dests.length then
    (targets.cells row).flatMap (Cell.schedule position row)
  else []

/-- The applications for rows, of which the first is at `position`. -/
def schedule (targets : Targets) : Nat → List Row → List Application
  | _, [] => []
  | position, row :: rest =>
    targets.rowSchedule position row ++ targets.schedule (position + 1) rest

/-- Whether an application is due: its row is there, has as many columns as there are places, and
has the value in the column, for which the mapper is registered. -/
structure Due (targets : Targets) (rows : List Row) (x : Application) : Prop where
  row : rows[x.position]? = some x.row
  width : x.row.values.length = targets.dests.length
  value : x.row.values[x.column]? = some x.value
  mapper : targets.mappers[x.column]? = some (some x.mapper)

theorem mem_cells {targets : Targets} {row : Row} {cell : Cell} :
    cell ∈ targets.cells row ↔ ∃ i path value, targets.dests[i]? = some path ∧
      row.values[i]? = some value ∧ cell = ⟨i, path, (targets.mappers[i]?).join, value⟩ := by
  rw [cells, List.mem_mapIdx]
  constructor
  · rintro ⟨i, hi, rfl⟩
    rw [List.length_zip, Nat.lt_min] at hi
    obtain ⟨hpath, hvalue⟩ := hi
    refine ⟨i, targets.dests[i], row.values[i], List.getElem?_eq_getElem hpath,
      List.getElem?_eq_getElem hvalue, ?_⟩
    rw [List.getElem_zip]
  · rintro ⟨i, path, value, hpath, hvalue, rfl⟩
    obtain ⟨hdests, rfl⟩ := List.getElem?_eq_some_iff.mp hpath
    obtain ⟨hvalues, rfl⟩ := List.getElem?_eq_some_iff.mp hvalue
    refine ⟨i, ?_, ?_⟩
    · rw [List.length_zip, Nat.lt_min]
      exact ⟨hdests, hvalues⟩
    · rw [List.getElem_zip]

theorem Cell.mem_schedule {position : Nat} {row : Row} {cell : Cell} {x : Application} :
    x ∈ cell.schedule position row ↔ ∃ mapper, cell.mapper = some mapper ∧
      x = ⟨position, row, cell.column, mapper, cell.value⟩ := by
  rw [schedule]
  cases cell.mapper with
  | none => simp
  | some mapper => simp

theorem rowSchedule_of_isEmpty {targets : Targets} (h : targets.dests.isEmpty) (position : Nat)
    (row : Row) : targets.rowSchedule position row = [] := by
  obtain ⟨dests, mappers⟩ := targets
  obtain rfl : dests = [] := List.isEmpty_iff.mp h
  rw [rowSchedule]
  exact ite_self _

/-- The applications for a row are those that are due in it. -/
theorem mem_rowSchedule {targets : Targets} {position : Nat} {row : Row} {x : Application} :
    x ∈ targets.rowSchedule position row ↔
      x.position = position ∧ x.row = row ∧ row.values.length = targets.dests.length ∧
        row.values[x.column]? = some x.value ∧
        targets.mappers[x.column]? = some (some x.mapper) := by
  rw [rowSchedule]
  by_cases hwidth : row.values.length = targets.dests.length
  · rw [if_pos hwidth, List.mem_flatMap]
    constructor
    · rintro ⟨cell, hcell, hx⟩
      obtain ⟨i, path, value, -, hvalue, rfl⟩ := mem_cells.mp hcell
      obtain ⟨mapper, hmapper, rfl⟩ := Cell.mem_schedule.mp hx
      exact ⟨rfl, rfl, hwidth, hvalue, Option.join_eq_some_iff.mp hmapper⟩
    · rintro ⟨rfl, rfl, -, hvalue, hmapper⟩
      obtain ⟨hcolumn, -⟩ := List.getElem?_eq_some_iff.mp hvalue
      have hpath := List.getElem?_eq_getElem (hwidth ▸ hcolumn)
      refine ⟨_, mem_cells.mpr ⟨x.column, _, x.value, hpath, hvalue, rfl⟩, ?_⟩
      exact Cell.mem_schedule.mpr ⟨x.mapper, Option.join_eq_some_iff.mpr hmapper, rfl⟩
  · rw [if_neg hwidth]
    constructor
    · intro h
      cases h
    · rintro ⟨-, -, h, -⟩
      exact absurd h hwidth

theorem mem_schedule {targets : Targets} {position : Nat} {rows : List Row} {x : Application} :
    x ∈ targets.schedule position rows ↔ ∃ i, x.position = position + i ∧
      rows[i]? = some x.row ∧ x ∈ targets.rowSchedule x.position x.row := by
  induction rows generalizing position with
  | nil => simp [schedule]
  | cons row rest ih =>
      rw [schedule, List.mem_append, ih]
      constructor
      · rintro (hrow | ⟨i, hposition, hi, hx⟩)
        · obtain ⟨rfl, rfl, -⟩ := mem_rowSchedule.mp hrow
          exact ⟨0, rfl, rfl, hrow⟩
        · exact ⟨i + 1, by omega, hi, hx⟩
      · rintro ⟨i, hposition, hi, hx⟩
        cases i with
        | zero =>
            obtain rfl : row = x.row := Option.some.inj hi
            rw [Nat.add_zero] at hposition
            exact .inl (hposition ▸ hx)
        | succ i => exact .inr ⟨i, by omega, hi, hx⟩

/-- The applications for rows are those that are due. -/
theorem mem_schedule_iff_due {targets : Targets} {rows : List Row} {x : Application} :
    x ∈ targets.schedule 0 rows ↔ targets.Due rows x := by
  rw [mem_schedule]
  constructor
  · rintro ⟨i, hposition, hi, hx⟩
    obtain ⟨-, -, hwidth, hvalue, hmapper⟩ := mem_rowSchedule.mp hx
    rw [Nat.zero_add] at hposition
    exact ⟨hposition ▸ hi, hwidth, hvalue, hmapper⟩
  · rintro ⟨hrow, hwidth, hvalue, hmapper⟩
    exact ⟨x.position, (Nat.zero_add _).symm, hrow,
      mem_rowSchedule.mpr ⟨rfl, rfl, hwidth, hvalue, hmapper⟩⟩

/-- Within a row, applications go from column to column. -/
theorem rowSchedule_pairwise (targets : Targets) (position : Nat) (row : Row) :
    (targets.rowSchedule position row).Pairwise Application.Before := by
  rw [rowSchedule]
  by_cases hwidth : row.values.length = targets.dests.length
  · rw [if_pos hwidth]
    have hcolumns : (targets.cells row).Pairwise fun c d => c.column < d.column := by
      rw [cells, List.pairwise_iff_getElem]
      intro i j hi hj hij
      rw [List.getElem_mapIdx, List.getElem_mapIdx]
      exact hij
    refine List.pairwise_flatMap.mpr ⟨fun cell _ => ?_, hcolumns.imp fun hlt x hx y hy => ?_⟩
    · rw [Cell.schedule]
      cases cell.mapper with
      | none => exact .nil
      | some mapper => exact List.pairwise_singleton _ _
    · obtain ⟨mapper, -, rfl⟩ := Cell.mem_schedule.mp hx
      obtain ⟨mapper', -, rfl⟩ := Cell.mem_schedule.mp hy
      exact .inr ⟨rfl, hlt⟩
  · rw [if_neg hwidth]
    exact .nil

/-- Applications go from row to row. -/
theorem schedule_pairwise (targets : Targets) (position : Nat) (rows : List Row) :
    (targets.schedule position rows).Pairwise Application.Before := by
  induction rows generalizing position with
  | nil => exact .nil
  | cons row rest ih =>
      rw [schedule, List.pairwise_append]
      refine ⟨targets.rowSchedule_pairwise position row, ih (position + 1), fun x hx y hy => ?_⟩
      obtain ⟨hfirst, -⟩ := mem_rowSchedule.mp hx
      obtain ⟨i, hlater, -⟩ := mem_schedule.mp hy
      exact .inl (by omega)

end Targets

/-! ## Scans -/

namespace Targets

/-- What the columns of a row are put together to, each as its mapper makes it: the only column, the
columns by their names, or the columns at their places. -/
inductive Holds (targets : Targets) (transforms : Transforms) (dest : Shape) (row : Row) :
    Value → Prop
  | only {v : Value} (hnone : targets.dests = []) (hplain : dest.isRecord = false)
      (hvalues : row.values = [v]) : Holds targets transforms dest row v
  | named (hnone : targets.dests = []) (hrecord : dest.isRecord = true) :
      Holds targets transforms dest row row.toMap
  | placed {values : List Value} (hsome : targets.dests ≠ [])
      (hwidth : row.values.length = targets.dests.length)
      (hvalues : List.Forall₂ (fun cell w => applied transforms cell.mapper cell.value = .ok w)
        (targets.cells row) values) :
      Holds targets transforms dest row
        (Value.nil.storeAll ((targets.dests.map (·.segments)).zip values))

/-- Whether a row is read as a value of the destination. -/
def Reads (targets : Targets) (transforms : Transforms) (dest : Shape) (row : Row) (d : Datum) :
    Prop :=
  ∃ v, targets.Holds transforms dest row v ∧ dest.ofValue v = .ok d

/-- With which error a row is refused in which no mapper fails: it has not as many columns as there
are places for them, or what it holds is no value of the destination. -/
inductive Refuses (targets : Targets) (transforms : Transforms) (dest : Shape) (row : Row) :
    Error → Prop
  | single (hnone : targets.dests = []) (hplain : dest.isRecord = false)
      (hwidth : row.values.length ≠ 1) :
      Refuses targets transforms dest row (.columnCount 1 row.values.length)
  | width (hsome : targets.dests ≠ []) (hwidth : row.values.length ≠ targets.dests.length) :
      Refuses targets transforms dest row
        (.columnCount targets.dests.length row.values.length)
  | unfit {v : Value} {fault : ReflectionFault} (hholds : targets.Holds transforms dest row v)
      (hfault : dest.ofValue v = .error fault) :
      Refuses targets transforms dest row (.reflection fault)

/-- How the scan of a row ends, which is the one at `position`, and what is applied then. The row is
read, or refused, when all mappers that are due in it are passed; or a mapper fails when all in front
of it are passed, which gives the error. -/
inductive RowScan (targets : Targets) (transforms : Transforms) (dest : Shape) (position : Nat)
    (row : Row) : List Application → Except Error Datum → Prop
  | read {d : Datum} (h : targets.Reads transforms dest row d) :
      RowScan targets transforms dest position row (targets.rowSchedule position row) (.ok d)
  | refused {e : Error} (h : targets.Refuses transforms dest row e) :
      RowScan targets transforms dest position row (targets.rowSchedule position row) (.error e)
  | failed {front back : List Application} {x : Application} {cause : Cause}
      (hdue : targets.rowSchedule position row = front ++ x :: back)
      (hfront : ∀ y ∈ front, y.Passes transforms) (hx : x.outcome transforms = .error cause) :
      RowScan targets transforms dest position row (front ++ [x]) (.error (x.error cause))

/-- How the scan of rows ends, of which the first is at `position`, and what is applied then. All of
them are read; or it stops at a row with the error of that row, when all in front of it are read. -/
inductive RowsScan (targets : Targets) (transforms : Transforms) (dest : Shape) (position : Nat) :
    List Row → List Application → Except Error (List Datum) → Prop
  | read {rows : List Row} {ds : List Datum}
      (h : List.Forall₂ (targets.Reads transforms dest) rows ds) :
      RowsScan targets transforms dest position rows (targets.schedule position rows) (.ok ds)
  | stopped {front behind : List Row} {row : Row} {ds : List Datum} {applied : List Application}
      {e : Error} (hfront : List.Forall₂ (targets.Reads transforms dest) front ds)
      (hrow : targets.RowScan transforms dest (position + front.length) row applied (.error e)) :
      RowsScan targets transforms dest position (front ++ row :: behind)
        (targets.schedule position front ++ applied) (.error e)

section Scans

variable {targets : Targets} {transforms : Transforms} {dest : Shape} {position : Nat} {row : Row}
  {rows : List Row} {applied : List Application} {v w : Value} {d : Datum} {ds : List Datum}
  {e : Error}

theorem schedule_append (targets : Targets) (position : Nat) (front behind : List Row) :
    targets.schedule position (front ++ behind)
      = targets.schedule position front ++ targets.schedule (position + front.length) behind := by
  induction front generalizing position with
  | nil => rfl
  | cons row rest ih =>
      rw [List.cons_append, schedule, schedule, ih, List.append_assoc, List.length_cons,
        Nat.add_right_comm, Nat.add_assoc position]

/-- A column of which something is made passes its mapper. -/
theorem Cell.passes {cell : Cell} (h : Targets.applied transforms cell.mapper cell.value = .ok w)
    (position : Nat) (row : Row) : ∀ x ∈ cell.schedule position row, x.Passes transforms := by
  intro x hx
  obtain ⟨mapper, hmapper, rfl⟩ := Cell.mem_schedule.mp hx
  rw [hmapper] at h
  exact ⟨w, h⟩

/-- In a row that holds something, all mappers are passed. -/
theorem Holds.passes (h : targets.Holds transforms dest row v) (position : Nat) :
    ∀ x ∈ targets.rowSchedule position row, x.Passes transforms := by
  cases h with
  | only hnone | named hnone =>
      rw [rowSchedule_of_isEmpty (List.isEmpty_iff.mpr hnone)]
      nofun
  | placed hsome hwidth hvalues =>
      rw [rowSchedule, if_pos hwidth]
      intro x hx
      obtain ⟨cell, hcell, hx⟩ := List.mem_flatMap.mp hx
      obtain ⟨w, -, hw⟩ := exists_of_mem_right hvalues.flip hcell
      exact Cell.passes hw position row x hx

/-- Before a row is refused, all mappers that are due in it are passed. -/
theorem Refuses.passes (h : targets.Refuses transforms dest row e) (position : Nat) :
    ∀ x ∈ targets.rowSchedule position row, x.Passes transforms := by
  cases h with
  | single hnone =>
      rw [rowSchedule_of_isEmpty (List.isEmpty_iff.mpr hnone)]
      nofun
  | width hsome hwidth =>
      rw [rowSchedule, if_neg hwidth]
      nofun
  | unfit hholds hfault => exact hholds.passes position

theorem Refuses.not_mapper (h : targets.Refuses transforms dest row e) (name : String)
    (cause : Cause) : e ≠ .mapper name cause := by
  cases h <;> nofun

/-- A row holds one value at most. -/
theorem Holds.unique (h : targets.Holds transforms dest row v)
    (h' : targets.Holds transforms dest row w) : v = w := by
  cases h with
  | only hnone hplain hvalues =>
      cases h' with
      | only _ _ hvalues' => exact (List.cons.inj (hvalues.symm.trans hvalues')).1
      | named _ hrecord => exact absurd (hplain.symm.trans hrecord) Bool.false_ne_true
      | placed hsome => exact absurd hnone hsome
  | named hnone hrecord =>
      cases h' with
      | only _ hplain => exact absurd (hplain.symm.trans hrecord) Bool.false_ne_true
      | named => rfl
      | placed hsome => exact absurd hnone hsome
  | placed hsome _ hvalues =>
      cases h' with
      | only hnone | named hnone => exact absurd hnone hsome
      | placed _ _ hvalues' =>
          have hsame := List.right_unique_forall₂' (fun _ _ _ hv hw =>
            Except.ok.inj (hv.symm.trans hw)) hvalues hvalues'
          rw [hsame]

/-- A row that is read is not refused. -/
theorem Reads.not_refuses (h : targets.Reads transforms dest row d) :
    ¬ targets.Refuses transforms dest row e := by
  obtain ⟨v, hholds, hd⟩ := h
  rintro (⟨hnone, hplain, hwidth⟩ | ⟨hsome, hwidth⟩ | ⟨hholds', hfault⟩)
  · cases hholds with
    | only _ _ hvalues => exact hwidth (by rw [hvalues]; rfl)
    | named _ hrecord => exact absurd (hplain.symm.trans hrecord) Bool.false_ne_true
    | placed hsome => exact hsome hnone
  · cases hholds with
    | only hnone | named hnone => exact hsome hnone
    | placed _ hwidth' => exact hwidth hwidth'
  · obtain rfl := hholds.unique hholds'
    rw [hd] at hfault
    cases hfault

/-- The scan of a row that is read yields what it is read as. -/
theorem RowScan.eq_ok {result : Except Error Datum}
    (hscan : targets.RowScan transforms dest position row applied result)
    (h : targets.Reads transforms dest row d) : result = .ok d := by
  obtain ⟨v, hholds, hd⟩ := id h
  cases hscan with
  | read h' =>
      obtain ⟨v', hholds', hd'⟩ := h'
      obtain rfl := hholds.unique hholds'
      exact congrArg Except.ok (Except.ok.inj (hd'.symm.trans hd))
  | refused hrefused => exact absurd hrefused h.not_refuses
  | @failed front back x cause hdue hfront hx =>
      have hpasses := hholds.passes position x (by simp [hdue])
      exact absurd hx hpasses.not_error

/-- The scan of rows that are read yields what they are read as. -/
theorem RowsScan.eq_ok {result : Except Error (List Datum)}
    (hscan : targets.RowsScan transforms dest position rows applied result)
    (h : List.Forall₂ (targets.Reads transforms dest) rows ds) : result = .ok ds := by
  cases hscan with
  | read h' =>
      refine congrArg Except.ok (List.right_unique_forall₂' (fun row d d' hd hd' => ?_) h' h)
      have hrow : targets.RowScan transforms dest 0 row _ (.ok d) := .read hd
      exact Except.ok.inj (hrow.eq_ok hd')
  | @stopped front behind row _ _ e hfront hrow =>
      obtain ⟨d, -, hd⟩ := exists_of_mem_right h.flip List.mem_append_cons_self
      exact absurd (hrow.eq_ok hd) nofun

theorem RowsScan.reads (h : targets.RowsScan transforms dest position rows applied (.ok ds)) :
    List.Forall₂ (targets.Reads transforms dest) rows ds := by
  cases h with
  | read h => exact h

theorem Holds.rowScan (h : targets.Holds transforms dest row v) (position : Nat) :
    targets.RowScan transforms dest position row (targets.rowSchedule position row)
      ((dest.ofValue v).mapError .reflection) := by
  cases hvalue : dest.ofValue v with
  | ok d => exact .read ⟨v, h, hvalue⟩
  | error fault => exact .refused (.unfit h hvalue)

/-- A scan may stop at the first row. -/
theorem RowScan.rowsScan_of_error
    (h : targets.RowScan transforms dest position row applied (.error e)) (behind : List Row) :
    targets.RowsScan transforms dest position (row :: behind) applied (.error e) := by
  have hrows : targets.RowsScan transforms dest position ([] ++ row :: behind)
      (targets.schedule position [] ++ applied) (.error e) := .stopped .nil h
  exact hrows

theorem RowScan.single {result : Except Error Datum}
    (h : targets.RowScan transforms dest position row applied result) :
    targets.RowsScan transforms dest position [row] applied (result.map ([·])) := by
  cases result with
  | ok d =>
      cases h with
      | read h =>
          have hrows : targets.RowsScan transforms dest position [row] _ (.ok [d]) :=
            .read (.cons h .nil)
          rwa [schedule, schedule, List.append_nil] at hrows
  | error e => exact h.rowsScan_of_error []

/-- Behind a row that is read, the others are scanned. -/
theorem RowsScan.cons {result : Except Error (List Datum)}
    (h : targets.Reads transforms dest row d)
    (hrest : targets.RowsScan transforms dest (position + 1) rows applied result) :
    targets.RowsScan transforms dest position (row :: rows)
      (targets.rowSchedule position row ++ applied) (result.map (d :: ·)) := by
  cases hrest with
  | read hrows => exact .read (.cons h hrows)
  | @stopped front behind row' ds applied e hfront hrow =>
      have hrow' : targets.RowScan transforms dest (position + (row :: front).length) row' applied
          (.error e) := by
        rwa [List.length_cons, Nat.add_comm front.length, ← Nat.add_assoc]
      have hrows : targets.RowsScan transforms dest position (row :: front ++ row' :: behind)
          (targets.schedule position (row :: front) ++ applied) (.error e) :=
        .stopped (.cons h hfront) hrow'
      rwa [schedule, List.append_assoc] at hrows

end Scans

end Targets

/-! ## Steps that apply mappers -/

/-- Whether a step comes to a result, and tells applications, whatever was told before. -/
def Step.Runs (m : Step α) (applied : List Application) (result : Except Error α) : Prop :=
  ∀ events, m.run.run events = (result, events ++ applied.map Application.event)

namespace Step

variable {m : Step α} {k : α → Step β} {applied further : List Application}

theorem runs_ofExcept (result : Except Error α) : Runs (ofExcept result) [] result := by
  intro events
  rw [run_ofExcept, List.map_nil, List.append_nil]

theorem Runs.bind {a : α} {result : Except Error β} (hm : Runs m applied (.ok a))
    (hk : Runs (k a) further result) : Runs (m >>= k) (applied ++ further) result := by
  intro events
  rw [run_bind, hm]
  dsimp only
  rw [hk, List.map_append, List.append_assoc]

theorem Runs.stop {e : Error} (hm : Runs m applied (.error e)) :
    Runs (m >>= k) applied (.error e) := by
  intro events
  rw [run_bind, hm]

/-- A step goes on without mappers. -/
theorem Runs.next {result : Except Error α} (hm : Runs m applied result)
    (f : α → Except Error β) :
    Runs (m >>= fun a => ofExcept (f a)) applied (result.bind f) := by
  cases result with
  | error e => exact hm.stop
  | ok a =>
      have h := hm.bind (k := fun a => ofExcept (f a)) (runs_ofExcept (f a))
      rwa [List.append_nil] at h

end Step

open Step

namespace Targets

variable {transforms : Transforms} {dest : Shape}

theorem runs_mapCell {cell : Cell} {w : Value} (row : Row) (position : Nat)
    (h : applied transforms cell.mapper cell.value = .ok w) :
    Runs (mapCell transforms row position cell) (cell.schedule position row) (.ok w) := by
  intro events
  rw [mapCell, Cell.schedule]
  cases hmapper : cell.mapper with
  | none =>
      rw [hmapper, applied] at h
      cases h
      exact Prod.ext rfl (List.append_nil events).symm
  | some mapper =>
      rw [hmapper, applied] at h
      rw [run_bind, run_tell]
      simp only [h]
      rfl

/-- A mapper that fails is the only one of its column, and gives its error. -/
theorem mapCell_fails {cell : Cell} {cause : Cause} (row : Row) (position : Nat)
    (h : applied transforms cell.mapper cell.value = .error cause) :
    ∃ x, cell.schedule position row = [x] ∧ x.outcome transforms = .error cause ∧
      Runs (mapCell transforms row position cell) [x] (.error (x.error cause)) := by
  rw [mapCell, Cell.schedule]
  cases hmapper : cell.mapper with
  | none =>
      rw [hmapper, applied] at h
      cases h
  | some mapper =>
      rw [hmapper, applied] at h
      refine ⟨_, rfl, h, fun events => ?_⟩
      rw [run_bind, run_tell]
      simp only [h]
      rfl

/-- The columns of a row are stored one after the other, up to the first whose mapper fails. -/
theorem runs_storeCells (transforms : Transforms) (row : Row) (position : Nat)
    (cells : List Cell) (stored : Value) :
    (∃ values,
      List.Forall₂ (fun cell w => applied transforms cell.mapper cell.value = .ok w) cells values ∧
      Runs (storeCells transforms row position cells stored)
        (cells.flatMap (Cell.schedule position row))
        (.ok (stored.storeAll ((cells.map fun cell => cell.path.segments).zip values)))) ∨
    ∃ front back x cause, cells.flatMap (Cell.schedule position row) = front ++ x :: back ∧
      (∀ y ∈ front, y.Passes transforms) ∧ x.outcome transforms = .error cause ∧
      Runs (storeCells transforms row position cells stored) (front ++ [x])
        (.error (x.error cause)) := by
  induction cells generalizing stored with
  | nil => exact .inl ⟨[], .nil, runs_ofExcept (.ok stored)⟩
  | cons cell rest ih =>
      rw [storeCells, List.flatMap_cons]
      cases hcell : applied transforms cell.mapper cell.value with
      | error cause =>
          obtain ⟨x, hschedule, hx, hrun⟩ := mapCell_fails row position hcell
          exact .inr ⟨[], _, x, cause, by rw [hschedule]; rfl, by simp, hx, hrun.stop⟩
      | ok w =>
          have hrun := runs_mapCell row position hcell
          rcases ih (stored.insertAt cell.path.segments w) with
            ⟨values, hvalues, hrest⟩ | ⟨front, back, x, cause, hdue, hfront, hx, hrest⟩
          · exact .inl ⟨w :: values, .cons hcell hvalues, hrun.bind hrest⟩
          · have hpasses := Cell.passes hcell position row
            refine .inr ⟨cell.schedule position row ++ front, back, x, cause, ?_,
              List.forall_mem_append.mpr ⟨hpasses, hfront⟩, hx, ?_⟩
            · rw [hdue, List.append_assoc]
            · rw [List.append_assoc]
              exact hrun.bind hrest

/-- Every row is scanned in one of the ways in which a scan of it can end. -/
theorem exists_rowScan (targets : Targets) (transforms : Transforms) (dest : Shape)
    (position : Nat) (row : Row) :
    ∃ applied result, targets.RowScan transforms dest position row applied result ∧
      Runs (targets.scan transforms dest position row) applied result := by
  have hread : ∀ v, targets.Holds transforms dest row v →
      ∀ m : Step Value, Runs m (targets.rowSchedule position row) (.ok v) →
      ∃ applied result, targets.RowScan transforms dest position row applied result ∧
        Runs (m >>= fun v => Step.ofReflection (dest.ofValue v)) applied result := by
    intro v hholds m hm
    exact ⟨_, _, hholds.rowScan position, hm.next fun v => (dest.ofValue v).mapError .reflection⟩
  rw [scan, assemble]
  by_cases hnone : targets.dests = []
  · have hempty : targets.dests.isEmpty = true := List.isEmpty_iff.mpr hnone
    have hschedule := rowSchedule_of_isEmpty hempty position row
    rw [hempty, Bool.true_and, if_pos rfl]
    cases hrecord : dest.isRecord with
    | true =>
        refine hread _ (.named hnone hrecord) (pure row.toMap) ?_
        rw [hschedule]
        exact runs_ofExcept (.ok row.toMap)
    | false =>
        rw [Bool.not_false, if_pos rfl]
        split
        · rename_i v hvalues
          refine hread v (.only hnone hrecord hvalues) (pure v) ?_
          rw [hschedule]
          exact runs_ofExcept (.ok v)
        · rename_i hmany
          refine ⟨_, _, .refused (.single hnone hrecord fun hwidth => ?_), ?_⟩
          · obtain ⟨v, hv⟩ := List.length_eq_one_iff.mp hwidth
            exact hmany v hv
          · rw [hschedule]
            exact runs_ofExcept (.error _)
  · have hsome : targets.dests.isEmpty = false := by simpa using hnone
    rw [hsome, Bool.false_and, if_neg Bool.false_ne_true, if_neg Bool.false_ne_true]
    by_cases hwidth : row.values.length = targets.dests.length
    · rw [if_neg (not_not_intro hwidth)]
      have hdue : targets.rowSchedule position row
          = (targets.cells row).flatMap (Cell.schedule position row) := if_pos hwidth
      rcases runs_storeCells transforms row position (targets.cells row) .nil with
        ⟨values, hvalues, hrun⟩ | ⟨front, back, x, cause, hfails, hfront, hx, hrun⟩
      · rw [cells_paths hwidth, ← hdue] at hrun
        exact hread _ (.placed hnone hwidth hvalues) _ hrun
      · exact ⟨_, _, .failed (hdue.trans hfails) hfront hx, hrun.stop⟩
    · rw [if_pos hwidth]
      refine ⟨_, _, .refused (.width hnone hwidth), ?_⟩
      rw [rowSchedule, if_neg hwidth]
      exact (runs_ofExcept (.error _)).stop

theorem exists_rowsScan (targets : Targets) (transforms : Transforms) (dest : Shape)
    (position : Nat) (rows : List Row) :
    ∃ applied result, targets.RowsScan transforms dest position rows applied result ∧
      Runs (targets.scanAll transforms dest position rows) applied result := by
  induction rows generalizing position with
  | nil => exact ⟨[], .ok [], .read .nil, runs_ofExcept (.ok [])⟩
  | cons row rest ih =>
      rw [scanAll]
      obtain ⟨applied, result, hrow, hrun⟩ :=
        targets.exists_rowScan transforms dest position row
      cases result with
      | error e => exact ⟨applied, .error e, hrow.rowsScan_of_error rest, hrun.stop⟩
      | ok d =>
          cases hrow with
          | read hread =>
              obtain ⟨further, last, hrest, hrunRest⟩ := ih (position + 1)
              exact ⟨_, _, hrest.cons hread, hrun.bind (hrunRest.next fun ds => .ok (d :: ds))⟩

end Targets

/-! ## What is applied in a scan -/

/-- How far a scan comes with applications that are due in an order, and what it yields. It passes
all of them; or it breaks off for another reason than a mapper; or it fails with the error of one of
them, and all in front of it are passed. -/
inductive Applied (transforms : Transforms) (due : List Application) :
    List Application → Except Error α → Prop
  | passed (a : α) (h : ∀ x ∈ due, x.Passes transforms) : Applied transforms due due (.ok a)
  | broken (applied : List Application) (e : Error) (hbegins : applied <+: due)
      (h : ∀ x ∈ applied, x.Passes transforms) (he : ∀ name cause, e ≠ .mapper name cause) :
      Applied transforms due applied (.error e)
  | failed (front back : List Application) (x : Application) (cause : Cause)
      (hdue : due = front ++ x :: back) (h : ∀ y ∈ front, y.Passes transforms)
      (hx : x.outcome transforms = .error cause) :
      Applied transforms due (front ++ [x]) (.error (x.error cause))

namespace Applied

variable {transforms : Transforms} {due more applied further : List Application}

theorem isPrefix {result : Except Error α} (h : Applied transforms due applied result) :
    applied <+: due := by
  cases h with
  | passed a h => exact List.prefix_rfl
  | broken _ e hbegins h he => exact hbegins
  | failed front back x cause hdue h hx =>
      refine ⟨back, ?_⟩
      rw [hdue, List.append_assoc, List.singleton_append]

/-- Behind applications that are all passed, others follow. -/
theorem append {result : Except Error α} (hdue : ∀ x ∈ due, x.Passes transforms)
    (h : Applied transforms more further result) :
    Applied transforms (due ++ more) (due ++ further) result := by
  cases h with
  | passed a h => exact .passed a (List.forall_mem_append.mpr ⟨hdue, h⟩)
  | broken _ e hbegins h he =>
      have hall := List.forall_mem_append.mpr ⟨hdue, h⟩
      exact .broken _ e ((List.prefix_append_right_inj due).mpr hbegins) hall he
  | failed front back x cause hmore h hx =>
      have hall := List.forall_mem_append.mpr ⟨hdue, h⟩
      rw [← List.append_assoc]
      refine .failed _ back x cause ?_ hall hx
      rw [hmore, List.append_assoc]

/-- Behind a failure, nothing that is due is applied. -/
theorem cut {e : Error} (h : Applied transforms due applied (.error e : Except Error α))
    (more : List Application) :
    Applied transforms (due ++ more) applied (.error e : Except Error β) := by
  cases h with
  | broken _ e hbegins h he =>
      exact .broken _ e (hbegins.trans (List.prefix_append due more)) h he
  | failed front back x cause hdue h hx =>
      refine .failed front (back ++ more) x cause ?_ h hx
      rw [hdue, List.append_assoc, List.cons_append]

/-- Only the last application can be one that fails. -/
theorem stops {result : Except Error α} (h : Applied transforms due applied result)
    {x : Application} (hx : x ∈ applied) {cause : Cause}
    (hfails : x.outcome transforms = .error cause) :
    applied.getLast? = some x ∧ result = .error (x.error cause) := by
  have hnot : ¬ x.Passes transforms := fun hpasses => hpasses.not_error hfails
  cases h with
  | passed a h => exact absurd (h x hx) hnot
  | broken _ e _ h he => exact absurd (h x hx) hnot
  | failed front back y cause' _ h hy =>
      rcases List.mem_append.mp hx with hfront | hlast
      · exact absurd (h x hfront) hnot
      · obtain rfl := List.mem_singleton.mp hlast
        obtain rfl : cause' = cause := Except.error.inj (hy.symm.trans hfails)
        exact ⟨List.getLast?_concat, rfl⟩

/-- An error of a mapper is that of the last application. -/
theorem blames {name : String} {cause : Cause}
    (h : Applied transforms due applied (.error (.mapper name cause) : Except Error α)) :
    ∃ x, applied.getLast? = some x ∧ x.outcome transforms = .error cause ∧
      .mapper name cause = x.error cause := by
  generalize hresult : (Except.error (.mapper name cause) : Except Error α) = result at h
  cases h with
  | passed a h => cases hresult
  | broken _ e _ h he =>
      cases hresult
      exact absurd rfl (he name cause)
  | failed front back x cause' _ h hx =>
      have hname := Except.error.inj hresult
      obtain rfl : cause = cause' := (Error.mapper.inj hname).2
      exact ⟨x, List.getLast?_concat, hx, hname⟩

/-- A scan that succeeds has applied all that is due. -/
theorem whole {a : α} (h : Applied transforms due applied (.ok a : Except Error α)) :
    applied = due := by
  cases h with
  | passed a h => rfl

/-- What is made of the result of a scan without mappers. -/
theorem next {result : Except Error α} {f : α → Except Error β}
    (h : Applied transforms due applied result)
    (hf : ∀ a name cause, f a ≠ .error (.mapper name cause)) :
    Applied transforms due applied (result.bind f) := by
  cases h with
  | broken _ e hbegins h he => exact .broken _ e hbegins h he
  | failed front back x cause hdue h hx => exact .failed front back x cause hdue h hx
  | passed a h =>
      show Applied transforms due due (f a)
      cases hfa : f a with
      | ok b => exact .passed b h
      | error e =>
          refine .broken due e List.prefix_rfl h fun name cause he => hf a name cause ?_
          rw [hfa, he]

end Applied

namespace Targets

variable {targets : Targets} {transforms : Transforms} {dest : Shape} {position : Nat} {row : Row}
  {rows : List Row} {applied : List Application}

theorem RowScan.applied_of {result : Except Error Datum}
    (h : targets.RowScan transforms dest position row applied result) :
    Applied transforms (targets.rowSchedule position row) applied result := by
  cases h with
  | read h =>
      obtain ⟨v, hholds, -⟩ := h
      exact .passed _ (hholds.passes position)
  | refused h => exact .broken _ _ List.prefix_rfl (h.passes position) h.not_mapper
  | failed hdue hfront hx => exact .failed _ _ _ _ hdue hfront hx

/-- In rows that are read, all mappers are passed. -/
theorem schedule_passes {ds : List Datum} (h : List.Forall₂ (targets.Reads transforms dest) rows ds)
    (position : Nat) : ∀ x ∈ targets.schedule position rows, x.Passes transforms := by
  intro x hx
  obtain ⟨i, -, hrow, hx⟩ := mem_schedule.mp hx
  obtain ⟨d, -, v, hholds, -⟩ := exists_of_mem_right h.flip (List.mem_of_getElem? hrow)
  exact hholds.passes x.position x hx

theorem RowsScan.applied_of {result : Except Error (List Datum)}
    (h : targets.RowsScan transforms dest position rows applied result) :
    Applied transforms (targets.schedule position rows) applied result := by
  cases h with
  | read h => exact .passed _ (schedule_passes h position)
  | @stopped front behind row ds applied e hfront hrow =>
      rw [schedule_append, schedule, ← List.append_assoc]
      exact (hrow.applied_of.append (schedule_passes hfront position)).cut _

end Targets

/-! ## The rows of an operation -/

/-- The rows that an operation looks at to make typed values of them. -/
def Access.considered (a : Access) (rows : List Row) : List Row :=
  match a with
  | .first => rows.take 1
  | .one => if rows.length = 1 then rows else []
  | .all => rows
  | .exec | .query | .queryRow => []

theorem Access.considered_prefix (a : Access) (rows : List Row) : a.considered rows <+: rows := by
  cases a with
  | first => exact List.take_prefix 1 rows
  | one =>
      rw [considered]
      split
      · exact List.prefix_rfl
      · exact List.nil_prefix
  | all => exact List.prefix_rfl
  | _ => exact List.nil_prefix

/-- **What an operation has to do with mappers.** It applies those that are due in the rows that it
looks at, from row to row and within a row from column to column, none of them twice, and none with
one left out in front of it. It stops at the first that fails, and yields its error, which names the
column; and such an error comes from nowhere else. If it succeeds, it has applied all of them. -/
structure Targets.Scanned (targets : Targets) (transforms : Transforms) (rows considered : List Row)
    (applied : List Application) (result : Except Error α) : Prop where
  ordered : applied.Pairwise Application.Before
  due : ∀ x ∈ applied, targets.Due considered x
  gapless : ∀ x ∈ applied, ∀ y, targets.Due rows y → y.Before x → y ∈ applied
  stops : ∀ x ∈ applied, ∀ cause, x.outcome transforms = .error cause →
    applied.getLast? = some x ∧ result = .error (x.error cause)
  blames : ∀ name cause, result = .error (.mapper name cause) →
    ∃ x, applied.getLast? = some x ∧ x.outcome transforms = .error cause ∧
      .mapper name cause = x.error cause
  whole : ∀ a, result = .ok a → ∀ x, targets.Due considered x → x ∈ applied

theorem Targets.Due.of_before {targets : Targets} {rows considered : List Row}
    (hbegins : considered <+: rows) {x y : Application} (hx : targets.Due considered x)
    (hy : targets.Due rows y) (hbefore : y.Before x) : targets.Due considered y := by
  obtain ⟨hlength, -⟩ := List.getElem?_eq_some_iff.mp hx.row
  obtain ⟨rest, rfl⟩ := hbegins
  have hposition : y.position < considered.length := by
    unfold Application.Before at hbefore
    omega
  have hrow : considered[y.position]? = some y.row := by
    rw [← hy.row, List.getElem?_append_left hposition]
  exact ⟨hrow, hy.width, hy.value, hy.mapper⟩

/-- What is applied of a schedule. -/
theorem Applied.scanned {targets : Targets} {transforms : Transforms} {rows considered : List Row}
    {applied : List Application} {result : Except Error α} (hbegins : considered <+: rows)
    (h : Applied transforms (targets.schedule 0 considered) applied result) :
    targets.Scanned transforms rows considered applied result := by
  have hordered := targets.schedule_pairwise 0 considered
  have happlied := h.isPrefix
  have hdue : ∀ x ∈ applied, targets.Due considered x := fun x hx =>
    Targets.mem_schedule_iff_due.mp (happlied.subset hx)
  refine ⟨hordered.sublist happlied.sublist, hdue, ?_, ?_, ?_, ?_⟩
  · intro x hx y hy hbefore
    have hmem := Targets.mem_schedule_iff_due.mpr (.of_before hbegins (hdue x hx) hy hbefore)
    obtain ⟨rest, hrest⟩ := happlied
    rw [← hrest] at hmem hordered
    rcases List.mem_append.mp hmem with hin | hlater
    · exact hin
    · -- What is left out comes behind all that is applied.
      have hafter := (List.pairwise_append.mp hordered).2.2 x hx y hlater
      exact absurd hbefore hafter.asymm
  · intro x hx cause hfails
    exact h.stops hx hfails
  · rintro name cause rfl
    exact h.blames
  · rintro a rfl x hx
    rw [h.whole]
    exact Targets.mem_schedule_iff_due.mpr hx

/-! ## Results -/

/-- What the first of some values is. -/
def firstOf (ds : List Datum) : Except Error Output :=
  match ds with
  | [] => .error .notFound
  | d :: _ => .ok (.value d)

/-- What the only one of some values is. -/
def onlyOf (ds : List Datum) : Except Error Output :=
  match ds with
  | [] => .error .notFound
  | [d] => .ok (.value d)
  | _ :: _ :: _ => .error .tooManyRows

namespace Access

variable {transforms : Transforms} {dest : Shape}

/-- What an operation makes of the values of the rows that it looks at. -/
def output (a : Access) (answer : Answer) (ds : List Datum) : Except Error Output :=
  match a with
  | .exec => .ok (.affected answer.count)
  | .query => .ok (.rows answer.toRows)
  | .queryRow => answer.toRows.first?.elim (.error .notFound) fun row => .ok (.row row)
  | .first => firstOf ds
  | .one => if 1 < answer.toRows.toList.length then .error .tooManyRows else onlyOf ds
  | .all => .ok (.values ds)

theorem output_not_mapper (a : Access) (answer : Answer) (ds : List Datum) (name : String)
    (cause : Cause) : a.output answer ds ≠ .error (.mapper name cause) := by
  cases a with
  | exec | query | all => nofun
  | queryRow =>
      rw [output]
      cases answer.toRows.first? <;> nofun
  | first =>
      rw [output]
      rcases ds with _ | ⟨d, rest⟩ <;> nofun
  | one =>
      rw [output]
      split
      · nofun
      · rcases ds with _ | ⟨d, _ | ⟨second, rest⟩⟩ <;> nofun

/-- Every operation scans the rows that it looks at. -/
theorem runs_finish (a : Access) (transforms : Transforms) (dest : Shape) (targets : Targets)
    (answer : Answer) :
    ∃ applied result,
      targets.RowsScan transforms dest 0 (a.considered answer.toRows.toList) applied result ∧
      Step.Runs (a.finish transforms dest targets answer) applied
        (result.bind (a.output answer)) := by
  have hnothing : targets.RowsScan transforms dest 0 [] [] (.ok []) := .read .nil
  have hvalue : ∀ row, ∃ applied result, targets.RowScan transforms dest 0 row applied result ∧
      Step.Runs (do return Output.value (← targets.scan transforms dest 0 row)) applied
        (result.bind fun d => .ok (.value d)) := by
    intro row
    obtain ⟨applied, result, hscan, hrun⟩ := targets.exists_rowScan transforms dest 0 row
    exact ⟨applied, result, hscan, hrun.next fun d => .ok (Output.value d)⟩
  cases a with
  | exec => exact ⟨_, _, hnothing, runs_ofExcept (.ok _)⟩
  | query => exact ⟨_, _, hnothing, runs_ofExcept (.ok _)⟩
  | queryRow =>
      refine ⟨_, _, hnothing, ?_⟩
      rw [finish]
      show Step.Runs _ [] (queryRow.output answer [])
      rw [output]
      cases answer.toRows.first? with
      | some row => exact runs_ofExcept (.ok _)
      | none => exact runs_ofExcept (.error _)
  | first =>
      rw [finish, Rows.first?, considered]
      cases answer.toRows.toList with
      | nil => exact ⟨_, _, hnothing, runs_ofExcept (.error .notFound)⟩
      | cons row rest =>
          obtain ⟨applied, result, hscan, hrun⟩ := hvalue row
          refine ⟨applied, _, hscan.single, ?_⟩
          cases result <;> exact hrun
  | one =>
      rw [finish, considered]
      rcases hrows : answer.toRows.toList with _ | ⟨row, _ | ⟨second, rest⟩⟩
      · refine ⟨_, _, hnothing, ?_⟩
        show Step.Runs _ [] (one.output answer [])
        rw [output, hrows]
        exact runs_ofExcept (.error .notFound)
      · have hone : one.output answer = onlyOf := by
          funext ds
          rw [output, hrows]
          rfl
        obtain ⟨applied, result, hscan, hrun⟩ := hvalue row
        refine ⟨applied, _, hscan.single, ?_⟩
        rw [hone]
        cases result <;> exact hrun
      · refine ⟨_, _, hnothing, ?_⟩
        show Step.Runs _ [] (one.output answer [])
        rw [output, hrows]
        exact runs_ofExcept (.error .tooManyRows)
  | all =>
      obtain ⟨applied, result, hscan, hrun⟩ := targets.exists_rowsScan transforms dest 0
        answer.toRows.toList
      exact ⟨applied, result, hscan, hrun.next fun ds => .ok (Output.values ds)⟩

variable {targets : Targets} {answer : Answer} {ds : List Datum}

/-- If the rows that it looks at are read, an operation yields what it makes of their values. -/
theorem finish_of_reads {a : Access} (events : List Event)
    (h : List.Forall₂ (targets.Reads transforms dest) (a.considered answer.toRows.toList) ds) :
    ((a.finish transforms dest targets answer).run.run events).1 = a.output answer ds := by
  obtain ⟨applied, result, hscan, hrun⟩ := a.runs_finish transforms dest targets answer
  obtain rfl := hscan.eq_ok h
  rw [hrun events]
  rfl

theorem considered_one_of_ne {rows : List Row} (h : rows.length ≠ 1) : one.considered rows = [] :=
  if_neg h

/-- Without rows, nothing is found. -/
theorem finish_of_nil (events : List Event) (h : answer.toRows.toList = []) :
    ((first.finish transforms dest targets answer).run.run events).1 = .error .notFound ∧
      ((one.finish transforms dest targets answer).run.run events).1 = .error .notFound := by
  have hreads (a : Access) (ha : a.considered [] = []) :
      ((a.finish transforms dest targets answer).run.run events).1 = a.output answer [] := by
    refine finish_of_reads events ?_
    rw [h, ha]
    exact .nil
  rw [hreads first rfl, hreads one rfl, output, output, h]
  exact ⟨rfl, rfl⟩

/-- More than one row are too many, whether they can be read or not. -/
theorem finish_one_of_lt (events : List Event) (h : 1 < answer.toRows.toList.length) :
    ((one.finish transforms dest targets answer).run.run events).1 = .error .tooManyRows := by
  have hreads : List.Forall₂ (targets.Reads transforms dest)
      (one.considered answer.toRows.toList) [] := by
    rw [considered_one_of_ne h.ne']
    exact .nil
  rw [finish_of_reads events hreads, output, if_pos h]

/-- What all rows are read as gives the first and the only value. -/
theorem finish_of_reads_all (events : List Event)
    (h : List.Forall₂ (targets.Reads transforms dest) answer.toRows.toList ds) :
    ((first.finish transforms dest targets answer).run.run events).1 = firstOf ds ∧
      ((one.finish transforms dest targets answer).run.run events).1 = onlyOf ds := by
  constructor
  · rw [finish_of_reads events (a := first) (List.forall₂_take 1 h), output]
    cases ds <;> rfl
  · have hlength := h.length_eq
    rcases ds with _ | ⟨d, _ | ⟨second, rest⟩⟩
    · exact (finish_of_nil events (List.length_eq_zero_iff.mp hlength)).2
    · have hone : answer.toRows.toList.length = 1 := hlength
      have hreads : List.Forall₂ (targets.Reads transforms dest)
          (one.considered answer.toRows.toList) [d] := by
        rw [considered, if_pos hone]
        exact h
      rw [finish_of_reads events hreads, output, hone]
      rfl
    · refine finish_one_of_lt events ?_
      rw [hlength]
      simp

end Access

/-- **One scanner, three operations.** Let a result be scanned with places and mappers for its
columns. Whatever an operation looks at, it applies mappers row by row and within a row column by
column. It stops at the first that fails, or at the first row that is refused for another reason, and
yields the error of that; otherwise all rows that it looks at are read, and it yields what it makes
of their values. The operation for one row looks at none unless there is exactly one, and the
operation for the first row looks at no other. If all rows can be read, these two operations yield
the first and the only one of their values; without rows nothing is found, and more than one are too
many, whether they can be read or not. -/
theorem Access.finish_scans (transforms : Transforms) (dest : Shape) (targets : Targets)
    (answer : Answer) (events : List Event) :
    let rows := answer.toRows.toList
    let run (a : Access) := (a.finish transforms dest targets answer).run.run events
    (∀ a : Access, ∃ applied result,
      targets.RowsScan transforms dest 0 (a.considered rows) applied result ∧
        run a = (result.bind (a.output answer), events ++ applied.map Application.event) ∧
        targets.Scanned transforms rows (a.considered rows) applied (run a).1) ∧
      (∀ ds, (run .all).1 = .ok (.values ds) →
        (run .first).1 = firstOf ds ∧ (run .one).1 = onlyOf ds) ∧
      (rows = [] → (run .first).1 = .error .notFound ∧ (run .one).1 = .error .notFound) ∧
      (1 < rows.length → (run .one).1 = .error .tooManyRows) := by
  intro rows run
  refine ⟨fun a => ?_, fun ds hall => ?_, finish_of_nil events, finish_one_of_lt events⟩
  · obtain ⟨applied, result, hscan, hrun⟩ := a.runs_finish transforms dest targets answer
    have happlied := hscan.applied_of.next (a.output_not_mapper answer)
    have hresult : run a = (result.bind (a.output answer), _) := hrun events
    refine ⟨applied, result, hscan, hresult, ?_⟩
    rw [hresult]
    exact happlied.scanned (a.considered_prefix rows)
  · obtain ⟨applied, result, hscan, hrun⟩ := all.runs_finish transforms dest targets answer
    have hresult : run .all = (result.bind (all.output answer), _) := hrun events
    rw [hresult] at hall
    cases result with
    | error e => cases hall
    | ok values =>
        obtain rfl : values = ds := Output.values.inj (Except.ok.inj hall)
        exact finish_of_reads_all events hscan.reads

/-- A truth value that cannot be read, in a column without a name: the operation for all rows stops
there, in the second of three rows, and the operation for the first row does not come to it. -/
theorem Access.finish_scans_fails :
    let dest : Shape := .record "Task" [(.plain "id", .int .i64), (.plain "done", .bool)]
    let targets : Targets := ⟨[⟨["id"]⟩, ⟨["done"]⟩],
      [some (.scan .int64 false .nil), some (.scan .bool false .nil)]⟩
    let answer : Answer := .rows ⟨["id"],
      [[.int 1, .text "true"], [.int 2, .text "maybe"], [.int 3, .text "false"]]⟩
    let transforms : Transforms := fun _ v => .ok v
    let run (a : Access) := (a.finish transforms dest targets answer).run.run []
    let first : List Event := [.mapped 0 0 (.int 1), .mapped 0 1 (.text "true")]
    let second : List Event := [.mapped 1 0 (.int 2), .mapped 1 1 (.text "maybe")]
    run .first = (.ok (.value (.record "Task" [("id", .int .i64 1), ("done", .bool true)])), first) ∧
      run .one = (.error .tooManyRows, []) ∧
      run .all = (.error (.mapper "#2" (.column .truth)), first ++ second) ∧
      ∃ x : Application, targets.Due answer.toRows.toList x ∧
        x.event = .mapped 1 1 (.text "maybe") ∧ x.outcome transforms = .error (.column .truth) := by
  intro dest targets answer transforms run first second
  have hfirst : run .first = (.ok (.value (.record "Task"
      [("id", .int .i64 1), ("done", .bool true)])), first) := by
    rfl
  have hone : run .one = (.error .tooManyRows, []) := by
    rfl
  have hname : "#2" = "#" ++ toString 2 := by decide
  have hall : run .all = (.error (.mapper "#2" (.column .truth)), first ++ second) := by
    rw [hname]
    rfl
  obtain ⟨hscans, -⟩ := Access.finish_scans transforms dest targets answer []
  obtain ⟨applied, result, -, hrun, hscanned⟩ := hscans .all
  have hevents : applied.map Application.event = first ++ second :=
    congrArg Prod.snd (hrun.symm.trans hall)
  obtain ⟨x, hlast, hfails, -⟩ := hscanned.blames "#2" (.column .truth) (congrArg Prod.fst hall)
  have hevent : x.event = .mapped 1 1 (.text "maybe") := by
    have hmapped : (applied.map Application.event).getLast? = some x.event := by
      rw [List.getLast?_map, hlast]
      rfl
    rw [hevents] at hmapped
    exact (Option.some.inj hmapped).symm
  exact ⟨hfirst, hone, hall, x, hscanned.due x (List.mem_of_getLast? hlast), hevent, hfails⟩

end SqlTemplate
