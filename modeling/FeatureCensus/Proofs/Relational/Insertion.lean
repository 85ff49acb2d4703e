import FeatureCensus.Proofs.Relational.Deletion
import Mathlib.Data.List.Induction

/-!
# Adding rows

Rows that are added to a table come behind all others and get the next numbers.  Where a table has
no rules but that values are there and that rows differ in some columns, and no trigger acts on it,
rows that do differ are all added, up to one that lacks a value.  So a table that was emptied holds
the added rows in their order, numbered from one.

Main results:

- Theorem {lit}`Relational.lt_nextNumber`: a new number is greater than those that are there.
- Theorem {lit}`Relational.makeRoom_eq_ok`: rows that differ are in nobody's place.
- Theorem {lit}`Relational.run_addRow`: one row is added.
- Theorem {lit}`Relational.run_addRow_of_lacks`: a row that lacks a value is refused.
- Theorem {lit}`Relational.run_insertion`: a statement adds its rows one after the other.
- Theorem {lit}`Relational.run_insertion_of_lacks`: it is refused for the first row that lacks a
  value.
- Theorem {lit}`Relational.check_insertion`: it is not refused.
-/

namespace FeatureCensus
namespace Relational

open Store Change

/-! ## Numbers of rows -/

theorem le_foldl_max (numbers : List Int) (first : Int) :
    first ≤ numbers.foldl max first ∧ ∀ n ∈ numbers, n ≤ numbers.foldl max first := by
  induction numbers generalizing first with
  | nil => simp
  | cons number rest ih =>
    obtain ⟨hfirst, hrest⟩ := ih (max first number)
    rw [List.foldl_cons]
    refine ⟨by omega, fun n hn => ?_⟩
    rcases List.mem_cons.1 hn with rfl | hlater
    · omega
    · exact hrest n hlater

/-- The number of a new row is greater than those of all rows. -/
theorem lt_nextNumber {rows : Array Row} {row : Row} (h : row ∈ rows) :
    row.number < Shape.nextNumber rows := by
  have hmem : row.number ∈ numbersOf rows :=
    List.mem_map_of_mem (Array.mem_toList_iff.2 h)
  unfold Shape.nextNumber
  split
  · rename_i hnone
    rw [hnone] at hmem
    cases hmem
  · rename_i first rest hnumbers
    rw [hnumbers] at hmem
    obtain ⟨hfirst, hrest⟩ := le_foldl_max rest first
    rcases List.mem_cons.1 hmem with heq | hlater
    · omega
    · have hle := hrest _ hlater
      omega

/-- A new row comes last. -/
theorem insertRow_nextNumber {shape : Shape} (hkeyed : shape.isKeyed = false) (rows : Array Row)
    (values : List Value) :
    insertRow shape.isBefore ⟨Shape.nextNumber rows, values⟩ rows =
      rows.push ⟨Shape.nextNumber rows, values⟩ := by
  unfold insertRow
  split
  · rename_i last hlast
    have hnot : shape.isBefore ⟨Shape.nextNumber rows, values⟩ last = false := by
      have hlt := lt_nextNumber (Array.mem_of_back? hlast)
      simp only [Shape.isBefore, hkeyed, Bool.false_eq_true, if_false, decide_eq_false_iff_not]
      omega
    rw [hnot]
    rfl
  · rfl

/-! ## Rooms -/

/-- Whether two rows have the same values in some columns, none of which is missing. -/
def agree (columns : List (Nat × Collation)) (a b : List Value) : Bool :=
  columns.all fun (i, collation) =>
    match a[i]?, b[i]? with
    | some x, some y => x != .null && Value.same collation x y
    | _, _ => false

theorem plainRivals_eq_nil {columns : List (Nat × Collation)} {rows : Array Row} {row : Row}
    (h : ∀ other ∈ rows, agree columns row.values other.values = false) (self? : Option Int) :
    UniqueRule.plainRivals columns rows row self? = [] := by
  rw [UniqueRule.plainRivals, List.filter_eq_nil_iff]
  intro other hother hboth
  have hagree : agree columns row.values other.values = true :=
    (Bool.and_eq_true_iff.1 hboth).2
  rw [h other (Array.mem_toList_iff.1 hother)] at hagree
  cases hagree

/-- That a table has no rules but that rows differ in some columns. -/
structure Shape.IsPlain (shape : Shape) (keys : List (List (Nat × Collation))) : Prop where
  isKeyed : shape.isKeyed = false
  isStrict : shape.isStrict = false
  checks : shape.checks = []
  generated : ∀ column ∈ shape.columns, column.generated?.isNone
  uniques : shape.uniquesInOrder.map (·.plainColumns? shape) = keys.map some

variable {shape : Shape} {keys : List (List (Nat × Collation))}

theorem rivals_eq_ok {rule : UniqueRule} {columns : List (Nat × Collation)}
    (hcolumns : rule.plainColumns? shape = some columns) (store : Store) {rows : Array Row}
    {row : Row} (h : ∀ other ∈ rows, agree columns row.values other.values = false)
    (self? : Option Int) : rule.rivals shape store rows row self? = .ok [] := by
  rw [UniqueRule.rivals, hcolumns]
  exact congrArg Except.ok (plainRivals_eq_nil h self?)

theorem makeRoom_eq_ok (hshape : shape.IsPlain keys) (store : Store) {rows : Array Row} {row : Row}
    (hnew : ∀ other ∈ rows, other.number ≠ row.number)
    (hapart : ∀ columns ∈ keys, ∀ other ∈ rows, agree columns row.values other.values = false) :
    makeRoom shape store none rows row none = .ok rows := by
  have hnumber : (rows.toList.filter fun other =>
      other.number == row.number && some other.number != none) = [] := by
    rw [List.filter_eq_nil_iff]
    intro other hother
    simp [hnew other (Array.mem_toList_iff.1 hother)]
  have hrules : ∀ rules : List UniqueRule,
      (∀ rule ∈ rules, ∃ columns ∈ keys, rule.plainColumns? shape = some columns) →
      rules.foldlM (fun rows rule => do
        let rivals ← rule.rivals shape store rows row none
        withoutRivals rows rivals ((none : Option Reaction).getD rule.reaction)
          (rule.refusal shape)) rows = (.ok rows : Result (Array Row)) := by
    intro rules hplain
    induction rules with
    | nil => rfl
    | cons rule rest ih =>
      obtain ⟨columns, hmem, hcolumns⟩ := hplain rule List.mem_cons_self
      rw [List.foldlM_cons, rivals_eq_ok hcolumns store (hapart columns hmem) none]
      exact ih fun other hother => hplain other (List.mem_cons_of_mem rule hother)
  unfold makeRoom runChecks checkSorts
  simp only [hshape.checks, hshape.isStrict, hnumber]
  refine hrules _ fun rule hrule => ?_
  have hmem : rule.plainColumns? shape ∈ keys.map some := by
    rw [← hshape.uniques]
    exact List.mem_map_of_mem hrule
  obtain ⟨columns, hcolumns, heq⟩ := List.mem_map.1 hmem
  exact ⟨columns, hcolumns, heq.symm⟩

/-! ## Columns -/

/-- Named columns of a plain table are those at their places. -/
theorem insertedColumns_eq_ok (hshape : shape.IsPlain keys) (table : String)
    {names : List String} {places : List Nat} (hnames : names ≠ [])
    (hplaces : names.map shape.columnIndex? = places.map some) :
    insertedColumns shape table names = .ok (places.map some) := by
  rw [insertedColumns, if_neg (by simpa using hnames)]
  clear hnames
  induction names generalizing places with
  | nil =>
    obtain rfl : places = [] := by simpa using hplaces.symm
    rfl
  | cons name rest ih =>
    cases places with
    | nil => simp at hplaces
    | cons place others =>
      simp only [List.map_cons, List.cons.injEq] at hplaces
      obtain ⟨hplace, hrest⟩ := hplaces
      have hplain : ((shape.columns[place]?).bind fun column =>
          column.generated?.map fun _ => column.name) = none := by
        cases hcolumn : shape.columns[place]? with
        | none => rfl
        | some column =>
          have hnone := hshape.generated column (List.mem_of_getElem? hcolumn)
          rw [Option.isNone_iff_eq_none] at hnone
          simp [hnone]
      rw [List.mapM_cons]
      simp only [hplace, hplain, ih hrest]
      rfl

/-! ## Values of new rows -/

/-- The values that come into the columns of a row of a plain table. -/
def Shape.settled (shape : Shape) (number : Int) (values : List Value) : List Value :=
  let converted := (shape.columns.zip values).map fun (column, value) =>
    (shape.affinityOf column).convert value
  match shape.rowNumber? with
  | some place => converted.set place (.integer number)
  | none => converted

theorem withGenerated_eq_ok (hshape : shape.IsPlain keys) (store : Store) (row : Row) :
    shape.withGenerated store row = .ok row.values := by
  have hplaces : ((List.range shape.columns.length).filter fun i =>
      ((shape.columns[i]?).bind (·.generated?)).isSome) = [] := by
    rw [List.filter_eq_nil_iff]
    intro i _
    cases hcolumn : shape.columns[i]? with
    | none => simp
    | some column =>
      have hnone := hshape.generated column (List.mem_of_getElem? hcolumn)
      rw [Option.isNone_iff_eq_none] at hnone
      simp [hnone]
  unfold Shape.withGenerated
  simp only [hplaces]
  rfl

theorem settle_eq_ok (hshape : shape.IsPlain keys) (store : Store) (number : Int)
    (values : List Value) :
    shape.settle store ⟨number, values⟩ = .ok ⟨number, shape.settled number values⟩ := by
  unfold Shape.settle Shape.settled
  simp only [withGenerated_eq_ok hshape]
  rfl

/-- That values come into a new row of a table, with its number, as they are. -/
structure Shape.Forms (shape : Shape) (given : List (Option Nat × Value))
    (full : Int → List Value) : Prop where
  new : ∃ bare, (∀ store, newRow shape store given = .ok (⟨-1, bare⟩, true)) ∧
    ∀ number, shape.settled number bare = full number
  settled : ∀ number, shape.settled number (full number) = full number

/-- That all values are there that have to be. -/
structure Shape.Takes (shape : Shape) (given : List (Option Nat × Value))
    (full : Int → List Value) : Prop extends shape.Forms given full where
  filled : ∀ store number, fillRequired shape store none ⟨number, full number⟩ =
    .ok ⟨number, full number⟩

/-- That a value is not there that has to be, which is why the row is refused. -/
structure Shape.Lacks (shape : Shape) (given : List (Option Nat × Value))
    (full : Int → List Value) (refusal : Refusal) : Prop extends shape.Forms given full where
  unfilled : ∀ store number, fillRequired shape store none ⟨number, full number⟩ = refuse refusal

theorem Shape.Lacks.not_takes {given : List (Option Nat × Value)} {full : Int → List Value}
    {refusal : Refusal} (h : shape.Lacks given full refusal) : ¬ shape.Takes given full := by
  intro htakes
  have hboth := (h.unfilled {} 0).symm.trans (htakes.filled {} 0)
  cases hboth

variable {rows : Array Row} {s : Store} {given : List (Option Nat × Value)}
  {full : Int → List Value}

theorem run_addRow (hshape : shape.IsPlain keys)
    (hrows : s.table? shape.name = some ⟨shape, .ok rows⟩) (h : s.IsUntriggered shape.name)
    (htakes : shape.Takes given full)
    (hapart : ∀ columns ∈ keys, ∀ other ∈ rows,
      agree columns (full (Shape.nextNumber rows)) other.values = false)
    (fuel : Nat) (active : List String) :
    ∃ t, (addRow (fuel + 2) active shape none given).run s = .ok () t ∧
      Refills shape (rows.push ⟨Shape.nextNumber rows, full (Shape.nextNumber rows)⟩) s t := by
  obtain ⟨bare, hnew, hfull⟩ := htakes.new
  have hput := s.refills_putTable shape
    (rows.push ⟨Shape.nextNumber rows, full (Shape.nextNumber rows)⟩)
  have hroom : makeRoom shape s none rows
      ⟨Shape.nextNumber rows, full (Shape.nextNumber rows)⟩ none = .ok rows :=
    makeRoom_eq_ok hshape s (fun other hother => Int.ne_of_lt (lt_nextNumber hother)) hapart
  refine ⟨_, ?_, hput⟩
  rw [addRow, run_get_bind, hnew s]
  rw [run_bind_of_ok (run_lift_ok _ _)]
  simp only []
  rw [run_get_bind, settle_eq_ok hshape, run_bind_of_ok (run_lift_ok _ _), run_get_bind,
    triggersFor_eq_nil h]
  rw [List.isEmpty_nil, Bool.not_true, if_neg Bool.false_ne_true,
    run_bind_of_ok (run_fire h _ _ _ _ _), run_get_bind, run_bind_of_ok (run_rowsOf hrows),
    if_pos trivial, settle_eq_ok hshape, hfull, run_bind_of_ok (run_lift_ok _ _), htakes.filled,
    run_bind_of_ok (run_lift_ok _ _), settle_eq_ok hshape, htakes.settled,
    run_bind_of_ok (run_lift_ok _ _), hroom, run_bind_of_ok (run_lift_ok _ _),
    insertRow_nextNumber hshape.isKeyed, run_bind_of_ok (run_putRows _ _ _)]
  exact run_fire (h.of_refills hput) _ _ _ _ _

/-- A row that lacks a value is refused. -/
theorem run_addRow_of_lacks {refusal : Refusal} (hshape : shape.IsPlain keys)
    (hrows : s.table? shape.name = some ⟨shape, .ok rows⟩) (h : s.IsUntriggered shape.name)
    (hlacks : shape.Lacks given full refusal) (fuel : Nat) (active : List String) :
    (addRow (fuel + 2) active shape none given).run s = .error (.refused refusal) s := by
  obtain ⟨bare, hnew, hfull⟩ := hlacks.new
  rw [addRow, run_get_bind, hnew s]
  rw [run_bind_of_ok (run_lift_ok _ _)]
  simp only []
  rw [run_get_bind, settle_eq_ok hshape, run_bind_of_ok (run_lift_ok _ _), run_get_bind,
    triggersFor_eq_nil h]
  rw [List.isEmpty_nil, Bool.not_true, if_neg Bool.false_ne_true,
    run_bind_of_ok (run_fire h _ _ _ _ _), run_get_bind, run_bind_of_ok (run_rowsOf hrows),
    if_pos trivial, settle_eq_ok hshape, hfull, run_bind_of_ok (run_lift_ok _ _), hlacks.unfilled]
  rfl

/-! ## Numbered rows -/

section Numbered

variable {ρ : Type} {full : Int → ρ → List Value}

/-- Rows in the order of their numbers, which count from one. -/
def numbered (full : Int → ρ → List Value) (contents : List ρ) : Array Row :=
  ((contents.zipIdx 1).map fun (x, n) => ⟨n, full n x⟩).toArray

theorem numbered_concat (contents : List ρ) (x : ρ) :
    numbered full (contents ++ [x]) =
      (numbered full contents).push ⟨contents.length + 1, full (contents.length + 1) x⟩ := by
  simp [numbered, List.zipIdx_append, Nat.add_comm]

theorem nextNumber_push {rows : Array Row} {row : Row} (h : row.number = Shape.nextNumber rows) :
    Shape.nextNumber (rows.push row) = Shape.nextNumber rows + 1 := by
  unfold Shape.nextNumber at h ⊢
  have hnumbers : numbersOf (rows.push row) = numbersOf rows ++ [row.number] := by
    simp [numbersOf]
  rw [hnumbers]
  cases hrows : numbersOf rows with
  | nil => simp_all
  | cons first rest =>
    rw [hrows] at h
    simp only [List.cons_append, List.foldl_append, List.foldl_cons, List.foldl_nil] at h ⊢
    omega

theorem nextNumber_numbered (contents : List ρ) :
    Shape.nextNumber (numbered full contents) = contents.length + 1 := by
  induction contents using List.reverseRecOn with
  | nil => rfl
  | append_singleton first x ih =>
    rw [numbered_concat, nextNumber_push ih.symm, ih]
    simp

theorem exists_of_mem_numbered {contents : List ρ} {row : Row} (h : row ∈ numbered full contents) :
    ∃ x ∈ contents, row.values = full row.number x := by
  simp only [numbered, List.mem_toArray, List.mem_map] at h
  obtain ⟨⟨x, n⟩, hmem, rfl⟩ := h
  exact ⟨x, List.fst_mem_of_mem_zipIdx hmem, rfl⟩

end Numbered

/-! ## Statements that add rows -/

section Statements

variable {ρ : Type} {full : Int → ρ → List Value} {valuesOf : ρ → List Value}
  {places : List (Option Nat)}

/-- Whether no numbers make rows of two contents agree in columns of a key. -/
def Apart (keys : List (List (Nat × Collation))) (full : Int → ρ → List Value) (x y : ρ) : Prop :=
  ∀ columns ∈ keys, ∀ m n, agree columns (full n y) (full m x) = false

/-- A row that differs from all others is added behind them. -/
theorem run_addRow_numbered (hshape : shape.IsPlain keys) (h : s.IsUntriggered shape.name)
    {before : List ρ} {x : ρ}
    (hrows : s.table? shape.name = some ⟨shape, .ok (numbered full before)⟩)
    (htakes : shape.Takes (places.zip (valuesOf x)) fun n => full n x)
    (hapart : ∀ y ∈ before, Apart keys full y x) (fuel : Nat) (active : List String) :
    ∃ t, (addRow (fuel + 2) active shape none (places.zip (valuesOf x))).run s = .ok () t ∧
      Refills shape (numbered full (before ++ [x])) s t := by
  have hnew : ∀ columns ∈ keys, ∀ other ∈ numbered full before,
      agree columns (full (Shape.nextNumber (numbered full before)) x) other.values = false := by
    intro columns hcolumns other hother
    obtain ⟨y, hy, hvalues⟩ := exists_of_mem_numbered hother
    rw [hvalues]
    exact hapart y hy columns hcolumns _ _
  obtain ⟨t, hrun, hrefills⟩ := run_addRow hshape hrows h htakes hnew fuel active
  rw [nextNumber_numbered, ← numbered_concat] at hrefills
  exact ⟨t, hrun, hrefills⟩

theorem run_addRows (hshape : shape.IsPlain keys) (h : s.IsUntriggered shape.name)
    {before more : List ρ} (hrows : s.table? shape.name = some ⟨shape, .ok (numbered full before)⟩)
    (htakes : ∀ x ∈ more, shape.Takes (places.zip (valuesOf x)) fun n => full n x)
    (hapart : (before ++ more).Pairwise (Apart keys full)) (fuel : Nat) (active : List String) :
    ∃ t, ((more.map valuesOf).forM fun values =>
        unlessSkipped (addRow (fuel + 2) active shape none (places.zip values))).run s = .ok () t ∧
      Refills shape (numbered full (before ++ more)) s t := by
  induction more generalizing s before with
  | nil =>
    rw [List.append_nil]
    exact ⟨s, rfl, .refl hrows⟩
  | cons x rest ih =>
    obtain ⟨t, hrun, hrefills⟩ := run_addRow_numbered hshape h hrows
      (htakes x List.mem_cons_self)
      (fun y hy => (List.pairwise_append.1 hapart).2.2 y hy x List.mem_cons_self) fuel active
    rw [List.append_cons] at hapart
    obtain ⟨u, hrest, hlater⟩ := ih (h.of_refills hrefills) hrefills.table
      (fun y hy => htakes y (List.mem_cons_of_mem x hy)) hapart
    refine ⟨u, ?_, ?_⟩
    · rw [List.map_cons, List.forM, run_bind_of_ok (run_unlessSkipped_of_ok hrun)]
      exact hrest
    · rw [List.append_cons]
      exact hrefills.trans hlater

/-- Of rows the first one that lacks a value is refused. -/
theorem run_addRows_of_lacks {refusal : Refusal} (hshape : shape.IsPlain keys)
    (h : s.IsUntriggered shape.name) {before more : List ρ}
    (hrows : s.table? shape.name = some ⟨shape, .ok (numbered full before)⟩)
    (hmore : ∀ x ∈ more, shape.Takes (places.zip (valuesOf x)) (fun n => full n x) ∨
      shape.Lacks (places.zip (valuesOf x)) (fun n => full n x) refusal)
    (hlacks : ∃ x ∈ more, shape.Lacks (places.zip (valuesOf x)) (fun n => full n x) refusal)
    (hapart : (before ++ more).Pairwise (Apart keys full)) (fuel : Nat) (active : List String) :
    ∃ t, ((more.map valuesOf).forM fun values =>
        unlessSkipped (addRow (fuel + 2) active shape none (places.zip values))).run s =
      .error (.refused refusal) t := by
  induction more generalizing s before with
  | nil =>
    obtain ⟨x, hx, -⟩ := hlacks
    cases hx
  | cons x rest ih =>
    rw [List.map_cons, List.forM]
    rcases hmore x List.mem_cons_self with htakes | hx
    · obtain ⟨t, hrun, hrefills⟩ := run_addRow_numbered hshape h hrows htakes
        (fun y hy => (List.pairwise_append.1 hapart).2.2 y hy x List.mem_cons_self) fuel active
      rw [List.append_cons] at hapart
      have hlater : ∃ y ∈ rest,
          shape.Lacks (places.zip (valuesOf y)) (fun n => full n y) refusal := by
        obtain ⟨y, hy, hnot⟩ := hlacks
        rcases List.mem_cons.1 hy with rfl | hlater
        · exact absurd htakes hnot.not_takes
        · exact ⟨y, hlater, hnot⟩
      rw [run_bind_of_ok (run_unlessSkipped_of_ok hrun)]
      exact ih (h.of_refills hrefills) hrefills.table
        (fun y hy => hmore y (List.mem_cons_of_mem x hy)) hlater hapart
    · have hrefused := run_addRow_of_lacks hshape hrows h hx fuel active
      exact ⟨s, run_bind_of_error (run_unlessSkipped_of_refused hrefused)⟩

theorem ok_bind {α β : Type} (a : α) (f : α → Result β) : (Except.ok a >>= f) = f a := rfl

theorem mapM_eq_ok {α β : Type} {f : α → Result β} {g : α → β} {l : List α}
    (h : ∀ a ∈ l, f a = .ok (g a)) : l.mapM f = .ok (l.map g) := by
  induction l with
  | nil => rfl
  | cons a rest ih =>
    rw [List.mapM_cons, h a List.mem_cons_self, ih fun b hb => h b (List.mem_cons_of_mem a hb)]
    rfl

theorem forM_eq_ok {α : Type} {f : α → Result Unit} {l : List α} (h : ∀ a ∈ l, f a = .ok ()) :
    l.forM f = .ok () := by
  induction l with
  | nil => rfl
  | cons a rest ih =>
    rw [List.forM, h a List.mem_cons_self]
    exact ih fun b hb => h b (List.mem_cons_of_mem a hb)

/-- Values that are written out are the rows of a query. -/
theorem runQuery_values (fuel : Nat) (scope : Scope) (rows : List (List Value)) :
    runQuery (fuel + 2) scope (.values (rows.map fun row => row.map .literal)) =
      .ok (valueHeadings (rows.map fun row => row.map .literal),
        rows.map fun values => ⟨values, scope⟩) := by
  have hrow : ∀ row : List Value, (row.map Expr.literal).mapM (eval (fuel + 1) scope) =
      .ok row := by
    intro row
    rw [mapM_eq_ok (g := fun e => match e with
      | .literal value => value
      | _ => .null)]
    · simp [Function.comp_def]
    · intro e he
      obtain ⟨value, -, rfl⟩ := List.mem_map.1 he
      exact eval_literal fuel scope value
  have hrows : (rows.map fun row => row.map Expr.literal).mapM (fun row => do
      return Answer.mk (← row.mapM (eval (fuel + 1) scope)) scope) =
      (.ok (rows.map fun values => ⟨values, scope⟩) : Result (List Answer)) := by
    induction rows with
    | nil => rfl
    | cons row rest ih =>
      rw [List.map_cons, List.mapM_cons, hrow, ih]
      rfl
  rw [runQuery]
  simp only [hrows]
  rfl

/-- A statement adds its rows one after the other. -/
theorem run_insertion_eq (hrows : s.table? shape.name = some ⟨shape, .ok rows⟩)
    {columns : List String} (hplaces : insertedColumns shape shape.name columns = .ok places)
    (more : List ρ) :
    (Statement.insertion shape.name columns (more.map valuesOf)).run.run s =
      ((more.map valuesOf).forM fun values =>
        unlessSkipped (addRow (197 + 2) [] shape none (places.zip values))).run s := by
  have hlimit : triggerLimit = 197 + 3 := rfl
  have hdepth : depthLimit = 398 + 2 := rfl
  rw [Statement.run, Statement.insertion, hlimit, runStatement, run_get_bind]
  simp only [hrows, hdepth, runQuery_values]
  rw [run_bind_of_ok (run_lift_ok _ _), pure_bind, hplaces, run_bind_of_ok (run_lift_ok _ _)]
  simp only [Option.isSome_some, if_true, List.map_map, Function.comp_def]

theorem run_insertion (hshape : shape.IsPlain keys) (h : s.IsUntriggered shape.name)
    {before more : List ρ} (hrows : s.table? shape.name = some ⟨shape, .ok (numbered full before)⟩)
    {columns : List String} (hplaces : insertedColumns shape shape.name columns = .ok places)
    (htakes : ∀ x ∈ more, shape.Takes (places.zip (valuesOf x)) fun n => full n x)
    (hapart : (before ++ more).Pairwise (Apart keys full)) :
    ∃ t, (Statement.insertion shape.name columns (more.map valuesOf)).run.run s = .ok () t ∧
      Refills shape (numbered full (before ++ more)) s t := by
  rw [run_insertion_eq hrows hplaces]
  exact run_addRows hshape h hrows htakes hapart 197 []

/-- A statement is refused for the first of its rows that lacks a value. -/
theorem run_insertion_of_lacks {refusal : Refusal} (hshape : shape.IsPlain keys)
    (h : s.IsUntriggered shape.name) {before more : List ρ}
    (hrows : s.table? shape.name = some ⟨shape, .ok (numbered full before)⟩)
    {columns : List String} (hplaces : insertedColumns shape shape.name columns = .ok places)
    (hmore : ∀ x ∈ more, shape.Takes (places.zip (valuesOf x)) (fun n => full n x) ∨
      shape.Lacks (places.zip (valuesOf x)) (fun n => full n x) refusal)
    (hlacks : ∃ x ∈ more, shape.Lacks (places.zip (valuesOf x)) (fun n => full n x) refusal)
    (hapart : (before ++ more).Pairwise (Apart keys full)) :
    ∃ t, (Statement.insertion shape.name columns (more.map valuesOf)).run.run s =
      .error (.refused refusal) t := by
  rw [run_insertion_eq hrows hplaces]
  exact run_addRows_of_lacks hshape h hrows hmore hlacks hapart 197 []

theorem check_insertion (hrows : s.table? shape.name = some ⟨shape, .ok rows⟩)
    (h : s.IsUntriggered shape.name) {columns : List String}
    (hplaces : insertedColumns shape shape.name columns = .ok places)
    {first : List Value} {rest : List (List Value)} (hwidth : first.length = places.length) :
    s.check (Statement.insertion shape.name columns (first :: rest)) = .ok () := by
  have hlimit : triggerLimit = 198 + 2 := rfl
  have hdepth : depthLimit = 397 + 3 := rfl
  rw [Store.check, Statement.insertion, hlimit, checkStatement, hdepth, checkTable_eq_ok hrows]
  have hquery : checkQuery (397 + 3) { store := s }
      (.values ((first :: rest).map fun row => row.map .literal)) =
      .ok (valueHeadings ((first :: rest).map fun row => row.map .literal)) := by
    have hliterals : ((first :: rest).map fun row => row.map Expr.literal).forM (fun row =>
        row.forM (checkExpr (397 + 1) { store := s })) = .ok () := by
      refine forM_eq_ok fun row hrow => forM_eq_ok fun e he => ?_
      obtain ⟨values, -, rfl⟩ := List.mem_map.1 hrow
      obtain ⟨value, -, rfl⟩ := List.mem_map.1 he
      exact checkExpr_literal _ _ _
    rw [checkQuery, checkParts]
    · rw [hliterals]
      rfl
    · intro inner terms limit? offset? hsorted
      cases hsorted
  have hheadings : (valueHeadings ((first :: rest).map fun row => row.map Expr.literal)).length =
      places.length := by
    simp [valueHeadings, hwidth]
  have hvalues : (some (Query.values ((first :: rest).map fun row => row.map .literal))).toList =
      [.values ((first :: rest).map fun row => row.map .literal)] := rfl
  simp only [hrows, hplaces, pure_bind, hvalues, List.forM, ok_bind, hquery, hheadings,
    checkWidth_self, checkTriggers_eq_ok h]

end Statements

end Relational
end FeatureCensus
