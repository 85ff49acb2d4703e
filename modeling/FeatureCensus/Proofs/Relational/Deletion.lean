import FeatureCensus.Relational.Selection
import Mathlib.Data.List.Basic

/-!
# Deleting all rows

How a change of a store runs, step by step, and what it leaves of the tables.  Where no trigger
acts on a table, the deletion of all its rows goes through and touches nothing else.

Main results:

- Theorem {lit}`Relational.Store.refills_putTable`: a table that is put into a store leaves the
  others alone.
- Theorem {lit}`Relational.run_removeRow`: one row is removed.
- Theorem {lit}`Relational.run_deletion`: the deletion of all rows leaves none.
- Theorem {lit}`Relational.check_deletion`: it is not refused.
-/

namespace FeatureCensus
namespace Relational

/-! ## Changes step by step -/

namespace Change

variable {α β : Type}

theorem run_bind_of_ok {x : Change α} {f : α → Change β} {s t : Store} {a : α}
    (h : x.run s = .ok a t) : (x >>= f).run s = (f a).run t := by
  simp only [EStateM.run] at h
  simp only [EStateM.run, bind, EStateM.bind, h]

theorem run_bind_of_error {x : Change α} {f : α → Change β} {s t : Store} {stop : Stop}
    (h : x.run s = .error stop t) : (x >>= f).run s = .error stop t := by
  simp only [EStateM.run] at h
  simp only [EStateM.run, bind, EStateM.bind, h]

theorem run_get_bind (f : Store → Change β) (s : Store) : (get >>= f).run s = (f s).run s := rfl

theorem run_lift_ok (a : α) (store : Store) : (lift (.ok a) : Change α).run store = .ok a store :=
  rfl

theorem run_unlessSkipped_of_ok {x : Change Unit} {s t : Store} (h : x.run s = .ok () t) :
    (unlessSkipped x).run s = .ok () t := by
  simp only [EStateM.run] at h
  simp only [EStateM.run, unlessSkipped, tryCatch, tryCatchThe, MonadExceptOf.tryCatch,
    EStateM.tryCatch, h]

theorem run_unlessSkipped_of_refused {x : Change Unit} {s t : Store} {refusal : Refusal}
    (h : x.run s = .error (.refused refusal) t) :
    (unlessSkipped x).run s = .error (.refused refusal) t := by
  simp only [EStateM.run] at h
  simp only [EStateM.run, unlessSkipped, tryCatch, tryCatchThe, MonadExceptOf.tryCatch,
    EStateM.tryCatch, h]
  rfl

end Change

/-! ## Names -/

theorem sameName_comm (a b : String) : sameName a b = sameName b a := by
  rw [sameName, sameName, Bool.beq_comm]

theorem sameName_congr {a b : String} (h : sameName a b = true) (c : String) :
    sameName a c = sameName b c := by
  rw [sameName, sameName, eq_of_beq h]

/-! ## One table -/

namespace Store

/-- That a store is another one but for the rows of a table, which are told. -/
structure Refills (shape : Shape) (rows : Array Row) (s t : Store) : Prop where
  table : t.table? shape.name = some ⟨shape, .ok rows⟩
  others : ∀ name, sameName shape.name name = false → t.table? name = s.table? name
  triggers : t.triggers = s.triggers

variable {shape : Shape} {rows : Array Row} {s t u : Store}

theorem Refills.refl (h : s.table? shape.name = some ⟨shape, .ok rows⟩) :
    Refills shape rows s s :=
  ⟨h, fun _ _ => rfl, rfl⟩

theorem Refills.trans {more : Array Row} (hst : Refills shape rows s t)
    (htu : Refills shape more t u) : Refills shape more s u where
  table := htu.table
  others name hname := (htu.others name hname).trans (hst.others name hname)
  triggers := htu.triggers.trans hst.triggers

theorem table?_putTable_of_ne (store : Store) (table : Table) {name : String}
    (h : sameName table.shape.name name = false) :
    (store.putTable table).table? name = store.table? name := by
  have hnot : ∀ old : Table, sameName old.shape.name table.shape.name = true →
      sameName old.shape.name name = false := by
    intro old hold
    rw [sameName_congr hold, h]
  unfold putTable table?
  split
  · induction store.tables with
    | nil => rfl
    | cons old rest ih =>
      by_cases hold : sameName old.shape.name table.shape.name = true
      · simp [hold, h, hnot old hold, ih]
      · simp [hold, List.find?_cons, ih]
  · simp [List.find?_append, h]

theorem triggers_putTable (store : Store) (table : Table) :
    (store.putTable table).triggers = store.triggers := by
  unfold putTable
  split <;> rfl

theorem refills_putTable (store : Store) (shape : Shape) (rows : Array Row) :
    Refills shape rows store (store.putTable ⟨shape, .ok rows⟩) :=
  ⟨store.table?_putTable ⟨shape, .ok rows⟩,
    fun _ hname => store.table?_putTable_of_ne ⟨shape, .ok rows⟩ hname,
    store.triggers_putTable _⟩

/-- That no trigger acts on changes of a table. -/
def IsUntriggered (store : Store) (table : String) : Prop :=
  ∀ trigger ∈ store.triggers, sameName trigger.table table = false

theorem IsUntriggered.of_refills {table : String} (h : s.IsUntriggered table)
    (hst : Refills shape rows s t) : t.IsUntriggered table := by
  unfold IsUntriggered
  rw [hst.triggers]
  exact h

theorem triggersFor_eq_nil {table : String} (h : s.IsUntriggered table) (moment : Moment)
    (occasion : Occasion) : s.triggersFor table moment occasion = [] := by
  unfold triggersFor
  rw [List.reverse_eq_nil_iff, List.filter_eq_nil_iff]
  intro trigger htrigger
  simp [h trigger htrigger]

end Store

open Store Change

variable {shape : Shape} {rows : Array Row} {s : Store}

theorem run_fire (h : s.IsUntriggered shape.name) (fuel : Nat) (active : List String)
    (moment : Moment) (occasion : Occasion) (frames : List Frame) :
    (fire (fuel + 1) active shape.name moment occasion frames).run s = .ok () s := by
  rw [fire, run_get_bind, triggersFor_eq_nil h]
  rfl

theorem run_rowsOf (h : s.table? shape.name = some ⟨shape, .ok rows⟩) :
    (rowsOf shape).run s = .ok rows s := by
  rw [rowsOf, run_get_bind, h]
  rfl

theorem run_putRows (shape : Shape) (rows : Array Row) (s : Store) :
    (putRows shape rows).run s = .ok () (s.putTable ⟨shape, .ok rows⟩) := rfl

theorem run_removeRow (hrows : s.table? shape.name = some ⟨shape, .ok rows⟩)
    (h : s.IsUntriggered shape.name) (fuel : Nat) (active : List String) (row : Row) :
    ∃ t, (removeRow (fuel + 2) active shape row).run s = .ok () t ∧
      Refills shape (rows.filter (·.number != row.number)) s t := by
  rw [removeRow, run_bind_of_ok (run_rowsOf hrows)]
  by_cases hthere : (rows.any fun other => other.number == row.number) = true
  · rw [if_pos hthere, run_bind_of_ok (run_fire h _ _ _ _ _), run_bind_of_ok (run_rowsOf hrows),
      if_pos hthere, run_bind_of_ok (run_putRows _ _ _)]
    have hput := s.refills_putTable shape (rows.filter (·.number != row.number))
    exact ⟨_, run_fire (h.of_refills hput) _ _ _ _ _, hput⟩
  · rw [if_neg hthere]
    have hkept : rows.filter (·.number != row.number) = rows := by
      rw [Array.filter_eq_self]
      intro other hother
      simp only [Array.any_eq_true', not_exists, not_and] at hthere
      simpa [bne, -Bool.not_eq_true] using hthere other hother
    rw [hkept]
    exact ⟨s, rfl, .refl hrows⟩

theorem run_removeRows (hrows : s.table? shape.name = some ⟨shape, .ok rows⟩)
    (h : s.IsUntriggered shape.name) (fuel : Nat) (active : List String) (wanted : List Row) :
    ∃ t, (wanted.forM fun row => unlessSkipped (removeRow (fuel + 2) active shape row)).run s =
        .ok () t ∧
      Refills shape
        (rows.filter fun other => wanted.all fun row => other.number != row.number) s t := by
  induction wanted generalizing s rows with
  | nil =>
    have hall : (rows.filter fun other => [].all fun row : Row => other.number != row.number) =
        rows := by simp
    rw [hall]
    exact ⟨s, rfl, .refl hrows⟩
  | cons row rest ih =>
    obtain ⟨t, hrun, hrefills⟩ := run_removeRow hrows h fuel active row
    obtain ⟨u, hrest, hlater⟩ := ih hrefills.table (h.of_refills hrefills)
    refine ⟨u, ?_, ?_⟩
    · rw [List.forM, run_bind_of_ok (run_unlessSkipped_of_ok hrun)]
      exact hrest
    · have hboth := hrefills.trans hlater
      rw [Array.filter_filter] at hboth
      simpa [List.all_cons, Bool.and_comm] using hboth

/-- Without conditions all rows are meant. -/
theorem holdAll_nil (scope : Scope) : holdAll scope [] = .ok true := rfl

theorem filterM_lift_true (rows : List Row) :
    (rows.filterM fun _ => (lift (.ok true) : Change Bool)) = pure rows := by
  have haux : ∀ kept, List.filterAuxM (fun _ => (lift (.ok true) : Change Bool)) rows kept =
      pure (rows.reverse ++ kept) := by
    induction rows with
    | nil => intro kept; rfl
    | cons row rest ih =>
      intro kept
      have hstep : List.filterAuxM (fun _ => (lift (.ok true) : Change Bool)) (row :: rest) kept =
        List.filterAuxM (fun _ => (lift (.ok true) : Change Bool)) rest (row :: kept) := rfl
      rw [hstep, ih, List.reverse_cons, List.append_assoc]
      rfl
  rw [List.filterM, haux, List.append_nil, pure_bind, List.reverse_reverse]

/-- The deletion of all rows of a table leaves none and changes nothing else. -/
theorem run_deletion (hrows : s.table? shape.name = some ⟨shape, .ok rows⟩)
    (h : s.IsUntriggered shape.name) :
    ∃ t, (Statement.deletion shape.name).run.run s = .ok () t ∧ Refills shape #[] s t := by
  have hlimit : triggerLimit = 197 + 3 := rfl
  obtain ⟨t, hrun, hrefills⟩ := run_removeRows hrows h 197 [] rows.toList
  refine ⟨t, ?_, ?_⟩
  · rw [Statement.run, Statement.deletion, hlimit, runStatement, run_get_bind]
    simp only [hrows]
    rw [run_bind_of_ok (run_rowsOf hrows)]
    simp only [holdAll_nil]
    rw [filterM_lift_true, pure_bind]
    exact hrun
  · have hnone : (rows.filter fun other =>
        rows.toList.all fun row => other.number != row.number) = #[] := by
      rw [Array.filter_eq_empty_iff]
      intro row hrow hall
      have hself := List.all_eq_true.1 hall row (Array.mem_toList_iff.2 hrow)
      simp at hself
    rw [hnone] at hrefills
    exact hrefills

theorem checkTable_eq_ok (hrows : s.table? shape.name = some ⟨shape, .ok rows⟩) (fuel : Nat)
    (shown : String) :
    checkTable (fuel + 1) s shown shape.name = .ok (shape.relation #[]) := by
  rw [checkTable, hrows]
  rfl

theorem checkTriggers_eq_ok (h : s.IsUntriggered shape.name) (fuel : Nat) (seen : List String)
    (relation : Relation) (occasion : Occasion) :
    checkTriggers (fuel + 1) s seen shape.name relation occasion = .ok () := by
  rw [checkTriggers]
  simp only [triggersFor_eq_nil h, List.flatMap_cons, List.flatMap_nil, List.append_nil]
  rfl

theorem check_deletion (hrows : s.table? shape.name = some ⟨shape, .ok rows⟩)
    (h : s.IsUntriggered shape.name) : s.check (Statement.deletion shape.name) = .ok () := by
  have hlimit : triggerLimit = 198 + 2 := rfl
  have hdepth : depthLimit = 399 + 1 := rfl
  rw [Store.check, Statement.deletion, hlimit, checkStatement, hdepth,
    checkTable_eq_ok hrows]
  simp only [hrows]
  exact checkTriggers_eq_ok h _ _ _ _

end Relational
end FeatureCensus
