import FeatureCensus.Proofs.Results.Replacing

/-!
# Preparing databases

A store in which nothing has the names of the tables of results and of their index gets these
tables, and what else is in it stays.  So results can be saved to it.

Main results:

- Theorem {lit}`Layout.make_eq_ok`: the table of a layout is made with its index.
- Theorem {lit}`Database.isInitialized_prepare`: a prepared database has the tables of results.
-/

namespace FeatureCensus

open Relational

/-! ## Names -/

/-- That nothing in a store has a name. -/
structure Relational.Store.Lacks (store : Store) (name : String) : Prop where
  table : store.table? name = none
  view : store.view? name = none
  index : store.indexes.any (sameName name) = false

/-- That a store has become another one by things that have some names. -/
structure Relational.Store.Grows (names : List String) (s t : Store) : Prop where
  tables : ∀ other, (∀ name ∈ names, sameName name other = false) → t.table? other = s.table? other
  lacks : ∀ other, (∀ name ∈ names, sameName name other = false) → s.Lacks other → t.Lacks other
  triggers : t.triggers = s.triggers

namespace Relational.Store

variable {s t u : Store} {first second : List String}

theorem Grows.trans (hst : Grows first s t) (htu : Grows second t u) :
    Grows (first ++ second) s u where
  tables other hother :=
    (htu.tables other fun name hname => hother name (List.mem_append_right first hname)).trans
      (hst.tables other fun name hname => hother name (List.mem_append_left second hname))
  lacks other hother hlacks :=
    htu.lacks other (fun name hname => hother name (List.mem_append_right first hname))
      (hst.lacks other (fun name hname => hother name (List.mem_append_left second hname)) hlacks)
  triggers := htu.triggers.trans hst.triggers

theorem Grows.mono (h : Grows first s t) (hnames : ∀ name ∈ first, name ∈ second) :
    Grows second s t where
  tables other hother := h.tables other fun name hname => hother name (hnames name hname)
  lacks other hother := h.lacks other fun name hname => hother name (hnames name hname)
  triggers := h.triggers

theorem views_putTable (store : Store) (table : Table) :
    (store.putTable table).views = store.views := by
  unfold putTable
  split <;> rfl

theorem indexes_putTable (store : Store) (table : Table) :
    (store.putTable table).indexes = store.indexes := by
  unfold putTable
  split <;> rfl

/-- A table that is put into a store has its name. -/
theorem grows_putTable (store : Store) (table : Table) :
    Grows [table.shape.name] store (store.putTable table) where
  tables other hother := store.table?_putTable_of_ne table (hother _ List.mem_cons_self)
  lacks other hother hlacks := by
    refine ⟨?_, ?_, ?_⟩
    · rw [store.table?_putTable_of_ne table (hother _ List.mem_cons_self)]
      exact hlacks.table
    · rw [view?, views_putTable]
      exact hlacks.view
    · rw [indexes_putTable]
      exact hlacks.index
  triggers := store.triggers_putTable table

/-- An index that is added to a store has its name. -/
theorem grows_index (store : Store) (index : String) :
    Grows [index] store { store with indexes := store.indexes ++ [index] } where
  tables _ _ := rfl
  lacks other hother hlacks := by
    refine ⟨hlacks.table, hlacks.view, ?_⟩
    have hnew : sameName other index = false := by
      rw [sameName_comm]
      exact hother index List.mem_cons_self
    rw [List.any_append, hlacks.index, List.any_cons, hnew]
    rfl
  triggers := rfl

end Relational.Store

/-! ## Steps -/

namespace Layout

open Store

/-- The names of the table and of its index, if it has one. -/
def names (layout : Layout) : List String :=
  layout.name :: (layout.key?.map (·.2)).toList

/-- The store after a step. -/
def take (store : Store) (step : Step) : Except DatabaseError Store := do
  match ← DatabaseError.ofResult (step store) with
  | none => return store
  | some changed => DatabaseError.ofResult changed

variable {layout : Layout} {store : Store}

theorem take_makeTable (h : store.Lacks layout.name) :
    take store layout.makeTable = .ok (store.putTable ⟨layout.shape, .ok #[]⟩) := by
  have hmake : layout.makeTable store =
      .ok (some (.ok (store.putTable ⟨layout.shape, .ok #[]⟩))) := by
    simp [makeTable, h.table, h.view, h.index]
  rw [take, hmake]
  rfl

theorem take_makeIndex (hkeys : ∀ column index, layout.key? = some (column, index) →
      store.Lacks index)
    (htable : store.table? layout.name = some ⟨layout.shape, .ok #[]⟩) :
    ∃ made, take store layout.makeIndex = .ok made ∧
      made.table? layout.name = some ⟨layout.kept, .ok #[]⟩ ∧ Grows layout.names store made := by
  cases hkey : layout.key? with
  | none =>
    have hmake : layout.makeIndex store = .ok none := by simp [makeIndex, hkey]
    have hkept : layout.kept = layout.shape := by simp [kept, hkey]
    refine ⟨store, ?_, hkept ▸ htable, ⟨fun _ _ => rfl, fun _ _ => id, rfl⟩⟩
    rw [take, hmake]
    rfl
  | some key =>
    obtain ⟨column, index⟩ := key
    have hlacks := hkeys column index hkey
    have hkept : layout.kept =
        { layout.shape with
          uniques := layout.shape.uniques ++ [{ name := index, terms := keyOf [column] }]
          indexes := layout.shape.indexes ++ [keyOf [column]] } := by simp [kept, hkey]
    have hunique : checkUnique { name := index, terms := keyOf [column] } store
        ⟨layout.shape, .ok #[]⟩ = .ok () := rfl
    have hmake : layout.makeIndex store =
        .ok (some (.ok { store.putTable ⟨layout.kept, .ok #[]⟩ with
          indexes := store.indexes ++ [index] })) := by
      rw [hkept]
      simp [makeIndex, hkey, htable, hlacks.table, hlacks.view, hlacks.index, hunique, Except.map]
    have hput := store.grows_putTable ⟨layout.kept, .ok #[]⟩
    have hindex := (store.putTable ⟨layout.kept, .ok #[]⟩).grows_index index
    have hfound := store.table?_putTable ⟨layout.kept, .ok #[]⟩
    rw [indexes_putTable] at hindex
    rw [name_kept] at hput hfound
    refine ⟨{ store.putTable ⟨layout.kept, .ok #[]⟩ with indexes := store.indexes ++ [index] },
      ?_, hfound, (hput.trans hindex).mono fun name hname => ?_⟩
    · rw [take, hmake]
      rfl
    · simpa [names, hkey] using hname

/-- The table of a layout is made with its index. -/
theorem make_eq_ok (h : ∀ name ∈ layout.names, store.Lacks name)
    (hnames : layout.names.Pairwise fun a b => sameName a b = false) :
    ∃ made, [layout.makeTable, layout.makeIndex].foldlM take store = .ok made ∧
      made.table? layout.name = some ⟨layout.kept, .ok #[]⟩ ∧ Grows layout.names store made := by
  have hput := store.grows_putTable ⟨layout.shape, .ok #[]⟩
  have hkeys : ∀ column index, layout.key? = some (column, index) →
      (store.putTable ⟨layout.shape, .ok #[]⟩).Lacks index := by
    intro column index hkey
    have hindex : index ∈ layout.names := by simp [names, hkey]
    refine hput.lacks index (fun name hname => ?_) (h index hindex)
    rw [List.mem_singleton.1 hname]
    have hpair := (List.pairwise_cons.1 hnames).1 index
    exact hpair (by simp [hkey])
  obtain ⟨made, hindex, htable, hgrows⟩ := take_makeIndex hkeys (store.table?_putTable _)
  refine ⟨made, ?_, htable, (hput.trans hgrows).mono fun name hname => ?_⟩
  · rw [List.foldlM_cons, take_makeTable (h _ List.mem_cons_self)]
    change (take _ layout.makeIndex >>= _) = _
    rw [hindex]
    rfl
  · rcases List.mem_append.1 hname with htabled | hnamed
    · rw [List.mem_singleton.1 htabled]
      exact List.mem_cons_self
    · exact hnamed

/-- The tables of layouts with different names are made one after the other. -/
theorem makeAll_eq_ok {layouts : List Layout}
    (hnames : (layouts.flatMap names).Pairwise fun a b => sameName a b = false)
    (h : ∀ name ∈ layouts.flatMap names, store.Lacks name) :
    ∃ made, (layouts.flatMap fun layout => [layout.makeTable, layout.makeIndex]).foldlM take store =
        .ok made ∧
      (∀ layout ∈ layouts, made.table? layout.name = some ⟨layout.kept, .ok #[]⟩) ∧
      Grows (layouts.flatMap names) store made := by
  induction layouts generalizing store with
  | nil => exact ⟨store, rfl, by simp, ⟨fun _ _ => rfl, fun _ _ => id, rfl⟩⟩
  | cons layout rest ih =>
    rw [List.flatMap_cons] at hnames h
    obtain ⟨hown, hlater, happart⟩ := List.pairwise_append.1 hnames
    obtain ⟨between, hmake, htable, hgrows⟩ :=
      make_eq_ok (fun name hname => h name (List.mem_append_left _ hname)) hown
    have hlacks : ∀ name ∈ rest.flatMap names, between.Lacks name := fun name hname =>
      hgrows.lacks name (fun first hfirst => happart first hfirst name hname)
        (h name (List.mem_append_right _ hname))
    obtain ⟨made, hrest, htables, hmore⟩ := ih hlater hlacks
    refine ⟨made, ?_, fun other hother => ?_, hgrows.trans hmore⟩
    · rw [List.flatMap_cons, List.foldlM_append, hmake]
      exact hrest
    · rcases List.mem_cons.1 hother with rfl | hlast
      · rw [hmore.tables _ fun name hname => ?_]
        · exact htable
        · rw [sameName_comm]
          exact happart _ List.mem_cons_self name hname
      · exact htables other hlast

end Layout

/-! ## Databases -/

namespace Database

open Layout

theorem prepare_own_of_empty {store : Store} (h : store.isEmpty = true) :
    prepare (foreign store) = .ok (own {}) := by
  have hadopt : adopt (foreign store) = .ok (some (.ok (own {}))) := by simp [adopt, h]
  rw [prepare, steps, List.foldlM_cons, hadopt]
  rfl

theorem foldlM_ofStep (store : Store) (steps : List Layout.Step) :
    (steps.map ofStep).foldlM (fun db (step : Step) => do
      match ← step db with
      | none => return db
      | some changed => changed) (foreign store) =
      (steps.foldlM take store).map foreign := by
  induction steps generalizing store with
  | nil => rfl
  | cons step rest ih =>
    rw [List.map_cons, List.foldlM_cons, List.foldlM_cons, ofStep, take]
    cases hstep : step store with
    | error stop =>
      cases stop with
      | refused refusal => rfl
      | skipped => exact ih store
    | ok changed? =>
      cases changed? with
      | none => exact ih store
      | some changed =>
        cases changed with
        | ok next => exact ih next
        | error stop =>
          cases stop with
          | refused refusal => rfl
          | skipped => exact ih default

/-- A store in which nothing has the names of the tables of results gets these tables. -/
theorem isInitialized_prepare {store : Store}
    (h : ∀ name ∈ all.flatMap names, store.Lacks name ∧ store.IsUntriggered name) :
    ∃ made, prepare (foreign store) = .ok made ∧ made.IsInitialized := by
  by_cases hempty : store.isEmpty = true
  · exact ⟨own {}, prepare_own_of_empty hempty, trivial⟩
  · have hnames : (all.flatMap names).Pairwise fun a b => sameName a b = false := by
      decide +kernel
    obtain ⟨made, hmake, htables, hgrows⟩ := makeAll_eq_ok hnames fun name hname => (h name hname).1
    refine ⟨foreign made, ?_, fun layout hlayout => ⟨⟨_, htables layout hlayout⟩, ?_⟩⟩
    · have hadopt : adopt (foreign store) = .ok none := by simp [adopt, hempty]
      rw [prepare, steps, List.foldlM_cons, hadopt]
      refine (foldlM_ofStep store Layout.steps).trans ?_
      rw [Layout.steps, hmake]
      rfl
    · rw [Store.IsUntriggered, hgrows.triggers]
      exact (h layout.name (List.mem_flatMap.2 ⟨layout, hlayout, List.mem_cons_self⟩)).2

end Database
end FeatureCensus
