import FeatureCensus.Association
import FeatureCensus.Syntax.Element
import FeatureCensus.Text.Integer

/-!
# Rules

A rule looks at the elements of one kind and finds, at each, the counters that the
element adds to.  A rule may come upon an attribute that should be an integer and is
none; what it finds after that does not count.

Main results:

- Theorem {lit}`Rule.groupFor_dispatchTable`: the table groups the rules by kind and
  keeps their order.
-/

namespace FeatureCensus

open Syntax Text
open Association (lookup_cons_of_ne)

/-! ## Findings -/

/-- What a rule finds at an element. -/
inductive Finding where
  /-- The element adds one to the counter of this key. -/
  | count (key : String)
  /-- An attribute of the element or above it is no integer. -/
  | malformed (error : IntegerError)
  deriving DecidableEq, Repr, Inhabited

/-- The findings that hold only under a condition. -/
def Finding.when (condition : Bool) (findings : List Finding) : List Finding :=
  if condition then findings else []

/-- The findings that hold only under a condition that may fail to be decided. -/
def Finding.whenOk (condition : Except IntegerError Bool) (findings : List Finding) :
    List Finding :=
  match condition with
  | .ok holds => Finding.when holds findings
  | .error e => [.malformed e]

/-- An element in its tree. -/
abbrev Site := Tree.Visit Element

namespace Site

/-- The element itself. -/
def element (site : Site) : Element :=
  site.here.value

end Site

/-- A rule: its name, the name of the kind that it looks at, and what it finds. -/
structure Rule where
  name : String
  kind : String
  findings : Site → List Finding

namespace Rule

/-- The rule that adds one to each of some counters at every element of a kind. -/
def counting (name kind : String) (keys : List String) : Rule :=
  ⟨name, kind, fun _ => keys.map .count⟩

/-- Whether a rule looks at an element. -/
def appliesTo (rule : Rule) (e : Element) : Bool :=
  e.tag.name? == some rule.kind

/-! ## Dispatch -/

/-- Rules grouped by the kind that they look at. -/
abbrev Table := List (String × List Rule)

/-- Adds a rule to the group of its kind, or begins a new group with it. -/
def addTo (rule : Rule) : Table → Table
  | [] => [(rule.kind, [rule])]
  | (kind, group) :: rest =>
    if rule.kind == kind then (kind, group ++ [rule]) :: rest
    else (kind, group) :: addTo rule rest

/-- The rules by kind: the kinds in the order of their first rules, and the rules of a
kind in the given order. -/
def dispatchTable (rules : List Rule) : Table :=
  rules.foldl (fun table rule => rule.addTo table) []

/-- The rules that a table has for an element; a comment has none. -/
def groupFor (table : Table) (e : Element) : List Rule :=
  match e.tag.name? with
  | none => []
  | some kind => (table.lookup kind).getD []

theorem lookup_addTo (rule : Rule) (table : Table) (kind : String) :
    ((rule.addTo table).lookup kind).getD [] =
      (table.lookup kind).getD [] ++ if kind = rule.kind then [rule] else [] := by
  induction table with
  | nil =>
    by_cases h : kind = rule.kind
    · simp [addTo, h]
    · simp [addTo, h, lookup_cons_of_ne h]
  | cons entry rest ih =>
    obtain ⟨k, group⟩ := entry
    rw [addTo]
    by_cases hk : rule.kind = k
    · subst hk
      by_cases h : kind = rule.kind
      · simp [h]
      · simp [h, lookup_cons_of_ne h]
    · rw [if_neg (by simp [hk])]
      by_cases h : kind = k
      · have : ¬ k = rule.kind := fun heq => hk heq.symm
        simp [h, this]
      · rw [lookup_cons_of_ne h, lookup_cons_of_ne h, ih]

theorem lookup_foldl_addTo (rules : List Rule) (table : Table) (kind : String) :
    ((rules.foldl (fun table rule => rule.addTo table) table).lookup kind).getD [] =
      (table.lookup kind).getD [] ++ rules.filter (fun rule => kind == rule.kind) := by
  induction rules generalizing table with
  | nil => simp
  | cons rule rest ih =>
    rw [List.foldl_cons, ih, lookup_addTo]
    by_cases h : kind = rule.kind <;> simp [h]

/-- The table groups the rules by kind and keeps their order. -/
theorem groupFor_dispatchTable (rules : List Rule) (e : Element) :
    groupFor (dispatchTable rules) e = rules.filter (·.appliesTo e) := by
  unfold groupFor
  cases htag : e.tag.name? with
  | none =>
    simp [appliesTo, htag]
  | some kind =>
    simp only [dispatchTable, lookup_foldl_addTo, List.lookup_nil, Option.getD_none,
      List.nil_append]
    exact List.filter_congr fun rule _ => by
      by_cases h : kind = rule.kind <;> simp [appliesTo, htag, h]

end Rule
end FeatureCensus
