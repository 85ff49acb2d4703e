/-!
# Catalogs

A catalog declares the counters of a census: the key that rules use, the label that
reports show, and when the places of occurrences are tracked.

Main results:

- Theorem {lit}`Tracking.ofName?_name`: a tracking mode is known by its name.
-/

namespace FeatureCensus

/-- When the places of the occurrences of a feature are kept. -/
inductive Tracking where
  /-- In every census. -/
  | always
  /-- In every census but those that ask for statistics only. -/
  | detailed
  /-- Never; only numbers are kept. -/
  | never
  deriving DecidableEq, Repr, Inhabited

namespace Tracking

/-- The name of a tracking mode. -/
def name : Tracking → String
  | always => "always"
  | detailed => "detailed"
  | never => "never"

/-- The tracking mode of a name. -/
def ofName? (s : String) : Option Tracking :=
  [always, detailed, never].find? fun mode => mode.name == s

/-- A tracking mode is known by its name. -/
theorem ofName?_name (mode : Tracking) : ofName? mode.name = some mode := by
  cases mode <;> rfl

/-- Whether places are kept in a census. -/
def tracks (mode : Tracking) (statsOnly : Bool) : Bool :=
  match mode with
  | always => true
  | detailed => !statsOnly
  | never => false

end Tracking

/-- The declaration of a counter. -/
structure CounterSpec where
  key : String
  label : String
  tracking : Tracking := .never
  deriving DecidableEq, Repr, Inhabited

/-- Declarations of counters in the order of reports. -/
abbrev Catalog := List CounterSpec

namespace Catalog

/-- The keys of a catalog. -/
def keys (catalog : Catalog) : List String :=
  catalog.map (·.key)

end Catalog
end FeatureCensus
