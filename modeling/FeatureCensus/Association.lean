/-!
# Association lists

Lists of keys with values, in which the first entry of a key counts.

Main results:

- Theorem {lit}`Association.lookup_put`: putting a value changes its key and no other.
-/

namespace FeatureCensus
namespace Association

variable {κ α : Type} [BEq κ] [LawfulBEq κ]

theorem lookup_cons_self (key : κ) (value : α) (rest : List (κ × α)) :
    ((key, value) :: rest).lookup key = some value := by
  simp

theorem lookup_cons_of_ne {key other : κ} (h : key ≠ other) (value : α)
    (rest : List (κ × α)) : ((other, value) :: rest).lookup key = rest.lookup key := by
  have hne : (key == other) = false := by simp [h]
  rw [List.lookup_cons, hne]

/-- A value that is found stands beside its key. -/
theorem mem_of_lookup {key : κ} {value : α} {entries : List (κ × α)}
    (h : entries.lookup key = some value) : (key, value) ∈ entries := by
  obtain ⟨before, after, rfl, -⟩ := List.lookup_eq_some_iff.1 h
  exact List.mem_append_right before List.mem_cons_self

/-- Replaces the value of a key, or adds the key at the end. -/
def put (key : κ) (value : α) : List (κ × α) → List (κ × α)
  | [] => [(key, value)]
  | (other, old) :: rest =>
    if key == other then (other, value) :: rest else (other, old) :: put key value rest

/-- Putting a value changes its key and no other. -/
theorem lookup_put (key other : κ) (value : α) (entries : List (κ × α)) [DecidableEq κ] :
    (put key value entries).lookup other =
      if other = key then some value else entries.lookup other := by
  induction entries with
  | nil =>
    by_cases h : other = key
    · simp [put, h]
    · simp [put, h, lookup_cons_of_ne h]
  | cons entry rest ih =>
    obtain ⟨k, old⟩ := entry
    rw [put]
    by_cases hk : key = k
    · subst hk
      by_cases h : other = key
      · simp [h]
      · simp [h, lookup_cons_of_ne h]
    · rw [if_neg (by simp [hk])]
      by_cases h : other = k
      · have : ¬ k = key := fun heq => hk heq.symm
        simp [h, this]
      · rw [lookup_cons_of_ne h, lookup_cons_of_ne h, ih]

end Association
end FeatureCensus
