/-!
# Splitting at separators

A list of characters is cut at every separator; the parts between separators,
empty ones included, are its fields.

Main results:

- Theorem {lit}`Text.fields_ne_nil`: there is always at least one field.
- Theorem {lit}`Text.fields_append_separator`: a separator between two lists
  separates their fields.
- Theorem {lit}`Text.not_mem_of_mem_fields`: no field holds a separator.
-/

namespace FeatureCensus
namespace Text

/-- The parts of a list of characters between the separators. -/
def fields (p : Char → Bool) : List Char → List (List Char)
  | [] => [[]]
  | c :: rest =>
    if p c then [] :: fields p rest
    else match fields p rest with
      | [] => [[c]]
      | field :: more => (c :: field) :: more

/-- There is always at least one field. -/
theorem fields_ne_nil (p : Char → Bool) (cs : List Char) : fields p cs ≠ [] := by
  induction cs with
  | nil => simp [fields]
  | cons c rest ih =>
    rw [fields]
    split
    · simp
    · split <;> simp

@[simp]
theorem fields_nil (p : Char → Bool) : fields p [] = [[]] := rfl

@[simp]
theorem fields_cons_of_pos {p : Char → Bool} {c : Char} (h : p c = true) (cs : List Char) :
    fields p (c :: cs) = [] :: fields p cs := by
  simp [fields, h]

theorem fields_cons_of_neg {p : Char → Bool} {c : Char} (h : p c = false) {cs : List Char}
    {field : List Char} {more : List (List Char)} (hcs : fields p cs = field :: more) :
    fields p (c :: cs) = (c :: field) :: more := by
  simp [fields, h, hcs]

theorem exists_fields_eq_cons (p : Char → Bool) (cs : List Char) :
    ∃ field more, fields p cs = field :: more :=
  List.exists_cons_of_ne_nil (fields_ne_nil p cs)

/-- A separator between two lists separates their fields. -/
theorem fields_append_separator {p : Char → Bool} {c : Char} (h : p c = true)
    (before after : List Char) :
    fields p (before ++ c :: after) = fields p before ++ fields p after := by
  induction before with
  | nil => simp [h]
  | cons b rest ih =>
    cases hb : p b with
    | true => simp [hb, ih]
    | false =>
      obtain ⟨field, more, hrest⟩ := exists_fields_eq_cons p rest
      rw [hrest, List.cons_append] at ih
      rw [List.cons_append, fields_cons_of_neg hb ih, fields_cons_of_neg hb hrest,
        List.cons_append]

/-- No field holds a separator. -/
theorem not_mem_of_mem_fields {p : Char → Bool} {cs field : List Char}
    (hfield : field ∈ fields p cs) {c : Char} (hc : c ∈ field) : p c = false := by
  induction cs generalizing field with
  | nil => simp_all [fields]
  | cons d rest ih =>
    cases hd : p d with
    | true =>
      rw [fields_cons_of_pos hd, List.mem_cons] at hfield
      rcases hfield with rfl | hfield
      · simp at hc
      · exact ih hfield hc
    | false =>
      obtain ⟨first, more, hrest⟩ := exists_fields_eq_cons p rest
      rw [fields_cons_of_neg hd hrest, List.mem_cons] at hfield
      rw [hrest] at ih
      rcases hfield with rfl | hfield
      · rcases List.mem_cons.1 hc with rfl | hc
        · exact hd
        · exact ih List.mem_cons_self hc
      · exact ih (List.mem_cons_of_mem _ hfield) hc

end Text
end FeatureCensus
