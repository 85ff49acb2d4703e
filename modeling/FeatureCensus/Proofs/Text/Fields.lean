import FeatureCensus.Proofs.Text.Numerals
import Mathlib.Data.List.Basic

/-!
# Fields between separators

The fields of a list of characters tell where its separators are: where the fields are divided into
two runs, a separator stands between what has the first run as its fields and what has the second
one.

Main results:

- Theorem {lit}`Text.eq_of_fields_eq_singleton`: what has one field is this field.
- Theorem {lit}`Text.exists_of_fields_eq_append`: between two runs of fields stands a separator.
- Theorem {lit}`Text.fields_intercalate`: texts are read back from what they are joined to.
-/

namespace FeatureCensus
namespace Text

variable {p : Char → Bool} {cs : List Char}

/-- What has one field is this field. -/
theorem eq_of_fields_eq_singleton {field : List Char} (h : fields p cs = [field]) : cs = field := by
  induction cs generalizing field with
  | nil => exact List.singleton_inj.1 h
  | cons c rest ih =>
    cases hc : p c with
    | true =>
      rw [fields_cons_of_pos hc] at h
      exact absurd (List.cons.inj h).2 (fields_ne_nil p rest)
    | false =>
      obtain ⟨first, more, hrest⟩ := exists_fields_eq_cons p rest
      rw [fields_cons_of_neg hc hrest] at h
      obtain ⟨rfl, rfl⟩ := List.cons.inj h
      rw [ih hrest]

/-- Between two runs of fields stands a separator. -/
theorem exists_of_fields_eq_append {before after : List (List Char)} (hbefore : before ≠ [])
    (hafter : after ≠ []) (h : fields p cs = before ++ after) :
    ∃ first c rest, p c = true ∧ cs = first ++ c :: rest ∧ fields p first = before ∧
      fields p rest = after := by
  induction cs generalizing before with
  | nil =>
    have hlength := congrArg List.length h
    have hfirst := List.length_pos_of_ne_nil hbefore
    have hsecond := List.length_pos_of_ne_nil hafter
    rw [fields_nil, List.length_append, List.length_singleton] at hlength
    omega
  | cons d rest ih =>
    obtain ⟨field, more, rfl⟩ := List.exists_cons_of_ne_nil hbefore
    cases hd : p d with
    | true =>
      rw [fields_cons_of_pos hd, List.cons_append] at h
      obtain ⟨rfl, hrest⟩ := List.cons.inj h
      by_cases hmore : more = []
      · subst hmore
        exact ⟨[], d, rest, hd, rfl, rfl, hrest⟩
      · obtain ⟨first, c, last, hc, rfl, hfirst, hlast⟩ := ih hmore hrest
        exact ⟨d :: first, c, last, hc, rfl, by rw [fields_cons_of_pos hd, hfirst], hlast⟩
    | false =>
      obtain ⟨start, later, hfields⟩ := exists_fields_eq_cons p rest
      rw [fields_cons_of_neg hd hfields, List.cons_append] at h
      obtain ⟨rfl, rfl⟩ := List.cons.inj h
      -- The character belongs to the first field, which is there without it as well.
      obtain ⟨first, c, last, hc, rfl, hfirst, hlast⟩ := ih (List.cons_ne_nil start more) hfields
      exact ⟨d :: first, c, last, hc, rfl, fields_cons_of_neg hd hfirst, hlast⟩

/-! ## One separator -/

theorem fields_of_not_mem {c : Char} (h : c ∉ cs) : fields (· == c) cs = [cs] := by
  apply fields_eq_singleton
  intro d hd
  rw [beq_eq_false_iff_ne]
  rintro rfl
  exact h hd

/-- In front of the first separator stands the first field. -/
theorem fields_append_cons {c : Char} (h : c ∉ cs) (rest : List Char) :
    fields (· == c) (cs ++ c :: rest) = cs :: fields (· == c) rest := by
  have hsplit := fields_append_separator (p := (· == c)) (beq_self_eq_true c) cs rest
  rw [hsplit, fields_of_not_mem h, List.singleton_append]

/-- Texts without the separator are the fields of what they are joined to. -/
theorem fields_intercalate {c : Char} {separator : String} (hseparator : separator.toList = [c])
    {texts : List String} (hne : texts ≠ []) (h : ∀ text ∈ texts, c ∉ text.toList) :
    fields (· == c) (separator.intercalate texts).toList = texts.map String.toList := by
  induction texts with
  | nil => exact absurd rfl hne
  | cons text rest ih =>
    have htext := h text List.mem_cons_self
    by_cases hrest : rest = []
    · subst hrest
      rw [String.intercalate_singleton, fields_of_not_mem htext, List.map_singleton]
    · have hsplit : (separator.intercalate (text :: rest)).toList =
          text.toList ++ c :: (separator.intercalate rest).toList := by
        rw [String.intercalate_cons_of_ne_nil hrest]
        simp [hseparator]
      have hlater := ih hrest fun other hother => h other (List.mem_cons_of_mem text hother)
      rw [hsplit, fields_append_cons htext, hlater, List.map_cons]

end Text
end FeatureCensus
