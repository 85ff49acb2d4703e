/-!
# Repeated items

The items of a list that occur more than once, each named where it occurs for the
second time.

Main results:

- Theorem {lit}`Repeats.repeatsAfter_eq_nil`: items that are all new and different
  repeat nothing.
- Theorem {lit}`Repeats.of_repeatsAfter_eq_nil`: no others do.
-/

namespace FeatureCensus
namespace Repeats

variable {α : Type}

/-- Whether a list holds an item, up to the given sameness. -/
def holds (same : α → α → Bool) (items : List α) (x : α) : Bool :=
  items.any fun y => same y x

/-- The items that repeat one already seen and are not yet reported. -/
def repeatsAfter (same : α → α → Bool) (seen reported : List α) : List α → List α
  | [] => []
  | x :: rest =>
    if holds same seen x then
      if holds same reported x then repeatsAfter same seen reported rest
      else x :: repeatsAfter same seen (x :: reported) rest
    else repeatsAfter same (x :: seen) reported rest

/-- The items that occur more than once, in the order of their second occurrences. -/
def repeats (same : α → α → Bool) (items : List α) : List α :=
  repeatsAfter same [] [] items

/-- Items that are all new and different repeat nothing. -/
theorem repeatsAfter_eq_nil (same : α → α → Bool) {seen reported items : List α}
    (hnew : ∀ x ∈ items, holds same seen x = false)
    (hdifferent : items.Pairwise fun x y => same x y = false) :
    repeatsAfter same seen reported items = [] := by
  induction items generalizing seen with
  | nil => rfl
  | cons x rest ih =>
    rw [repeatsAfter, if_neg (by simp [hnew x List.mem_cons_self])]
    refine ih (fun y hy => ?_) (List.Pairwise.of_cons hdifferent)
    have hxy := List.rel_of_pairwise_cons hdifferent hy
    simpa [holds, hxy] using hnew y (List.mem_cons_of_mem x hy)

/-- Items that repeat nothing are all new and different. -/
theorem of_repeatsAfter_eq_nil (same : α → α → Bool) {seen items : List α}
    (h : repeatsAfter same seen [] items = []) :
    (∀ x ∈ items, holds same seen x = false) ∧ items.Pairwise fun x y => same x y = false := by
  induction items generalizing seen with
  | nil => exact ⟨fun _ hx => absurd hx List.not_mem_nil, .nil⟩
  | cons x rest ih =>
    have hunreported : holds same [] x = false := rfl
    rw [repeatsAfter, hunreported] at h
    cases hx : holds same seen x with
    | true =>
      rw [hx] at h
      cases h
    | false =>
      rw [hx] at h
      obtain ⟨hnew, hdifferent⟩ := ih h
      simp only [holds, List.any_cons, Bool.or_eq_false_iff] at hnew
      refine ⟨List.forall_mem_cons.2 ⟨hx, fun y hy => (hnew y hy).2⟩, ?_⟩
      exact .cons (fun y hy => (hnew y hy).1) hdifferent

end Repeats
end FeatureCensus
