import FeatureCensus.Files.Glob
import FeatureCensus.Proofs.Files.Paths

/-!
# Patterns below a directory

A star with an ending matches the names with that ending.  A pattern that leads from a directory
without wildcards in its path to any number of directories is searched from the trimmed path of
the directory, with one step for all directories below it and one for the names there.

Main results:

- Theorem {lit}`NamePattern.nameMatches_star`: a star with an ending matches the names with it.
- Theorem {lit}`Glob.ofText_join`: the steps of a pattern below a directory.
-/

namespace FeatureCensus

open Text

namespace NamePattern

/-! ## Endings -/

/-- A text without wildcards stands for itself. -/
theorem parse_of_plain {cs : List Char}
    (h : cs.any (fun c => c == '*' || c == '?' || c == '[') = false) :
    parse cs = cs.map .literal := by
  induction cs with
  | nil => rw [parse]; rfl
  | cons c rest ih =>
    rw [List.any_cons, Bool.or_eq_false_iff, Bool.or_eq_false_iff, Bool.or_eq_false_iff] at h
    obtain ⟨⟨⟨hstar, hmark⟩, hbracket⟩, hrest⟩ := h
    rw [beq_eq_false_iff_ne] at hstar hmark hbracket
    rw [List.map_cons, ← ih hrest, parse]
    · exact hstar
    · exact hmark
    · exact hbracket

/-- A star before a text matches what ends with the text. -/
theorem matchesParts_star (text cs : List Char) :
    matchesParts (.anyText :: text.map .literal) cs = true ↔ text <:+ cs := by
  induction cs with
  | nil => rw [matchesParts, matchesParts_literal, List.suffix_nil, eq_comm]
  | cons c rest ih =>
    rw [matchesParts, Bool.or_eq_true, matchesParts_literal, ih, List.suffix_cons_iff, eq_comm]

/-- A star with an ending matches the names with that ending. -/
theorem nameMatches_star {ending : String} (h : hasWildcard ending = false) (name : String) :
    nameMatches ("*" ++ ending) name = true ↔ ending.toList <:+ name.toList := by
  have hparts : parse ("*" ++ ending).toList = .anyText :: ending.toList.map .literal := by
    rw [String.toList_append, show "*".toList = ['*'] from rfl, List.singleton_append, parse,
      parse_of_plain h, consPart]
    cases ending.toList <;> rfl
  rw [nameMatches_eq, hparts, matchesParts_star]

/-- The components of a text without wildcards have none. -/
theorem hasWildcard_component {text component : String} (h : hasWildcard text = false)
    (hcomponent : component ∈ Path.components text) : hasWildcard component = false := by
  rw [hasWildcard, List.any_eq_false] at h ⊢
  intro c hc
  exact h c (Path.mem_of_mem_component hcomponent hc)

end NamePattern

namespace Glob

open NamePattern

/-! ## Steps -/

/-- A pattern below a directory without wildcards in its path is searched from there. -/
theorem ofText_join {path last : String} (hpath : path ≠ "") (hplain : hasWildcard path = false)
    (hlast : hasWildcard last = true) (hdeep : last ≠ "**") (hslash : '/' ∉ last.toList) :
    Pattern.ofText (Path.join path ("**/" ++ last)) =
      ⟨Path.trimmed path, [.deep, .wild last]⟩ := by
  obtain ⟨trunk, htrunk, hcomponents⟩ := Path.exists_trunk path
  have hjoined : Path.join path ("**/" ++ last) = Path.slashed path ++ ("**" ++ "/" ++ last) :=
    Path.join_eq hpath (by simp)
  have hall : Path.components (Path.join path ("**/" ++ last)) = trunk ++ ["**", last] := by
    rw [hjoined, hcomponents, Path.components_append_slash, Path.components_of_noSlash hslash]
    rfl
  have htrunkPlain : ∀ component ∈ trunk, (!hasWildcard component) = true := by
    intro component hcomponent
    have hmem : component ∈ Path.components path := by
      rcases htrunk with htrunk | htrunk
      · rwa [htrunk]
      · rw [htrunk]
        exact List.mem_append_left _ hcomponent
    rw [hasWildcard_component hplain hmem]
    rfl
  have hbefore : (trunk ++ ["**", last]).takeWhile (!hasWildcard ·) = trunk := by
    rw [List.takeWhile_append_of_pos htrunkPlain, List.takeWhile_cons_of_neg (by decide),
      List.append_nil]
  have hhead : "/".intercalate (trunk ++ [""]) = Path.slashed path := by
    have hslashed := Path.ofNames_components (Path.slashed path ++ "")
    rwa [hcomponents, String.append_empty] at hslashed
  have hempty : last.isEmpty = false := by
    rw [Bool.eq_false_iff]
    intro hempty
    rw [String.isEmpty_iff.1 hempty] at hlast
    cases hlast
  have hsteps : stepsOf ["**", last] = [.deep, .wild last] := by
    simp [stepsOf, Step.ofComponent, hempty, hdeep, hlast]
  rw [Pattern.ofText, hall, hbefore, hhead, List.drop_left, hsteps]
  rfl

end Glob
end FeatureCensus
