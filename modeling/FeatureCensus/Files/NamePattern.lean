/-!
# Name patterns

Patterns for the names of files: a star stands for any text, a question mark for any
character, and brackets for one character of a set.  A set lists characters and ranges
of characters; an exclamation mark in front negates it.  A bracket without its
counterpart stands for itself.

Main results:

- Theorem {lit}`NamePattern.matchesParts_literal`: a text without wildcards matches itself
  and nothing else.
- Theorem {lit}`NamePattern.headD_matchRow`: matching row by row, which never looks at a place
  twice for one part, gives the same answer.
-/

namespace FeatureCensus
namespace NamePattern

/-! ## Parts -/

/-- An entry of a set of characters. -/
inductive SetItem where
  | one (c : Char)
  | range (first last : Char)
  deriving DecidableEq, Repr, Inhabited

/-- A part of a pattern. -/
inductive Part where
  | literal (c : Char)
  | anyChar
  | anyText
  | oneOf (negated : Bool) (items : List SetItem)
  deriving DecidableEq, Repr, Inhabited

/-- Whether a set holds a character. -/
def SetItem.holds (c : Char) : SetItem → Bool
  | one d => c == d
  | range first last => first ≤ c && c ≤ last

/-- Whether a character belongs to a set. -/
def inSet (negated : Bool) (items : List SetItem) (c : Char) : Bool :=
  negated != items.any (·.holds c)

/-! ## Matching -/

/-- Whether the parts of a pattern match the whole of a name. -/
def matchesParts : List Part → List Char → Bool
  | [], cs => cs.isEmpty
  | .literal _ :: _, [] => false
  | .literal d :: parts, c :: cs => c == d && matchesParts parts cs
  | .anyChar :: _, [] => false
  | .anyChar :: parts, _ :: cs => matchesParts parts cs
  | .oneOf _ _ :: _, [] => false
  | .oneOf negated items :: parts, c :: cs => inSet negated items c && matchesParts parts cs
  | .anyText :: parts, [] => matchesParts parts []
  | .anyText :: parts, c :: cs =>
    matchesParts parts (c :: cs) || matchesParts (.anyText :: parts) cs
termination_by parts cs => parts.length + cs.length

/-- A text without wildcards matches itself and nothing else. -/
theorem matchesParts_literal (text name : List Char) :
    matchesParts (text.map .literal) name = true ↔ name = text := by
  induction text generalizing name with
  | nil => simp [matchesParts]
  | cons d rest ih =>
    cases name with
    | nil => simp [matchesParts]
    | cons c cs => simp [matchesParts, ih]

/-! ## Matching row by row -/

/-- For each place of a name, whether a part for one character stands there in front of
what the row says about the next place. -/
def oneCharRow (holds : Char → Bool) : List Char → List Bool → List Bool
  | c :: cs, _ :: row => (holds c && row.headD false) :: oneCharRow holds cs row
  | _, _ => [false]

/-- For each place of a name, whether the row holds there or at a later place. -/
def anyTextRow : List Bool → List Bool
  | [] => []
  | b :: row =>
    let later := anyTextRow row
    (b || later.headD false) :: later

/-- Below the characters of a name and at its end, whether nothing follows. -/
def endRow : List Char → List Bool
  | [] => [true]
  | _ :: cs => false :: endRow cs

/-- For each place of a name and its end, whether parts match what follows it. -/
def matchRow : List Part → List Char → List Bool
  | [], cs => endRow cs
  | .literal d :: parts, cs => oneCharRow (· == d) cs (matchRow parts cs)
  | .anyChar :: parts, cs => oneCharRow (fun _ => true) cs (matchRow parts cs)
  | .oneOf negated items :: parts, cs => oneCharRow (inSet negated items) cs (matchRow parts cs)
  | .anyText :: parts, cs => anyTextRow (matchRow parts cs)

/-- A row is not empty, and behind its front it is the row of the rest of the name. -/
theorem matchRow_cons (parts : List Part) (c : Char) (cs : List Char) :
    ∃ b, matchRow parts (c :: cs) = b :: matchRow parts cs := by
  induction parts with
  | nil => exact ⟨false, rfl⟩
  | cons part parts ih =>
    obtain ⟨b, hb⟩ := ih
    cases part <;> simp [matchRow, hb, oneCharRow, anyTextRow]

/-- At the end of a name a row tells whether the parts match nothing. -/
theorem matchRow_nil (parts : List Part) : matchRow parts [] = [matchesParts parts []] := by
  induction parts with
  | nil => simp [matchRow, endRow, matchesParts]
  | cons part parts ih =>
    cases part <;> simp [matchRow, oneCharRow, anyTextRow, matchesParts, ih]

/-- The front of a row tells whether the parts match the whole name. -/
theorem headD_matchRow (parts : List Part) (cs : List Char) :
    (matchRow parts cs).headD false = matchesParts parts cs := by
  induction cs generalizing parts with
  | nil => simp [matchRow_nil]
  | cons c cs ihcs =>
    induction parts with
    | nil => simp [matchRow, endRow, matchesParts]
    | cons part parts ih =>
      obtain ⟨b, hb⟩ := matchRow_cons parts c cs
      have hrest := ihcs parts
      have hstar := ihcs (.anyText :: parts)
      simp only [matchRow] at hstar
      rw [hb, List.headD_cons] at ih
      cases part <;>
        simp only [matchRow, hb, oneCharRow, anyTextRow, matchesParts, List.headD_cons, hrest,
          hstar, ih, Bool.true_and]

/-! ## Sets -/

/-- Splits the inside of brackets at the hyphens that make ranges, looking for the first
one after the given number of characters. -/
def splitAtHyphens (skip : Nat) (cs : List Char) : List (List Char) :=
  match _found : (cs.drop skip).dropWhile (· != '-') with
  | [] => [cs]
  | _ :: after =>
    (cs.take skip ++ (cs.drop skip).takeWhile (· != '-')) :: splitAtHyphens 2 after
termination_by cs.length
decreasing_by
  have hsub := (List.dropWhile_sublist (· != '-') (l := cs.drop skip)).length_le
  rw [_found] at hsub
  simp only [List.length_cons, List.length_drop] at hsub
  omega

/-- A hyphen at the end makes no range and stands for itself. -/
def keepLastHyphen : List (List Char) → List (List Char)
  | [] => []
  | [chunk, []] => [chunk ++ ['-']]
  | chunk :: rest => chunk :: keepLastHyphen rest

/-- Removes the ranges whose ends are in the wrong order, the last one first. -/
def dropReversed : List (List Char) → List (List Char)
  | [] => []
  | chunk :: rest =>
    match dropReversed rest with
    | [] => [chunk]
    | next :: more =>
      if next.headD '\x00' < chunk.getLastD '\x00' then (chunk.dropLast ++ next.drop 1) :: more
      else chunk :: next :: more

/-- The entries of a set that was split at the hyphens of its ranges. -/
def itemsOf : List (List Char) → List SetItem
  | [] => []
  | [chunk] => chunk.map .one
  | chunk :: next :: rest =>
    match chunk.getLast?, next with
    | some first, last :: more =>
      chunk.dropLast.map .one ++ .range first last :: itemsOf (more :: rest)
    | some _, [] => chunk.map .one ++ itemsOf ([] :: rest)
    | none, _ => .one '-' :: itemsOf (next :: rest)
termination_by chunks => chunks.length

/-- The part that the inside of brackets stands for. -/
def setOf (inside : List Char) : Part :=
  let skip := if inside.head? == some '!' then 2 else 1
  match dropReversed (keepLastHyphen (splitAtHyphens skip inside)) with
  | ('!' :: chunk) :: rest =>
    if chunk.isEmpty && rest.isEmpty then .anyChar else .oneOf true (itemsOf (chunk :: rest))
  | chunks => .oneOf false (itemsOf chunks)

/-! ## Reading -/

/-- The characters that stand in front of the search for the closing bracket. -/
def bracketLead : List Char → List Char × List Char
  | '!' :: ']' :: rest => (['!', ']'], rest)
  | '!' :: rest => (['!'], rest)
  | ']' :: rest => ([']'], rest)
  | rest => ([], rest)

/-- The inside of brackets and what follows them, if there is a closing bracket. -/
def bracket? (cs : List Char) : Option (List Char × List Char) :=
  match (bracketLead cs).2.dropWhile (· != ']') with
  | [] => none
  | _ :: after => some ((bracketLead cs).1 ++ (bracketLead cs).2.takeWhile (· != ']'), after)

theorem length_bracketLead_le (cs : List Char) : (bracketLead cs).2.length ≤ cs.length := by
  unfold bracketLead
  split
  · exact Nat.le_trans (Nat.le_succ _) (Nat.le_succ _)
  · exact Nat.le_succ _
  · exact Nat.le_succ _
  · exact Nat.le_refl _

/-- What follows brackets is shorter than what they are read from. -/
theorem length_lt_of_bracket? {cs inside after : List Char}
    (h : bracket? cs = some (inside, after)) : after.length < cs.length := by
  unfold bracket? at h
  split at h
  · cases h
  · rename_i found
    obtain ⟨rfl, rfl⟩ := Prod.mk.inj (Option.some.inj h)
    have hsub := (List.dropWhile_sublist (· != ']') (l := (bracketLead cs).2)).length_le
    rw [found, List.length_cons] at hsub
    exact Nat.lt_of_lt_of_le hsub (length_bracketLead_le cs)

/-- Puts a part in front; stars that follow each other are one. -/
def consPart (part : Part) (parts : List Part) : List Part :=
  if part == .anyText && parts.head? == some .anyText then parts else part :: parts

/-- The parts of a pattern. -/
def parse : List Char → List Part
  | [] => []
  | '*' :: cs => consPart .anyText (parse cs)
  | '?' :: cs => .anyChar :: parse cs
  | '[' :: cs =>
    match found : bracket? cs with
    | none => .literal '[' :: parse cs
    | some (inside, after) =>
      have _shorter := length_lt_of_bracket? found
      setOf inside :: parse after
  | c :: cs => .literal c :: parse cs
termination_by cs => cs.length

/-- Whether a name matches a pattern. -/
def nameMatches (pattern name : String) : Bool :=
  (matchRow (parse pattern.toList) name.toList).headD false

/-- A name matches a pattern if its parts match the whole name. -/
theorem nameMatches_eq (pattern name : String) :
    nameMatches pattern name = matchesParts (parse pattern.toList) name.toList :=
  headD_matchRow _ _

/-- Whether a text has characters with a meaning in patterns. -/
def hasWildcard (text : String) : Bool :=
  text.toList.any fun c => c == '*' || c == '?' || c == '['

end NamePattern
end FeatureCensus
