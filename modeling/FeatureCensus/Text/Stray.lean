import FeatureCensus.Text.Quoted

/-!
# Stray bytes

The names of an operating system are bytes, and those of some names are no text.  Where such a
name is read as a text, each byte that belongs to no character is written by a character that is
set aside for it, so that the name can be told from the text.  Whoever stores such a text is
refused.

Main results:

- Theorem {lit}`Text.Strays.byteSize_append`: the bytes of a text follow each other.
- Theorem {lit}`Text.Strays.strayRun?_eq_none_iff`: a text without strays is refused nowhere.
-/

namespace FeatureCensus
namespace Text

/-- The characters that are set aside for bytes which belong to no character, each with its
byte. -/
abbrev Strays := List (Char × UInt8)

namespace Strays

/-- The character that stands for a stray byte. -/
def charOf? (strays : Strays) (byte : UInt8) : Option Char :=
  (strays.find? fun (_, other) => other == byte).map (·.1)

/-! ## Sizes -/

/-- The number of bytes that a character has in a name. -/
def charSize (strays : Strays) (c : Char) : Nat :=
  match strays.lookup c with
  | some _ => 1
  | none => c.utf8Size

/-- The number of bytes of the name that a text is. -/
def byteSize (strays : Strays) (text : String) : Nat :=
  text.toList.foldr (fun c size => strays.charSize c + size) 0

theorem charSize_pos (strays : Strays) (c : Char) : 0 < strays.charSize c := by
  unfold charSize
  split
  · exact Nat.one_pos
  · exact c.utf8Size_pos

/-- What is one byte as a character is one byte as a stray too. -/
theorem charSize_eq_one (strays : Strays) {c : Char} (h : c.utf8Size = 1) :
    strays.charSize c = 1 := by
  unfold charSize
  split
  · rfl
  · exact h

/-- The bytes of a text follow each other. -/
@[simp]
theorem byteSize_append (strays : Strays) (first second : String) :
    strays.byteSize (first ++ second) = strays.byteSize first + strays.byteSize second := by
  unfold byteSize
  rw [String.toList_append]
  induction first.toList with
  | nil => simp
  | cons c rest ih => simp only [List.cons_append, List.foldr_cons, ih, Nat.add_assoc]

@[simp]
theorem byteSize_empty (strays : Strays) : strays.byteSize "" = 0 := rfl

@[simp]
theorem byteSize_slash (strays : Strays) : strays.byteSize "/" = 1 :=
  strays.charSize_eq_one rfl

@[simp]
theorem byteSize_dot (strays : Strays) : strays.byteSize "." = 1 :=
  strays.charSize_eq_one rfl

/-- A character has at most four bytes. -/
theorem byteSize_le (strays : Strays) (text : String) :
    strays.byteSize text ≤ 4 * text.toList.length := by
  unfold byteSize
  induction text.toList with
  | nil => exact Nat.le_refl 0
  | cons c rest ih =>
    have hfirst : strays.charSize c ≤ 4 := by
      unfold charSize
      split
      · decide
      · exact c.utf8Size_le_four
    rw [List.foldr_cons, List.length_cons]
    omega

/-- Only the empty text has no bytes. -/
theorem byteSize_eq_zero_iff {strays : Strays} {text : String} :
    strays.byteSize text = 0 ↔ text = "" := by
  rw [byteSize, ← String.toList_eq_nil_iff]
  cases text.toList with
  | nil => simp
  | cons c rest =>
    have hpos := strays.charSize_pos c
    rw [List.foldr_cons]
    constructor
    · omega
    · intro hnil
      cases hnil

/-! ## Refusals -/

/-- Whether a character is set aside for a byte. -/
def isStray (strays : Strays) (c : Char) : Bool :=
  (strays.lookup c).isSome

/-- Where a text cannot be encoded: the first of the stray bytes that follow each other there, the
number of characters before it, and the number of these bytes. -/
structure Run where
  byte : UInt8
  start : Nat
  length : Nat
  deriving DecidableEq, Repr, Inhabited

/-- The first stray bytes of a text. -/
def strayRun? (strays : Strays) (text : String) : Option Run :=
  match text.toList.dropWhile (!strays.isStray ·) with
  | [] => none
  | c :: rest => some {
      byte := (strays.lookup c).getD 0
      start := (text.toList.takeWhile (!strays.isStray ·)).length
      length := (rest.takeWhile strays.isStray).length + 1 }

/-- A text without strays is refused nowhere. -/
theorem strayRun?_eq_none_iff {strays : Strays} {text : String} :
    strays.strayRun? text = none ↔ ∀ c ∈ text.toList, strays.isStray c = false := by
  have hnone : ∀ cs : List Char, cs.dropWhile (!strays.isStray ·) = [] ↔
      ∀ c ∈ cs, strays.isStray c = false := by
    intro cs
    induction cs with
    | nil => simp
    | cons c rest ih =>
      rw [List.forall_mem_cons, List.dropWhile_cons]
      cases strays.isStray c <;> simp [ih]
  rw [← hnone, strayRun?]
  split <;> simp_all

/-- The code by which a stray byte is written. -/
def code (byte : UInt8) : List Char :=
  '\\' :: 'u' :: hexCode 4 (0xDC00 + byte.toNat)

/-- Why a text cannot be encoded. -/
def Run.message (run : Run) : String :=
  let place :=
    if run.length = 1 then
      "character '" ++ String.ofList (code run.byte) ++ "' in position " ++ toString run.start
    else
      "characters in position " ++ toString run.start ++ "-" ++
        toString (run.start + run.length - 1)
  "'utf-8' codec can't encode " ++ place ++ ": surrogates not allowed"

/-! ## Quoted names -/

/-- The quoted form of a text that is a name. -/
def quoted (strays : Strays) (text : String) : String :=
  let quote := quoteFor text.toList
  let escaped := text.toList.flatMap fun c =>
    match strays.lookup c with
    | some byte => code byte
    | none => escape quote c
  String.ofList (quote :: escaped ++ [quote])

end Strays
end Text
end FeatureCensus
