import FeatureCensus.Proofs.Text.Encoded
import FeatureCensus.Proofs.Text.Fields
import FeatureCensus.Survey.Exclusion

/-!
# Reading entry lists back

A text writes entries by lines: a line holds blanks, or an entry between blanks, and whatever ends
lines stands between two of them.  Every text writes some entries, and those it writes are the ones
that are read from it.  A carriage return with a line feed may be taken as one end or as two with a
blank line between them, which comes to the same.

A file is decoded by blocks.  A block that ends within a character hands its first bytes on to the
next one, so the file gives the text whose bytes it holds wherever the blocks end.

Main results:

- Theorem {lit}`EntryList.decodeFile_eq_ok_iff`: decoding by blocks undoes encoding.
- Theorem {lit}`EntryList.entries_eq_fields`: the entries are what is left of the parts of a text
  between the characters that end lines.
- Theorem {lit}`EntryList.exists_writes`: every text writes some entries.
- Theorem {lit}`EntryList.entries_eq_iff`: what is read from a text are the entries that it writes.
- Theorem {lit}`EntryList.Writes.isEntry`: whatever a text writes are entries.
- Theorem {lit}`EntryList.entries_flatMap`: entries on a line each are read back.
- Theorem {lit}`Exclusion.readList_reads_back`: the list in a file is the one that its text writes.
-/

namespace FeatureCensus
namespace EntryList

open Text

variable {block bytes carried left more rest : Bytes} {cs : List Char} {start : Nat}

/-! ## Blocks -/

/-- Behind a character in a block stand the bytes after it. -/
theorem drop_utf8EncodeChar {c : Char} {n : Nat}
    (hblock : block.drop start = String.utf8EncodeChar c ++ rest)
    (hlength : n + 1 = (String.utf8EncodeChar c).length) : block.drop (start + n + 1) = rest := by
  rw [Nat.add_assoc, ← List.drop_drop, hblock, hlength, List.drop_left]

/-- What a block gives are the characters at its beginning; the bytes after them are left. -/
theorem eq_append_of_decodeBlock (hblock : block.drop start = rest)
    (h : decodeBlock block start (pieces rest) = .ok (cs, left)) :
    rest = encodeChars cs ++ left := by
  generalize hpieces : pieces rest = parts at h
  induction parts generalizing start rest cs with
  | nil =>
    cases rest with
    | nil =>
      cases h
      rfl
    | cons a rest =>
      rw [pieces_cons] at hpieces
      cases hpieces
  | cons part later ih =>
    cases part with
    | malformed fault n =>
      rw [decodeBlock] at h
      split at h
      · cases h
        rw [hblock]
        rfl
      · cases h
    | character c n =>
      obtain ⟨after, rfl, hlength, rfl⟩ := exists_of_pieces_eq_character_cons hpieces
      rw [decodeBlock] at h
      cases hlater : decodeBlock block (start + n + 1) (pieces after) with
      | error e =>
        rw [hlater] at h
        cases h
      | ok found =>
        rw [hlater] at h
        cases h
        rw [ih (drop_utf8EncodeChar hblock hlength) rfl hlater, encodeChars_cons, List.append_assoc]

/-- Where bytes begin those of characters, the first character is there or its end is missing. -/
theorem append_eq_encodeChars_cons {c : Char} (h : rest ++ more = encodeChars (c :: cs)) :
    (∃ missing, missing ≠ [] ∧ String.utf8EncodeChar c = rest ++ missing ∧
      more = missing ++ encodeChars cs) ∨
    ∃ after, rest = String.utf8EncodeChar c ++ after ∧ after ++ more = encodeChars cs := by
  rw [encodeChars_cons, List.append_eq_append_iff] at h
  rcases h with ⟨missing, hc, hmore⟩ | ⟨after, hrest, hcs⟩
  · by_cases hmissing : missing = []
    · subst hmissing
      exact .inr ⟨[], by rw [hc, List.append_nil, List.append_nil], hmore⟩
    · exact .inl ⟨missing, hmissing, hc, hmore⟩
  · exact .inr ⟨after, hrest, hcs.symm⟩

/-- A block of the bytes of characters gives the first of them.  What is left begins the others. -/
theorem exists_decodeBlock_of_append (hblock : block.drop start = rest)
    (h : rest ++ more = encodeChars cs) :
    ∃ first last left, cs = first ++ last ∧
      decodeBlock block start (pieces rest) = .ok (first, left) ∧
      left ++ more = encodeChars last := by
  induction cs generalizing start rest with
  | nil =>
    obtain ⟨rfl, rfl⟩ := List.append_eq_nil_iff.1 h
    exact ⟨[], [], [], rfl, by rw [pieces, decodeBlock], rfl⟩
  | cons c cs ih =>
    rcases append_eq_encodeChars_cons h with ⟨missing, hmissing, hc, -⟩ | ⟨after, rfl, hcs⟩
    · -- The block ends within the character, and leaves all that it has of it.
      refine ⟨[], c :: cs, rest, rfl, ?_, h⟩
      cases rest with
      | nil => rw [pieces, decodeBlock]
      | cons a tail =>
        rw [pieces_of_unfinished hc hmissing, decodeBlock, hblock]
        rfl
    · obtain ⟨n, hlength, hpieces⟩ := pieces_utf8EncodeChar_append c after
      have hafter := drop_utf8EncodeChar hblock hlength
      obtain ⟨first, last, left, rfl, hdecode, hleft⟩ := ih hafter hcs
      refine ⟨c :: first, last, left, rfl, ?_, hleft⟩
      rw [hpieces, decodeBlock, hdecode]
      rfl

/-- Decoding by blocks undoes encoding. -/
theorem decodeFile_eq_ok_iff :
    decodeFile carried bytes = .ok cs ↔ carried ++ bytes = encodeChars cs := by
  fun_induction decodeFile carried bytes generalizing cs
  case case1 carried => rw [decodeStrict_eq_ok_iff_encoded, List.append_nil]
  case case2 carried b rest block ih =>
    have hbytes : carried ++ b :: rest = block ++ rest.drop (blockSize - 1) := by
      simp [block]
    rw [hbytes]
    constructor
    · intro h
      cases hblock : decodeBlock block 0 (pieces block) with
      | error e =>
        rw [hblock] at h
        cases h
      | ok found =>
        obtain ⟨first, left⟩ := found
        rw [hblock] at h
        change (decodeFile left (rest.drop (blockSize - 1))).bind _ = _ at h
        cases hmore : decodeFile left (rest.drop (blockSize - 1)) with
        | error e =>
          rw [hmore] at h
          cases h
        | ok last =>
          rw [hmore] at h
          obtain rfl : first ++ last = cs := Except.ok.inj h
          rw [eq_append_of_decodeBlock List.drop_zero hblock, List.append_assoc, (ih left).1 hmore,
            encodeChars_append]
    · intro h
      obtain ⟨first, last, left, rfl, hblock, hleft⟩ :=
        exists_decodeBlock_of_append List.drop_zero h
      rw [hblock]
      change (decodeFile left (rest.drop (blockSize - 1))).bind _ = _
      rw [(ih left).2 hleft]
      rfl

/-- What is parsed are the entries of the text whose bytes are given. -/
theorem parse_eq_ok_iff {found : List String} :
    parse bytes = .ok found ↔ ∃ cs, bytes = encodeChars cs ∧ entries cs = found := by
  have hdecode : ∀ cs, decodeFile [] bytes = .ok cs ↔ bytes = encodeChars cs := fun _ =>
    decodeFile_eq_ok_iff
  simp only [← hdecode, parse]
  cases decodeFile [] bytes with
  | error e => simp [Except.map]
  | ok cs => simp [Except.map]

/-! ## Stripping -/

/-- Blanks are dropped up to what is not blank. -/
theorem dropWhile_blanks_append {blanks kept : List Char} (hblanks : ∀ c ∈ blanks, isBlank c = true)
    (hfirst : ∀ c, kept.head? = some c → isBlank c = false) :
    (blanks ++ kept).dropWhile isBlank = kept := by
  rw [List.dropWhile_append_of_pos hblanks]
  cases kept with
  | nil => rfl
  | cons c rest => rw [List.dropWhile_cons_of_neg (by simp [hfirst c rfl])]

/-- Blanks at both ends are stripped, up to what is not blank. -/
theorem stripChars_append {before kept after : List Char} (hbefore : ∀ c ∈ before, isBlank c = true)
    (hafter : ∀ c ∈ after, isBlank c = true) (hne : kept ≠ [])
    (hfirst : ∀ c, kept.head? = some c → isBlank c = false)
    (hlast : ∀ c, kept.getLast? = some c → isBlank c = false) :
    stripChars (before ++ kept ++ after) = kept := by
  have hfront : (before ++ (kept ++ after)).dropWhile isBlank = kept ++ after := by
    refine dropWhile_blanks_append hbefore fun c hc => hfirst c ?_
    rwa [List.head?_append_of_ne_nil _ hne] at hc
  have hback : (after.reverse ++ kept.reverse).dropWhile isBlank = kept.reverse := by
    refine dropWhile_blanks_append (fun c hc => hafter c (List.mem_reverse.1 hc)) fun c hc => ?_
    rw [List.head?_reverse] at hc
    exact hlast c hc
  rw [stripChars, stripCharsWhere, List.append_assoc, hfront, List.reverse_append, hback,
    List.reverse_reverse]

/-- In front of what does not begin with a blank stand blanks. -/
theorem exists_blanks_append (cs : List Char) :
    ∃ blanks kept, cs = blanks ++ kept ∧ (∀ c ∈ blanks, isBlank c = true) ∧
      ∀ c, kept.head? = some c → isBlank c = false := by
  induction cs with
  | nil => exact ⟨[], [], rfl, by simp, by simp⟩
  | cons c rest ih =>
    cases hc : isBlank c with
    | true =>
      obtain ⟨blanks, kept, rfl, hblanks, hkept⟩ := ih
      exact ⟨c :: blanks, kept, rfl, List.forall_mem_cons.2 ⟨hc, hblanks⟩, hkept⟩
    | false => exact ⟨[], c :: rest, rfl, by simp, by simpa using hc⟩

/-- Every text is blank at both ends of what begins and ends with no blank. -/
theorem exists_kept_between_blanks (cs : List Char) :
    ∃ before kept after, cs = before ++ kept ++ after ∧ (∀ c ∈ before, isBlank c = true) ∧
      (∀ c ∈ after, isBlank c = true) ∧ (∀ c, kept.head? = some c → isBlank c = false) ∧
      ∀ c, kept.getLast? = some c → isBlank c = false := by
  obtain ⟨before, rest, rfl, hbefore, hfirst⟩ := exists_blanks_append cs
  obtain ⟨after, kept, hrest, hafter, hlast⟩ := exists_blanks_append rest.reverse
  rw [List.reverse_eq_iff, List.reverse_append] at hrest
  subst hrest
  refine ⟨before, kept.reverse, after.reverse, (List.append_assoc _ _ _).symm, hbefore, ?_, ?_, ?_⟩
  · exact fun c hc => hafter c (List.mem_reverse.1 hc)
  · intro c hc
    refine hfirst c ?_
    rw [List.head?_append, hc]
    rfl
  · intro c hc
    rw [List.getLast?_reverse] at hc
    exact hlast c hc

/-! ## Lines -/

/-- The characters that end a line. -/
def isLineEnd (c : Char) : Bool :=
  c == '\n' || c == '\r'

/-- An entry: some characters on one line, with no blank at either end. -/
structure IsEntry (entry : String) : Prop where
  ne_nil : entry.toList ≠ []
  one_line : ∀ c ∈ entry.toList, isLineEnd c = false
  first : ∀ c, entry.toList.head? = some c → isBlank c = false
  last : ∀ c, entry.toList.getLast? = some c → isBlank c = false

/-- Blanks that stay on a line. -/
def IsMargin (cs : List Char) : Prop :=
  ∀ c ∈ cs, isBlank c = true ∧ isLineEnd c = false

/-- What ends a line. -/
inductive LineEnd where
  | lineFeed
  | carriageReturn
  | both

/-- The characters of a line end. -/
def LineEnd.chars : LineEnd → List Char
  | .lineFeed => ['\n']
  | .carriageReturn => ['\r']
  | .both => ['\r', '\n']

/-- The entries that a line holds: none, or one between blanks. -/
inductive IsLine : List String → List Char → Prop where
  | blank {margin : List Char} (h : IsMargin margin) : IsLine [] margin
  | entry {before after : List Char} {entry : String} (hbefore : IsMargin before)
      (hentry : IsEntry entry) (hafter : IsMargin after) :
      IsLine [entry] (before ++ entry.toList ++ after)

/-- The entries that a text writes, line by line.  The last line need not be ended, and may be
empty. -/
inductive Writes : List String → List Char → Prop where
  | last {found : List String} {line : List Char} (h : IsLine found line) : Writes found line
  | line {found more : List String} {line text : List Char} (h : IsLine found line) (e : LineEnd)
      (hmore : Writes more text) : Writes (found ++ more) (line ++ e.chars ++ text)

variable {found : List String} {line : List Char}

/-! ## Entries -/

/-- What is left of parts of a text without the blanks around them. -/
def kept (parts : List (List Char)) : List String :=
  ((parts.map stripChars).filter (!·.isEmpty)).map String.ofList

theorem kept_append (parts others : List (List Char)) :
    kept (parts ++ others) = kept parts ++ kept others := by
  rw [kept, List.map_append, List.filter_append, List.map_append]
  rfl

/-- An empty part in front does not count. -/
theorem kept_empty_cons (parts : List (List Char)) : kept ([] :: parts) = kept parts := rfl

theorem kept_eq_headD (parts : List (List Char)) :
    kept parts = kept [parts.headD []] ++ kept parts.tail := by
  cases parts with
  | nil => rfl
  | cons part others => exact kept_append [part] others

/-- A line feed at the end is dropped with the blanks. -/
theorem stripChars_concat_lineFeed (part : List Char) :
    stripChars (part ++ ['\n']) = stripChars part := by
  have hfeed : isBlank '\n' = true := by decide
  cases hsome : part.dropWhile isBlank with
  | nil => simp [stripChars, stripCharsWhere, List.dropWhile_append, hsome, hfeed]
  | cons c rest => simp [stripChars, stripCharsWhere, List.dropWhile_append, hsome, hfeed]

/-- Whether the first of some lines is the first of some parts, perhaps with a line feed behind it,
and the same is left of the others. -/
structure Agree (lines parts : List (List Char)) : Prop where
  first : lines.headD [] = parts.headD [] ∨ lines.headD [] = parts.headD [] ++ ['\n']
  others : kept lines.tail = kept parts.tail

theorem Agree.kept_eq {lines parts : List (List Char)} (h : Agree lines parts) :
    kept lines = kept parts := by
  have hfirst : kept [lines.headD []] = kept [parts.headD []] := by
    rcases h.first with hsame | hfeed
    · rw [hsame]
    · rw [hfeed, kept, kept, List.map_singleton, List.map_singleton, stripChars_concat_lineFeed]
  rw [kept_eq_headD lines, kept_eq_headD parts, hfirst, h.others]

theorem lines_cons_of_ne {c : Char} (h : c ≠ '\n') (rest : List Char) :
    lines (c :: rest) = (c :: (lines rest).headD []) :: (lines rest).tail := by
  rw [lines, if_neg (by simpa using h)]
  cases lines rest <;> rfl

theorem fields_cons_eq_headD {p : Char → Bool} {c : Char} (h : p c = false) (rest : List Char) :
    fields p (c :: rest) = (c :: (fields p rest).headD []) :: (fields p rest).tail := by
  obtain ⟨field, more, hrest⟩ := exists_fields_eq_cons p rest
  rw [fields_cons_of_neg h hrest, hrest]
  rfl

/-- A line feed in front ends a line that is empty. -/
theorem agree_lineFeed {c : Char} (h : isLineEnd c = true) {text cs : List Char}
    (hrest : kept (lines text) = kept (fields isLineEnd cs)) :
    Agree (lines ('\n' :: text)) (fields isLineEnd (c :: cs)) := by
  rw [fields_cons_of_pos h, lines, if_pos (by decide)]
  exact ⟨.inr rfl, hrest⟩

/-- The lines of a text with a line feed for whatever ends a line are the parts between the
characters that end lines, up to what does not count. -/
theorem agree_lines (cs : List Char) : Agree (lines (translated cs)) (fields isLineEnd cs) := by
  fun_induction translated cs with
  | case1 => exact ⟨.inl rfl, rfl⟩
  | case2 rest ih =>
    refine agree_lineFeed (by decide) ?_
    rw [fields_cons_of_pos (by decide), kept_empty_cons]
    exact ih.kept_eq
  | case3 c rest _ ih =>
    by_cases hend : isLineEnd c = true
    · have hfeed : (if (c == '\r') = true then '\n' else c) = '\n' := by
        simp only [isLineEnd, Bool.or_eq_true, beq_iff_eq] at hend
        rcases hend with rfl | rfl <;> rfl
      rw [hfeed]
      exact agree_lineFeed hend ih.kept_eq
    · have hneither : c ≠ '\n' ∧ c ≠ '\r' := by simpa [isLineEnd] using hend
      rw [if_neg (by simpa using hneither.2), lines_cons_of_ne hneither.1,
        fields_cons_eq_headD (Bool.eq_false_iff.2 hend)]
      refine ⟨?_, ih.others⟩
      rcases ih.first with hsame | hfeed
      · exact .inl (congrArg (c :: ·) hsame)
      · exact .inr (congrArg (c :: ·) hfeed)

/-- The entries of a text are what is left of its parts between the characters that end lines. -/
theorem entries_eq_fields (cs : List Char) : entries cs = kept (fields isLineEnd cs) :=
  (agree_lines cs).kept_eq

/-- A character that ends lines divides the entries. -/
theorem entries_append_cons {c : Char} (h : isLineEnd c = true) (before after : List Char) :
    entries (before ++ c :: after) = entries before ++ entries after := by
  rw [entries_eq_fields, fields_append_separator h, kept_append, ← entries_eq_fields,
    ← entries_eq_fields]

/-- A line end divides the entries; between its two characters there are none. -/
theorem entries_append_lineEnd (e : LineEnd) (before after : List Char) :
    entries (before ++ e.chars ++ after) = entries before ++ entries after := by
  rw [List.append_assoc]
  cases e with
  | lineFeed => exact entries_append_cons rfl before after
  | carriageReturn => exact entries_append_cons rfl before after
  | both =>
    have hfeed := entries_append_cons (c := '\n') rfl [] after
    rw [LineEnd.chars, List.cons_append, entries_append_cons rfl, List.singleton_append]
    rw [List.nil_append] at hfeed
    rw [hfeed]
    rfl

theorem IsLine.one_line (h : IsLine found line) : ∀ c ∈ line, isLineEnd c = false := by
  cases h with
  | blank h => exact fun c hc => (h c hc).2
  | entry hbefore hentry hafter =>
    intro c hc
    rcases List.mem_append.1 hc with hc | hc
    · rcases List.mem_append.1 hc with hc | hc
      · exact (hbefore c hc).2
      · exact hentry.one_line c hc
    · exact (hafter c hc).2

/-- What is read from a line is what it holds. -/
theorem IsLine.entries_eq (h : IsLine found line) : entries line = found := by
  rw [entries_eq_fields, fields_eq_singleton h.one_line, kept, List.map_singleton]
  cases h with
  | blank h =>
    rw [stripChars_of_all_blank fun c hc => (h c hc).1]
    rfl
  | entry hbefore hentry hafter =>
    rw [stripChars_append (fun c hc => (hbefore c hc).1) (fun c hc => (hafter c hc).1)
      hentry.ne_nil hentry.first hentry.last]
    simp [hentry.ne_nil]

theorem Writes.entries_eq (h : Writes found cs) : entries cs = found := by
  induction h with
  | last h => exact h.entries_eq
  | line h e hmore ih => rw [entries_append_lineEnd, h.entries_eq, ih]

theorem IsLine.isEntry (h : IsLine found line) : ∀ entry ∈ found, IsEntry entry := by
  cases h with
  | blank => simp
  | entry _ hentry _ => simpa using hentry

/-- Whatever a text writes are entries. -/
theorem Writes.isEntry (h : Writes found cs) : ∀ entry ∈ found, IsEntry entry := by
  induction h with
  | last h => exact h.isEntry
  | line h e hmore ih =>
    intro entry hentry
    rcases List.mem_append.1 hentry with hentry | hentry
    · exact h.isEntry entry hentry
    · exact ih entry hentry

/-- Every line holds no entry or one. -/
theorem exists_isLine (h : ∀ c ∈ line, isLineEnd c = false) : ∃ found, IsLine found line := by
  obtain ⟨before, kept, after, rfl, hbefore, hafter, hfirst, hlast⟩ :=
    exists_kept_between_blanks line
  simp only [List.mem_append] at h
  have hbefore : IsMargin before := fun c hc => ⟨hbefore c hc, h c (.inl (.inl hc))⟩
  have hafter : IsMargin after := fun c hc => ⟨hafter c hc, h c (.inr hc)⟩
  by_cases hkept : kept = []
  · subst hkept
    refine ⟨[], .blank fun c hc => ?_⟩
    rw [List.append_nil] at hc
    rcases List.mem_append.1 hc with hc | hc
    · exact hbefore c hc
    · exact hafter c hc
  · have hentry : IsEntry (String.ofList kept) := by
      constructor <;> rw [String.toList_ofList]
      · exact hkept
      · exact fun c hc => h c (.inl (.inr hc))
      · exact hfirst
      · exact hlast
    have hline := IsLine.entry hbefore hentry hafter
    rw [String.toList_ofList] at hline
    exact ⟨_, hline⟩

theorem exists_lineEnd {c : Char} (h : isLineEnd c = true) : ∃ e : LineEnd, e.chars = [c] := by
  simp only [isLineEnd, Bool.or_eq_true, beq_iff_eq] at h
  rcases h with rfl | rfl
  · exact ⟨.lineFeed, rfl⟩
  · exact ⟨.carriageReturn, rfl⟩

/-- Every text writes some entries. -/
theorem exists_writes (cs : List Char) : ∃ found, Writes found cs := by
  cases hfind : cs.find? isLineEnd with
  | none =>
    obtain ⟨found, hline⟩ := exists_isLine (by simpa using hfind)
    exact ⟨found, .last hline⟩
  | some c =>
    obtain ⟨hc, line, rest, hcs, hbefore⟩ := List.find?_eq_some_iff_append.1 hfind
    have hshort : rest.length < cs.length := by
      rw [hcs, List.length_append, List.length_cons]
      omega
    obtain ⟨found, hline⟩ := exists_isLine (by simpa using hbefore)
    obtain ⟨more, hmore⟩ := exists_writes rest
    obtain ⟨e, he⟩ := exists_lineEnd hc
    refine ⟨found ++ more, ?_⟩
    rw [hcs, ← List.singleton_append, ← he, ← List.append_assoc]
    exact .line hline e hmore
termination_by cs.length
decreasing_by exact hshort

/-- What is read from a text are the entries that it writes. -/
theorem entries_eq_iff : entries cs = found ↔ Writes found cs := by
  constructor
  · rintro rfl
    obtain ⟨found, h⟩ := exists_writes cs
    rwa [h.entries_eq]
  · exact Writes.entries_eq

/-! ## Lists one entry per line -/

theorem isLine_entry {entry : String} (h : IsEntry entry) : IsLine [entry] entry.toList := by
  have hempty : IsMargin [] := by simp [IsMargin]
  simpa using IsLine.entry hempty h hempty

/-- Entries that are put on a line each are read back. -/
theorem entries_flatMap (h : ∀ entry ∈ found, IsEntry entry) (e : LineEnd) :
    entries (found.flatMap fun entry => entry.toList ++ e.chars) = found := by
  refine entries_eq_iff.2 ?_
  induction found with
  | nil => exact .last (.blank (by simp [IsMargin]))
  | cons entry rest ih =>
    rw [List.forall_mem_cons] at h
    exact .line (isLine_entry h.1) e (ih h.2)

/-- Two entries on a line are one, whatever stands between them that ends no line. -/
theorem IsEntry.join {first last : String} {c : Char} (hfirst : IsEntry first)
    (hlast : IsEntry last) (hc : isLineEnd c = false) : IsEntry (first ++ c.toString ++ last) := by
  constructor <;>
    simp only [String.toList_append, Char.toString_eq_singleton, String.toList_singleton]
  · simp
  · simp only [List.mem_append, List.mem_singleton]
    rintro d ((hd | rfl) | hd)
    · exact hfirst.one_line d hd
    · exact hc
    · exact hlast.one_line d hd
  · rw [List.append_assoc, List.head?_append_of_ne_nil _ hfirst.ne_nil]
    exact hfirst.first
  · rw [List.getLast?_append_of_ne_nil _ hlast.ne_nil]
    exact hlast.last

end EntryList

/-! ## Files -/

namespace Exclusion

open EntryList Text

variable {path : String} {files : FileTree Content} {bytes : Bytes} {found : List String}

theorem exists_of_read {content : Content} (h : files.read path = .ok content) :
    files.exists? path = true := by
  rw [FileTree.exists_eq_true_iff]
  unfold FileTree.read at h
  split at h
  · cases h
  · exact ⟨_, ‹_›⟩

/-- A list is read from a file that holds the bytes of a text: the entries that the text writes. -/
theorem readList_eq_ok_iff (hread : files.read path = .ok (.bytes bytes)) :
    readList path files = .ok found ↔
      ∃ text : String, bytes = encode text ∧ Writes found text.toList := by
  have hparse : readList path files = .ok found ↔ EntryList.parse bytes = .ok found := by
    simp only [readList, exists_of_read hread, hread, Content.toBytes, Bool.not_true,
      Bool.false_eq_true, if_false]
    cases EntryList.parse bytes <;> simp
  rw [hparse, parse_eq_ok_iff]
  constructor
  · rintro ⟨cs, hbytes, hentries⟩
    refine ⟨String.ofList cs, ?_, ?_⟩
    · rw [encode_eq_encodeChars, String.toList_ofList, hbytes]
    · rw [String.toList_ofList]
      exact entries_eq_iff.1 hentries
  · rintro ⟨text, hbytes, hwrites⟩
    exact ⟨text.toList, by rw [hbytes, encode_eq_encodeChars], hwrites.entries_eq⟩

/-- What is read from a file of UTF-8 is the list that its text writes, whatever ends its lines and
whatever blanks and blank lines it has besides.  From every such file a list is read, and always one
of entries.  A character that ends no line leaves two entries around it together as one. -/
theorem readList_reads_back (hread : files.read path = .ok (.bytes bytes)) :
    (∀ (found : List String) (text : String), bytes = encode text → Writes found text.toList →
      readList path files = .ok found) ∧
    (∀ text : String, bytes = encode text → ∃ found, readList path files = .ok found) ∧
    (∀ found, readList path files = .ok found →
      (∃ text : String, bytes = encode text ∧ Writes found text.toList) ∧
        ∀ entry ∈ found, IsEntry entry) ∧
    ∀ (first last : String) (c : Char), IsEntry first → IsEntry last → isLineEnd c = false →
      bytes = encode (first ++ c.toString ++ last) →
        readList path files = .ok [first ++ c.toString ++ last] := by
  refine ⟨?_, ?_, ?_, ?_⟩
  · intro found text hbytes hwrites
    exact (readList_eq_ok_iff hread).2 ⟨text, hbytes, hwrites⟩
  · intro text hbytes
    obtain ⟨found, hwrites⟩ := exists_writes text.toList
    exact ⟨found, (readList_eq_ok_iff hread).2 ⟨text, hbytes, hwrites⟩⟩
  · intro found hfound
    obtain ⟨text, hbytes, hwrites⟩ := (readList_eq_ok_iff hread).1 hfound
    exact ⟨⟨text, hbytes, hwrites⟩, hwrites.isEntry⟩
  · intro first last c hfirst hlast hc hbytes
    have hline := isLine_entry (hfirst.join hlast hc)
    exact (readList_eq_ok_iff hread).2 ⟨_, hbytes, .last hline⟩

/-- A list with blank lines and ends of every kind, and with breaks that are none within entries. -/
def brokenList : String := "\r \n\ta/b\x0b\u2028c  \r\nd\u0085\x0ce\n\n\u00a0f/g"

/-- A working directory with this list. -/
def brokenListFiles : FileTree Content :=
  { nodes := [(workingDirectory, .directory),
    (workingDirectory ++ ["excludedRepos.txt"], .file (.bytes (encode brokenList)))] }

/-- Three entries are read from the list. -/
theorem readList_reads_back_brokenList :
    brokenListFiles.read "excludedRepos.txt" = .ok (.bytes (encode brokenList)) ∧
      readList "excludedRepos.txt" brokenListFiles =
        .ok ["a/b\x0b\u2028c", "d\u0085\x0ce", "f/g"] := by
  have hread : brokenListFiles.read "excludedRepos.txt" = .ok (.bytes (encode brokenList)) := rfl
  obtain ⟨hback, -⟩ := readList_reads_back hread
  exact ⟨hread, hback _ brokenList rfl (entries_eq_iff.1 rfl)⟩

end Exclusion
end FeatureCensus
