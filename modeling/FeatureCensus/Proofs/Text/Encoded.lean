import FeatureCensus.Text.Utf8

/-!
# Encoded characters

The bytes of a character have one of four shapes, by their number.  A decoding that comes upon such
bytes takes them as this character, whatever follows, and one that comes upon a beginning of them
at the end of its input finds that the input ends within a character.  So strict decoding succeeds
exactly on the bytes of texts and gives the text.

Main results:

- Theorem {lit}`Text.isEncoded_iff`: the shapes are those of the bytes of characters.
- Theorem {lit}`Text.isEncoded_of_firstPiece`: what is taken as a character are its bytes.
- Theorem {lit}`Text.IsEncoded.firstPiece_of_unfinished`: an unfinished character is found to be so.
- Theorem {lit}`Text.decodeStrict_eq_ok_iff_encoded`: strict decoding undoes encoding.
-/

namespace FeatureCensus
namespace Text

/-! ## Shapes -/

/-- That bytes are those of a character: a byte of seven bits, or a first byte that tells their
number with bytes that continue it, the second of which keeps within the bounds of the first. -/
inductive IsEncoded : Char → Bytes → Prop where
  | one {a : UInt8} (ha : a < 0x80) : IsEncoded (Char.ofNat a.toNat) [a]
  | two {a b : UInt8} (hlow : 0xC2 ≤ a) (hhigh : a < 0xE0) (hb : isContinuation b = true) :
      IsEncoded (Char.ofNat (a.toNat % 32 * 64 + continuationBits b)) [a, b]
  | three {a b c : UInt8} (hlow : 0xE0 ≤ a) (hhigh : a < 0xF0) (hb : isSecond a b = true)
      (hc : isContinuation c = true) :
      IsEncoded (Char.ofNat (a.toNat % 16 * 4096 + continuationBits b * 64 + continuationBits c))
        [a, b, c]
  | four {a b c d : UInt8} (hlow : 0xF0 ≤ a) (hhigh : a < 0xF5) (hb : isSecond a b = true)
      (hc : isContinuation c = true) (hd : isContinuation d = true) :
      IsEncoded (Char.ofNat (a.toNat % 8 * 262144 + continuationBits b * 4096 +
        continuationBits c * 64 + continuationBits d)) [a, b, c, d]

variable {c : Char} {a : UInt8} {bytes tail rest missing : Bytes} {n : Nat}

/-! ## First bytes -/

/-- A first byte of seven bits is a character. -/
theorem firstPiece_one (h : a < 0x80) : firstPiece a rest = .character (Char.ofNat a.toNat) 0 := by
  rw [firstPiece.eq_def, if_pos h]

/-- A first byte that asks for one more. -/
theorem firstPiece_two (hlow : 0xC2 ≤ a) (hhigh : a < 0xE0) :
    firstPiece a rest =
      match rest with
      | [] => .malformed .unexpectedEnd 0
      | b :: _ =>
        if isContinuation b then
          .character (Char.ofNat (a.toNat % 32 * 64 + continuationBits b)) 1
        else .malformed .invalidContinuation 0 := by
  have hpiece := firstPiece.eq_def a rest
  rw [if_neg (by grind), if_neg (by grind), if_pos hhigh] at hpiece
  exact hpiece

/-- A first byte that asks for two more. -/
theorem firstPiece_three (hlow : 0xE0 ≤ a) (hhigh : a < 0xF0) :
    firstPiece a rest =
      match rest with
      | [] => .malformed .unexpectedEnd 0
      | b :: tail =>
        if !isSecond a b then .malformed .invalidContinuation 0
        else match tail with
          | [] => .malformed .unexpectedEnd 1
          | c :: _ =>
            if isContinuation c then
              .character (Char.ofNat (a.toNat % 16 * 4096 + continuationBits b * 64 +
                continuationBits c)) 2
            else .malformed .invalidContinuation 1 := by
  have hpiece := firstPiece.eq_def a rest
  rw [if_neg (by grind), if_neg (by grind), if_neg (by grind), if_pos hhigh] at hpiece
  exact hpiece

/-- A first byte that asks for three more. -/
theorem firstPiece_four (hlow : 0xF0 ≤ a) (hhigh : a < 0xF5) :
    firstPiece a rest =
      match rest with
      | [] => .malformed .unexpectedEnd 0
      | b :: tail =>
        if !isSecond a b then .malformed .invalidContinuation 0
        else match tail with
          | [] => .malformed .unexpectedEnd 1
          | c :: tail =>
            if !isContinuation c then .malformed .invalidContinuation 1
            else match tail with
              | [] => .malformed .unexpectedEnd 2
              | d :: _ =>
                if isContinuation d then
                  .character (Char.ofNat (a.toNat % 8 * 262144 + continuationBits b * 4096 +
                    continuationBits c * 64 + continuationBits d)) 3
                else .malformed .invalidContinuation 2 := by
  have hpiece := firstPiece.eq_def a rest
  rw [if_neg (by grind), if_neg (by grind), if_neg (by grind), if_neg (by grind),
    if_pos hhigh] at hpiece
  exact hpiece

/-! ## Pieces -/

/-- Bytes of a character are taken as this character, whatever follows. -/
theorem IsEncoded.firstPiece (h : IsEncoded c (a :: tail)) (rest : Bytes) :
    firstPiece a (tail ++ rest) = .character c tail.length := by
  cases h with
  | one ha => exact firstPiece_one ha
  | two hlow hhigh hb => simp [firstPiece_two hlow hhigh, hb]
  | three hlow hhigh hb hc => simp [firstPiece_three hlow hhigh, hb, hc]
  | four hlow hhigh hb hc hd => simp [firstPiece_four hlow hhigh, hb, hc, hd]

/-- The input ends within a character whose last bytes are missing. -/
theorem IsEncoded.firstPiece_of_unfinished (h : IsEncoded c (a :: (tail ++ missing)))
    (hmissing : missing ≠ []) : Text.firstPiece a tail = .malformed .unexpectedEnd tail.length := by
  -- The bytes that are there are fewer than those of the shape, which leaves one case for each.
  have hlength : 0 < missing.length := List.length_pos_iff.2 hmissing
  generalize hrest : tail ++ missing = rest at h
  have hsum := congrArg List.length hrest
  rw [List.length_append] at hsum
  cases h with
  | one ha =>
    rw [List.length_nil] at hsum
    omega
  | two hlow hhigh hb =>
    rw [List.length_singleton] at hsum
    obtain rfl : tail = [] := List.length_eq_zero_iff.1 (by omega)
    simp [firstPiece_two hlow hhigh]
  | three hlow hhigh hb hc =>
    simp only [List.length_cons, List.length_nil] at hsum
    rw [firstPiece_three hlow hhigh]
    rcases tail with _ | ⟨second, _ | ⟨third, tail⟩⟩
    · rfl
    · obtain ⟨rfl, -⟩ := List.cons.inj hrest
      simp [hb]
    · simp only [List.length_cons] at hsum
      omega
  | four hlow hhigh hb hc hd =>
    simp only [List.length_cons, List.length_nil] at hsum
    rw [firstPiece_four hlow hhigh]
    rcases tail with _ | ⟨second, _ | ⟨third, _ | ⟨fourth, tail⟩⟩⟩
    · rfl
    · obtain ⟨rfl, -⟩ := List.cons.inj hrest
      simp [hb]
    · obtain ⟨rfl, hlater⟩ := List.cons.inj hrest
      obtain ⟨rfl, -⟩ := List.cons.inj hlater
      simp [hb, hc]
    · simp only [List.length_cons] at hsum
      omega

/-- What is taken as a character are its bytes. -/
theorem isEncoded_of_firstPiece (h : firstPiece a rest = .character c n) :
    ∃ tail more, rest = tail ++ more ∧ tail.length = n ∧ IsEncoded c (a :: tail) := by
  -- One branch for each shape gives a character; the others give malformed parts.
  revert h
  fun_cases firstPiece a rest
  case case1 ha =>
    intro h
    obtain ⟨rfl, rfl⟩ := Piece.character.inj h
    exact ⟨[], rest, rfl, rfl, .one ha⟩
  case case4 _ hlow hhigh second more hsecond =>
    intro h
    obtain ⟨rfl, rfl⟩ := Piece.character.inj h
    exact ⟨[second], more, rfl, rfl, .two (UInt8.not_lt.1 hlow) hhigh hsecond⟩
  case case9 _ _ hlow hhigh second hsecond third more hthird =>
    intro h
    obtain ⟨rfl, rfl⟩ := Piece.character.inj h
    simp only [Bool.not_eq_true', Bool.not_eq_false] at hsecond
    exact ⟨[second, third], more, rfl, rfl, .three (UInt8.not_lt.1 hlow) hhigh hsecond hthird⟩
  case case16 _ _ _ hlow hhigh second hsecond third hthird fourth more hfourth =>
    intro h
    obtain ⟨rfl, rfl⟩ := Piece.character.inj h
    simp only [Bool.not_eq_true', Bool.not_eq_false] at hsecond hthird
    exact ⟨[second, third, fourth], more, rfl, rfl,
      .four (UInt8.not_lt.1 hlow) hhigh hsecond hthird hfourth⟩
  all_goals
    intro h
    cases h

/-! ## The encoding -/

/-- The bytes of characters, one after another. -/
def encodeChars (cs : List Char) : Bytes :=
  cs.flatMap String.utf8EncodeChar

theorem isContinuation_iff {b : UInt8} :
    isContinuation b = true ↔ 128 ≤ b.toNat ∧ b.toNat < 192 := by
  have hlast : b.toNat ≤ 191 ↔ b.toNat < 192 := Nat.lt_succ_iff.symm
  simpa [isContinuation, UInt8.le_iff_toNat_le] using fun _ => hlast

theorem isSecond_iff {b : UInt8} :
    isSecond a b = true ↔ (128 ≤ b.toNat ∧ b.toNat < 192) ∧ (a.toNat = 224 → 160 ≤ b.toNat) ∧
      (a.toNat = 237 → b.toNat < 160) ∧ (a.toNat = 240 → 144 ≤ b.toNat) ∧
      (a.toNat = 244 → b.toNat < 144) := by
  have hnumber : ∀ first : UInt8, a = first ↔ a.toNat = first.toNat := fun _ =>
    UInt8.toNat_inj.symm
  simp only [isSecond, Bool.and_eq_true, isContinuation_iff, beq_iff_eq, hnumber]
  refine and_congr_right fun _ => ?_
  by_cases h224 : a.toNat = 224
  · simp [h224, UInt8.le_iff_toNat_le]
  by_cases h237 : a.toNat = 237
  · simp [h237, UInt8.lt_iff_toNat_lt]
  by_cases h240 : a.toNat = 240
  · simp [h240, UInt8.le_iff_toNat_le]
  by_cases h244 : a.toNat = 244
  · simp [h244, UInt8.lt_iff_toNat_lt]
  · simp [h224, h237, h240, h244]

/-- The bytes of a character have the shape for its number. -/
theorem isEncoded_utf8EncodeChar (c : Char) : IsEncoded c (String.utf8EncodeChar c) := by
  have hvalid : c.toNat < 55296 ∨ 57343 < c.toNat ∧ c.toNat < 1114112 := c.valid
  have hc : ∀ n, n = c.toNat → Char.ofNat n = c := fun n hn => by rw [hn, Char.ofNat_toNat]
  -- In each case the bounds on the number are those on the first two bytes.
  unfold String.utf8EncodeChar
  extract_lets v
  have hv : v = c.toNat := rfl
  clear_value v
  split
  case isTrue =>
    have hone := IsEncoded.one (a := .ofNat v) (by simp [UInt8.lt_iff_toNat_lt]; omega)
    rwa [hc _ (by simp [hv]; omega)] at hone
  split
  case isTrue =>
    have htwo := IsEncoded.two (a := .ofNat (v / 64 % 32 + 192)) (b := .ofNat (v % 64 + 128))
      (by simp [UInt8.le_iff_toNat_le]; omega) (by simp [UInt8.lt_iff_toNat_lt]; omega)
      (by simp [isContinuation_iff]; omega)
    rwa [hc _ (by simp [continuationBits]; omega)] at htwo
  split
  case isTrue =>
    have hthree := IsEncoded.three (a := .ofNat (v / 4096 % 16 + 224))
      (b := .ofNat (v / 64 % 64 + 128)) (c := .ofNat (v % 64 + 128))
      (by simp [UInt8.le_iff_toNat_le]; omega) (by simp [UInt8.lt_iff_toNat_lt]; omega)
      (by simp [isSecond_iff]; omega) (by simp [isContinuation_iff]; omega)
    rwa [hc _ (by simp [continuationBits]; omega)] at hthree
  case isFalse =>
    have hfour := IsEncoded.four (a := .ofNat (v / 262144 % 8 + 240))
      (b := .ofNat (v / 4096 % 64 + 128)) (c := .ofNat (v / 64 % 64 + 128))
      (d := .ofNat (v % 64 + 128))
      (by simp [UInt8.le_iff_toNat_le]; omega) (by simp [UInt8.lt_iff_toNat_lt]; omega)
      (by simp [isSecond_iff]; omega) (by simp [isContinuation_iff]; omega)
      (by simp [isContinuation_iff]; omega)
    rwa [hc _ (by simp [continuationBits]; omega)] at hfour

theorem utf8EncodeChar_ofNat (h : n < 55296 ∨ 57343 < n ∧ n < 1114112) :
    String.utf8EncodeChar (Char.ofNat n) =
      if n ≤ 127 then [.ofNat n]
      else if n ≤ 2047 then [.ofNat (n / 64 % 32 + 192), .ofNat (n % 64 + 128)]
      else if n ≤ 65535 then
        [.ofNat (n / 4096 % 16 + 224), .ofNat (n / 64 % 64 + 128), .ofNat (n % 64 + 128)]
      else
        [.ofNat (n / 262144 % 8 + 240), .ofNat (n / 4096 % 64 + 128), .ofNat (n / 64 % 64 + 128),
          .ofNat (n % 64 + 128)] := by
  have hnumber : (Char.ofNat n).val.toNat = n := by
    rw [Char.ofNat, dif_pos h]
    rfl
  unfold String.utf8EncodeChar
  rw [hnumber]

/-- Bytes of the shape for a character are its bytes. -/
theorem IsEncoded.eq_utf8EncodeChar (h : IsEncoded c bytes) : bytes = String.utf8EncodeChar c := by
  have hbyte : ∀ (b : UInt8) (n : Nat), b.toNat = n → b = .ofNat n := by
    rintro b n rfl
    exact UInt8.ofNat_toNat.symm
  cases h with
  | @one a ha =>
    replace ha : a.toNat < 128 := UInt8.lt_iff_toNat_lt.1 ha
    rw [utf8EncodeChar_ofNat (by omega), if_pos (by omega), UInt8.ofNat_toNat]
  | @two a b hlow hhigh hb =>
    replace hlow : 194 ≤ a.toNat := UInt8.le_iff_toNat_le.1 hlow
    replace hhigh : a.toNat < 224 := UInt8.lt_iff_toNat_lt.1 hhigh
    rw [isContinuation_iff] at hb
    simp only [continuationBits]
    rw [utf8EncodeChar_ofNat (by omega), if_neg (by omega), if_pos (by omega),
      ← hbyte a _ (by omega), ← hbyte b _ (by omega)]
  | @three a b c hlow hhigh hb hc =>
    replace hlow : 224 ≤ a.toNat := UInt8.le_iff_toNat_le.1 hlow
    replace hhigh : a.toNat < 240 := UInt8.lt_iff_toNat_lt.1 hhigh
    rw [isSecond_iff] at hb
    rw [isContinuation_iff] at hc
    simp only [continuationBits]
    rw [utf8EncodeChar_ofNat (by omega), if_neg (by omega), if_neg (by omega), if_pos (by omega),
      ← hbyte a _ (by omega), ← hbyte b _ (by omega), ← hbyte c _ (by omega)]
  | @four a b c d hlow hhigh hb hc hd =>
    replace hlow : 240 ≤ a.toNat := UInt8.le_iff_toNat_le.1 hlow
    replace hhigh : a.toNat < 245 := UInt8.lt_iff_toNat_lt.1 hhigh
    rw [isSecond_iff] at hb
    rw [isContinuation_iff] at hc hd
    simp only [continuationBits]
    rw [utf8EncodeChar_ofNat (by omega), if_neg (by omega), if_neg (by omega), if_neg (by omega),
      ← hbyte a _ (by omega), ← hbyte b _ (by omega), ← hbyte c _ (by omega),
      ← hbyte d _ (by omega)]

/-- The shapes are those of the bytes of characters. -/
theorem isEncoded_iff : IsEncoded c bytes ↔ bytes = String.utf8EncodeChar c := by
  constructor
  · exact IsEncoded.eq_utf8EncodeChar
  · rintro rfl
    exact isEncoded_utf8EncodeChar c

/-! ## Pieces of encoded characters -/

theorem IsEncoded.exists_eq_cons (h : IsEncoded c bytes) : ∃ a tail, bytes = a :: tail := by
  cases h <;> exact ⟨_, _, rfl⟩

theorem pieces_cons : pieces (a :: rest) =
    firstPiece a rest :: pieces (rest.drop ((firstPiece a rest).width - 1)) := by
  rw [pieces]

/-- A character in front of other bytes is their first piece. -/
theorem pieces_utf8EncodeChar_append (c : Char) (rest : Bytes) :
    ∃ n, n + 1 = (String.utf8EncodeChar c).length ∧
      pieces (String.utf8EncodeChar c ++ rest) = .character c n :: pieces rest := by
  obtain ⟨a, tail, hbytes⟩ := (isEncoded_utf8EncodeChar c).exists_eq_cons
  have hfirst := (isEncoded_iff.2 hbytes.symm).firstPiece rest
  refine ⟨tail.length, by rw [hbytes, List.length_cons], ?_⟩
  rw [hbytes, List.cons_append, pieces_cons, hfirst]
  simp [Piece.width]

/-- Bytes whose first piece is a character begin with its bytes. -/
theorem exists_of_pieces_eq_character_cons {later : List Piece}
    (h : pieces bytes = .character c n :: later) :
    ∃ more, bytes = String.utf8EncodeChar c ++ more ∧ n + 1 = (String.utf8EncodeChar c).length ∧
      later = pieces more := by
  cases bytes with
  | nil =>
    rw [pieces] at h
    cases h
  | cons a rest =>
    rw [pieces_cons] at h
    obtain ⟨hfirst, rfl⟩ := List.cons.inj h
    obtain ⟨tail, more, rfl, rfl, hencoded⟩ := isEncoded_of_firstPiece hfirst
    refine ⟨more, ?_, ?_, ?_⟩
    · rw [← isEncoded_iff.1 hencoded, List.cons_append]
    · rw [← isEncoded_iff.1 hencoded, List.length_cons]
    · simp [hfirst, Piece.width]

/-- A beginning of a character at the end of the bytes is an unfinished piece. -/
theorem pieces_of_unfinished (h : String.utf8EncodeChar c = a :: tail ++ missing)
    (hmissing : missing ≠ []) : pieces (a :: tail) = [.malformed .unexpectedEnd tail.length] := by
  have hfirst := (isEncoded_iff.2 h.symm).firstPiece_of_unfinished hmissing
  rw [pieces_cons, hfirst]
  simp [Piece.width, pieces]

/-! ## Strict decoding -/

theorem encodeChars_nil : encodeChars [] = [] := rfl

theorem encodeChars_cons (c : Char) (cs : List Char) :
    encodeChars (c :: cs) = String.utf8EncodeChar c ++ encodeChars cs := rfl

theorem encodeChars_append (cs ds : List Char) :
    encodeChars (cs ++ ds) = encodeChars cs ++ encodeChars ds :=
  List.flatMap_append

theorem toList_loop_eq_append (array : ByteArray) (i : Nat) (read : Bytes) :
    ByteArray.toList.loop array i read = read.reverse ++ array.data.toList.drop i := by
  induction i, read using ByteArray.toList.loop.induct array with
  | case1 i read hi ih =>
    have hlength : i < array.data.toList.length := by simpa using hi
    rw [ByteArray.toList.loop, if_pos hi, ih, List.drop_eq_getElem_cons hlength,
      List.reverse_cons, List.append_assoc, List.singleton_append]
    simp [ByteArray.get!, hi]
  | case2 i read hi =>
    rw [ByteArray.toList.loop, if_neg hi, List.drop_eq_nil_of_le (by simpa using hi),
      List.append_nil]

/-- The bytes of a text are those of its characters. -/
theorem encode_eq_encodeChars (s : String) : encode s = encodeChars s.toList := by
  have hbytes : s.toUTF8 = (encodeChars s.toList).toByteArray := by
    have htext := String.toByteArray_ofList (l := s.toList)
    rwa [String.ofList_toList] at htext
  rw [encode, hbytes, ByteArray.toList, toList_loop_eq_append, List.toList_data_toByteArray]
  rfl

/-- Strict decoding undoes encoding. -/
theorem decodeStrict_eq_ok_iff_encoded {cs : List Char} :
    decodeStrict bytes = .ok cs ↔ bytes = encodeChars cs := by
  rw [decodeStrict_eq_ok_iff]
  induction cs generalizing bytes with
  | nil =>
    cases bytes with
    | nil => simp [pieces, encodeChars_nil]
    | cons a rest => simp [pieces_cons, encodeChars_nil]
  | cons c cs ih =>
    constructor
    · rintro ⟨hall, hcs⟩
      obtain ⟨first, later, hpieces, hfirst, hlater⟩ := List.map_eq_cons_iff.1 hcs.symm
      rw [hpieces] at hall
      obtain ⟨d, n, rfl⟩ := hall first List.mem_cons_self
      obtain rfl : d = c := hfirst
      obtain ⟨more, rfl, -, rfl⟩ := exists_of_pieces_eq_character_cons hpieces
      rw [encodeChars_cons, ← ih.1 ⟨fun p hp => hall p (List.mem_cons_of_mem _ hp), hlater.symm⟩]
    · rintro rfl
      obtain ⟨n, -, hpieces⟩ := pieces_utf8EncodeChar_append c (encodeChars cs)
      obtain ⟨hall, hcs⟩ := ih.2 rfl
      rw [encodeChars_cons, hpieces]
      refine ⟨List.forall_mem_cons.2 ⟨⟨c, n, rfl⟩, hall⟩, ?_⟩
      rw [List.map_cons, ← hcs]
      rfl

end Text
end FeatureCensus
