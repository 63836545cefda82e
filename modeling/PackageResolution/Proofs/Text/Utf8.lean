import PackageResolution.Text.Utf8

/-!
# Reading back what was written as UTF-8

The bytes of a character are read as that character, whatever follows them, so the bytes
of a text hold no broken piece and are read as the text.
-/

namespace PackageResolution.Utf8

/-! ## Complete characters -/

theorem pieces_one {a : UInt8} (ascii : a.toNat < 0x80) (rest : List UInt8) :
    pieces (a :: rest) = .char (assemble a.toNat []) :: pieces rest := by
  have early : a < 0x80 := UInt8.lt_iff_toNat_lt.mpr ascii
  rw [pieces.eq_def]
  simp only [early, if_true]

theorem pieces_two {a b : UInt8} (first : 0xC2 ≤ a.toNat ∧ a.toNat ≤ 0xDF)
    (second : isContinuation b = true) (rest : List UInt8) :
    pieces (a :: b :: rest) = .char (assemble (a.toNat % 32) [b]) :: pieces rest := by
  have late : ¬ a < 0x80 := by
    simp only [UInt8.lt_iff_toNat_lt, UInt8.reduceToNat]
    omega
  have lead : (decide (0xC2 ≤ a) && decide (a ≤ 0xDF)) = true := by
    simpa only [Bool.and_eq_true, decide_eq_true_eq, UInt8.le_iff_toNat_le,
      UInt8.reduceToNat] using first
  rw [pieces.eq_def]
  simp only [late, lead, second, if_true, if_false]

theorem pieces_three {a b c : UInt8} (first : 0xE0 ≤ a.toNat ∧ a.toNat ≤ 0xEF)
    (second : isSecondOfThree a b = true) (third : isContinuation c = true)
    (rest : List UInt8) :
    pieces (a :: b :: c :: rest) =
      .char (assemble (a.toNat % 16) [b, c]) :: pieces rest := by
  have late : ¬ a < 0x80 := by
    simp only [UInt8.lt_iff_toNat_lt, UInt8.reduceToNat]
    omega
  have later : ¬ a ≤ 0xDF := by
    simp only [UInt8.le_iff_toNat_le, UInt8.reduceToNat]
    omega
  have lead : (decide (0xE0 ≤ a) && decide (a ≤ 0xEF)) = true := by
    simpa only [Bool.and_eq_true, decide_eq_true_eq, UInt8.le_iff_toNat_le,
      UInt8.reduceToNat] using first
  rw [pieces.eq_def]
  simp only [late, later, lead, second, third, if_true, if_false, decide_false, Bool.and_false,
    Bool.false_eq_true]

theorem pieces_four {a b c d : UInt8} (first : 0xF0 ≤ a.toNat ∧ a.toNat ≤ 0xF4)
    (second : isSecondOfFour a b = true) (third : isContinuation c = true)
    (fourth : isContinuation d = true) (rest : List UInt8) :
    pieces (a :: b :: c :: d :: rest) =
      .char (assemble (a.toNat % 8) [b, c, d]) :: pieces rest := by
  have late : ¬ a < 0x80 := by
    simp only [UInt8.lt_iff_toNat_lt, UInt8.reduceToNat]
    omega
  have later : ¬ a ≤ 0xDF ∧ ¬ a ≤ 0xEF := by
    simp only [UInt8.le_iff_toNat_le, UInt8.reduceToNat]
    omega
  have lead : (decide (0xF0 ≤ a) && decide (a ≤ 0xF4)) = true := by
    simpa only [Bool.and_eq_true, decide_eq_true_eq, UInt8.le_iff_toNat_le,
      UInt8.reduceToNat] using first
  rw [pieces.eq_def]
  simp only [late, later.1, later.2, lead, second, third, fourth, if_true, if_false,
    decide_false, Bool.and_false, Bool.false_eq_true]

/-! ## The round trip -/

theorem toNat_ofNat_of_lt (value : Nat) (small : value < 256) :
    (UInt8.ofNat value).toNat = value := by
  rw [UInt8.toNat_ofNat']
  exact Nat.mod_eq_of_lt small

theorem isContinuation_iff {b : UInt8} :
    isContinuation b = true ↔ 0x80 ≤ b.toNat ∧ b.toNat ≤ 0xBF := by
  simp only [isContinuation, Bool.and_eq_true, decide_eq_true_eq, UInt8.le_iff_toNat_le,
    UInt8.reduceToNat]

theorem isSecondOfThree_iff {a b : UInt8} : isSecondOfThree a b = true ↔
    0x80 ≤ b.toNat ∧ b.toNat ≤ 0xBF ∧ (a.toNat = 0xE0 → 0xA0 ≤ b.toNat) ∧
      (a.toNat = 0xED → b.toNat ≤ 0x9F) := by
  simp only [isSecondOfThree, isContinuation, apply_ite (· = true), Bool.and_eq_true,
    decide_eq_true_eq, UInt8.le_iff_toNat_le, ← UInt8.toNat_inj, UInt8.reduceToNat]
  split
  · omega
  · split <;> omega

theorem isSecondOfFour_iff {a b : UInt8} : isSecondOfFour a b = true ↔
    0x80 ≤ b.toNat ∧ b.toNat ≤ 0xBF ∧ (a.toNat = 0xF0 → 0x90 ≤ b.toNat) ∧
      (a.toNat = 0xF4 → b.toNat ≤ 0x8F) := by
  simp only [isSecondOfFour, isContinuation, apply_ite (· = true), Bool.and_eq_true,
    decide_eq_true_eq, UInt8.le_iff_toNat_le, ← UInt8.toNat_inj, UInt8.reduceToNat]
  split
  · omega
  · split <;> omega

/-- The numbers of characters: below the last code point and outside the surrogates. -/
theorem toNat_range (c : Char) :
    c.toNat < 0x110000 ∧ (c.toNat < 0xD800 ∨ 0xE000 ≤ c.toNat) := by
  rcases c.valid with low | ⟨high, low⟩
  · exact ⟨Nat.lt_trans low (by decide), .inl low⟩
  · exact ⟨low, .inr high⟩

/-- The bytes of a character are read as the character, whatever follows. -/
theorem pieces_encodeChar (c : Char) (rest : List UInt8) :
    pieces (String.utf8EncodeChar c ++ rest) = .char c :: pieces rest := by
  obtain ⟨bound, surrogate⟩ := toNat_range c
  have whole : Char.ofNat c.toNat = c := Char.ofNat_toNat c
  have value : c.val.toNat = c.toNat := rfl
  simp only [String.utf8EncodeChar, value]
  by_cases one : c.toNat ≤ 0x7F
  · have first := toNat_ofNat_of_lt c.toNat (by omega)
    rw [if_pos one, List.singleton_append, pieces_one (by omega), first]
    simp only [assemble, List.foldl_nil, whole]
  rw [if_neg one]
  by_cases two : c.toNat ≤ 0x7FF
  · have first := toNat_ofNat_of_lt (c.toNat / 64 % 0x20 + 0xC0) (by omega)
    have second := toNat_ofNat_of_lt (c.toNat % 0x40 + 0x80) (by omega)
    rw [if_pos two, List.cons_append, List.cons_append, List.nil_append,
      pieces_two (by omega) (isContinuation_iff.mpr (by omega))]
    have joined : assemble ((c.toNat / 64 % 0x20 + 0xC0) % 32)
        [UInt8.ofNat (c.toNat % 0x40 + 0x80)] = c := by
      rw [← whole, assemble]
      congr 1
      simp only [List.foldl_cons, List.foldl_nil, second, whole]
      omega
    rw [first, joined]
  rw [if_neg two]
  by_cases three : c.toNat ≤ 0xFFFF
  · have first := toNat_ofNat_of_lt (c.toNat / 4096 % 0x10 + 0xE0) (by omega)
    have second := toNat_ofNat_of_lt (c.toNat / 64 % 0x40 + 0x80) (by omega)
    have third := toNat_ofNat_of_lt (c.toNat % 0x40 + 0x80) (by omega)
    rw [if_pos three, List.cons_append, List.cons_append, List.cons_append, List.nil_append,
      pieces_three (by omega) (isSecondOfThree_iff.mpr (by omega))
        (isContinuation_iff.mpr (by omega))]
    have joined : assemble ((c.toNat / 4096 % 0x10 + 0xE0) % 16)
        [UInt8.ofNat (c.toNat / 64 % 0x40 + 0x80), UInt8.ofNat (c.toNat % 0x40 + 0x80)] =
          c := by
      rw [← whole, assemble]
      congr 1
      simp only [List.foldl_cons, List.foldl_nil, second, third, whole]
      omega
    rw [first, joined]
  rw [if_neg three]
  have first := toNat_ofNat_of_lt (c.toNat / 262144 % 0x08 + 0xF0) (by omega)
  have second := toNat_ofNat_of_lt (c.toNat / 4096 % 0x40 + 0x80) (by omega)
  have third := toNat_ofNat_of_lt (c.toNat / 64 % 0x40 + 0x80) (by omega)
  have fourth := toNat_ofNat_of_lt (c.toNat % 0x40 + 0x80) (by omega)
  rw [List.cons_append, List.cons_append, List.cons_append, List.cons_append, List.nil_append,
    pieces_four (by omega) (isSecondOfFour_iff.mpr (by omega))
      (isContinuation_iff.mpr (by omega)) (isContinuation_iff.mpr (by omega))]
  have joined : assemble ((c.toNat / 262144 % 0x08 + 0xF0) % 8)
      [UInt8.ofNat (c.toNat / 4096 % 0x40 + 0x80), UInt8.ofNat (c.toNat / 64 % 0x40 + 0x80),
        UInt8.ofNat (c.toNat % 0x40 + 0x80)] = c := by
    rw [← whole, assemble]
    congr 1
    simp only [List.foldl_cons, List.foldl_nil, second, third, fourth, whole]
    omega
  rw [first, joined]

/-- The bytes of a text are read as its characters. -/
theorem pieces_encode (text : String) : pieces (encode text) = text.toList.map .char := by
  rw [encode]
  induction text.toList with
  | nil => rw [List.flatMap_nil, List.map_nil, pieces.eq_def]
  | cons c rest inductionHypothesis =>
      rw [List.flatMap_cons, pieces_encodeChar, inductionHypothesis, List.map_cons]

/-- The lenient reading gives back a text from its bytes. -/
theorem decodeLossy_encode (text : String) : decodeLossy (encode text) = text := by
  rw [decodeLossy, pieces_encode, List.map_map]
  exact (congrArg String.ofList (List.map_id _)).trans String.ofList_toList

theorem characters_map_char (index : Nat) (chars : List Char) :
    characters index (chars.map .char) = .ok chars := by
  induction chars generalizing index with
  | nil => rfl
  | cons c rest inductionHypothesis =>
      rw [List.map_cons, characters, inductionHypothesis]
      rfl

/-- The strict reading gives back a text from its bytes. -/
theorem decode_encode (text : String) : decode (encode text) = .ok text := by
  rw [decode, pieces_encode, characters_map_char]
  exact congrArg Except.ok String.ofList_toList

theorem encode_append (before after : String) :
    encode (before ++ after) = encode before ++ encode after := by
  rw [encode, String.toList_append, List.flatMap_append, encode, encode]

/-- A character of ASCII is one byte. -/
theorem encodeChar_of_ascii {c : Char} (ascii : c.toNat < 0x80) :
    String.utf8EncodeChar c = [UInt8.ofNat c.toNat] := by
  have small : c.val.toNat ≤ 0x7F := Nat.le_of_lt_succ ascii
  rw [String.utf8EncodeChar, if_pos small]
  rfl

end PackageResolution.Utf8
