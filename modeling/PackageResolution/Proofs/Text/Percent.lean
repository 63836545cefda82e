import PackageResolution.Proofs.Result
import PackageResolution.Proofs.Text.Cut
import PackageResolution.Proofs.Text.Utf8
import PackageResolution.Text.Percent

/-!
# Decoding and writing escapes

A text without a percent sign is decoded to itself, and a slash at the start of a text stays
there.  Where percent signs are escaped, every text is read back from what is written for it,
piece by piece between the slashes.
-/

namespace PackageResolution

theorem Utf8.mem_encodeChar_ascii {b : UInt8} (ascii : b.toNat < 0x80) {c : Char}
    (member : b ∈ String.utf8EncodeChar c) : b.toNat = c.toNat := by
  have range := toNat_range c
  have value : c.val.toNat = c.toNat := rfl
  simp only [String.utf8EncodeChar, value] at member
  by_cases one : c.toNat ≤ 0x7F
  · rw [if_pos one, List.mem_singleton] at member
    rw [member, toNat_ofNat_of_lt _ (by omega)]
  -- every byte of a longer character is outside ASCII
  have outside : 0x80 ≤ b.toNat := by
    rw [if_neg one] at member
    split at member
    · simp only [List.mem_cons, List.not_mem_nil, or_false] at member
      rcases member with rfl | rfl <;> rw [toNat_ofNat_of_lt _ (by omega)] <;> omega
    · split at member
      · simp only [List.mem_cons, List.not_mem_nil, or_false] at member
        rcases member with rfl | rfl | rfl <;> rw [toNat_ofNat_of_lt _ (by omega)] <;> omega
      · simp only [List.mem_cons, List.not_mem_nil, or_false] at member
        rcases member with rfl | rfl | rfl | rfl <;> rw [toNat_ofNat_of_lt _ (by omega)] <;>
          omega
  omega

namespace Percent

/-! ## Decoding -/

theorem decodeBytes_eq_self {bytes : List UInt8} (unescaped : 0x25 ∉ bytes) :
    decodeBytes bytes = bytes := by
  fun_induction decodeBytes bytes with
  | case1 => rfl
  | case2 | case3 => exact absurd List.mem_cons_self unescaped
  | case4 b rest other inductionHypothesis =>
      rw [inductionHypothesis fun member => unescaped (List.mem_cons_of_mem _ member)]

/-- A text without a percent sign is decoded to itself. -/
theorem decodeLossy_eq_self {text : String} (unescaped : '%' ∉ text.toList) :
    decodeLossy text = text := by
  have bytes : 0x25 ∉ Utf8.encode text := by
    intro member
    obtain ⟨c, present, among⟩ := List.mem_flatMap.mp member
    have same : '%'.toNat = c.toNat := Utf8.mem_encodeChar_ascii (by decide) among
    exact unescaped (Char.toNat_inj.mp same ▸ present)
  rw [decodeLossy, decodeBytes_eq_self bytes, Utf8.decodeLossy_encode]

/-- Decoding keeps a slash at the start. -/
theorem beginsWith_of_decode {text decoded : String} (begun : Text.beginsWith '/' text = true)
    (read : decode text = .ok decoded) : Text.beginsWith '/' decoded = true := by
  rcases Text.exists_of_beginsWith begun with ⟨rest, rfl⟩
  have slash : Utf8.pieces (decodeBytes (Utf8.encode (String.singleton '/' ++ rest))) =
      .char '/' :: Utf8.pieces (decodeBytes (Utf8.encode rest)) := by
    have bytes : Utf8.encode (String.singleton '/' ++ rest) = 0x2F :: Utf8.encode rest := by
      rw [Utf8.encode, String.toList_append, List.flatMap_append]
      rfl
    rw [bytes, decodeBytes, Utf8.pieces_one (by decide)]
    · rfl
    · simp
  rw [decode, Utf8.decode, slash, Utf8.characters] at read
  rcases Result.map_eq_ok_iff.mp read with ⟨chars, whole, rfl⟩
  rcases Result.map_eq_ok_iff.mp whole with ⟨others, -, rfl⟩
  rw [Text.beginsWith, String.toList_ofList]
  rfl

/-! ## Writing escapes -/

/-- The digits of a value below sixteen are read back. -/
theorem digitValue?_digit {value : Nat} (small : value < 16) :
    (digit value).toNat < 0x80 ∧ digit value ≠ '/' ∧
      digitValue? (UInt8.ofNat (digit value).toNat) = some value := by
  have all : ∀ value < 16, (digit value).toNat < 0x80 ∧ digit value ≠ '/' ∧
      digitValue? (UInt8.ofNat (digit value).toNat) = some value := by decide
  exact all value small

variable {escaped : UInt8 → Bool}

/-- What is written for a byte. -/
def spelled (escaped : UInt8 → Bool) (b : UInt8) : List Char :=
  if escaped b || 0x80 ≤ b then escape b else [Char.ofNat b.toNat]

theorem toList_encodeWhere (escaped : UInt8 → Bool) (text : String) :
    (encodeWhere escaped text).toList = (Utf8.encode text).flatMap (spelled escaped) := by
  rw [encodeWhere, String.toList_ofList]
  rfl

theorem halves_lt (b : UInt8) : b.toNat / 16 < 16 ∧ b.toNat % 16 < 16 := by
  have small := b.toNat_lt
  omega

/-- The character of a byte that is not escaped. -/
theorem toNat_ofNat_of_not_escaped {b : UInt8} (plain : ¬ (escaped b || 0x80 ≤ b) = true) :
    (Char.ofNat b.toNat).toNat = b.toNat ∧ b.toNat < 0x80 := by
  have small : b.toNat < 0x80 := by
    simp only [Bool.or_eq_true, decide_eq_true_eq, not_or, UInt8.le_iff_toNat_le,
      UInt8.reduceToNat] at plain
    omega
  have valid : b.toNat.isValidChar := .inl (by omega)
  rw [Char.ofNat, dif_pos valid]
  exact ⟨rfl, small⟩

/-- What is written for a byte is read as the byte, whatever follows. -/
theorem decodeBytes_spelled (percent : escaped 0x25 = true) (b : UInt8) (rest : List UInt8) :
    decodeBytes ((spelled escaped b).flatMap String.utf8EncodeChar ++ rest) =
      b :: decodeBytes rest := by
  unfold spelled
  split
  · obtain ⟨highSmall, lowSmall⟩ := halves_lt b
    obtain ⟨highAscii, -, high⟩ := digitValue?_digit highSmall
    obtain ⟨lowAscii, -, low⟩ := digitValue?_digit lowSmall
    have mark : String.utf8EncodeChar '%' = [0x25] := by decide
    have whole : b.toNat / 16 * 16 + b.toNat % 16 = b.toNat := by omega
    simp only [escape, List.flatMap_cons, List.flatMap_nil, mark,
      Utf8.encodeChar_of_ascii highAscii, Utf8.encodeChar_of_ascii lowAscii, List.append_nil,
      List.nil_append, List.cons_append, decodeBytes, high, low, whole, UInt8.ofNat_toNat]
  · rename_i plain
    obtain ⟨value, ascii⟩ := toNat_ofNat_of_not_escaped plain
    have other : b ≠ 0x25 := by
      rintro rfl
      exact plain (by rw [percent, Bool.true_or])
    have single := Utf8.encodeChar_of_ascii (lt_of_eq_of_lt value ascii)
    rw [List.flatMap_singleton, single, value, UInt8.ofNat_toNat, List.singleton_append,
      decodeBytes]
    intro high low more same
    exact absurd same other

/-- A text is read back from what is written for it, if percent signs are escaped. -/
theorem decode_encodeWhere (percent : escaped 0x25 = true) (text : String) :
    decode (encodeWhere escaped text) = .ok text := by
  have bytes : decodeBytes (Utf8.encode (encodeWhere escaped text)) = Utf8.encode text := by
    rw [Utf8.encode, toList_encodeWhere]
    induction Utf8.encode text with
    | nil => rfl
    | cons b rest inductionHypothesis =>
        rw [List.flatMap_cons, List.flatMap_append, decodeBytes_spelled percent,
          inductionHypothesis]
  rw [decode, bytes, Utf8.decode_encode]

theorem encodeWhere_injective (percent : escaped 0x25 = true) :
    Function.Injective (encodeWhere escaped) := by
  intro first second same
  have read := decode_encodeWhere percent first
  rw [same, decode_encodeWhere percent second] at read
  exact (Except.ok.inj read).symm

theorem encodeWhere_append (before after : String) :
    encodeWhere escaped (before ++ after) =
      encodeWhere escaped before ++ encodeWhere escaped after := by
  rw [encodeWhere, Utf8.encode_append, List.flatMap_append, String.ofList_append]
  rfl

/-- Pieces are written one by one, if the slashes between them are kept. -/
theorem encodeWhere_intercalate (slash : encodeWhere escaped "/" = "/") (pieces : List String) :
    encodeWhere escaped ("/".intercalate pieces) =
      "/".intercalate (pieces.map (encodeWhere escaped)) := by
  induction pieces with
  | nil => rfl
  | cons piece pieces inductionHypothesis =>
      by_cases last : pieces = []
      · subst last
        rw [List.map_singleton, String.intercalate_singleton, String.intercalate_singleton]
      · rw [List.map_cons, String.intercalate_cons_of_ne_nil last,
          String.intercalate_cons_of_ne_nil (by simpa using last), encodeWhere_append,
          encodeWhere_append, slash, inductionHypothesis]

/-- What is written: percent signs and digits for the bytes that are escaped, and every other byte
as the character that it is. -/
theorem mem_encodeWhere {text : String} {c : Char}
    (member : c ∈ (encodeWhere escaped text).toList) :
    c = '%' ∨ (∃ value, value < 16 ∧ c = digit value) ∨
      ∃ b ∈ Utf8.encode text, ¬ (escaped b || 0x80 ≤ b) = true ∧ c = Char.ofNat b.toNat := by
  rw [toList_encodeWhere, List.mem_flatMap] at member
  obtain ⟨b, among, member⟩ := member
  unfold spelled at member
  split at member
  · obtain ⟨highSmall, lowSmall⟩ := halves_lt b
    simp only [escape, List.mem_cons, List.not_mem_nil, or_false] at member
    rcases member with mark | high | low
    · exact .inl mark
    · exact .inr (.inl ⟨_, highSmall, high⟩)
    · exact .inr (.inl ⟨_, lowSmall, low⟩)
  · rename_i plain
    exact .inr (.inr ⟨b, among, plain, List.mem_singleton.mp member⟩)

/-- No slash is written for another character. -/
theorem slash_not_mem_encodeWhere {text : String} (closed : '/' ∉ text.toList) :
    '/' ∉ (encodeWhere escaped text).toList := by
  intro member
  rcases mem_encodeWhere member with mark | ⟨value, small, same⟩ | ⟨b, among, plain, same⟩
  · exact absurd mark (by decide)
  · exact (digitValue?_digit small).2.1 same.symm
  · obtain ⟨value, ascii⟩ := toNat_ofNat_of_not_escaped plain
    obtain ⟨c, present, held⟩ := List.mem_flatMap.mp among
    have slash : c = '/' := by
      apply Char.toNat_inj.mp
      rw [← Utf8.mem_encodeChar_ascii ascii held, ← value, ← same]
    exact closed (slash ▸ present)

end Percent

end PackageResolution
