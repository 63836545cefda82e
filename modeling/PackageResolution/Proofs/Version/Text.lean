import PackageResolution.Proofs.Result
import PackageResolution.Proofs.Text.Cut
import PackageResolution.Version.Parse

/-!
# Reading back the text of a version

The readers of numbers and of identifiers take exactly what was written, whatever follows
it, as long as what follows cannot continue it, and whatever they take is written as they
write it.  So a text is read as a version exactly if it is the text of the version.
-/

namespace PackageResolution

/-! ## Numbers -/

theorem Text.valueOf_toDigits (value : Nat) : valueOf (Nat.toDigits 10 value) = value := by
  have same : valueOf (Nat.toDigits 10 value) =
      Nat.ofDigitChars 10 (Nat.toDigits 10 value) 0 := by
    simp only [valueOf, Nat.ofDigitChars, Nat.mul_comm]
  rw [same, Nat.ofDigitChars_ten_toDigits]

/-- A number that is not zero is not written with a leading zero. -/
theorem Text.head?_toDigits_ne {value : Nat} (positive : 0 < value) :
    (Nat.toDigits 10 value).head? ≠ some '0' := by
  induction value using Nat.strongRecOn with
  | ind value inductionHypothesis =>
      rw [Nat.toDigits_eq_if (by decide)]
      split
      · rename_i small
        have digits : ∀ digit < 10, 0 < digit → [digit.digitChar].head? ≠ some '0' := by decide
        exact digits value small positive
      · rename_i large
        have start := inductionHypothesis (value / 10) (by omega) (by omega)
        obtain ⟨first, more, written⟩ :=
          List.exists_cons_of_ne_nil (Nat.toDigits_ne_nil (n := value / 10) (b := 10))
        rw [written] at start ⊢
        exact start

theorem Text.eq_nil_of_toDigits {value : Nat} {more : List Char}
    (written : Nat.toDigits 10 value = '0' :: more) : more = [] := by
  cases value with
  | zero =>
      rw [Nat.toDigits_zero] at written
      exact (List.cons.inj written).2.symm
  | succ value =>
      have first := head?_toDigits_ne (Nat.succ_pos value)
      rw [written] at first
      exact absurd rfl first

theorem Text.valueOf_concat (digits : List Char) (last : Char) :
    valueOf (digits ++ [last]) = valueOf digits * 10 + (last.toNat - '0'.toNat) := by
  rw [valueOf, List.foldl_append, List.foldl_cons, List.foldl_nil, ← valueOf]

/-- The digit of a decimal character. -/
theorem Text.digitChar_of_isDigit {c : Char} (digit : c.isDigit = true) :
    c.toNat - '0'.toNat < 10 ∧ Nat.digitChar (c.toNat - '0'.toNat) = c := by
  have bounds : 48 ≤ c.toNat ∧ c.toNat ≤ 57 := by
    rw [Char.isDigit, Bool.and_eq_true, decide_eq_true_eq, decide_eq_true_eq, ge_iff_le,
      UInt32.le_iff_toNat_le, UInt32.le_iff_toNat_le] at digit
    exact digit
  have zero : '0'.toNat = 48 := rfl
  constructor
  · omega
  · apply Char.toNat_inj.mp
    rw [Nat.toNat_digitChar_of_lt_ten (by omega)]
    omega

/-- Digits without a leading zero are those of their value. -/
theorem Text.toDigits_valueOf {digits : List Char} (filled : digits ≠ [])
    (all : ∀ c ∈ digits, c.isDigit = true)
    (plain : ¬ (digits.head? = some '0' ∧ digits.tail ≠ [])) :
    Nat.toDigits 10 (valueOf digits) = digits := by
  induction digits using List.reverseRecOn with
  | nil => exact absurd rfl filled
  | append_singleton digits last inductionHypothesis =>
      rw [List.forall_mem_append, List.forall_mem_singleton] at all
      obtain ⟨small, written⟩ := digitChar_of_isDigit all.2
      rw [valueOf_concat]
      cases digits with
      | nil =>
          have none : valueOf [] = 0 := rfl
          rw [none, Nat.zero_mul, Nat.zero_add, Nat.toDigits_of_lt_base small, written]
          rfl
      | cons first more =>
          have begun : first ≠ '0' := by
            rintro rfl
            exact plain ⟨rfl, by simp⟩
          have start := inductionHypothesis (by simp) all.1 (by simp [begun])
          have positive : 0 < valueOf (first :: more) := by
            by_contra none
            rw [Nat.eq_zero_of_not_pos none, Nat.toDigits_zero] at start
            exact begun (List.cons.inj start).1.symm
          rw [Nat.mul_comm, ← Nat.toDigits_append_toDigits (by decide) positive small, start,
            Nat.toDigits_of_lt_base small, written]

open Text (EndsRun takeWhile_append_of_endsRun dropWhile_append_of_endsRun endsRun_nil)

namespace Version

theorem number_toDigits {value : Nat} (bounded : value < limit) (part : Part)
    {rest : List Char} (ends : EndsRun Char.isDigit rest) :
    number part (Nat.toDigits 10 value ++ rest) = .ok (⟨value, bounded⟩, rest) := by
  have digits : ∀ c ∈ Nat.toDigits 10 value, c.isDigit = true :=
    fun c member => Nat.isDigit_of_mem_toDigits (by decide) (by decide) member
  unfold number
  simp only [takeWhile_append_of_endsRun digits ends, dropWhile_append_of_endsRun digits ends]
  split
  · rename_i empty
    exact absurd empty Nat.toDigits_ne_nil
  · rename_i first more written
    have plain : ¬ (first = '0' ∧ more ≠ []) := by
      rintro ⟨rfl, long⟩
      exact long (Text.eq_nil_of_toDigits written)
    simp only [if_neg plain, Text.valueOf_toDigits, dif_neg (Nat.not_le_of_lt bounded)]

theorem number_eq_ok {part : Part} {chars rest : List Char} {value : { value : Nat // value < limit }}
    (read : number part chars = .ok (value, rest)) : chars = Nat.toDigits 10 value.1 ++ rest := by
  unfold number at read
  simp only at read
  split at read
  · split at read <;> cases read
  · rename_i first more digits
    split at read
    · cases read
    · rename_i plain
      split at read
      · cases read
      · obtain ⟨rfl, rfl⟩ := Prod.mk.inj (Except.ok.inj read)
        have all : ∀ c ∈ chars.takeWhile Char.isDigit, c.isDigit = true :=
          List.all_eq_true.mp List.all_takeWhile
        have written := Text.toDigits_valueOf (by rw [digits]; simp) all
          (by rw [digits]; simpa using plain)
        rw [written, List.takeWhile_append_dropWhile]

theorem dot_eq_ok {part : Part} {chars rest : List Char} (read : dot part chars = .ok rest) :
    chars = '.' :: rest := by
  unfold dot at read
  split at read
  · rw [Except.ok.inj read]
  · cases read
  · cases read

/-! ## Identifiers -/

theorem identifiers_append {part : Part} {run rest : List Char}
    (valid : isPart part run = true) (ends : EndsRun isPartChar rest) :
    identifiers part (run ++ rest) = .ok (⟨run, valid⟩, rest) := by
  have parts := valid
  simp only [isPart, Bool.and_eq_true, bne_iff_ne, ne_eq, List.all_eq_true,
    Option.isNone_iff_eq_none] at parts
  obtain ⟨⟨filled, plain⟩, flawless⟩ := parts
  unfold identifiers
  simp only [takeWhile_append_of_endsRun plain ends, dropWhile_append_of_endsRun plain ends]
  rw [dif_neg filled]
  split
  · rename_i fault found
    rw [takeWhile_append_of_endsRun plain ends, flawless] at found
    cases found
  · rfl

/-- The written form of an optional part. -/
def optionalText (sign : Char) (run : List Char) : List Char :=
  if run = [] then [] else sign :: run

theorem optionalPart_append {part : Part} {sign : Char} {run rest : List Char}
    (valid : run = [] ∨ isPart part run = true) (unsigned : rest.head? ≠ some sign)
    (ends : EndsRun isPartChar rest) :
    optionalPart part sign (optionalText sign run ++ rest) = .ok (⟨run, valid⟩, rest) := by
  by_cases empty : run = []
  · subst empty
    cases rest with
    | nil => rfl
    | cons c rest =>
        have other : c ≠ sign := fun same => unsigned (congrArg some same)
        simp [optionalText, optionalPart, other]
  · have filled := valid.resolve_left empty
    simp only [optionalText, if_neg empty, List.cons_append, optionalPart, if_true,
      identifiers_append filled ends]
    rfl

theorem identifiers_eq_ok {part : Part} {chars rest : List Char}
    {run : { run : List Char // isPart part run = true }}
    (read : identifiers part chars = .ok (run, rest)) : chars = run.1 ++ rest := by
  unfold identifiers at read
  simp only at read
  split at read
  · cases read
  · split at read
    · cases read
    · obtain ⟨rfl, rfl⟩ := Prod.mk.inj (Except.ok.inj read)
      exact List.takeWhile_append_dropWhile.symm

theorem optionalPart_eq_ok {part : Part} {sign : Char} {chars rest : List Char}
    {run : { run : List Char // run = [] ∨ isPart part run = true }}
    (read : optionalPart part sign chars = .ok (run, rest)) :
    chars = optionalText sign run.1 ++ rest := by
  unfold optionalPart at read
  split at read
  · obtain ⟨rfl, rfl⟩ := Prod.mk.inj (Except.ok.inj read)
    rfl
  · split at read
    · rename_i same
      obtain ⟨⟨found, after⟩, named, whole⟩ := Result.map_eq_ok_iff.mp read
      obtain ⟨rfl, rfl⟩ := Prod.mk.inj whole
      have filled : found.1 ≠ [] := by
        have valid := found.2
        simp only [isPart, Bool.and_eq_true, bne_iff_ne] at valid
        exact valid.1.1
      rw [optionalText, if_neg filled, identifiers_eq_ok named, same, List.cons_append]
    · obtain ⟨rfl, rfl⟩ := Prod.mk.inj (Except.ok.inj read)
      rfl

/-! ## Versions -/

theorem text_toList (version : Version) :
    version.text.toList =
      Nat.toDigits 10 version.major ++ '.' :: (Nat.toDigits 10 version.minor ++
        '.' :: (Nat.toDigits 10 version.patch ++
          (optionalText '-' version.preRelease.toList ++
            (optionalText '+' version.build.toList ++ [])))) := by
  have part (sign : String) (c : Char) (single : sign.toList = [c]) (run : String) :
      (if run = "" then "" else sign ++ run).toList = optionalText c run.toList := by
    unfold optionalText
    by_cases empty : run = ""
    · rw [if_pos empty, if_pos (String.toList_eq_nil_iff.mpr empty)]
      rfl
    · rw [if_neg empty, if_neg (fun chars => empty (String.toList_eq_nil_iff.mp chars)),
        String.toList_append, single]
      rfl
  have first := part "-" '-' rfl version.preRelease
  have second := part "+" '+' rfl version.build
  have mark : (toString ".").toList = ['.'] := rfl
  simp [text, first, second, mark]

theorem endsRun_optionalText {within : Char → Bool} {sign : Char}
    (outside : within sign = false) {run rest : List Char} (ends : EndsRun within rest) :
    EndsRun within (optionalText sign run ++ rest) := by
  unfold optionalText
  split
  · exact ends
  · intro c first
    rw [List.cons_append, List.head?_cons, Option.some.injEq] at first
    exact first ▸ outside

/-- The text of a version is read as the version. -/
theorem parse_text (version : Version) : parse version.text = .ok version := by
  rw [parse, text_toList]
  have dotted (rest : List Char) : EndsRun Char.isDigit ('.' :: rest) :=
    Text.endsRun_cons (by decide) rest
  have afterPatch : EndsRun Char.isDigit
      (optionalText '-' version.preRelease.toList ++
        (optionalText '+' version.build.toList ++ [])) :=
    endsRun_optionalText (by decide) (endsRun_optionalText (by decide) (endsRun_nil _))
  have afterPreRelease : EndsRun isPartChar (optionalText '+' version.build.toList ++ []) :=
    endsRun_optionalText (by decide) (endsRun_nil _)
  have unsigned : (optionalText '+' version.build.toList ++ []).head? ≠ some '-' := by
    unfold optionalText
    split <;> simp
  have major := number_toDigits version.bounded.1 .major
    (dotted (Nat.toDigits 10 version.minor ++ '.' :: (Nat.toDigits 10 version.patch ++
      (optionalText '-' version.preRelease.toList ++
        (optionalText '+' version.build.toList ++ [])))))
  have minor := number_toDigits version.bounded.2.1 .minor
    (dotted (Nat.toDigits 10 version.patch ++
      (optionalText '-' version.preRelease.toList ++
        (optionalText '+' version.build.toList ++ []))))
  have patch := number_toDigits version.bounded.2.2 .patch afterPatch
  have preRelease := optionalPart_append version.preRelease_valid unsigned afterPreRelease
  have unsignedEnd : ([] : List Char).head? ≠ some '+' := by simp
  have build := optionalPart_append version.build_valid unsignedEnd (endsRun_nil isPartChar)
  unfold parseChars
  rw [if_neg (by simp [Nat.toDigits_ne_nil])]
  simp only [major, minor, patch, preRelease, build, dot, bind, Except.bind, pure, Except.pure,
    String.ofList_toList]

/-- What is read as a version is its text. -/
theorem text_of_parse {text : String} {version : Version} (read : parse text = .ok version) :
    version.text = text := by
  apply String.toList_injective
  rw [text_toList]
  unfold parse parseChars at read
  split at read
  · cases read
  rcases Result.bind_eq_ok_iff.mp read with ⟨⟨⟨major, _⟩, _⟩, majorRead, read⟩
  rcases Result.bind_eq_ok_iff.mp read with ⟨_, firstDot, read⟩
  rcases Result.bind_eq_ok_iff.mp read with ⟨⟨⟨minor, _⟩, _⟩, minorRead, read⟩
  rcases Result.bind_eq_ok_iff.mp read with ⟨_, secondDot, read⟩
  rcases Result.bind_eq_ok_iff.mp read with ⟨⟨⟨patch, _⟩, _⟩, patchRead, read⟩
  rcases Result.bind_eq_ok_iff.mp read with ⟨⟨⟨preRelease, _⟩, _⟩, preReleaseRead, read⟩
  rcases Result.bind_eq_ok_iff.mp read with ⟨⟨⟨build, _⟩, rest⟩, buildRead, read⟩
  cases rest with
  | cons c more => cases read
  | nil =>
      obtain rfl := Except.ok.inj read
      rw [number_eq_ok majorRead, dot_eq_ok firstDot, number_eq_ok minorRead,
        dot_eq_ok secondDot, number_eq_ok patchRead, optionalPart_eq_ok preReleaseRead,
        optionalPart_eq_ok buildRead]
      simp only [String.toList_ofList]

/-- What is read as a version is exactly the text of the version. -/
theorem parse_eq_ok_iff {text : String} {version : Version} :
    parse text = .ok version ↔ version.text = text := by
  constructor
  · exact text_of_parse
  · rintro rfl
    exact parse_text version

theorem text_injective {first second : Version} (same : first.text = second.text) :
    first = second := by
  have read := parse_text first
  rw [same, parse_text second] at read
  exact (Except.ok.inj read).symm

end Version

end PackageResolution
