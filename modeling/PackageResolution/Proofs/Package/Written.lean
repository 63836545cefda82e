import PackageResolution.Proofs.Package.Containment
import PackageResolution.Proofs.Package.Identifier
import PackageResolution.Proofs.Path.Names
import PackageResolution.Proofs.Uri.Written

/-!
# Which texts are package identifiers

A text is read as a package exactly if it is written from parts in which no mark of an
identifier is mistaken for another: the parts of the package that is read.  What is read as
an asset of a package is written again as an asset that is read as the same one.
-/

namespace PackageResolution

theorem Checksum.parse_eq_ok_iff {text : String} {checksum : Checksum} :
    parse text = .ok checksum ↔ checksum.sha256 ≠ "" ∧ checksum.text = text := by
  constructor
  · intro read
    unfold parse at read
    split at read
    · rename_i digits found
      split at read
      · cases read
      · rename_i filled
        obtain rfl := Except.ok.inj read
        exact ⟨filled, (Text.dropStart?_eq_some_iff.mp found).symm⟩
    · cases read
  · rintro ⟨filled, rfl⟩
    exact parse_text filled

namespace PackageUri

/-! ## Parts -/

/-- The parts that a package identifier is written from. -/
structure Parts where
  /-- How the package is to be found. -/
  scheme : PackageScheme
  /-- What stands between the two slashes after the scheme and the next slash. -/
  authority : String
  /-- What stands from there to the last `@` before the pin. -/
  path : String
  /-- The version. -/
  version : Version
  /-- The checksum after the `::`, if there is one. -/
  pin : Option Checksum

/-- The written form of the parts. -/
def Parts.text (parts : Parts) : String :=
  parts.scheme.text ++ "://" ++ parts.authority ++ parts.path ++ "@" ++ parts.version.text ++
    match parts.pin with
    | none => ""
    | some pin => "::sha256:" ++ pin.sha256

/-- That nothing in the parts is mistaken for a mark between them. -/
structure Parts.IsPlain (parts : Parts) : Prop where
  /-- There is an authority. -/
  authority_filled : parts.authority ≠ ""
  /-- The path does not begin in the authority. -/
  authority_closed : '/' ∉ parts.authority.toList
  /-- No fragment begins in the authority. -/
  authority_unmarked : '#' ∉ parts.authority.toList
  /-- The path begins with a slash. -/
  path_rooted : Text.beginsWith '/' parts.path = true
  /-- The segments of the path are names. -/
  path_named : ∀ segment ∈ UriPath.segments parts.path, Path.IsName segment
  /-- No pin begins in the path. -/
  path_unpinned : ¬ [':', ':'] <:+: parts.path.toList
  /-- No fragment begins in the path. -/
  path_unmarked : '#' ∉ parts.path.toList
  /-- The pin is written, and no fragment begins in it. -/
  pin_plain : ∀ pin, parts.pin = some pin → pin.sha256 ≠ "" ∧ '#' ∉ pin.sha256.toList

/-- The parts of a package. -/
def parts (package : PackageUri) : Parts :=
  { scheme := package.scheme
    authority := package.authority
    path := package.path
    version := package.version
    pin := package.pin }

theorem text_parts (package : PackageUri) : package.parts.text = package.text := by
  cases held : package.pin with
  | none => simp [Parts.text, parts, text, versionedPath, held, String.append_assoc]
  | some pin =>
      have mark : "::" ++ ("sha256:" ++ pin.sha256) = "::sha256:" ++ pin.sha256 := by
        rw [← String.append_assoc]
        rfl
      simp [Parts.text, parts, text, versionedPath, held, Checksum.text, mark,
        String.append_assoc]

/-- A pin begins in a text exactly if two colons stand in it. -/
theorem cutPin?_eq_none_iff {chars : List Char} :
    cutPin? chars = none ↔ ¬ [':', ':'] <:+: chars := by
  constructor
  · rintro clear ⟨before, after, rfl⟩
    rw [List.append_assoc] at clear
    induction before with
    | nil => cases clear
    | cons c before inductionHypothesis =>
        apply inductionHypothesis
        rw [List.cons_append, cutPin?.eq_def] at clear
        split at clear
        · cases clear
        · rename_i empty
          cases empty
        · rename_i first rest unmarked same
          obtain ⟨rfl, rfl⟩ := List.cons.inj same
          exact Option.map_eq_none_iff.mp clear
  · intro clear
    cases found : cutPin? chars with
    | none => rfl
    | some cut =>
        obtain ⟨before, after⟩ := cut
        rw [(eq_append_of_cutPin? found).1] at clear
        exact absurd ⟨before, after, by simp⟩ clear

theorem isPath_iff {path : String} : isPath path = true ↔
    Text.beginsWith '/' path = true ∧ (∀ segment ∈ UriPath.segments path, Path.IsName segment) ∧
      ¬ [':', ':'] <:+: path.toList ∧ '#' ∉ path.toList := by
  have named (segment : String) : isPlainSegment segment = true ↔ Path.IsName segment := by
    simp [isPlainSegment, Path.IsName, and_assoc]
  rw [isPath, Bool.and_eq_true, Bool.and_eq_true, Bool.and_eq_true, List.all_eq_true,
    Option.isNone_iff_eq_none, cutPin?_eq_none_iff]
  simp only [named, Text.has, Bool.not_eq_true', List.contains_eq_mem, decide_eq_false_iff_not,
    and_assoc]
  tauto

/-- The parts are those of a package exactly if they are plain, apart from the pin, which
a package can have whatever it is. -/
theorem isPlain_iff {parts : Parts} : parts.IsPlain ↔
    ∃ package : PackageUri, package.parts = parts ∧ package.HasPlainPin := by
  constructor
  · intro plain
    refine ⟨{
      scheme := parts.scheme
      authority := parts.authority
      path := parts.path
      version := parts.version
      pin := parts.pin
      authority_valid := ?_
      path_valid := ?_ }, rfl, plain.pin_plain⟩
    · exact isAuthority_iff.mpr
        ⟨plain.authority_filled, plain.authority_closed, plain.authority_unmarked⟩
    · exact isPath_iff.mpr
        ⟨plain.path_rooted, plain.path_named, plain.path_unpinned, plain.path_unmarked⟩
  · rintro ⟨package, rfl, plain⟩
    rcases package.authority_plain with ⟨filled, closed, unmarked⟩
    rcases isPath_iff.mp package.path_valid with ⟨rooted, named, unpinned, plainPath⟩
    exact ⟨filled, closed, unmarked, rooted, named, unpinned, plainPath, plain⟩

/-! ## What is read -/

theorem eq_append_of_splitScheme? {text rest : String} {scheme : PackageScheme}
    (split : splitScheme? text = some (scheme, rest)) : text = scheme.text ++ "://" ++ rest := by
  unfold splitScheme? at split
  split at split
  · rename_i found
    obtain ⟨rfl, rfl⟩ := Prod.mk.inj (Option.some.inj split)
    exact Text.dropStart?_eq_some_iff.mp found
  · rcases Option.map_eq_some_iff.mp split with ⟨after, found, same⟩
    obtain ⟨rfl, rfl⟩ := Prod.mk.inj same
    exact Text.dropStart?_eq_some_iff.mp found

theorem eq_append_of_splitPin {text main : String} {pin : Option String}
    (split : splitPin text = (main, pin)) :
    text = main ++ (pin.map ("::" ++ ·)).getD "" := by
  unfold splitPin at split
  split at split
  · rename_i before after found
    obtain ⟨rfl, rfl⟩ := Prod.mk.inj split
    apply String.toList_injective
    have halves : text.toList.takeWhile (· != '/') ++ (before ++ ':' :: ':' :: after) =
        text.toList := by
      rw [← (eq_append_of_cutPin? found).1, List.takeWhile_append_dropWhile]
    exact halves.symm.trans (by simp)
  · obtain ⟨rfl, rfl⟩ := Prod.mk.inj split
    simp

theorem ofParts_eq_ok {whole : String} {scheme : PackageScheme}
    {authority path version : String} {pin : Option Checksum}
    {ends : '/' ∉ authority.toList ∧ '#' ∉ authority.toList} {rooted : IsRooted path}
    {package : PackageUri}
    (made : ofParts whole scheme authority path version pin ends rooted = .ok package) :
    package.scheme = scheme ∧ package.authority = authority ∧ package.path = path ∧
      package.version.text = version ∧ package.pin = pin := by
  unfold ofParts at made
  split at made
  · cases made
  split at made
  · cases made
  split at made
  · split at made
    · cases made
    split at made
    · cases made
    · rename_i read
      obtain rfl := Except.ok.inj made
      exact ⟨rfl, rfl, rfl, Version.text_of_parse read, rfl⟩
  · cases made

theorem parseMain_eq_ok {whole main : String} {scheme : PackageScheme} {pin : Option Checksum}
    {plain : IsMain main} {package : PackageUri}
    (read : parseMain whole scheme main pin plain = .ok package) :
    package.scheme = scheme ∧ package.main = main ∧ package.pin = pin := by
  unfold parseMain at read
  split at read
  · cases read
  rename_i authority rest cut
  simp only at read
  split at read
  · cases read
  rename_i path version cutAt
  rcases ofParts_eq_ok read with ⟨rfl, rfl, rfl, rfl, rfl⟩
  refine ⟨rfl, ?_, rfl⟩
  apply String.toList_injective
  have start : package.authority.toList ++ ("/" ++ rest).toList = main.toList := by
    rw [(Text.cut?_eq_some_iff.mp cut).1]
    simp
  rw [← start, (Text.cutLast?_eq_some_iff.mp cutAt).1]
  simp [PackageUri.main, versionedPath]

/-- A text is read as a package exactly if it is the text of the package. -/
theorem parse_eq_ok_iff {text : String} {package : PackageUri} :
    parse text = .ok package ↔ package.HasPlainPin ∧ package.text = text := by
  constructor
  · intro read
    unfold parse at read
    split at read
    · cases read
    rename_i scheme rest begun
    split at read
    · cases read
    rename_i unmarked
    simp only at read
    split at read
    · rename_i main split
      rcases parseMain_eq_ok read with ⟨rfl, rfl, unpinned⟩
      constructor
      · intro pin held
        cases unpinned.symm.trans held
      · rw [eq_append_of_splitScheme? begun, eq_append_of_splitPin split, text_eq, pinText,
          unpinned]
        rfl
    · rename_i main written split
      split at read
      · cases read
      rename_i pin pinRead
      rcases Checksum.parse_eq_ok_iff.mp pinRead with ⟨filled, rfl⟩
      rcases parseMain_eq_ok read with ⟨rfl, rfl, pinned⟩
      have ending := eq_append_of_splitPin split
      constructor
      · rintro held same
        obtain rfl := Option.some.inj (pinned.symm.trans same)
        refine ⟨filled, fun member => unmarked ?_⟩
        rw [Text.has, List.contains_iff_mem, ending]
        simp [Checksum.text, member]
      · rw [eq_append_of_splitScheme? begun, ending, text_eq, pinText, pinned]
        rfl
  · rintro ⟨plain, rfl⟩
    exact parse_text plain

theorem exists_parts_iff {text : String} {parts : Parts} :
    (∃ package, parse text = .ok package ∧ package.parts = parts) ↔
      parts.IsPlain ∧ parts.text = text := by
  rw [isPlain_iff]
  constructor
  · rintro ⟨package, read, rfl⟩
    rcases parse_eq_ok_iff.mp read with ⟨plain, written⟩
    exact ⟨⟨package, rfl, plain⟩, package.text_parts.trans written⟩
  · rintro ⟨⟨package, rfl, plain⟩, written⟩
    exact ⟨package, parse_eq_ok_iff.mpr ⟨plain, package.text_parts.symm.trans written⟩, rfl⟩

theorem hash_not_mem_text {package : PackageUri} (plain : package.HasPlainPin) :
    '#' ∉ package.text.toList := by
  have scheme : '#' ∉ package.scheme.text.toList := by
    cases package.scheme <;> decide
  rw [text_eq]
  simp [scheme, package.isMain_main.1, hash_not_mem_pinText plain]

/-- The text of an asset is cut after the package that the asset is in. -/
theorem cut?_text_append {package : PackageUri} (plain : package.HasPlainPin) (path : String) :
    Text.cut? '#' (package.text ++ "#" ++ path) = some (package.text, path) :=
  Text.cut?_eq_some_iff.mpr ⟨by simp, hash_not_mem_text plain⟩

theorem text_toUri (package : PackageUri) : package.toUri.text = package.unpinned.text := by
  have slashes (rest : String) : ":" ++ ("//" ++ rest) = "://" ++ rest := by
    rw [← String.append_assoc]
    rfl
  simp [toUri, Uri.text, Uri.closed, Uri.marked_some, Uri.marked_none, text, unpinned,
    versionedPath, String.append_assoc, slashes]

theorem hasPlainPin_unpinned (package : PackageUri) : package.unpinned.HasPlainPin := by
  intro pin held
  cases held

/-- Packages that differ in more than their pins have different texts without them. -/
theorem unpinned_text_injective {first second : PackageUri}
    (same : first.unpinned.text = second.unpinned.text) : first.unpinned = second.unpinned := by
  have read := parse_text first.hasPlainPin_unpinned
  rw [same, parse_text second.hasPlainPin_unpinned] at read
  exact (Except.ok.inj read).symm

end PackageUri

/-! ## Assets -/

namespace PackageAsset

/-- A text is read as an asset exactly if it is the text of a package that can be written, a
number sign and a path that leads to the asset. -/
theorem parse_eq_ok_iff {text : String} {asset : PackageAsset} :
    parse text = .ok asset ↔ asset.package.HasPlainPin ∧
      ∃ path, ofPath asset.package path = .ok asset ∧
        text = asset.package.text ++ "#" ++ path := by
  constructor
  · intro read
    unfold parse at read
    split at read
    · cases read
    rename_i before path cut
    split at read
    · cases read
    rename_i package packageRead
    split at read
    · cases read
    rename_i made
    obtain rfl := Except.ok.inj read
    rcases PackageUri.parse_eq_ok_iff.mp packageRead with ⟨plain, rfl⟩
    rcases ofPath_eq_ok_iff.mp made with ⟨-, -, rfl⟩
    refine ⟨plain, path, made, ?_⟩
    apply String.toList_injective
    rw [(Text.cut?_eq_some_iff.mp cut).1]
    simp
  · rintro ⟨plain, path, made, rfl⟩
    simp only [parse, PackageUri.cut?_text_append plain, PackageUri.parse_text plain, made]

/-- As an identifier an asset is written without the pin, and a query goes between the
package and the asset. -/
theorem text_toUri (asset : PackageAsset) (query : Option String) :
    ({ asset.toUri with query := query } : Uri).text =
      asset.package.unpinned.text ++ Uri.marked "?" query ++ "#" ++ asset.path := by
  rw [← PackageUri.text_toUri]
  simp [toUri, PackageUri.toUri, Uri.text, Uri.closed, Uri.marked_some, Uri.marked_none,
    String.append_assoc]

/-- The identifier of an asset is read as the same one of the package without its pin. -/
theorem parse_toUri {package : PackageUri} {path : String} {asset : PackageAsset}
    (made : ofPath package path = .ok asset) :
    parse asset.toUri.text = .ok { asset with package := asset.package.unpinned } := by
  have written := asset.text_toUri none
  rw [Uri.marked_none, String.append_empty] at written
  exact parse_eq_ok_iff.mpr ⟨asset.package.hasPlainPin_unpinned, asset.path, ofPath_path made,
    written⟩

/-- Whatever is read as an asset is written again as itself. -/
theorem parse_text_of_parse {text : String} {asset : PackageAsset}
    (read : parse text = .ok asset) : parse asset.text = .ok asset := by
  rcases parse_eq_ok_iff.mp read with ⟨plain, path, made, -⟩
  exact parse_eq_ok_iff.mpr ⟨plain, asset.path, ofPath_path made, rfl⟩

end PackageAsset

/-- Package identifiers are read from exactly the texts of plain parts, and back to those
parts, so packages that differ in more than their pins have different texts without them.
What is read as an asset is read again from its own text, and from its text as a resource
identifier without the pin. -/
theorem package_texts_read_back :
    (∀ (text : String) (parts : PackageUri.Parts),
      (∃ package, PackageUri.parse text = .ok package ∧ package.parts = parts) ↔
        parts.IsPlain ∧ parts.text = text) ∧
    (∀ (text : String) (package : PackageUri),
      PackageUri.parse text = .ok package → package.text = text) ∧
    (∀ package : PackageUri, package.parts.IsPlain →
      PackageUri.parse package.text = .ok package) ∧
    (∀ first second : PackageUri,
      first.unpinned.text = second.unpinned.text → first.unpinned = second.unpinned) ∧
    ∀ (text : String) (asset : PackageAsset), PackageAsset.parse text = .ok asset →
      PackageAsset.parse asset.text = .ok asset ∧
        PackageAsset.parse asset.toUri.text =
          .ok { asset with package := asset.package.unpinned } := by
  refine ⟨?parts, ?printed, ?parsed, ?memos, ?assets⟩
  case parts => exact fun text parts => PackageUri.exists_parts_iff
  case printed => exact fun text package read => (PackageUri.parse_eq_ok_iff.mp read).2
  case parsed => exact fun package plain => PackageUri.parse_text plain.pin_plain
  case memos => exact fun first second same => PackageUri.unpinned_text_injective same
  case assets =>
    intro text asset read
    rcases PackageAsset.parse_eq_ok_iff.mp read with ⟨-, path, made, -⟩
    exact ⟨PackageAsset.parse_text_of_parse read, PackageAsset.parse_toUri made⟩

/-- A pinned asset keeps its text. -/
theorem pinned_bird_read_back :
    ∃ asset, PackageAsset.parse
        "package://localhost:0/birds@0.5.0::sha256:3f19ab#/catalog/./Bird.pkl" = .ok asset ∧
      PackageAsset.parse asset.text = .ok asset ∧
      PackageUri.parse asset.package.text = .ok asset.package := by
  have parts : (PackageAsset.parse
      "package://localhost:0/birds@0.5.0::sha256:3f19ab#/catalog/./Bird.pkl").map
        PackageAsset.path = .ok "/catalog/Bird.pkl" := by decide +kernel
  rcases Result.map_eq_ok_iff.mp parts with ⟨asset, read, -⟩
  rcases package_texts_read_back with ⟨exact, -, parsed, -, assets⟩
  rcases PackageAsset.parse_eq_ok_iff.mp read with ⟨plain, -⟩
  exact ⟨asset, read, (assets _ asset read).1,
    parsed asset.package (PackageUri.isPlain_iff.mpr ⟨asset.package, rfl, plain⟩)⟩

end PackageResolution
