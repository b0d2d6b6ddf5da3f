import EasyDeploy.Foundation.Urls
import Mathlib.Algebra.Group.Int.Defs
import Mathlib.Algebra.Group.Nat.Defs

/-!
# Names and version codes of packages

A package file is named after its service and its version. The three numbers of
the version are packed into one integer, by which releases are sorted.
-/

namespace EasyDeploy.Apps
open Foundation

/-- Why a package name is refused. -/
inductive BinaryPackageNameError
  | invalidPackageVersionName
  | serviceKeyMismatch (expected actual : String)
  | packageVersionConflict (expected actual : String)
deriving Repr, DecidableEq

/-- The service and the version that a package name tells. -/
structure ParsedReleasePackageName where
  serviceKey : String
  releaseVersion : String
  versionCode : Int
deriving Repr, DecidableEq

/-- `rsplit_once` at a text: the occurrence that begins last. -/
def rsplitOnceText (pattern : List Char) : List Char → Option (List Char × List Char)
  | [] => if pattern = [] then some ([], []) else none
  | char :: rest =>
      match rsplitOnceText pattern rest with
      | some (before, behind) => some (char :: before, behind)
      | none =>
          if pattern <+: char :: rest then some ([], (char :: rest).drop pattern.length) else none

/-- `strip_suffix`. -/
def stripSuffix (suffix text : List Char) : Option (List Char) :=
  if suffix <:+ text then some (text.take (text.length - suffix.length)) else none

/-- The key of a service: lower case letters, digits and dashes. -/
def normalizeKey (value : String) : Except String String :=
  let key := String.ofList ((trim value).toList.map Char.toLower)
  if key.isEmpty then .error "请输入应用标识"
  else if !key.toList.all fun char => char.isAlphanum || char == '-' || char == '_' then
    .error "应用标识仅支持字母、数字、短横线和下划线"
  else
    .ok key

/-- The endings of packages, the longer ones first. -/
def binaryPackageExtensions : List String := [".tar.gz", ".tgz", ".jar", ".zip"]

/-- A file name without the ending of a package. -/
def stripBinaryPackageExtension (fileName : List Char) : List Char :=
  (binaryPackageExtensions.findSome? fun extension =>
    stripSuffix extension.toList fileName).getD fileName

/-- Without the letter in front. -/
def stripVersionLetter : List Char → List Char
  | 'v' :: version => version
  | 'V' :: version => version
  | version => version

/-- A part of a version. -/
def isVersionPart (part : List Char) : Bool := !part.isEmpty && part.all Char.isDigit

/-- The three parts of a version. -/
def packageVersionParts (version : String) : Option (List Char × List Char × List Char) :=
  let version := (stripVersionLetter (trim version).toList).map fun char =>
    if char = '_' then '.' else char
  match version.splitOn '.' with
  | [major, minor, patch] =>
      if isVersionPart major && isVersionPart minor && isVersionPart patch then
        some (major, minor, patch)
      else
        none
  | _ => none

/-- A version from its three numbers. -/
def normalizedVersion (parts : List Char × List Char × List Char) : String :=
  String.ofList ('v' :: parts.1 ++ '.' :: parts.2.1 ++ '.' :: parts.2.2)

/-- A version without its leading letter, when it has three numbers. -/
def normalizePackageVersion (version : String) : Option String :=
  (packageVersionParts version).map normalizedVersion

/-- An `i64` whose arithmetic wraps around, as in a release build. -/
def wrapping (value : Int) : Int := (BitVec.ofInt 64 value).toInt

/-- `major * 1_000_000 + minor * 1_000 + patch`. -/
def packedVersion (major minor patch : Int) : Int :=
  wrapping (wrapping (wrapping (major * 1000000) + wrapping (minor * 1000)) + patch)

/-- The number that orders versions. -/
def versionCodeFromRelease (version : String) : Option Int := do
  let version ← normalizePackageVersion version
  match (stripVersionLetter version.toList).splitOn '.' with
  | [major, minor, patch] => do
      let major ← parseI64 major
      let minor ← parseI64 minor
      let patch ← parseI64 patch
      if major < 0 ∨ minor < 0 ∨ patch < 0 then none
      else some (packedVersion major minor patch)
  | _ => none

/-- The last name of a path, with slashes of either kind. -/
def baseName (path : String) : String :=
  trim (String.ofList ((trim path).toList.rtakeWhile fun char => char != '/' && char != '\\'))

/-- The service and the version of a package, read from its file name. -/
def parseReleasePackageName (fileName : String) :
    Except BinaryPackageNameError ParsedReleasePackageName :=
  let fileStem := stripBinaryPackageExtension (baseName fileName).toList
  match rsplitOnceText "_version_".toList fileStem with
  | none => .error .invalidPackageVersionName
  | some (serviceKey, version) =>
      match normalizeKey (String.ofList serviceKey),
        normalizePackageVersion (String.ofList version) with
      | .ok serviceKey, some releaseVersion =>
          match versionCodeFromRelease releaseVersion with
          | some versionCode => .ok ⟨serviceKey, releaseVersion, versionCode⟩
          | none => .error .invalidPackageVersionName
      | _, _ => .error .invalidPackageVersionName

/-- The same for a package that must be one of a given service. -/
def parseReleasePackageNameForService (fileName expectedServiceKey : String)
    (explicitReleaseVersion : Option String) :
    Except BinaryPackageNameError ParsedReleasePackageName := do
  let parsed ← parseReleasePackageName fileName
  match normalizeKey expectedServiceKey with
  | .error _ => .error .invalidPackageVersionName
  | .ok expected =>
      if parsed.serviceKey ≠ expected then .error (.serviceKeyMismatch expected parsed.serviceKey)
      else
        match explicitReleaseVersion.filter fun version => !(trim version).isEmpty with
        | none => .ok parsed
        | some explicit =>
            match normalizePackageVersion explicit with
            | none => .error .invalidPackageVersionName
            | some explicit =>
                if parsed.releaseVersion ≠ explicit then
                  .error (.packageVersionConflict explicit parsed.releaseVersion)
                else
                  .ok parsed

example : parseReleasePackageName "C:\\tmp\\Orders_API_version_V1.2.3.zip" =
    .ok ⟨"orders_api", "v1.2.3", 1002003⟩ := by decide +kernel

/-- What names of packages are made of. -/
def IsNameChar (char : Char) : Prop := char.isAlphanum = true ∨ char = '-' ∨ char = '_' ∨ char = '.'

/-- No character of a name is a blank. -/
theorem isWhitespace_eq_false {char : Char} (h : IsNameChar char) : isWhitespace char = false := by
  rcases h with h | rfl | rfl | rfl
  · have halpha : char.isAlpha = (char.isUpper || char.isLower) := rfl
    rw [Char.isAlphanum, halpha, Bool.or_eq_true, Bool.or_eq_true, isUpper_iff, isLower_iff,
      Char.isDigit_iff_toNat] at h
    simp only [isWhitespace, Bool.or_eq_false_iff, Bool.and_eq_false_iff, decide_eq_false_iff_not,
      beq_eq_false_iff_ne]
    have hzero : '0'.toNat = 48 := rfl
    have hnine : '9'.toNat = 57 := rfl
    omega
  all_goals rfl

theorem isNameChar_of_isDigit {char : Char} (h : char.isDigit = true) : IsNameChar char :=
  .inl (by rw [Char.isAlphanum, h, Bool.or_true])

/-- A name is not trimmed. -/
theorem trim_name {text : List Char} (h : ∀ char ∈ text, IsNameChar char) :
    trim (String.ofList text) = String.ofList text := by
  refine trim_eq_self_iff.mpr ⟨fun char hchar => ?_, fun char hchar => ?_⟩
  · rw [String.toList_ofList] at hchar
    exact isWhitespace_eq_false (h char (List.mem_of_mem_head? hchar))
  · rw [String.toList_ofList] at hchar
    exact isWhitespace_eq_false (h char (List.mem_of_mem_getLast? hchar))

/-- A name is its own last segment. -/
theorem baseName_name {text : List Char} (h : ∀ char ∈ text, IsNameChar char) :
    baseName (String.ofList text) = String.ofList text := by
  have hkept : text.rtakeWhile (fun char => char != '/' && char != '\\') = text := by
    refine List.rtakeWhile_eq_self_iff.mpr fun char hchar => ?_
    rcases h char hchar with hname | rfl | rfl | rfl
    · rw [Bool.and_eq_true, bne_iff_ne, bne_iff_ne]
      constructor
      · rintro rfl
        cases hname
      · rintro rfl
        cases hname
    all_goals rfl
  rw [baseName, trim_name h, String.toList_ofList, hkept, trim_name h]

/-- Behind the pattern there is no occurrence that begins later. -/
theorem rsplitOnceText_eq_none {pattern text : List Char} (hpattern : pattern ≠ [])
    (h : ¬ pattern <:+: text) : rsplitOnceText pattern text = none := by
  induction text with
  | nil => rw [rsplitOnceText, if_neg hpattern]
  | cons char rest ih =>
      rw [rsplitOnceText, ih fun hrest => h (hrest.trans (List.suffix_cons _ _).isInfix)]
      exact if_neg fun hstart => h hstart.isInfix

/-- A text is split at the last occurrence of a pattern. -/
theorem rsplitOnceText_append {first : Char} {pattern behind : List Char}
    (h : ¬ first :: pattern <:+: pattern ++ behind) (before : List Char) :
    rsplitOnceText (first :: pattern) (before ++ (first :: pattern) ++ behind) =
      some (before, behind) := by
  induction before with
  | nil =>
      rw [List.nil_append, List.cons_append, rsplitOnceText,
        rsplitOnceText_eq_none (List.cons_ne_nil _ _) h]
      have hstart : first :: pattern <+: first :: (pattern ++ behind) := List.prefix_append _ _
      rw [if_pos hstart]
      exact congrArg (fun text => some ([], text)) List.drop_left
  | cons char before ih => rw [List.cons_append, List.cons_append, rsplitOnceText, ih]

/-- A letter that occurs only in front is not the second one of a pattern. -/
theorem not_infix_cons {letter other : Char} {pattern text : List Char} (hne : other ≠ letter)
    (h : letter ∉ text) : ¬ other :: letter :: pattern <:+: letter :: text := by
  rintro ⟨before, behind, heq⟩
  cases before with
  | nil => exact hne (List.cons.inj heq).1
  | cons char before =>
      refine h ((List.cons.inj heq).2 ▸ ?_)
      simp

/-- A suffix that was appended is stripped. -/
theorem stripSuffix_append (stem suffix : List Char) :
    stripSuffix suffix (stem ++ suffix) = some stem := by
  rw [stripSuffix, if_pos (List.suffix_append _ _), List.length_append, Nat.add_sub_cancel,
    List.take_left]

/-- A suffix is not stripped from a text that ends otherwise. -/
theorem stripSuffix_other {stem suffix other : List Char} (h : ¬ suffix <:+ other)
    (h' : ¬ other <:+ suffix) : stripSuffix suffix (stem ++ other) = none := by
  refine if_neg fun hsuffix => ?_
  rcases Nat.le_total suffix.length other.length with hle | hle
  · exact h (List.suffix_of_suffix_length_le hsuffix (List.suffix_append _ _) hle)
  · exact h' (List.suffix_of_suffix_length_le (List.suffix_append _ _) hsuffix hle)

/-- Every extension of a package is stripped. -/
theorem stripBinaryPackageExtension_append (stem : List Char) {extension : String}
    (h : extension ∈ binaryPackageExtensions) :
    stripBinaryPackageExtension (stem ++ extension.toList) = stem := by
  simp only [binaryPackageExtensions, List.mem_cons, List.not_mem_nil, or_false] at h
  rw [stripBinaryPackageExtension, binaryPackageExtensions]
  rcases h with rfl | rfl | rfl | rfl
  · rw [List.findSome?_cons, stripSuffix_append]
    rfl
  · rw [List.findSome?_cons, stripSuffix_other (by decide) (by decide), List.findSome?_cons,
      stripSuffix_append]
    rfl
  · rw [List.findSome?_cons, stripSuffix_other (by decide) (by decide), List.findSome?_cons,
      stripSuffix_other (by decide) (by decide), List.findSome?_cons, stripSuffix_append]
    rfl
  · rw [List.findSome?_cons, stripSuffix_other (by decide) (by decide), List.findSome?_cons,
      stripSuffix_other (by decide) (by decide), List.findSome?_cons,
      stripSuffix_other (by decide) (by decide), List.findSome?_cons, stripSuffix_append]
    rfl

/-- The number that digits write. -/
def number (digits : List Char) : Nat := Nat.ofDigitChars 10 digits 0

/-- The three numbers of a version. -/
structure VersionNumbers where
  major : Nat
  minor : Nat
  patch : Nat
deriving Repr, DecidableEq

/-- The numbers that a version is read as. -/
def numbersOf (version : String) : Option VersionNumbers :=
  (packageVersionParts version).map fun parts =>
    ⟨number parts.1, number parts.2.1, number parts.2.2⟩

/-- A part of a version is a sequence of digits that is not empty. -/
theorem isVersionPart_iff {part : List Char} :
    isVersionPart part = true ↔ part ≠ [] ∧ part.all Char.isDigit = true := by
  rw [isVersionPart, Bool.and_eq_true, Bool.not_eq_true', List.isEmpty_eq_false_iff]

theorem isDigit_of_isVersionPart {part : List Char} (h : isVersionPart part = true) :
    ∀ char ∈ part, char.isDigit = true := List.all_eq_true.mp (isVersionPart_iff.mp h).2

/-- No other character is in a part of a version. -/
theorem not_mem_of_isVersionPart {part : List Char} (h : isVersionPart part = true) {char : Char}
    (hchar : char.isDigit = false) : char ∉ part := by
  intro hmem
  rw [isDigit_of_isVersionPart h char hmem] at hchar
  cases hchar

section Parts

variable {major minor patch : List Char} (hmajor : isVersionPart major = true)
  (hminor : isVersionPart minor = true) (hpatch : isVersionPart patch = true)
include hmajor hminor hpatch

/-- A version is split at its dots. -/
theorem splitOn_parts : (major ++ '.' :: minor ++ '.' :: patch).splitOn '.' =
    [major, minor, patch] := by
  rw [List.append_assoc, List.cons_append,
    List.splitOn_append_cons_self_of_not_mem (not_mem_of_isVersionPart hmajor (by decide)),
    List.splitOn_append_cons_self_of_not_mem (not_mem_of_isVersionPart hminor (by decide)),
    List.splitOn_eq_singleton (not_mem_of_isVersionPart hpatch (by decide))]

omit hminor hpatch in
/-- Digits are no version letter. -/
theorem stripVersionLetter_parts (separator : Char) :
    stripVersionLetter (major ++ separator :: minor ++ separator :: patch) =
      major ++ separator :: minor ++ separator :: patch := by
  cases major with
  | nil => cases hmajor
  | cons first rest =>
      have hfirst := isDigit_of_isVersionPart hmajor first List.mem_cons_self
      rw [List.cons_append, List.cons_append]
      unfold stripVersionLetter
      split
      · rename_i heq
        rw [(List.cons.inj heq).1] at hfirst
        cases hfirst
      · rename_i heq
        rw [(List.cons.inj heq).1] at hfirst
        cases hfirst
      · rfl

theorem isNameChar_parts {separator : Char} (hseparator : separator = '_' ∨ separator = '.') :
    ∀ char ∈ major ++ separator :: minor ++ separator :: patch, IsNameChar char := by
  intro char hchar
  simp only [List.mem_append, List.mem_cons] at hchar
  rcases hchar with (hchar | rfl | hchar) | rfl | hchar
  · exact isNameChar_of_isDigit (isDigit_of_isVersionPart hmajor char hchar)
  · exact .inr (.inr hseparator)
  · exact isNameChar_of_isDigit (isDigit_of_isVersionPart hminor char hchar)
  · exact .inr (.inr hseparator)
  · exact isNameChar_of_isDigit (isDigit_of_isVersionPart hpatch char hchar)

theorem map_parts {separator : Char} (hseparator : separator = '_' ∨ separator = '.') :
    (major ++ separator :: minor ++ separator :: patch).map (fun char =>
      if char = '_' then '.' else char) = major ++ '.' :: minor ++ '.' :: patch := by
  have hkept {part : List Char} (hpart : isVersionPart part = true) :
      part.map (fun char => if char = '_' then '.' else char) = part := by
    refine (List.map_congr_left fun char hchar => if_neg ?_).trans (List.map_id _)
    rintro rfl
    exact not_mem_of_isVersionPart hpart (by decide) hchar
  have hdot : (if separator = '_' then '.' else separator) = '.' := by
    rcases hseparator with rfl | rfl <;> rfl
  rw [List.map_append, List.map_append, List.map_cons, List.map_cons, hkept hmajor, hkept hminor,
    hkept hpatch, hdot]

/-- The parts of a version with underscores. -/
theorem packageVersionParts_underscores :
    packageVersionParts (String.ofList (major ++ '_' :: minor ++ '_' :: patch)) =
      some (major, minor, patch) := by
  rw [packageVersionParts, trim_name (isNameChar_parts hmajor hminor hpatch (.inl rfl)),
    String.toList_ofList, stripVersionLetter_parts hmajor]
  simp only [map_parts hmajor hminor hpatch (.inl rfl), splitOn_parts hmajor hminor hpatch, hmajor,
    hminor, hpatch, Bool.and_self, if_true]

/-- The parts of a normalized version. -/
theorem packageVersionParts_normalized :
    packageVersionParts (normalizedVersion (major, minor, patch)) = some (major, minor, patch) := by
  have hname : ∀ char ∈ 'v' :: major ++ '.' :: minor ++ '.' :: patch, IsNameChar char := by
    intro char hchar
    rw [List.cons_append, List.cons_append] at hchar
    rcases List.mem_cons.mp hchar with rfl | hchar
    · exact .inl rfl
    · exact isNameChar_parts hmajor hminor hpatch (.inr rfl) char hchar
  rw [packageVersionParts, normalizedVersion, trim_name hname, String.toList_ofList,
    List.cons_append, List.cons_append, stripVersionLetter]
  simp only [map_parts hmajor hminor hpatch (.inr rfl), splitOn_parts hmajor hminor hpatch, hmajor,
    hminor, hpatch, Bool.and_self, if_true]

end Parts

/-- The three parts of an accepted version are sequences of digits. -/
theorem isVersionPart_of_parts {version : String} {major minor patch : List Char}
    (h : packageVersionParts version = some (major, minor, patch)) :
    isVersionPart major = true ∧ isVersionPart minor = true ∧ isVersionPart patch = true := by
  unfold packageVersionParts at h
  dsimp only at h
  split at h
  · split at h
    · rename_i hparts
      obtain ⟨rfl, hrest⟩ := Prod.mk.inj (Option.some.inj h)
      obtain ⟨rfl, rfl⟩ := Prod.mk.inj hrest
      rw [Bool.and_eq_true, Bool.and_eq_true] at hparts
      exact ⟨hparts.1.1, hparts.1.2, hparts.2⟩
    · cases h
  · cases h

/-- Digits are read as their number if it has 63 bits. -/
theorem parseI64_digits {part : List Char} (h : isVersionPart part = true) :
    parseI64 part = if number part < 2 ^ 63 then some (number part : Int) else none := by
  have hsign {sign : Char} (hsign : sign.isDigit = false) : part.head? ≠ some sign := fun hhead =>
    not_mem_of_isVersionPart h hsign (List.mem_of_mem_head? hhead)
  rw [parseI64, if_neg (hsign (by decide)), if_neg (hsign (by decide)), parseDigits,
    if_pos (isVersionPart_iff.mp h), Option.bind_some]
  by_cases hlt : number part < 2 ^ 63
  · rw [if_pos hlt, number] at *
    exact if_pos (by omega)
  · rw [if_neg hlt, number] at *
    exact if_neg (by omega)

namespace VersionNumbers

/-- The numbers packed without a bound. -/
def weight (numbers : VersionNumbers) : Nat :=
  numbers.major * 1000000 + numbers.minor * 1000 + numbers.patch

/-- Each number is one for an `i64`. -/
def Parses (numbers : VersionNumbers) : Prop :=
  numbers.major < 2 ^ 63 ∧ numbers.minor < 2 ^ 63 ∧ numbers.patch < 2 ^ 63

instance (numbers : VersionNumbers) : Decidable numbers.Parses :=
  inferInstanceAs (Decidable (_ ∧ _ ∧ _))

/-- The numbers in one. -/
def packed (numbers : VersionNumbers) : Int :=
  packedVersion numbers.major numbers.minor numbers.patch

end VersionNumbers

/-- The code of a version is that of its numbers. -/
theorem versionCodeFromRelease_eq (version : String) : versionCodeFromRelease version =
    (numbersOf version).bind fun numbers =>
      if numbers.Parses then some numbers.packed else none := by
  rw [versionCodeFromRelease, normalizePackageVersion, numbersOf]
  cases hparts : packageVersionParts version with
  | none => rfl
  | some parts =>
      obtain ⟨major, minor, patch⟩ := parts
      obtain ⟨hmajor, hminor, hpatch⟩ := isVersionPart_of_parts hparts
      have hsplit : (stripVersionLetter (normalizedVersion (major, minor, patch)).toList).splitOn
          '.' = [major, minor, patch] := by
        rw [normalizedVersion, String.toList_ofList, List.cons_append, List.cons_append,
          stripVersionLetter]
        exact splitOn_parts hmajor hminor hpatch
      simp only [Option.map_some, Option.bind_eq_bind, Option.bind_some, hsplit,
        parseI64_digits hmajor, parseI64_digits hminor, parseI64_digits hpatch]
      unfold VersionNumbers.Parses
      by_cases hfirst : number major < 2 ^ 63
      · by_cases hsecond : number minor < 2 ^ 63
        · by_cases hthird : number patch < 2 ^ 63
          · have hsigns : ¬ ((number major : Int) < 0 ∨ (number minor : Int) < 0 ∨
                (number patch : Int) < 0) := by omega
            simp only [if_pos hfirst, if_pos hsecond, if_pos hthird, Option.bind_some,
              if_neg hsigns]
            exact (if_pos ⟨hfirst, hsecond, hthird⟩).symm
          · simp only [if_pos hfirst, if_pos hsecond, if_neg hthird, Option.bind_some,
              Option.bind_none]
            exact (if_neg fun hall => hthird hall.2.2).symm
        · simp only [if_pos hfirst, if_neg hsecond, Option.bind_some, Option.bind_none]
          exact (if_neg fun hall => hsecond hall.2.1).symm
      · simp only [if_neg hfirst, Option.bind_none]
        exact (if_neg fun hall => hfirst hall.1).symm

/-- The version of a parsed name has the code of the name. -/
theorem versionCodeFromRelease_of_parsed {fileName : String} {parsed : ParsedReleasePackageName}
    (h : parseReleasePackageName fileName = .ok parsed) :
    versionCodeFromRelease parsed.releaseVersion = some parsed.versionCode := by
  unfold parseReleasePackageName at h
  dsimp only at h
  split at h
  · cases h
  · split at h
    · split at h
      · rename_i hcode
        cases h
        exact hcode
      · cases h
    · cases h

/-- A normalized key is a name. -/
theorem isNameChar_of_normalizeKey {value key : String} (h : normalizeKey value = .ok key) :
    ∀ char ∈ key.toList, IsNameChar char := by
  unfold normalizeKey at h
  dsimp only at h
  split at h
  · cases h
  · split at h
    · cases h
    · rename_i hall
      obtain rfl := Except.ok.inj h
      rw [Bool.not_eq_true', Bool.not_eq_false] at hall
      intro char hchar
      have hname := List.all_eq_true.mp hall char hchar
      rw [Bool.or_eq_true, Bool.or_eq_true, beq_iff_eq, beq_iff_eq] at hname
      rcases hname with (halnum | hdash) | hunderscore
      · exact .inl halnum
      · exact .inr (.inl hdash)
      · exact .inr (.inr (.inl hunderscore))

/-- `k_version_a_b_c` with an extension. -/
def composedName (key : String) (major minor patch : List Char) (extension : String) : String :=
  String.ofList (key.toList ++ "_version_".toList ++
    (major ++ '_' :: minor ++ '_' :: patch) ++ extension.toList)

/-- The extensions of packages are names. -/
theorem isNameChar_of_mem_extension {extension : String} (h : extension ∈ binaryPackageExtensions) :
    ∀ char ∈ extension.toList, IsNameChar char := by
  have hall : (binaryPackageExtensions.all fun extension => extension.toList.all fun char =>
      char.isAlphanum || char == '-' || char == '_' || char == '.') = true := by decide
  intro char hchar
  have hname := List.all_eq_true.mp (List.all_eq_true.mp hall extension h) char hchar
  simp only [Bool.or_eq_true, beq_iff_eq, or_assoc] at hname
  exact hname

/-- A file name is split before its version, whatever the key contains. -/
theorem rsplitOnceText_version {version : List Char} (h : 'v' ∉ version) (key : List Char) :
    rsplitOnceText "_version_".toList (key ++ "_version_".toList ++ version) =
      some (key, version) := by
  have hpattern : "_version_".toList = '_' :: 'v' :: "ersion_".toList := rfl
  have hfree : 'v' ∉ "ersion_".toList ++ version := by
    rw [List.mem_append, not_or]
    exact ⟨by decide, h⟩
  rw [hpattern]
  exact rsplitOnceText_append (not_infix_cons (by decide) hfree) key

theorem parseReleasePackageName_eq {fileName key releaseVersion : String}
    {serviceKey version : List Char}
    (hsplit : rsplitOnceText "_version_".toList
      (stripBinaryPackageExtension (baseName fileName).toList) = some (serviceKey, version))
    (hkey : normalizeKey (String.ofList serviceKey) = .ok key)
    (hversion : normalizePackageVersion (String.ofList version) = some releaseVersion) :
    parseReleasePackageName fileName =
      (versionCodeFromRelease releaseVersion).elim (.error .invalidPackageVersionName)
        fun code => .ok ⟨key, releaseVersion, code⟩ := by
  unfold parseReleasePackageName
  simp only [hsplit, hkey, hversion]
  cases versionCodeFromRelease releaseVersion <;> rfl

/-- What is composed of a key, three numbers and an extension is parsed into them, if there is a
code for the numbers. -/
theorem parseReleasePackageName_composed {key : String} {major minor patch : List Char}
    {extension : String} (hkey : normalizeKey key = .ok key)
    (hmajor : isVersionPart major = true) (hminor : isVersionPart minor = true)
    (hpatch : isVersionPart patch = true) (hextension : extension ∈ binaryPackageExtensions) :
    parseReleasePackageName (composedName key major minor patch extension) =
      if VersionNumbers.Parses ⟨number major, number minor, number patch⟩ then
        .ok ⟨key, normalizedVersion (major, minor, patch),
          VersionNumbers.packed ⟨number major, number minor, number patch⟩⟩
      else
        .error .invalidPackageVersionName := by
  have hparts := isNameChar_parts hmajor hminor hpatch (.inl (Eq.refl '_'))
  have hname : ∀ char ∈ key.toList ++ "_version_".toList ++
      (major ++ '_' :: minor ++ '_' :: patch) ++ extension.toList, IsNameChar char := by
    intro char hchar
    rw [List.mem_append, List.mem_append, List.mem_append] at hchar
    rcases hchar with ((hchar | hchar) | hchar) | hchar
    · exact isNameChar_of_normalizeKey hkey char hchar
    · have hpattern : ("_version_".toList.all fun char => char.isAlphanum || char == '_') =
          true := by decide
      have hword := List.all_eq_true.mp hpattern char hchar
      rw [Bool.or_eq_true, beq_iff_eq] at hword
      exact hword.imp_right fun h => .inr (.inl h)
    · exact hparts char hchar
    · exact isNameChar_of_mem_extension hextension char hchar
  have hletter : 'v' ∉ major ++ '_' :: minor ++ '_' :: patch := by
    have hfree {part : List Char} (hpart : isVersionPart part = true) : 'v' ∉ part :=
      not_mem_of_isVersionPart hpart (by decide)
    simp [hfree hmajor, hfree hminor, hfree hpatch]
  have hversion : normalizePackageVersion (String.ofList (major ++ '_' :: minor ++ '_' :: patch)) =
      some (normalizedVersion (major, minor, patch)) := by
    rw [normalizePackageVersion, packageVersionParts_underscores hmajor hminor hpatch,
      Option.map_some]
  have hcode : versionCodeFromRelease (normalizedVersion (major, minor, patch)) =
      if VersionNumbers.Parses ⟨number major, number minor, number patch⟩ then
        some (VersionNumbers.packed ⟨number major, number minor, number patch⟩)
      else none := by
    rw [versionCodeFromRelease_eq, numbersOf, packageVersionParts_normalized hmajor hminor hpatch,
      Option.map_some, Option.bind_some]
  have hstem : (baseName (composedName key major minor patch extension)).toList =
      key.toList ++ "_version_".toList ++ (major ++ '_' :: minor ++ '_' :: patch) ++
        extension.toList := by
    rw [composedName, baseName_name hname]
    exact String.toList_ofList
  have hsplit : rsplitOnceText "_version_".toList (stripBinaryPackageExtension
      (baseName (composedName key major minor patch extension)).toList) =
        some (key.toList, major ++ '_' :: minor ++ '_' :: patch) := by
    rw [hstem, stripBinaryPackageExtension_append _ hextension, rsplitOnceText_version hletter]
  rw [parseReleasePackageName_eq hsplit (by rw [String.ofList_toList, hkey]) hversion, hcode]
  by_cases hbound : VersionNumbers.Parses ⟨number major, number minor, number patch⟩
  · rw [if_pos hbound, if_pos hbound, Option.elim_some]
  · rw [if_neg hbound, if_neg hbound, Option.elim_none]

namespace VersionNumbers

variable {left right numbers : VersionNumbers}

/-- The order of the numeric parts. -/
def Before (left right : VersionNumbers) : Prop :=
  left.major < right.major ∨ left.major = right.major ∧
    (left.minor < right.minor ∨ left.minor = right.minor ∧ left.patch < right.patch)

/-- Codes that stand in the order of their versions. -/
def Orders (left right : VersionNumbers) (leftCode rightCode : Int) : Prop :=
  (leftCode < rightCode ↔ left.Before right) ∧ (rightCode < leftCode ↔ right.Before left) ∧
    (leftCode = rightCode ↔ left = right)

/-- Each product and each sum of the packing is an `i64`. -/
def NoOverflow (numbers : VersionNumbers) : Prop :=
  numbers.major * 1000000 < 2 ^ 63 ∧ numbers.minor * 1000 < 2 ^ 63 ∧
    numbers.major * 1000000 + numbers.minor * 1000 < 2 ^ 63 ∧
      numbers.major * 1000000 + numbers.minor * 1000 + numbers.patch < 2 ^ 63

/-- The greatest version with lower parts below a thousand whose code is an `i64`. -/
def greatest : VersionNumbers := ⟨9223372036854, 775, 807⟩

/-- Lower parts below a thousand, and no more than the greatest version. -/
def InRange (numbers : VersionNumbers) : Prop :=
  numbers.minor < 1000 ∧ numbers.patch < 1000 ∧ ¬ greatest.Before numbers

/-- Where two versions differ first, the weight of the difference is more than what the parts
behind it make up for. -/
def Outweighs (left right : VersionNumbers) : Prop :=
  (left.major < right.major → left.minor * 1000 + left.patch <
    (right.major - left.major) * 1000000 + right.minor * 1000 + right.patch) ∧
  (left.major = right.major → left.minor < right.minor →
    left.patch < (right.minor - left.minor) * 1000 + right.patch)

/-- Nothing in the packing overflows if and only if the weight has 63 bits. -/
theorem noOverflow_iff (numbers : VersionNumbers) :
    numbers.NoOverflow ↔ numbers.weight < 2 ^ 63 := by
  unfold NoOverflow weight
  constructor
  · rintro ⟨-, -, -, hsum⟩
    exact hsum
  · intro hsum
    exact ⟨by lia, by lia, by lia, hsum⟩

/-- One version outweighs another one if it has the larger weight wherever it comes behind. -/
theorem outweighs_iff :
    left.Outweighs right ↔ (left.Before right → left.weight < right.weight) := by
  unfold Outweighs Before weight
  constructor
  · rintro ⟨hmajor, hminor⟩ (hlt | ⟨heq, hlt | ⟨heq', hlt⟩⟩)
    · have := hmajor hlt
      lia
    · have := hminor heq hlt
      rw [heq]
      lia
    · rw [heq, heq']
      lia
  · intro h
    constructor
    · intro hlt
      have := h (.inl hlt)
      lia
    · intro heq hlt
      have := h (.inr ⟨heq, .inl hlt⟩)
      rw [heq] at this
      lia

/-- With lower parts below a thousand the first difference decides. -/
theorem outweighs_of_lt (hminor : left.minor < 1000) (hpatch : left.patch < 1000) :
    left.Outweighs right := by
  constructor <;> intros <;> lia

theorem InRange.weight_lt (h : numbers.InRange) : numbers.weight < 2 ^ 63 := by
  obtain ⟨hminor, hpatch, hbound⟩ := h
  unfold Before greatest at hbound
  unfold weight
  dsimp only at hbound
  lia

/-- The version with lower parts below a thousand that has a given weight. -/
def ofWeight (weight : Nat) : VersionNumbers :=
  ⟨weight / 1000000, weight / 1000 % 1000, weight % 1000⟩

@[simp] theorem weight_ofWeight (weight : Nat) : (ofWeight weight).weight = weight := by
  unfold VersionNumbers.weight ofWeight
  dsimp only
  lia

/-- The parts of a weight with 63 bits are in range. -/
theorem inRange_ofWeight {weight : Nat} (h : weight < 2 ^ 63) : (ofWeight weight).InRange := by
  unfold InRange Before greatest ofWeight
  dsimp only
  refine ⟨by lia, by lia, ?_⟩
  lia

/-- Parts that are in range are read. -/
theorem InRange.parses (h : numbers.InRange) : numbers.Parses := by
  have hweight := h.weight_lt
  unfold weight at hweight
  exact ⟨by lia, by lia, by lia⟩

/-- Two versions are equal, or one comes before the other. -/
theorem before_trichotomy (left right : VersionNumbers) :
    left.Before right ∨ left = right ∨ right.Before left := by
  obtain ⟨major, minor, patch⟩ := left
  obtain ⟨major', minor', patch'⟩ := right
  simp only [Before, mk.injEq]
  omega

theorem not_before_self (numbers : VersionNumbers) : ¬ numbers.Before numbers := by
  unfold Before
  omega

theorem not_before_of_before (h : left.Before right) : ¬ right.Before left := by
  unfold Before at *
  omega

/-- Weights order versions just when every first difference outweighs the rest. -/
theorem orders_weight_iff : Orders left right left.weight right.weight ↔
    left.Outweighs right ∧ right.Outweighs left := by
  rw [outweighs_iff, outweighs_iff]
  constructor
  · rintro ⟨hlt, hgt, -⟩
    exact ⟨fun h => Int.ofNat_lt.mp (hlt.mpr h), fun h => Int.ofNat_lt.mp (hgt.mpr h)⟩
  · rintro ⟨hlt, hgt⟩
    rcases before_trichotomy left right with h | rfl | h
    · have hweight := hlt h
      have hne : left ≠ right := by
        rintro rfl
        exact not_before_self _ h
      exact ⟨iff_of_true (by omega) h, iff_of_false (by omega) (not_before_of_before h),
        iff_of_false (by omega) hne⟩
    · exact ⟨iff_of_false (by omega) (not_before_self _),
        iff_of_false (by omega) (not_before_self _), iff_of_true rfl rfl⟩
    · have hweight := hgt h
      have hne : left ≠ right := by
        rintro rfl
        exact not_before_self _ h
      exact ⟨iff_of_false (by omega) (not_before_of_before h), iff_of_true (by omega) h,
        iff_of_false (by omega) hne⟩

end VersionNumbers

theorem wrapping_eq {value : Int} (h : 0 ≤ value) (h' : value < 2 ^ 63) :
    wrapping value = value :=
  BitVec.toInt_ofInt_eq_self (by decide) (by omega) h'

/-- Nothing is cut off a weight with 63 bits. -/
theorem VersionNumbers.packed_eq {numbers : VersionNumbers} (h : numbers.weight < 2 ^ 63) :
    numbers.packed = numbers.weight := by
  unfold weight at *
  have hmajor : wrapping (numbers.major * 1000000) = numbers.major * 1000000 :=
    wrapping_eq (by lia) (by lia)
  have hminor : wrapping (numbers.minor * 1000) = numbers.minor * 1000 :=
    wrapping_eq (by lia) (by lia)
  have hsum : wrapping (numbers.major * 1000000 + numbers.minor * 1000) =
      numbers.major * 1000000 + numbers.minor * 1000 := wrapping_eq (by lia) (by lia)
  rw [packed, packedVersion, hmajor, hminor, hsum]
  exact wrapping_eq (by lia) (by lia)

/-- The numbers of an accepted name or version, with the code computed for it. -/
inductive AcceptedVersion : VersionNumbers → Int → Prop
  | name {fileName : String} {parsed : ParsedReleasePackageName} {numbers : VersionNumbers}
      (hname : parseReleasePackageName fileName = .ok parsed)
      (hnumbers : numbersOf parsed.releaseVersion = some numbers) :
      AcceptedVersion numbers parsed.versionCode
  | version {version : String} {code : Int} {numbers : VersionNumbers}
      (hcode : versionCodeFromRelease version = some code)
      (hnumbers : numbersOf version = some numbers) : AcceptedVersion numbers code

/-- The code of an accepted version is packed from its parts. -/
theorem AcceptedVersion.code_eq {numbers : VersionNumbers} {code : Int}
    (h : AcceptedVersion numbers code) :
    code = numbers.packed := by
  have hversion : ∃ version, versionCodeFromRelease version = some code ∧
      numbersOf version = some numbers := by
    cases h with
    | name hname hnumbers => exact ⟨_, versionCodeFromRelease_of_parsed hname, hnumbers⟩
    | version hcode hnumbers => exact ⟨_, hcode, hnumbers⟩
  obtain ⟨version, hcode, hnumbers⟩ := hversion
  rw [versionCodeFromRelease_eq, hnumbers, Option.bind_some] at hcode
  split at hcode
  · exact (Option.some.inj hcode).symm
  · cases hcode

/-- Numbers of an `i64` are those of an accepted version. -/
theorem exists_acceptedVersion {numbers : VersionNumbers} (h : numbers.Parses) :
    AcceptedVersion numbers numbers.packed := by
  have hpart (value : Nat) : isVersionPart (Nat.toDigits 10 value) = true :=
    isVersionPart_iff.mpr ⟨Nat.toDigits_ne_nil,
      List.all_eq_true.mpr fun _ hchar => isDigit_toDigits hchar⟩
  have hnumbers : numbersOf (normalizedVersion (Nat.toDigits 10 numbers.major,
      Nat.toDigits 10 numbers.minor, Nat.toDigits 10 numbers.patch)) = some numbers := by
    rw [numbersOf, packageVersionParts_normalized (hpart _) (hpart _) (hpart _)]
    simp only [Option.map_some, number, Nat.ofDigitChars_ten_toDigits]
  refine .version ?_ hnumbers
  rw [versionCodeFromRelease_eq, hnumbers, Option.bind_some, if_pos h]

namespace VersionNumbers

variable {left right : VersionNumbers} {leftCode rightCode : Int}

/-- In the range the codes stand in the order of the versions. -/
theorem InRange.orders (hl : left.InRange) (hr : right.InRange)
    (hleft : AcceptedVersion left leftCode) (hright : AcceptedVersion right rightCode) :
    left.Orders right leftCode rightCode := by
  rw [hleft.code_eq, hright.code_eq, packed_eq hl.weight_lt, packed_eq hr.weight_lt]
  exact orders_weight_iff.mpr ⟨outweighs_of_lt hl.1 hl.2.1, outweighs_of_lt hr.1 hr.2.1⟩

/-- A version out of the range shares its code with one in the range. -/
theorem inRange_of_orders (hleft : AcceptedVersion left leftCode) (hfits : left.NoOverflow)
    (horders : ∀ right rightCode, AcceptedVersion right rightCode → right.InRange →
      left.Orders right leftCode rightCode) : left.InRange := by
  have hweight : left.weight < 2 ^ 63 := left.noOverflow_iff.mp hfits
  have hrange := inRange_ofWeight hweight
  have hcode : leftCode = (ofWeight left.weight).packed := by
    rw [hleft.code_eq, packed_eq hweight, packed_eq hrange.weight_lt, weight_ofWeight]
  have hsame := (horders _ _ (exists_acceptedVersion hrange.parses) hrange).2.2.mp hcode
  rw [hsame]
  exact hrange

end VersionNumbers

/-- A composed name is parsed into its key and its version when the numbers are those of an
`i64`. Two accepted versions whose minor and patch numbers are below a thousand and that are no
more than v9223372036854.775.807 have codes in the order of their numbers, computed without an
overflow; and a version is in this range exactly when its code is computed without an overflow
and stands in the right order to that of every accepted version in the range. -/
theorem version_codes_order (key : String) (major minor patch : List Char) (extension : String)
    (left right : VersionNumbers) (leftCode rightCode : Int) :
    (normalizeKey key = .ok key → isVersionPart major = true → isVersionPart minor = true →
      isVersionPart patch = true → extension ∈ binaryPackageExtensions →
        ((∃ code, parseReleasePackageName (composedName key major minor patch extension) =
            .ok ⟨key, normalizedVersion (major, minor, patch), code⟩) ↔
          number major < 2 ^ 63 ∧ number minor < 2 ^ 63 ∧ number patch < 2 ^ 63)) ∧
    (AcceptedVersion left leftCode → AcceptedVersion right rightCode → left.InRange →
      right.InRange → left.Orders right leftCode rightCode ∧ left.NoOverflow ∧
        right.NoOverflow) ∧
    (AcceptedVersion left leftCode → (left.InRange ↔ left.NoOverflow ∧
      ∀ other otherCode, AcceptedVersion other otherCode → other.InRange →
        left.Orders other leftCode otherCode)) := by
  refine ⟨?_, ?_, ?_⟩
  · intro hkey hmajor hminor hpatch hextension
    rw [parseReleasePackageName_composed hkey hmajor hminor hpatch hextension]
    by_cases hbound : VersionNumbers.Parses ⟨number major, number minor, number patch⟩
    · rw [if_pos hbound]
      exact iff_of_true ⟨_, rfl⟩ hbound
    · rw [if_neg hbound]
      refine iff_of_false ?_ hbound
      rintro ⟨code, hcode⟩
      cases hcode
  · intro hleft hright hl hr
    exact ⟨hl.orders hr hleft hright, left.noOverflow_iff.mpr hl.weight_lt,
      right.noOverflow_iff.mpr hr.weight_lt⟩
  · intro hleft
    constructor
    · intro hl
      exact ⟨left.noOverflow_iff.mpr hl.weight_lt, fun other otherCode hother hr =>
        hl.orders hr hleft hother⟩
    · rintro ⟨hfits, horders⟩
      exact VersionNumbers.inRange_of_orders hleft hfits horders

/-- The package shop_version_1_9_12.zip comes before v1.10.0. -/
theorem version_codes_order_shop :
    (∃ code, parseReleasePackageName "shop_version_1_9_12.zip" = .ok ⟨"shop", "v1.9.12", code⟩) ∧
      ((1009012 : Int) < 1010000 ↔ VersionNumbers.Before ⟨1, 9, 12⟩ ⟨1, 10, 0⟩) := by
  have hall := version_codes_order "shop" ['1'] ['9'] ['1', '2'] ".zip" ⟨1, 9, 12⟩ ⟨1, 10, 0⟩
    1009012 1010000
  have hleft : AcceptedVersion ⟨1, 9, 12⟩ 1009012 :=
    @AcceptedVersion.version "v1.9.12" _ _ (by decide +kernel) (by decide +kernel)
  have hright : AcceptedVersion ⟨1, 10, 0⟩ 1010000 :=
    @AcceptedVersion.version "v1.10.0" _ _ (by decide +kernel) (by decide +kernel)
  have hrange (minor patch : Nat) (hminor : minor < 1000) (hpatch : patch < 1000) :
      VersionNumbers.InRange ⟨1, minor, patch⟩ := by
    refine ⟨hminor, hpatch, ?_⟩
    unfold VersionNumbers.Before VersionNumbers.greatest
    dsimp only
    omega
  have hname : composedName "shop" ['1'] ['9'] ['1', '2'] ".zip" = "shop_version_1_9_12.zip" := by
    decide +kernel
  have hversion : normalizedVersion (['1'], ['9'], ['1', '2']) = "v1.9.12" := by decide +kernel
  have hparsed := (hall.1 (by decide +kernel) (by decide +kernel) (by decide +kernel)
    (by decide +kernel) (by decide +kernel)).mpr
      ⟨by decide +kernel, by decide +kernel, by decide +kernel⟩
  rw [hname, hversion] at hparsed
  exact ⟨hparsed, (hall.2.1 hleft hright (hrange 9 12 (by omega) (by omega))
    (hrange 10 0 (by omega) (by omega))).1.1⟩

/-- A patch of a thousand has the code of the next minor version. -/
theorem thousandth_patch_collides :
    ¬ ∀ (left right : VersionNumbers) (leftCode rightCode : Int), AcceptedVersion left leftCode →
      AcceptedVersion right rightCode → left.Orders right leftCode rightCode ∧ left.NoOverflow ∧
        right.NoOverflow := by
  intro h
  have hleft : AcceptedVersion ⟨1, 0, 1000⟩ 1001000 :=
    @AcceptedVersion.version "v1.0.1000" _ _ (by decide +kernel) (by decide +kernel)
  have hright : AcceptedVersion ⟨1, 1, 0⟩ 1001000 :=
    @AcceptedVersion.version "v1.1.0" _ _ (by decide +kernel) (by decide +kernel)
  have horders := (h _ _ _ _ hleft hright).1.2.2.mp rfl
  cases horders

end EasyDeploy.Apps
