import EasyDeploy.Foundation.Urls
import EasyDeploy.Foundation.Trimming

/-!
# Keys of uploaded objects

The identifier of an upload session is a segment of the key of its object, so
that no two sessions share an object, whatever the prefix of the platform was
when they were created.
-/

namespace EasyDeploy.Uploads
open Foundation

/-- The characters that a segment keeps. -/
def isSegmentChar (char : Char) : Bool := char.isAlphanum || ['.', '-', '_', '@'].contains char

/-- The last component of a text without the characters that keys do not have. -/
def safeObjectSegment (value : String) : String :=
  String.ofList (((trim value).toList.rtakeWhile fun char =>
    char != '/' && char != '\\').filter isSegmentChar)

/-- `trim_matches('/')`. -/
def trimSlashes (value : String) : String :=
  String.ofList ((value.toList.dropWhile (· == '/')).rdropWhile (· == '/'))

/-- The key of an upload's object. -/
def uploadObjectKey (objectPrefix appKey releaseVersion uploadId fileName : String) : String :=
  let head := trimSlashes objectPrefix
  let appKey := safeObjectSegment appKey
  let releaseVersion := safeObjectSegment releaseVersion
  let uploadId := safeObjectSegment uploadId
  let fileName := safeObjectSegment fileName
  if head.isEmpty then
    appKey ++ "/" ++ releaseVersion ++ "/uploads/" ++ uploadId ++ "/" ++ fileName
  else
    head ++ "/" ++ appKey ++ "/" ++ releaseVersion ++ "/uploads/" ++ uploadId ++ "/" ++ fileName

/-- Two hexadecimal digits of a byte. -/
def hexByte (byte : Fin 256) : List Char :=
  [Nat.digitChar (byte.val / 16), Nat.digitChar (byte.val % 16)]

/-- The identifier of a session. -/
def generatedReleaseUploadId (millis : Nat) (random : List (Fin 256)) : String :=
  "upload-" ++ toString millis ++ "-" ++ String.ofList (random.flatMap hexByte)

/-- What identifiers are made of. -/
def IsIdChar (char : Char) : Prop := char.isAlphanum = true ∨ char = '-'

theorem not_isSlash {char : Char} (h : IsIdChar char) : char ≠ '/' ∧ char ≠ '\\' := by
  constructor
  · rintro rfl
    rcases h with h | h <;> cases h
  · rintro rfl
    rcases h with h | h <;> cases h

theorem isWhitespace_of_isIdChar {char : Char} (h : IsIdChar char) : isWhitespace char = false := by
  rcases h with h | rfl
  · have halpha : char.isAlpha = (char.isUpper || char.isLower) := rfl
    rw [Char.isAlphanum, halpha, Bool.or_eq_true, Bool.or_eq_true, isUpper_iff, isLower_iff,
      Char.isDigit_iff_toNat] at h
    simp only [isWhitespace, Bool.or_eq_false_iff, Bool.and_eq_false_iff, decide_eq_false_iff_not,
      beq_eq_false_iff_ne]
    have hzero : '0'.toNat = 48 := rfl
    have hnine : '9'.toNat = 57 := rfl
    omega
  · rfl

/-- An identifier is a segment as it is. -/
theorem safeObjectSegment_id {id : String} (h : ∀ char ∈ id.toList, IsIdChar char) :
    safeObjectSegment id = id := by
  have htrim : trim id = id := trim_eq_self_iff.mpr
    ⟨fun char hchar => isWhitespace_of_isIdChar (h char (List.mem_of_mem_head? hchar)),
      fun char hchar => isWhitespace_of_isIdChar (h char (List.mem_of_mem_getLast? hchar))⟩
  have hkept : id.toList.rtakeWhile (fun char => char != '/' && char != '\\') = id.toList := by
    refine List.rtakeWhile_eq_self_iff.mpr fun char hchar => ?_
    rw [Bool.and_eq_true, bne_iff_ne, bne_iff_ne]
    exact not_isSlash (h char hchar)
  have hfilter : id.toList.filter isSegmentChar = id.toList := by
    refine List.filter_eq_self.mpr fun char hchar => ?_
    rcases h char hchar with halnum | rfl
    · rw [isSegmentChar, halnum, Bool.true_or]
    · rfl
  rw [safeObjectSegment, htrim, hkept, hfilter, String.ofList_toList]

theorem slash_not_mem_safeObjectSegment (value : String) :
    '/' ∉ (safeObjectSegment value).toList := by
  rw [safeObjectSegment, String.toList_ofList, List.mem_filter]
  rintro ⟨-, hkept⟩
  cases hkept

theorem isIdChar_generatedReleaseUploadId (millis : Nat) (random : List (Fin 256)) :
    ∀ char ∈ (generatedReleaseUploadId millis random).toList, IsIdChar char := by
  have hdigit : ∀ digit : Fin 16, (Nat.digitChar digit.val).isAlphanum = true := by decide
  intro char hchar
  rw [generatedReleaseUploadId, String.toList_append, String.toList_append, String.toList_append,
    List.mem_append, List.mem_append, List.mem_append] at hchar
  rcases hchar with ((hchar | hchar) | hchar) | hchar
  · have hword : ("upload-".toList.all fun char => char.isAlphanum || char == '-') = true := by
      decide
    have hletter := List.all_eq_true.mp hword char hchar
    rw [Bool.or_eq_true, beq_iff_eq] at hletter
    exact hletter
  · rw [Nat.toString_eq_repr, Nat.toList_repr] at hchar
    exact .inl (by rw [Char.isAlphanum, isDigit_toDigits hchar, Bool.or_true])
  · exact .inr (List.mem_singleton.mp hchar)
  · rw [String.toList_ofList, List.mem_flatMap] at hchar
    obtain ⟨byte, -, hchar⟩ := hchar
    rcases List.mem_cons.mp hchar with rfl | hchar
    · exact .inl (hdigit ⟨byte.val / 16, by omega⟩)
    · rw [List.mem_singleton.mp hchar]
      exact .inl (hdigit ⟨byte.val % 16, by omega⟩)

/-- The key of an object names its session in the last but one segment. -/
def NamesUpload (objectKey uploadId : String) : Prop :=
  ∃ directory fileName, objectKey.toList = directory ++ '/' :: uploadId.toList ++ '/' :: fileName ∧
    '/' ∉ uploadId.toList ∧ '/' ∉ fileName

theorem NamesUpload.eq {objectKey uploadId uploadId' : String} (h : NamesUpload objectKey uploadId)
    (h' : NamesUpload objectKey uploadId') : uploadId = uploadId' := by
  obtain ⟨directory, fileName, heq, hid, hfile⟩ := h
  obtain ⟨directory', fileName', heq', hid', hfile'⟩ := h'
  have hsplit := @rsplitOnce_append '/' (directory ++ '/' :: uploadId.toList) fileName hfile
  rw [← heq, heq', rsplitOnce_append hfile', Option.some.injEq, Prod.mk.injEq] at hsplit
  have hsplit' := @rsplitOnce_append '/' directory uploadId.toList hid
  rw [← hsplit.1, rsplitOnce_append hid', Option.some.injEq, Prod.mk.injEq] at hsplit'
  exact String.toList_inj.mp hsplit'.2.symm

theorem namesUpload_uploadObjectKey (objectPrefix appKey releaseVersion fileName : String)
    (millis : Nat) (random : List (Fin 256)) :
    NamesUpload (uploadObjectKey objectPrefix appKey releaseVersion
      (generatedReleaseUploadId millis random) fileName)
      (generatedReleaseUploadId millis random) := by
  have hid := safeObjectSegment_id (isIdChar_generatedReleaseUploadId millis random)
  have hslash := slash_not_mem_safeObjectSegment (generatedReleaseUploadId millis random)
  rw [hid] at hslash
  have hfile := slash_not_mem_safeObjectSegment fileName
  unfold uploadObjectKey NamesUpload
  dsimp only
  rw [hid]
  split
  · refine ⟨(safeObjectSegment appKey ++ "/" ++ safeObjectSegment releaseVersion ++
      "/uploads").toList, (safeObjectSegment fileName).toList, ?_, hslash, hfile⟩
    simp
  · refine ⟨(trimSlashes objectPrefix ++ "/" ++ safeObjectSegment appKey ++ "/" ++
      safeObjectSegment releaseVersion ++ "/uploads").toList,
      (safeObjectSegment fileName).toList, ?_, hslash, hfile⟩
    simp

end EasyDeploy.Uploads
