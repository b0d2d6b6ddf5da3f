import EasyDeploy.Foundation.Sequences
import Mathlib.Data.List.Find
import Mathlib.Data.List.Infix
import Mathlib.Data.List.TakeWhile
import Mathlib.Order.Basic

/-!
# The streaming redactor of deployment logs

`StreamingRedactor` replaces declared secrets and the values of sensitive
assignments while the log arrives in chunks. Bytes are `UInt8`, byte vectors
are lists, and a secret is the byte vector that `String::into_bytes` gives.
-/

namespace EasyDeploy.Retention
open Foundation

/-- A text of the log. -/
abbrev Bytes := List UInt8

/-- The bytes of an ASCII byte-string literal. -/
def ascii (text : String) : Bytes := text.toList.map fun c => c.toNat.toUInt8

/-- The text put in place of a secret or of an assignment value. -/
def redactedMark : Bytes := ascii "[REDACTED]"

/-- `u8::is_ascii_whitespace`: space, tab, line feed, form feed, carriage return. -/
def isAsciiWhitespace (byte : UInt8) : Bool :=
  byte == 32 || byte == 9 || byte == 10 || byte == 12 || byte == 13

/-- `u8::to_ascii_lowercase`. -/
def toAsciiLowercase (byte : UInt8) : UInt8 :=
  if 65 ≤ byte ∧ byte ≤ 90 then byte + 32 else byte

/-- Equality but for the case of letters. -/
def eqIgnoreAsciiCase (left right : Bytes) : Bool :=
  left.map toAsciiLowercase == right.map toAsciiLowercase

/-- Line feed, carriage return, single and double quote, comma, ampersand. -/
def isAssignmentTerminator (byte : UInt8) : Bool :=
  byte == 10 || byte == 13 || byte == 39 || byte == 34 || byte == 44 || byte == 38

/-- An equals sign or a colon. -/
def isSeparator (byte : UInt8) : Bool := byte == 61 || byte == 58

/-- The four sensitive keys, in the order in which they are tried. -/
def sensitiveKeys : List Bytes :=
  [ascii "password", ascii "token", ascii "secret", ascii "authorization"]

/-- The number of leading whitespace bytes. -/
def whitespaceLen (value : Bytes) : Nat := (value.takeWhile isAsciiWhitespace).length

/-- Where the separator stands when `value` starts with `key`, optional
whitespace and a separator. -/
def separatorOffset (value key : Bytes) : Option Nat :=
  if value.length < key.length || !eqIgnoreAsciiCase (value.take key.length) key then
    none
  else
    let offset := key.length + whitespaceLen (value.drop key.length)
    match value[offset]? with
    | some byte => if isSeparator byte then some offset else none
    | none => none

/-- The separator of the first sensitive key that `value` starts with. -/
def sensitiveSeparator (value : Bytes) : Option Nat :=
  sensitiveKeys.findSome? (separatorOffset value)

/-- The length of a sensitive assignment's key, separator and the whitespace
around the separator. -/
def sensitiveAssignmentPrefix (value : Bytes) : Option Nat :=
  (sensitiveSeparator value).map fun offset =>
    offset + 1 + whitespaceLen (value.drop (offset + 1))

/-- The secrets and what has not been decided yet. -/
structure StreamingRedactor where
  secrets : List Bytes
  pending : Bytes
  overlap : Nat
  maskingAssignment : Bool
deriving Repr, DecidableEq

/-- Non-empty secrets, longest first, without repetitions. -/
def orderedSecrets (secrets : List Bytes) : List Bytes :=
  dedup ((secrets.filter fun secret => !secret.isEmpty).mergeSort
    fun left right => decide (right.length ≤ left.length))

/-- How many bytes are held back: one less than the longest secret, and at least 256. -/
def overlapOf (secrets : List Bytes) : Nat :=
  max ((((secrets.map List.length).max?).getD 1) - 1) 256

namespace StreamingRedactor

/-- The redactor of a list of secrets. -/
def new (secrets : List Bytes) : StreamingRedactor :=
  let secrets := orderedSecrets secrets
  { secrets, pending := [], overlap := overlapOf secrets, maskingAssignment := false }

/-- The loop variables of `process`. -/
structure Cursor where
  offset : Nat
  maskingAssignment : Bool
  output : Bytes
deriving Repr, DecidableEq

/-- One round of the loop of `process`; `none` is its `break`. -/
def processRound (redactor : StreamingRedactor) (finalChunk : Bool) (safeEnd : Nat)
    (cursor : Cursor) : Option Cursor :=
  let rest := redactor.pending.drop cursor.offset
  if cursor.maskingAssignment then
    let byte := rest.headD 0
    if isAssignmentTerminator byte then
      some ⟨cursor.offset + 1, false, cursor.output ++ [byte]⟩
    else
      some ⟨cursor.offset + 1, true, cursor.output⟩
  else
    match redactor.secrets.find? fun secret => secret.isPrefixOf rest with
    | some secret =>
        some ⟨cursor.offset + secret.length, false, cursor.output ++ redactedMark⟩
    | none =>
        match sensitiveAssignmentPrefix rest with
        | some prefixLen =>
            if cursor.offset + prefixLen > safeEnd && !finalChunk then
              none
            else
              some ⟨cursor.offset + prefixLen, true,
                cursor.output ++ rest.take prefixLen ++ redactedMark⟩
        | none => some ⟨cursor.offset + 1, false, cursor.output ++ [rest.headD 0]⟩

/-- The loop `while offset < safe_end`. Every round moves the cursor, so
`safeEnd` rounds are enough. -/
def processLoop (redactor : StreamingRedactor) (finalChunk : Bool) (safeEnd : Nat) :
    Nat → Cursor → Cursor
  | 0, cursor => cursor
  | rounds + 1, cursor =>
      if cursor.offset < safeEnd then
        match redactor.processRound finalChunk safeEnd cursor with
        | some next => redactor.processLoop finalChunk safeEnd rounds next
        | none => cursor
      else
        cursor

/-- The offset before which a decision may be taken: everything for the final
chunk, else all but the held back bytes. -/
def safeEnd (redactor : StreamingRedactor) (finalChunk : Bool) : Nat :=
  if finalChunk then redactor.pending.length else redactor.pending.length - redactor.overlap

/-- The bytes that can be decided. -/
def process (redactor : StreamingRedactor) (finalChunk : Bool) : Bytes × StreamingRedactor :=
  let safeEnd := redactor.safeEnd finalChunk
  let cursor := redactor.processLoop finalChunk safeEnd safeEnd
    ⟨0, redactor.maskingAssignment, []⟩
  (cursor.output,
    { redactor with
      pending := redactor.pending.drop cursor.offset
      maskingAssignment := cursor.maskingAssignment })

/-- The bytes that a chunk decides. -/
def push (redactor : StreamingRedactor) (chunk : Bytes) : Bytes × StreamingRedactor :=
  { redactor with pending := redactor.pending ++ chunk }.process false

/-- The bytes that are left. -/
def finish (redactor : StreamingRedactor) : Bytes × StreamingRedactor :=
  redactor.process true

/-- Push the chunks one after the other and collect what is shown. -/
def pushAll (redactor : StreamingRedactor) : List Bytes → Bytes × StreamingRedactor
  | [] => ([], redactor)
  | chunk :: chunks =>
      let (output, redactor) := redactor.push chunk
      let (outputs, redactor) := redactor.pushAll chunks
      (output ++ outputs, redactor)

end StreamingRedactor

/-- All that a redactor for `secrets` shows of a stream that arrives in `chunks`. -/
def redactChunks (secrets : List Bytes) (chunks : List Bytes) : Bytes :=
  let (output, redactor) := (StreamingRedactor.new secrets).pushAll chunks
  output ++ redactor.finish.1

example : redactChunks [ascii "very-sensitive"] [ascii "a=very-sensi", ascii "tive\ntoken: x\n"] =
    ascii "a=[REDACTED]\ntoken: [REDACTED]\n" := by decide +kernel

end EasyDeploy.Retention
