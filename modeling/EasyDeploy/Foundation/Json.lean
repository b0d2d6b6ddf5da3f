import Mathlib.Data.List.Basic

/-!
# JSON values

Values without fractions, with what derived serialization makes of a structure:
an object with one field for each of its fields. Reading a structure back takes
the fields by their names, ignores unknown ones and refuses missing and repeated
ones.
-/

namespace EasyDeploy.Foundation

/-- The values of a document. -/
inductive Json
  | null
  | bool (value : Bool)
  | int (value : Int)
  | string (text : String)
  | array (elements : List Json)
  | object (fields : List (String × Json))
deriving Repr

/-- A writer and a reader of JSON text. -/
structure JsonText where
  toString : Json → Except String String
  fromStr : String → Except String Json

/-- Reading gives the value that was written. -/
def JsonText.RoundTrips (text : JsonText) : Prop :=
  ∀ value written, text.toString value = .ok written → text.fromStr written = .ok value

namespace Json

mutual

/-- Equality of values. -/
def decEq : (left right : Json) → Decidable (left = right)
  | null, null => isTrue rfl
  | bool value, bool value' =>
      if h : value = value' then isTrue (congrArg bool h) else isFalse fun heq => h (bool.inj heq)
  | int value, int value' =>
      if h : value = value' then isTrue (congrArg int h) else isFalse fun heq => h (int.inj heq)
  | string text, string text' =>
      if h : text = text' then isTrue (congrArg string h)
      else isFalse fun heq => h (string.inj heq)
  | array elements, array elements' =>
      match decEqElements elements elements' with
      | isTrue h => isTrue (congrArg array h)
      | isFalse h => isFalse fun heq => h (array.inj heq)
  | object fields, object fields' =>
      match decEqFields fields fields' with
      | isTrue h => isTrue (congrArg object h)
      | isFalse h => isFalse fun heq => h (object.inj heq)
  | null, bool _ | null, int _ | null, string _ | null, array _ | null, object _
  | bool _, null | bool _, int _ | bool _, string _ | bool _, array _ | bool _, object _
  | int _, null | int _, bool _ | int _, string _ | int _, array _ | int _, object _
  | string _, null | string _, bool _ | string _, int _ | string _, array _ | string _, object _
  | array _, null | array _, bool _ | array _, int _ | array _, string _ | array _, object _
  | object _, null | object _, bool _ | object _, int _ | object _, string _
  | object _, array _ => isFalse nofun

/-- Equality of arrays. -/
def decEqElements : (left right : List Json) → Decidable (left = right)
  | [], [] => isTrue rfl
  | [], _ :: _ | _ :: _, [] => isFalse nofun
  | first :: rest, first' :: rest' =>
      match decEq first first', decEqElements rest rest' with
      | isTrue h, isTrue h' => isTrue (by rw [h, h'])
      | isFalse h, _ => isFalse fun heq => h (List.cons.inj heq).1
      | _, isFalse h => isFalse fun heq => h (List.cons.inj heq).2

/-- Equality of objects. -/
def decEqFields : (left right : List (String × Json)) → Decidable (left = right)
  | [], [] => isTrue rfl
  | [], _ :: _ | _ :: _, [] => isFalse nofun
  | (name, value) :: rest, (name', value') :: rest' =>
      if hname : name = name' then
        match decEq value value', decEqFields rest rest' with
        | isTrue h, isTrue h' => isTrue (by rw [hname, h, h'])
        | isFalse h, _ => isFalse fun heq => h (Prod.mk.inj (List.cons.inj heq).1).2
        | _, isFalse h => isFalse fun heq => h (List.cons.inj heq).2
      else isFalse fun heq => hname (Prod.mk.inj (List.cons.inj heq).1).1

end

instance : DecidableEq Json := decEq

mutual

/-- Whether the fields of every object stand in the order of their names, each name once. -/
def sorted : Json → Bool
  | array elements => sortedElements elements
  | object fields => sortedFields fields
  | null | bool _ | int _ | string _ => true

/-- The same of elements. -/
def sortedElements : List Json → Bool
  | [] => true
  | element :: rest => sorted element && sortedElements rest

/-- The names ascend, and all values are sorted. -/
def sortedFields : List (String × Json) → Bool
  | [] => true
  | (name, value) :: rest =>
      sorted value && rest.all (fun entry => name < entry.1) && sortedFields rest

end

/-- Set a field among fields that stand in the order of their names. -/
def insertField (name : String) (field : Json) : List (String × Json) → List (String × Json)
  | [] => [(name, field)]
  | entry :: rest =>
      if name < entry.1 then (name, field) :: entry :: rest
      else if name = entry.1 then (name, field) :: rest
      else entry :: insertField name field rest

theorem mem_insertField {name : String} {field : Json} {fields : List (String × Json)}
    {entry : String × Json} (h : entry ∈ insertField name field fields) :
    entry = (name, field) ∨ entry ∈ fields := by
  induction fields with
  | nil => exact .inl (List.mem_singleton.mp h)
  | cons first rest ih =>
      rw [insertField] at h
      split at h
      · exact List.mem_cons.mp h
      · split at h
        · exact (List.mem_cons.mp h).imp_right (List.mem_cons_of_mem _)
        · rcases List.mem_cons.mp h with rfl | h
          · exact .inr List.mem_cons_self
          · exact (ih h).imp_right (List.mem_cons_of_mem _)

/-- Only the field that is set changes. -/
theorem find?_insertField {name : String} {field : Json} (fields : List (String × Json))
    (key : String) :
    ((insertField name field fields).find? fun entry => entry.1 == key).map (·.2) =
      if name = key then some field
      else (fields.find? fun entry => entry.1 == key).map (·.2) := by
  induction fields with
  | nil => by_cases hkey : name = key <;> simp [insertField, hkey]
  | cons first rest ih =>
      rw [insertField]
      split
      · by_cases hkey : name = key <;> simp [hkey]
      · split
        · rename_i hsame
          by_cases hkey : name = key <;> simp [hkey, ← hsame]
        · rename_i hne
          rw [List.find?_cons, List.find?_cons]
          by_cases hfirst : first.1 = key
          · rw [beq_iff_eq.mpr hfirst, if_neg fun hkey => hne (hkey.trans hfirst.symm)]
          · rw [beq_false_of_ne hfirst]
            exact ih

theorem sortedFields_cons_iff {entry : String × Json} {rest : List (String × Json)} :
    sortedFields (entry :: rest) = true ↔ sorted entry.2 = true ∧
      (∀ other ∈ rest, entry.1 < other.1) ∧ sortedFields rest = true := by
  rw [sortedFields, Bool.and_eq_true, Bool.and_eq_true, List.all_eq_true, and_assoc]
  simp only [decide_eq_true_eq]

theorem sortedFields_insertField {name : String} {field : Json} {fields : List (String × Json)}
    (h : sortedFields fields = true) (hfield : sorted field = true) :
    sortedFields (insertField name field fields) = true := by
  induction fields with
  | nil => exact sortedFields_cons_iff.mpr ⟨hfield, List.forall_mem_nil _, rfl⟩
  | cons first rest ih =>
      obtain ⟨hvalue, hbehind, hrest⟩ := sortedFields_cons_iff.mp h
      rw [insertField]
      split
      · rename_i hbefore
        refine sortedFields_cons_iff.mpr ⟨hfield, fun other hother => ?_, h⟩
        rcases List.mem_cons.mp hother with rfl | hother
        · exact hbefore
        · exact String.lt_trans hbefore (hbehind other hother)
      · split
        · rename_i hsame
          exact sortedFields_cons_iff.mpr
            ⟨hfield, fun other hother => hsame ▸ hbehind other hother, hrest⟩
        · rename_i hnot hne
          refine sortedFields_cons_iff.mpr ⟨hvalue, fun other hother => ?_, ih hrest⟩
          rcases mem_insertField hother with rfl | hother
          · apply Decidable.byContradiction
            intro hafter
            exact hne (String.le_antisymm (String.not_lt.mp hafter) (String.not_lt.mp hnot))
          · exact hbehind other hother

/-- The value of a field. -/
def field (name : String) : Json → Except String Json
  | object fields =>
      match fields.filter fun entry => entry.1 == name with
      | [] => .error s!"missing field `{name}`"
      | [entry] => .ok entry.2
      | _ => .error s!"duplicate field `{name}`"
  | _ => .error "invalid type: expected a map"

/-- The value of a field that may be missing. -/
def optionalField (name : String) : Json → Except String Json
  | object fields =>
      if fields.any fun entry => entry.1 == name then field name (object fields) else .ok null
  | value => field name value

/-- A number, or an error. -/
def asInt : Json → Except String Int
  | int value => .ok value
  | _ => .error "invalid type: expected an integer"

/-- A text, or an error. -/
def asString : Json → Except String String
  | string text => .ok text
  | _ => .error "invalid type: expected a string"

/-- An array, or an error. -/
def asArray : Json → Except String (List Json)
  | array elements => .ok elements
  | _ => .error "invalid type: expected a sequence"

/-- A missing value is null. -/
def ofOption {α : Type} (write : α → Json) : Option α → Json
  | none => null
  | some value => write value

/-- Something or nothing. -/
def asOption {α : Type} (read : Json → Except String α) : Json → Except String (Option α)
  | null => .ok none
  | value => (read value).map some

/-- A hexadecimal digit. -/
def hexDigit (value : Nat) : Char :=
  if value < 10 then Char.ofNat ('0'.toNat + value) else Char.ofNat ('a'.toNat + (value - 10))

/-- How a character is written in a string. -/
def escape (char : Char) : List Char :=
  if char = '"' then ['\\', '"']
  else if char = '\\' then ['\\', '\\']
  else if char.toNat = 8 then ['\\', 'b']
  else if char.toNat = 9 then ['\\', 't']
  else if char.toNat = 10 then ['\\', 'n']
  else if char.toNat = 12 then ['\\', 'f']
  else if char.toNat = 13 then ['\\', 'r']
  else if char.toNat < 32 then
    ['\\', 'u', '0', '0', hexDigit (char.toNat / 16), hexDigit (char.toNat % 16)]
  else [char]

/-- A text between quotes. -/
def quoted (text : String) : List Char := '"' :: text.toList.flatMap escape ++ ['"']

mutual

/-- The text without blanks that `serde_json::to_string` writes. -/
def compact : Json → List Char
  | null => "null".toList
  | bool value => (if value then "true" else "false").toList
  | int value => (toString value).toList
  | string text => quoted text
  | array elements => '[' :: compactElements elements ++ [']']
  | object fields => Char.ofNat 123 :: compactFields fields ++ [Char.ofNat 125]

/-- The elements of an array without blanks. -/
def compactElements : List Json → List Char
  | [] => []
  | [element] => compact element
  | element :: elements => compact element ++ ',' :: compactElements elements

/-- The fields of an object without blanks. -/
def compactFields : List (String × Json) → List Char
  | [] => []
  | [(name, value)] => quoted name ++ ':' :: compact value
  | (name, value) :: fields => quoted name ++ ':' :: compact value ++ ',' :: compactFields fields

end

section Lemmas

variable {α : Type} {write : α → Json} {read : Json → Except String α}

/-- Reading every element gives back what was written. -/
theorem mapM_map (hread : ∀ value, read (write value) = .ok value) (values : List α) :
    (values.map write).mapM read = .ok values := by
  induction values with
  | nil => rfl
  | cons value rest ih =>
      rw [List.map_cons, List.mapM_cons, hread value, ih]
      rfl

end Lemmas

end Json

/-- A reader and a writer of values whose objects are ordered maps: what is read is sorted, and
sorted values that were written are read back. -/
structure JsonText.KeepsValues (text : JsonText) : Prop where
  sorted : ∀ content value, text.fromStr content = .ok value → value.sorted = true
  roundTrips : ∀ value content, value.sorted = true → text.toString value = .ok content →
    text.fromStr content = .ok value

end EasyDeploy.Foundation
