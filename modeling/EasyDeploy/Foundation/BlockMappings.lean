import EasyDeploy.Foundation.Json
import EasyDeploy.Foundation.QuotedScalars
import EasyDeploy.Foundation.Urls

/-!
# Block mappings of YAML

Documents of two levels: a mapping of scalars, of sequences of flat mappings and of flat
mappings. Strings are double-quoted, integers and truth values are plain.
-/

namespace EasyDeploy.Foundation.Yaml

/-- The characters of keys. -/
def isKeyChar (char : Char) : Bool := char.isAlphanum || char == '_'

/-- A number, if all characters are digits. -/
def readInt : List Char → Option Int
  | '-' :: digits => (parseDigits digits).map fun number => -(number : Int)
  | digits => (parseDigits digits).map fun number => (number : Int)

/-- Plain truth values and integers without leading zeros; other plain scalars are not read here. -/
def readPlain (text : List Char) : Option Json :=
  if text = "true".toList then some (.bool true)
  else if text = "false".toList then some (.bool false)
  else ((readInt text).filter fun value => (toString value).toList = text).map .int

/-- The scalar behind a colon, with the line that follows. -/
def readScalar : List Char → Option (Json × List Char)
  | ' ' :: '"' :: rest =>
      match readQuoted (.blanks []) .line .text rest with
      | some (value, '\n' :: rest) => some (.string (String.ofList value), rest)
      | _ => none
  | ' ' :: rest =>
      match rest.dropWhile (· != '\n') with
      | '\n' :: after => (readPlain (rest.takeWhile (· != '\n'))).map fun value => (value, after)
      | _ => none
  | _ => none

/-- The next field. -/
def readField (text : List Char) : Option ((String × Json) × List Char) :=
  match text.dropWhile isKeyChar with
  | ':' :: rest => (readScalar rest).map fun read =>
      ((String.ofList (text.takeWhile isKeyChar), read.1), read.2)
  | _ => none

/-- The fields of a flat mapping: the lines that start with a key behind the indentation. -/
def readFields (indent : Nat) : Nat → List Char → Option (List (String × Json) × List Char)
  | 0, _ => none
  | fuel + 1, text =>
      if List.replicate indent ' ' <+: text ∧ (text.drop indent).head?.any isKeyChar then
        (readField (text.drop indent)).bind fun field =>
          (readFields indent fuel field.2).map fun fields => (field.1 :: fields.1, fields.2)
      else some ([], text)

/-- The items of a sequence of flat mappings. -/
def readItems (indent : Nat) : Nat → List Char → Option (List Json × List Char)
  | 0, _ => none
  | fuel + 1, text =>
      if List.replicate indent ' ' ++ ['-', ' '] <+: text then
        (readField (text.drop (indent + 2))).bind fun first =>
          (readFields (indent + 2) fuel first.2).bind fun others =>
            (readItems indent fuel others.2).map fun items =>
              (.object (first.1 :: others.1) :: items.1, items.2)
      else some ([], text)

/-- What stands on the lines below a key. -/
def readBlock (fuel : Nat) (text : List Char) : Option (Json × List Char) :=
  let indent := (text.takeWhile (· == ' ')).length
  match text.drop indent with
  | '-' :: ' ' :: _ => (readItems indent fuel text).map fun read => (.array read.1, read.2)
  | char :: _ =>
      if 0 < indent ∧ isKeyChar char then
        (readFields indent fuel text).map fun read => (.object read.1, read.2)
      else some (.null, text)
  | [] => some (.null, text)

/-- The entries up to the end of the text. -/
def readEntries : Nat → List Char → Option (List (String × Json))
  | _, [] => some []
  | 0, _ :: _ => none
  | fuel + 1, text =>
      match text.dropWhile isKeyChar with
      | ':' :: '\n' :: rest => (readBlock fuel rest).bind fun value =>
          (readEntries fuel value.2).map ((String.ofList (text.takeWhile isKeyChar), value.1) :: ·)
      | _ => (readField text).bind fun field =>
          (readEntries fuel field.2).map (field.1 :: ·)

/-- The mapping that a text holds. -/
def readDocument (text : List Char) : Option Json :=
  if text.all isAllowed then (readEntries (text.length + 1) text).map .object else none

/-- A value within a line. -/
inductive Scalar
  | text (value : String)
  | int (value : Int)
  | bool (value : Bool)
deriving Repr, DecidableEq

/-- A name with such a value. -/
abbrev Field := String × Scalar

/-- What an entry holds. -/
inductive Value
  | scalar (value : Scalar)
  | items (items : List (Field × List Field))
  | fields (first : Field) (others : List Field)
deriving Repr, DecidableEq

/-- How a scalar is written. -/
def Scalar.source : Scalar → List Char
  | .text value => '"' :: (escape value.toList ++ ['"'])
  | .int value => (toString value).toList
  | .bool value => (toString value).toList

/-- How a field is written. -/
def Field.source (field : Field) : List Char :=
  field.1.toList ++ ':' :: ' ' :: (field.2.source ++ ['\n'])

/-- Fields, each on its line. -/
def fieldsSource (indent : Nat) : List Field → List Char
  | [] => []
  | field :: fields => List.replicate indent ' ' ++ (field.source ++ fieldsSource indent fields)

/-- Items of a list, each with its further fields. -/
def itemsSource (indent : Nat) : List (Field × List Field) → List Char
  | [] => []
  | item :: items => List.replicate indent ' ' ++ ('-' :: ' ' :: (item.1.source ++
      (fieldsSource (indent + 2) item.2 ++ itemsSource indent items)))

/-- How the value of an entry is written. -/
def Value.source : Value → List Char
  | .scalar value => ' ' :: (value.source ++ ['\n'])
  | .items all => '\n' :: itemsSource 2 all
  | .fields first others => '\n' :: fieldsSource 2 (first :: others)

/-- How a mapping is written. -/
def source : List (String × Value) → List Char
  | [] => []
  | entry :: entries => entry.1.toList ++ ':' :: (entry.2.source ++ source entries)

/-- What is meant by a scalar. -/
def Scalar.given : Scalar → Json
  | .text value => .string value
  | .int value => .int value
  | .bool value => .bool value

/-- What is meant by a field. -/
def Field.given (field : Field) : String × Json := (field.1, field.2.given)

/-- What is meant by an entry. -/
def Value.given : Value → Json
  | .scalar value => value.given
  | .items all => .array (all.map fun item => .object (item.1.given :: item.2.map Field.given))
  | .fields first others => .object (first.given :: others.map Field.given)

/-- What is read of a document, where each text is read as its quoted scalar is. -/
def Scalar.read : Scalar → Option Json
  | .text value => (folded (.blanks []) .line value.toList).map fun text =>
      .string (String.ofList text)
  | .int value => some (.int value)
  | .bool value => some (.bool value)

/-- What a reader makes of a field. -/
def Field.read (field : Field) : Option (String × Json) := field.2.read.map fun value =>
  (field.1, value)

/-- What a reader makes of fields. -/
def fieldsRead : List Field → Option (List (String × Json))
  | [] => some []
  | field :: fields => field.read.bind fun first => (fieldsRead fields).map (first :: ·)

/-- What a reader makes of items. -/
def itemsRead : List (Field × List Field) → Option (List Json)
  | [] => some []
  | item :: items => (fieldsRead (item.1 :: item.2)).bind fun fields =>
      (itemsRead items).map (.object fields :: ·)

/-- A sequence without items is nothing. -/
def Value.read : Value → Option Json
  | .scalar value => value.read
  | .items [] => some .null
  | .items all => (itemsRead all).map .array
  | .fields first others => (fieldsRead (first :: others)).map .object

/-- What a reader makes of a mapping. -/
def read : List (String × Value) → Option (List (String × Json))
  | [] => some []
  | entry :: entries => entry.2.read.bind fun value =>
      (read entries).map ((entry.1, value) :: ·)

/-- A name that needs no quotes. -/
def IsKey (key : String) : Prop := key ≠ "" ∧ ∀ char ∈ key.toList, isKeyChar char = true

instance (key : String) : Decidable (IsKey key) :=
  @instDecidableAnd _ _ _ (List.decidableBAll _ _)

theorem takeWhile_key {key : String} (h : IsKey key) (rest : List Char) :
    (key.toList ++ ':' :: rest).takeWhile isKeyChar = key.toList ∧
      (key.toList ++ ':' :: rest).dropWhile isKeyChar = ':' :: rest := by
  rw [List.takeWhile_append_of_pos h.2, List.dropWhile_append_of_pos h.2]
  exact ⟨List.append_nil _, rfl⟩

theorem toList_toString_negSucc (number : Nat) :
    (toString (Int.negSucc number)).toList = '-' :: Nat.toDigits 10 (number + 1) := by
  show ("-" ++ Nat.repr (number + 1)).toList = _
  rw [String.toList_append, Nat.toList_repr]
  rfl

/-- The characters of an integer. -/
theorem mem_toString {value : Int} {char : Char} (h : char ∈ (toString value).toList) :
    char.isDigit = true ∨ char = '-' := by
  cases value with
  | ofNat number =>
      rw [Int.ofNat_eq_natCast, toList_toString_nat] at h
      exact .inl (isDigit_toDigits h)
  | negSucc number =>
      rw [toList_toString_negSucc, List.mem_cons] at h
      exact h.symm.imp_left isDigit_toDigits

theorem not_mem_toString (value : Int) {char : Char} (hdigit : char.isDigit = false)
    (hhyphen : char ≠ '-') : char ∉ (toString value).toList := by
  intro hmem
  rcases mem_toString hmem with h | h
  · rw [hdigit] at h
    cases h
  · exact hhyphen h

theorem readInt_toString (value : Int) : readInt (toString value).toList = some value := by
  cases value with
  | ofNat number =>
      have hdigits := parseDigits_toDigits number
      have hhead := @head?_toDigits number '-' (by decide)
      rw [Int.ofNat_eq_natCast, toList_toString_nat]
      generalize Nat.toDigits 10 number = digits at hdigits hhead
      unfold readInt
      split
      · exact absurd rfl hhead
      · rw [hdigits]
        rfl
  | negSucc number =>
      rw [toList_toString_negSucc, readInt, parseDigits_toDigits]
      rfl

theorem readPlain_toString (value : Int) :
    readPlain (toString value).toList = some (.int value) := by
  have hword : ∀ {word : String}, word.toList.any (fun char => char == 'e') = true →
      (toString value).toList ≠ word.toList := by
    intro word he hsame
    obtain ⟨char, hchar, hequal⟩ := List.any_eq_true.mp he
    obtain rfl := beq_iff_eq.mp hequal
    rw [← hsame] at hchar
    exact not_mem_toString value (by decide) (by decide) hchar
  rw [readPlain, if_neg (hword (by decide)), if_neg (hword (by decide)), readInt_toString]
  simp

theorem readScalar_source (value : Scalar) (rest : List Char) :
    readScalar (' ' :: (value.source ++ '\n' :: rest)) = value.read.map fun value =>
      (value, rest) := by
  cases value with
  | text value =>
      rw [Scalar.source, List.cons_append, List.append_assoc, List.singleton_append, readScalar,
        readQuoted_escape, Scalar.read]
      cases folded (.blanks []) .line value.toList with
      | none => rfl
      | some text => rfl
  | int value =>
      have hplain := readPlain_toString value
      have hquote := @not_mem_toString value '"' (by decide) (by decide)
      have hline : ∀ char ∈ (toString value).toList, (char != '\n') = true := by
        intro char hchar
        rw [bne_iff_ne]
        rintro rfl
        exact not_mem_toString value (by decide) (by decide) hchar
      rw [Scalar.source, Scalar.read]
      generalize (toString value).toList = digits at hplain hquote hline
      have htake : (digits ++ '\n' :: rest).takeWhile (· != '\n') =
          digits ++ ('\n' :: rest).takeWhile (· != '\n') := List.takeWhile_append_of_pos hline
      have hdrop : (digits ++ '\n' :: rest).dropWhile (· != '\n') =
          ('\n' :: rest).dropWhile (· != '\n') := List.dropWhile_append_of_pos hline
      unfold readScalar
      split
      · rename_i hsame
        have hhead := (List.cons.inj hsame).2
        cases digits with
        | nil => cases hhead
        | cons digit digits =>
            obtain rfl := (List.cons.inj hhead).1
            exact absurd List.mem_cons_self hquote
      · rename_i hsame
        obtain rfl := (List.cons.inj hsame).2
        rw [hdrop, htake, List.dropWhile_cons_of_neg (by decide),
          List.takeWhile_cons_of_neg (by decide), List.append_nil, hplain]
        rfl
      · rename_i hother
        exact absurd rfl (hother _)
  | bool value =>
      cases value with
      | false => rfl
      | true => rfl

theorem readField_source {field : Field} (h : IsKey field.1) (rest : List Char) :
    readField (field.source ++ rest) = field.read.map fun read => (read, rest) := by
  have hsource : field.source ++ rest =
      field.1.toList ++ ':' :: ' ' :: (field.2.source ++ '\n' :: rest) := by
    simp only [Field.source, List.append_assoc, List.cons_append, List.nil_append]
  obtain ⟨htake, hdrop⟩ := takeWhile_key h (' ' :: (field.2.source ++ '\n' :: rest))
  have hread : readField (field.source ++ rest) =
      (readScalar (' ' :: (field.2.source ++ '\n' :: rest))).map fun read =>
        ((field.1, read.1), read.2) := by
    rw [hsource, readField, hdrop, htake, String.ofList_toList]
    rfl
  rw [hread, readScalar_source, Field.read, Option.map_map, Option.map_map]
  rfl

/-- What follows a block at the margin. -/
def AtMargin (rest : List Char) : Prop := rest.head?.all isKeyChar = true

theorem not_prefix_of_atMargin {rest : List Char} (h : AtMargin rest) (indent : Nat)
    (behind : List Char) : ¬List.replicate (indent + 1) ' ' ++ behind <+: rest := by
  rintro ⟨more, rfl⟩
  rw [List.replicate_succ] at h
  exact absurd h (show ¬isKeyChar ' ' = true by decide)

theorem head_field {field : Field} (h : IsKey field.1) (rest : List Char) :
    (field.source ++ rest).head?.any isKeyChar = true := by
  obtain ⟨hne, hchars⟩ := h
  rw [Field.source]
  cases hkey : field.1.toList with
  | nil => exact absurd (String.toList_inj.mp hkey) hne
  | cons char key => exact hchars char (by rw [hkey]; exact List.mem_cons_self)

theorem length_field (field : Field) : 0 < field.source.length := by
  rw [Field.source, List.length_append, List.length_cons]
  omega

theorem readFields_source {indent fuel : Nat} {fields : List Field} {rest : List Char}
    (hkeys : ∀ field ∈ fields, IsKey field.1)
    (hrest : ¬(List.replicate indent ' ' <+: rest ∧ (rest.drop indent).head?.any isKeyChar))
    (hfuel : (fieldsSource indent fields).length < fuel) :
    readFields indent fuel (fieldsSource indent fields ++ rest) =
      (fieldsRead fields).map fun read => (read, rest) := by
  induction fields generalizing fuel with
  | nil =>
      obtain ⟨fuel, rfl⟩ := Nat.exists_eq_succ_of_ne_zero (Nat.ne_of_gt hfuel)
      rw [fieldsSource, List.nil_append, readFields, if_neg hrest]
      rfl
  | cons field fields ih =>
      have hkey := hkeys field List.mem_cons_self
      have hlength := length_field field
      rw [fieldsSource, List.length_append, List.length_append] at hfuel
      obtain ⟨fuel, rfl⟩ := Nat.exists_eq_succ_of_ne_zero (by omega : fuel ≠ 0)
      have hlater := ih (fun other hother => hkeys other (List.mem_cons_of_mem _ hother))
        (by omega : (fieldsSource indent fields).length < fuel)
      have hdrop : ∀ text : List Char, (List.replicate indent ' ' ++ text).drop indent = text := by
        intro text
        rw [List.drop_append_of_le_length (by simp), List.drop_of_length_le (by simp),
          List.nil_append]
      rw [fieldsSource, List.append_assoc, List.append_assoc, readFields, hdrop,
        if_pos ⟨List.prefix_append _ _, head_field hkey _⟩, readField_source hkey, fieldsRead]
      cases field.read with
      | none => rfl
      | some first =>
          simp only [Option.map_some, Option.bind_some, hlater]
          cases fieldsRead fields with
          | none => rfl
          | some others => rfl

theorem readItems_source {indent fuel : Nat} {items : List (Field × List Field)} {rest : List Char}
    (hkeys : ∀ item ∈ items, ∀ field ∈ item.1 :: item.2, IsKey field.1) (hrest : AtMargin rest)
    (hfuel : (itemsSource (indent + 1) items).length < fuel) :
    readItems (indent + 1) fuel (itemsSource (indent + 1) items ++ rest) =
      (itemsRead items).map fun read => (read, rest) := by
  induction items generalizing fuel with
  | nil =>
      obtain ⟨fuel, rfl⟩ := Nat.exists_eq_succ_of_ne_zero (Nat.ne_of_gt hfuel)
      rw [itemsSource, List.nil_append, readItems, if_neg (not_prefix_of_atMargin hrest _ _)]
      rfl
  | cons item items ih =>
      have hkey := hkeys item List.mem_cons_self item.1 List.mem_cons_self
      have hothers : ∀ field ∈ item.2, IsKey field.1 := fun field hfield =>
        hkeys item List.mem_cons_self field (List.mem_cons_of_mem _ hfield)
      simp only [itemsSource, List.length_append, List.length_cons] at hfuel
      obtain ⟨fuel, rfl⟩ := Nat.exists_eq_succ_of_ne_zero (by omega : fuel ≠ 0)
      have hlater := ih (fun other hother => hkeys other (List.mem_cons_of_mem _ hother))
        (by omega : (itemsSource (indent + 1) items).length < fuel)
      have hends : ¬(List.replicate (indent + 1 + 2) ' ' <+:
          itemsSource (indent + 1) items ++ rest ∧
          ((itemsSource (indent + 1) items ++ rest).drop (indent + 1 + 2)).head?.any
            isKeyChar) := by
        rintro ⟨hstarts, -⟩
        cases items with
        | nil =>
            have hmargin := not_prefix_of_atMargin hrest (indent + 2) []
            rw [List.append_nil] at hmargin
            exact hmargin hstarts
        | cons other items =>
            rw [itemsSource, List.append_assoc, ← List.replicate_append_replicate,
              List.prefix_append_right_inj] at hstarts
            exact absurd (List.cons_prefix_cons.mp hstarts).1 (by decide)
      have hfields := readFields_source hothers hends
        (by omega : (fieldsSource (indent + 1 + 2) item.2).length < fuel)
      have hdrop : ∀ text : List Char,
          (List.replicate (indent + 1) ' ' ++ '-' :: ' ' :: text).drop (indent + 1 + 2) = text := by
        intro text
        rw [List.drop_append, List.drop_of_length_le (by simp), List.length_replicate,
          Nat.add_sub_cancel_left]
        rfl
      have hstarts : ∀ text : List Char, List.replicate (indent + 1) ' ' ++ ['-', ' '] <+:
          List.replicate (indent + 1) ' ' ++ '-' :: ' ' :: text := fun text =>
        (List.prefix_append_right_inj _).mpr ⟨text, rfl⟩
      simp only [itemsSource, List.append_assoc, List.cons_append]
      rw [readItems, if_pos (hstarts _), hdrop, readField_source hkey, itemsRead, fieldsRead]
      cases item.1.read with
      | none => rfl
      | some first =>
          simp only [Option.map_some, Option.bind_some, hfields]
          cases fieldsRead item.2 with
          | none => rfl
          | some others =>
              simp only [Option.map_some, Option.bind_some, hlater]
              cases itemsRead items with
              | none => rfl
              | some all => rfl

/-- All names within a value need no quotes. -/
def Value.Keys : Value → Prop
  | .scalar _ => True
  | .items all => ∀ item ∈ all, ∀ field ∈ item.1 :: item.2, IsKey field.1
  | .fields first others => ∀ field ∈ first :: others, IsKey field.1

theorem atMargin_source {entries : List (String × Value)} (h : ∀ entry ∈ entries, IsKey entry.1) :
    AtMargin (source entries) := by
  cases entries with
  | nil => rfl
  | cons entry entries =>
      obtain ⟨hne, hchars⟩ := h entry List.mem_cons_self
      rw [AtMargin, source]
      cases hkey : entry.1.toList with
      | nil => exact absurd (String.toList_inj.mp hkey) hne
      | cons char key => exact hchars char (by rw [hkey]; exact List.mem_cons_self)

theorem isKeyChar_ne {char : Char} (h : isKeyChar char = true) :
    (char == ' ') = false ∧ char ≠ '-' := by
  constructor
  · rw [beq_eq_false_iff_ne]
    rintro rfl
    exact absurd h (by decide)
  · rintro rfl
    exact absurd h (by decide)

theorem readBlock_nothing {fuel : Nat} {rest : List Char} (hrest : AtMargin rest) :
    readBlock fuel rest = some (.null, rest) := by
  cases rest with
  | nil => rfl
  | cons char rest =>
      obtain ⟨hblank, hhyphen⟩ := isKeyChar_ne hrest
      have hindent : ((char :: rest).takeWhile (· == ' ')).length = 0 := by
        simp only [List.takeWhile_cons, hblank, Bool.false_eq_true, if_false, List.length_nil]
      simp only [readBlock, hindent, List.drop_zero]
      split
      · rename_i hsame
        exact absurd (List.cons.inj hsame).1 hhyphen
      · rw [if_neg (fun h => Nat.lt_irrefl 0 h.1)]
      · rename_i hsame
        cases hsame

/-- A mapping starts with a key behind its indentation. -/
theorem readBlock_key {fuel : Nat} {char : Char} (h : isKeyChar char = true) (rest : List Char) :
    readBlock fuel (' ' :: ' ' :: char :: rest) =
      (readFields 2 fuel (' ' :: ' ' :: char :: rest)).map fun read =>
        (.object read.1, read.2) := by
  obtain ⟨hblank, hhyphen⟩ := isKeyChar_ne h
  have hindent : ((' ' :: ' ' :: char :: rest).takeWhile (· == ' ')).length = 2 := by
    simp only [List.takeWhile_cons, hblank, beq_self_eq_true, Bool.false_eq_true, if_true,
      if_false, List.length_cons, List.length_nil]
  simp only [readBlock, hindent, List.drop_succ_cons, List.drop_zero]
  split
  · rename_i hsame
    exact absurd (List.cons.inj hsame).1 hhyphen
  · rename_i hsame
    obtain rfl := (List.cons.inj hsame).1
    rw [if_pos ⟨Nat.zero_lt_two, h⟩]
  · rename_i hsame
    cases hsame

theorem readBlock_items {fuel : Nat} {item : Field × List Field} {items : List (Field × List Field)}
    {rest : List Char} (hkeys : (Value.items (item :: items)).Keys) (hrest : AtMargin rest)
    (hfuel : (itemsSource 2 (item :: items)).length < fuel) :
    readBlock fuel (itemsSource 2 (item :: items) ++ rest) =
      (itemsRead (item :: items)).map fun read => (.array read, rest) := by
  have hread := @readItems_source 1 fuel (item :: items) rest hkeys hrest hfuel
  have hblock : readBlock fuel (itemsSource 2 (item :: items) ++ rest) =
      (readItems 2 fuel (itemsSource 2 (item :: items) ++ rest)).map fun read =>
        (.array read.1, read.2) := rfl
  rw [hblock, hread, Option.map_map]
  rfl

theorem readBlock_fields {fuel : Nat} {first : Field} {others : List Field} {rest : List Char}
    (hkeys : (Value.fields first others).Keys) (hrest : AtMargin rest)
    (hfuel : (fieldsSource 2 (first :: others)).length < fuel) :
    readBlock fuel (fieldsSource 2 (first :: others) ++ rest) =
      (fieldsRead (first :: others)).map fun read => (.object read, rest) := by
  have hends : ¬(List.replicate 2 ' ' <+: rest ∧ (rest.drop 2).head?.any isKeyChar) := by
    rintro ⟨hstarts, -⟩
    have hmargin := not_prefix_of_atMargin hrest 1 []
    rw [List.append_nil] at hmargin
    exact hmargin hstarts
  have hread := readFields_source hkeys hends hfuel
  have hblock : readBlock fuel (fieldsSource 2 (first :: others) ++ rest) =
      (readFields 2 fuel (fieldsSource 2 (first :: others) ++ rest)).map fun read =>
        (.object read.1, read.2) := by
    obtain ⟨hne, hchars⟩ := hkeys first List.mem_cons_self
    simp only [fieldsSource, Field.source, List.append_assoc]
    cases hkey : first.1.toList with
    | nil => exact absurd (String.toList_inj.mp hkey) hne
    | cons char key =>
        have hchar := hchars char (by rw [hkey]; exact List.mem_cons_self)
        exact readBlock_key hchar _
  rw [hblock, hread, Option.map_map]
  rfl

theorem readEntries_block {key : String} (h : IsKey key) (fuel : Nat) (rest : List Char) :
    readEntries (fuel + 1) (key.toList ++ ':' :: '\n' :: rest) =
      (readBlock fuel rest).bind fun value =>
        (readEntries fuel value.2).map ((key, value.1) :: ·) := by
  obtain ⟨htake, hdrop⟩ := takeWhile_key h ('\n' :: rest)
  have hne : key.toList ++ ':' :: '\n' :: rest ≠ [] := by simp
  generalize key.toList ++ ':' :: '\n' :: rest = text at htake hdrop hne
  cases text with
  | nil => exact absurd rfl hne
  | cons char text =>
      rw [readEntries, hdrop, htake, String.ofList_toList]
      · rfl
      · exact hne

theorem readEntries_field {key : String} (h : IsKey key) (fuel : Nat) (value : Scalar)
    (rest : List Char) :
    readEntries (fuel + 1) (key.toList ++ ':' :: ' ' :: (value.source ++ '\n' :: rest)) =
      value.read.bind fun value => (readEntries fuel rest).map ((key, value) :: ·) := by
  obtain ⟨htake, hdrop⟩ := takeWhile_key h (' ' :: (value.source ++ '\n' :: rest))
  have hfield := @readField_source (key, value) h rest
  have hsource : Field.source (key, value) ++ rest =
      key.toList ++ ':' :: ' ' :: (value.source ++ '\n' :: rest) := by
    simp only [Field.source, List.append_assoc, List.cons_append, List.nil_append]
  rw [hsource] at hfield
  have hne : key.toList ++ ':' :: ' ' :: (value.source ++ '\n' :: rest) ≠ [] := by simp
  generalize key.toList ++ ':' :: ' ' :: (value.source ++ '\n' :: rest) = text
    at htake hdrop hne hfield
  cases text with
  | nil => exact absurd rfl hne
  | cons char text =>
      rw [readEntries, hdrop, hfield, Field.read]
      · cases value.read with
        | none => rfl
        | some read => rfl
      · exact hne

/-- A document is read entry by entry. -/
theorem readEntries_source {entries : List (String × Value)} {fuel : Nat}
    (hkeys : ∀ entry ∈ entries, IsKey entry.1 ∧ entry.2.Keys)
    (hfuel : (source entries).length < fuel) :
    readEntries fuel (source entries) = read entries := by
  induction entries generalizing fuel with
  | nil =>
      rw [source, readEntries]
      rfl
  | cons entry entries ih =>
      obtain ⟨key, value⟩ := entry
      obtain ⟨hkey, hvalue⟩ := hkeys _ List.mem_cons_self
      have hothers : ∀ entry ∈ entries, IsKey entry.1 ∧ entry.2.Keys := fun other hother =>
        hkeys other (List.mem_cons_of_mem _ hother)
      have hmargin := atMargin_source fun other hother => (hothers other hother).1
      obtain ⟨fuel, rfl⟩ := Nat.exists_eq_succ_of_ne_zero (Nat.ne_zero_of_lt hfuel)
      simp only [source, List.length_append, List.length_cons] at hfuel
      have hlater := ih hothers (by omega : (source entries).length < fuel)
      rw [source, read]
      dsimp only
      cases value with
      | scalar value =>
          simp only [Value.source, List.cons_append, List.append_assoc, List.nil_append]
          rw [readEntries_field hkey, hlater]
          rfl
      | items all =>
          rw [Value.source, List.cons_append, readEntries_block hkey]
          cases all with
          | nil =>
              rw [itemsSource, List.nil_append, readBlock_nothing hmargin, Option.bind_some, hlater]
              rfl
          | cons item items =>
              rw [Value.source, List.length_cons] at hfuel
              rw [readBlock_items hvalue hmargin (by omega), Value.read]
              · cases itemsRead (item :: items) with
                | none => rfl
                | some values =>
                    simp only [Option.map_some, Option.bind_some, hlater]
              · rintro hfalse
                cases hfalse
      | fields first others =>
          rw [Value.source, List.length_cons] at hfuel
          rw [Value.source, List.cons_append, readEntries_block hkey,
            readBlock_fields hvalue hmargin (by omega), Value.read]
          cases fieldsRead (first :: others) with
          | none => rfl
          | some values =>
              simp only [Option.map_some, Option.bind_some, hlater]

/-- The texts that stand in a document. -/
def Scalar.texts : Scalar → List String
  | .text value => [value]
  | .int _ => []
  | .bool _ => []

/-- The texts of fields. -/
def fieldsTexts (fields : List Field) : List String := fields.flatMap fun field => field.2.texts

/-- The texts within a value. -/
def Value.texts : Value → List String
  | .scalar value => value.texts
  | .items all => all.flatMap fun item => fieldsTexts (item.1 :: item.2)
  | .fields first others => fieldsTexts (first :: others)

/-- The texts of a mapping. -/
def texts (entries : List (String × Value)) : List String :=
  entries.flatMap fun entry => entry.2.texts

/-- A text that is read as it is. -/
def Kept (value : String) : Prop := isKept '"' value.toList = true

theorem bind_cons_eq_some {α : Type} {first : Option α} {others : Option (List α)} {head : α}
    {tail : List α} : (first.bind fun read => others.map (read :: ·)) = some (head :: tail) ↔
      first = some head ∧ others = some tail := by
  cases first with
  | none => simp
  | some read =>
      cases others with
      | none => simp
      | some rest => simp

theorem Scalar.read_iff (value : Scalar) :
    value.read = some value.given ↔ ∀ text ∈ value.texts, Kept text := by
  cases value with
  | text value =>
      have hkept := folded_eq_iff (.other (by decide) : Behind '"' (.blanks []) .line) value.toList
      rw [Space.text, List.nil_append] at hkept
      rw [Scalar.read, Scalar.given, Scalar.texts, List.forall_mem_singleton, Kept, ← hkept,
        Option.map_eq_some_iff]
      constructor
      · rintro ⟨text, htext, hsame⟩
        rw [htext, ← Json.string.inj hsame, String.toList_ofList]
      · intro htext
        exact ⟨_, htext, by rw [String.ofList_toList]⟩
  | int value => exact ⟨fun _ _ hmem => (by cases hmem), fun _ => rfl⟩
  | bool value => exact ⟨fun _ _ hmem => (by cases hmem), fun _ => rfl⟩

theorem Field.read_iff (field : Field) :
    field.read = some field.given ↔ ∀ text ∈ field.2.texts, Kept text := by
  rw [← Scalar.read_iff, Field.read, Field.given, Option.map_eq_some_iff]
  constructor
  · rintro ⟨value, hvalue, hsame⟩
    rw [hvalue, (Prod.mk.inj hsame).2]
  · intro hvalue
    exact ⟨_, hvalue, rfl⟩

theorem fieldsRead_iff (fields : List Field) :
    fieldsRead fields = some (fields.map Field.given) ↔ ∀ text ∈ fieldsTexts fields, Kept text := by
  induction fields with
  | nil => exact ⟨fun _ _ hmem => (by cases hmem), fun _ => rfl⟩
  | cons field fields ih =>
      rw [fieldsRead, List.map_cons, bind_cons_eq_some, Field.read_iff, ih, fieldsTexts,
        fieldsTexts, List.flatMap_cons, List.forall_mem_append]

theorem itemsRead_iff (items : List (Field × List Field)) :
    itemsRead items = some (items.map fun item =>
      .object (item.1.given :: item.2.map Field.given)) ↔
        ∀ text ∈ (Value.items items).texts, Kept text := by
  induction items with
  | nil => exact ⟨fun _ _ hmem => (by cases hmem), fun _ => rfl⟩
  | cons item items ih =>
      have hitem : itemsRead (item :: items) =
          ((fieldsRead (item.1 :: item.2)).map Json.object).bind fun first =>
            (itemsRead items).map (first :: ·) := by
        rw [itemsRead, Option.bind_map]
        rfl
      have hfields := fieldsRead_iff (item.1 :: item.2)
      rw [List.map_cons] at hfields
      rw [hitem, List.map_cons, bind_cons_eq_some, ih, Option.map_eq_some_iff]
      simp only [Value.texts, List.flatMap_cons, List.forall_mem_append, ← hfields]
      refine and_congr_left fun _ => ⟨?_, fun hread => ⟨_, hread, rfl⟩⟩
      rintro ⟨fields, hread, hsame⟩
      rw [hread, Json.object.inj hsame]

/-- A value is read as given if its texts are kept and it is not a sequence without items. -/
theorem Value.read_iff (value : Value) : value.read = some value.given ↔
    (∀ text ∈ value.texts, Kept text) ∧ value ≠ .items [] := by
  cases value with
  | scalar value =>
      rw [Value.read, Value.given, Scalar.read_iff]
      exact ⟨fun h => ⟨h, by rintro hfalse; cases hfalse⟩, fun h => h.1⟩
  | items all =>
      cases all with
      | nil => exact ⟨fun hfalse => (by cases hfalse), fun hfalse => absurd rfl hfalse.2⟩
      | cons item items =>
          rw [Value.read, Value.given, ← itemsRead_iff, Option.map_eq_some_iff]
          · constructor
            · rintro ⟨values, hread, hsame⟩
              rw [hread, Json.array.inj hsame]
              exact ⟨rfl, by rintro hfalse; cases hfalse⟩
            · rintro ⟨hread, -⟩
              exact ⟨_, hread, rfl⟩
          · rintro hfalse
            cases hfalse
  | fields first others =>
      rw [Value.read, Value.given, Value.texts, ← fieldsRead_iff, Option.map_eq_some_iff]
      constructor
      · rintro ⟨values, hread, hsame⟩
        rw [hread, Json.object.inj hsame]
        exact ⟨rfl, by rintro hfalse; cases hfalse⟩
      · rintro ⟨hread, -⟩
        exact ⟨_, hread, rfl⟩

theorem read_iff (entries : List (String × Value)) :
    read entries = some (entries.map fun entry => (entry.1, entry.2.given)) ↔
      (∀ text ∈ texts entries, Kept text) ∧ ∀ entry ∈ entries, entry.2 ≠ .items [] := by
  induction entries with
  | nil => exact ⟨fun _ => ⟨fun _ hmem => (by cases hmem), fun _ hmem => (by cases hmem)⟩,
      fun _ => rfl⟩
  | cons entry entries ih =>
      have hentry : read (entry :: entries) =
          (entry.2.read.map fun value => (entry.1, value)).bind fun first =>
            (read entries).map (first :: ·) := by
        rw [read, Option.bind_map]
        rfl
      have hfirst : (entry.2.read.map fun value => (entry.1, value)) =
          some (entry.1, entry.2.given) ↔ entry.2.read = some entry.2.given := by
        rw [Option.map_eq_some_iff]
        constructor
        · rintro ⟨value, hread, hsame⟩
          rw [hread, (Prod.mk.inj hsame).2]
        · intro hread
          exact ⟨_, hread, rfl⟩
      rw [hentry, List.map_cons, bind_cons_eq_some, hfirst, Value.read_iff, ih, texts, texts,
        List.flatMap_cons, List.forall_mem_append, List.forall_mem_cons]
      exact and_and_and_comm

/-- Characters that stand in a quoted text as they are. -/
def Allowed (chars : List Char) : Prop := ∀ char ∈ chars, isAllowed char = true

instance (chars : List Char) : Decidable (Allowed chars) := List.decidableBAll _ _

theorem allowed_append {chars others : List Char} :
    Allowed (chars ++ others) ↔ Allowed chars ∧ Allowed others := List.forall_mem_append

theorem allowed_cons {char : Char} {chars : List Char} :
    Allowed (char :: chars) ↔ isAllowed char = true ∧ Allowed chars := List.forall_mem_cons

theorem allowed_nil : Allowed [] := fun _ hmem => by cases hmem

theorem isAllowed_of_graphic {char : Char} (h : 0x20 ≤ char.toNat ∧ char.toNat ≤ 0x7E) :
    isAllowed char = true := by
  simp only [isAllowed, decide_eq_true h.1, decide_eq_true h.2, Bool.and_self, Bool.or_true,
    Bool.true_or]

theorem isAllowed_of_isKeyChar {char : Char} (h : isKeyChar char = true) :
    isAllowed char = true := by
  apply isAllowed_of_graphic
  have hchar : ((char.isUpper || char.isLower) || char.isDigit || char == '_') = true := h
  simp only [Bool.or_eq_true, isUpper_iff, isLower_iff, Char.isDigit_iff_toNat, beq_iff_eq] at hchar
  rcases hchar with ((hrange | hrange) | hrange) | rfl
  · exact ⟨Nat.le_trans (by decide) hrange.1, Nat.le_trans hrange.2 (by decide)⟩
  · exact ⟨Nat.le_trans (by decide) hrange.1, Nat.le_trans hrange.2 (by decide)⟩
  · exact ⟨Nat.le_trans (by decide) hrange.1, Nat.le_trans hrange.2 (by decide)⟩
  · decide

theorem allowed_key {key : String} (h : IsKey key) : Allowed key.toList := fun char hchar =>
  isAllowed_of_isKeyChar (h.2 char hchar)

theorem allowed_blanks (count : Nat) : Allowed (List.replicate count ' ') := by
  intro char hchar
  obtain rfl := List.eq_of_mem_replicate hchar
  decide

theorem allowed_escape (value : List Char) : Allowed (escape value) ↔ Allowed value := by
  induction value with
  | nil => exact Iff.rfl
  | cons char value ih =>
      by_cases hchar : char = '\\' ∨ char = '"'
      · rw [escape_special hchar, allowed_cons, allowed_cons, allowed_cons, ih]
        exact and_iff_right (by decide)
      · rw [escape_other hchar, allowed_cons, allowed_cons, ih]

theorem Scalar.allowed_iff (value : Scalar) :
    Allowed value.source ↔ ∀ text ∈ value.texts, Allowed text.toList := by
  have hnone : ∀ {chars : List Char}, Allowed chars →
      (Allowed chars ↔ ∀ text ∈ ([] : List String), Allowed text.toList) := fun hchars =>
    ⟨fun _ _ hmem => (by cases hmem), fun _ => hchars⟩
  cases value with
  | text value =>
      rw [Scalar.source, Scalar.texts, List.forall_mem_singleton, allowed_cons, allowed_append,
        allowed_escape, allowed_cons]
      exact ⟨fun h => h.2.1, fun h => ⟨by decide, h, by decide, allowed_nil⟩⟩
  | int value =>
      apply hnone
      intro char hchar
      rcases mem_toString hchar with hdigit | rfl
      · apply isAllowed_of_isKeyChar
        rw [isKeyChar, Char.isAlphanum, hdigit, Bool.or_true, Bool.true_or]
      · decide
  | bool value =>
      apply hnone
      cases value with
      | false => decide
      | true => decide

theorem Field.allowed_iff {field : Field} (h : IsKey field.1) :
    Allowed field.source ↔ ∀ text ∈ field.2.texts, Allowed text.toList := by
  rw [← Scalar.allowed_iff, Field.source, allowed_append, allowed_cons, allowed_cons,
    allowed_append, allowed_cons]
  exact ⟨fun hchars => hchars.2.2.2.1, fun hchars => ⟨allowed_key h, by decide, by decide, hchars,
    by decide, allowed_nil⟩⟩

theorem allowed_fields {fields : List Field} (indent : Nat)
    (hkeys : ∀ field ∈ fields, IsKey field.1) :
    Allowed (fieldsSource indent fields) ↔ ∀ text ∈ fieldsTexts fields, Allowed text.toList := by
  induction fields with
  | nil => exact ⟨fun _ _ hmem => (by cases hmem), fun _ => allowed_nil⟩
  | cons field fields ih =>
      rw [fieldsSource, allowed_append, allowed_append,
        Field.allowed_iff (hkeys _ List.mem_cons_self),
        ih fun other hother => hkeys other (List.mem_cons_of_mem _ hother), fieldsTexts,
        fieldsTexts, List.flatMap_cons, List.forall_mem_append]
      exact and_iff_right (allowed_blanks indent)

theorem allowed_items {items : List (Field × List Field)} (indent : Nat)
    (hkeys : (Value.items items).Keys) : Allowed (itemsSource indent items) ↔
      ∀ text ∈ (Value.items items).texts, Allowed text.toList := by
  induction items with
  | nil => exact ⟨fun _ _ hmem => (by cases hmem), fun _ => allowed_nil⟩
  | cons item items ih =>
      have hkey := hkeys item List.mem_cons_self item.1 List.mem_cons_self
      have hothers := @allowed_fields item.2 (indent + 2) fun field hfield =>
        hkeys item List.mem_cons_self field (List.mem_cons_of_mem _ hfield)
      have hrest := ih fun other hother => hkeys other (List.mem_cons_of_mem _ hother)
      rw [itemsSource, allowed_append, allowed_cons, allowed_cons, allowed_append, allowed_append,
        Field.allowed_iff hkey, hothers, hrest]
      simp only [Value.texts, fieldsTexts, List.flatMap_cons, List.forall_mem_append]
      exact ⟨fun h => ⟨⟨h.2.2.2.1, h.2.2.2.2.1⟩, h.2.2.2.2.2⟩, fun h =>
        ⟨allowed_blanks indent, by decide, by decide, h.1.1, h.1.2, h.2⟩⟩

theorem Value.allowed_iff {value : Value} (hkeys : value.Keys) :
    Allowed value.source ↔ ∀ text ∈ value.texts, Allowed text.toList := by
  cases value with
  | scalar value =>
      rw [Value.texts, ← Scalar.allowed_iff, Value.source, allowed_cons, allowed_append,
        allowed_cons]
      exact ⟨fun h => h.2.1, fun h => ⟨by decide, h, by decide, allowed_nil⟩⟩
  | items all =>
      rw [Value.source, allowed_cons, allowed_items 2 hkeys]
      exact and_iff_right (by decide)
  | fields first others =>
      rw [Value.source, allowed_cons, allowed_fields 2 hkeys]
      exact and_iff_right (by decide)

theorem allowed_source {entries : List (String × Value)}
    (hkeys : ∀ entry ∈ entries, IsKey entry.1 ∧ entry.2.Keys) :
    Allowed (source entries) ↔ ∀ text ∈ texts entries, Allowed text.toList := by
  induction entries with
  | nil => exact ⟨fun _ _ hmem => (by cases hmem), fun _ => allowed_nil⟩
  | cons entry entries ih =>
      obtain ⟨hkey, hvalue⟩ := hkeys entry List.mem_cons_self
      rw [source, allowed_append, allowed_cons, allowed_append, Value.allowed_iff hvalue,
        ih fun other hother => hkeys other (List.mem_cons_of_mem _ hother), texts, texts,
        List.flatMap_cons, List.forall_mem_append]
      exact ⟨fun h => h.2.2, fun h => ⟨allowed_key hkey, by decide, h⟩⟩

/-- A text that a document carries unchanged. -/
structure Carried (value : String) : Prop where
  allowed : Allowed value.toList
  kept : Kept value

instance (value : String) : Decidable (Kept value) := inferInstanceAs (Decidable (_ = _))

instance (value : String) : Decidable (Carried value) :=
  decidable_of_iff (Allowed value.toList ∧ Kept value)
    ⟨fun h => ⟨h.1, h.2⟩, fun h => ⟨h.allowed, h.kept⟩⟩

/-- A document is read as given if its texts are carried and it has no sequence without items. -/
theorem readDocument_source_iff {entries : List (String × Value)}
    (hkeys : ∀ entry ∈ entries, IsKey entry.1 ∧ entry.2.Keys) :
    readDocument (source entries) =
        some (.object (entries.map fun entry => (entry.1, entry.2.given))) ↔
      (∀ text ∈ texts entries, Carried text) ∧ ∀ entry ∈ entries, entry.2 ≠ .items [] := by
  have hallowed := allowed_source hkeys
  rw [readDocument, readEntries_source hkeys (Nat.lt_succ_self _)]
  constructor
  · intro hread
    split at hread
    · rename_i hchars
      obtain ⟨fields, hfields, hsame⟩ := Option.map_eq_some_iff.mp hread
      rw [Json.object.inj hsame] at hfields
      obtain ⟨hkept, hitems⟩ := (read_iff entries).mp hfields
      have htexts := hallowed.mp (List.all_eq_true.mp hchars)
      exact ⟨fun text htext => ⟨htexts text htext, hkept text htext⟩, hitems⟩
    · cases hread
  · rintro ⟨hcarried, hitems⟩
    have hchars := hallowed.mpr fun text htext => (hcarried text htext).allowed
    rw [if_pos (List.all_eq_true.mpr hchars),
      (read_iff entries).mpr ⟨fun text htext => (hcarried text htext).kept, hitems⟩]
    rfl

end EasyDeploy.Foundation.Yaml
