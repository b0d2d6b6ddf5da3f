import EasyDeploy.Foundation.FixedWidth
import EasyDeploy.ReleaseQueue.Tables
import Mathlib.Data.String.Basic

/-!
# Publication times

Operators enter publication times as texts. The times of two kinds of texts are
stored in one format, which the clock of the database is compared with as a
text; other texts are stored as they are.
-/

namespace EasyDeploy.ReleaseQueue
open Foundation

/-- `DateTime<Utc>`: date and time of day in UTC; second 60 is a leap second. -/
structure DateTime where
  year : Int
  month : Nat
  day : Nat
  hour : Nat
  minute : Nat
  second : Nat
  nanosecond : Nat
  month_le : month ≤ 12
  day_le : day ≤ 31
  hour_lt : hour < 24
  minute_lt : minute < 60
  second_le : second ≤ 60
  nanosecond_lt : nanosecond < 10 ^ 9
deriving Repr, DecidableEq

namespace DateTime

/-- The parts of a time, the greater ones first. -/
def components (time : DateTime) : List Int :=
  [time.year, time.month, time.day, time.hour, time.minute, time.second, time.nanosecond]

instance : LE DateTime := ⟨fun earlier later => earlier.components ≤ later.components⟩

instance (earlier later : DateTime) : Decidable (earlier ≤ later) :=
  inferInstanceAs (Decidable (earlier.components ≤ later.components))

/-- Month to minute. -/
def dateText (time : DateTime) : List Char :=
  '-' :: fixedWidth 2 time.month ++ '-' :: fixedWidth 2 time.day ++ 'T' :: fixedWidth 2 time.hour ++
    ':' :: fixedWidth 2 time.minute ++ ':' :: fixedWidth 2 time.second

/-- Years beyond four digits and before zero are written with a sign. -/
def yearText (year : Int) : List Char :=
  if 0 ≤ year ∧ year ≤ 9999 then
    fixedWidth 4 year.toNat
  else
    (if year < 0 then '-' else '+') :: List.leftpad 4 '0' (toString year.natAbs).toList

/-- `to_rfc3339_opts(SecondsFormat::Secs, true)`. -/
def toRfc3339 (time : DateTime) : String :=
  String.ofList (yearText time.year ++ time.dateText ++ ['Z'])

end DateTime

/-- A reading of the clock, whose years have four digits and which knows no leap seconds. -/
structure Clock where
  time : DateTime
  year_nonneg : 0 ≤ time.year
  year_le : time.year ≤ 9999
  second_lt : time.second < 60
deriving Repr, DecidableEq

/-- `strftime('%Y-%m-%dT%H:%M:%fZ', 'now')`. -/
def Clock.text (now : Clock) : String :=
  String.ofList (DateTime.yearText now.time.year ++ now.time.dateText ++
    '.' :: fixedWidth 3 (now.time.nanosecond / 10 ^ 6) ++ ['Z'])

namespace DateTime

variable {time : DateTime}

/-- The stored text of an instant sorts before a reading of the clock only when the second of
the instant is over. -/
theorem le_of_toRfc3339_le (hyear : time.year ≤ 9999) {now : Clock}
    (h : time.toRfc3339 ≤ now.text) : time ≤ now.time := by
  have hlist := String.le_iff_toList_le.mp h
  rw [toRfc3339, Clock.text, String.toList_ofList, String.toList_ofList] at hlist
  change time.components ≤ now.time.components
  rcases Int.lt_or_le time.year 0 with hneg | hnonneg
  · exact cons_le_cons_iff.mpr (.inl (hneg.trans_le now.year_nonneg))
  · have hmonth := time.month_le
    have hday := time.day_le
    have hhour := time.hour_lt
    have hminute := time.minute_lt
    have hsecond := time.second_le
    have hmonth' := now.time.month_le
    have hday' := now.time.day_le
    have hhour' := now.time.hour_lt
    have hminute' := now.time.minute_lt
    have hsecond' := now.time.second_le
    have hnow := now.year_nonneg
    have hnow' := now.year_le
    rw [yearText, if_pos ⟨hnonneg, hyear⟩, yearText, if_pos ⟨hnow, hnow'⟩] at hlist
    simp only [dateText, List.append_assoc, List.cons_append] at hlist
    rw [fixedWidth_append_le_iff (by omega) (by omega), cons_le_cons_iff,
      fixedWidth_append_le_iff (by omega) (by omega), cons_le_cons_iff,
      fixedWidth_append_le_iff (by omega) (by omega), cons_le_cons_iff,
      fixedWidth_append_le_iff (by omega) (by omega), cons_le_cons_iff,
      fixedWidth_append_le_iff (by omega) (by omega), cons_le_cons_iff,
      fixedWidth_append_le_iff (by omega) (by omega), cons_le_cons_iff] at hlist
    simp only [components, cons_le_cons_iff, le_refl]
    have hpoint : ¬ 'Z' < '.' := by decide
    have hne : 'Z' ≠ '.' := by decide
    simp only [lt_self_iff_false, hpoint, hne, false_or, true_and, false_and, and_false,
      or_false] at hlist
    omega

end DateTime

/-- The parsers of the library. `iso8601` tells the instant of texts in other forms, which the
program does not read. -/
structure Calendar where
  parseFromRfc3339 : String → Option DateTime
  parseFromStr : String → String → Option DateTime
  /-- The instant of a local time eight hours ahead, when it is in range. -/
  eastEight : DateTime → Option DateTime
  iso8601 : String → Option DateTime

namespace Calendar

variable (calendar : Calendar)

/-- The local time of the first pattern that the text matches. -/
def parseLocal (value : String) : Option DateTime :=
  ["%Y-%m-%dT%H:%M:%S", "%Y-%m-%dT%H:%M"].findSome? (calendar.parseFromStr value)

/-- Texts that are stored as they are. -/
def acceptsVerbatim (value : String) : Bool :=
  10 ≤ value.utf8ByteSize && value.utf8ByteSize ≤ 64 &&
    value.toList.all fun char => char.isAlphanum || char ∈ ['-', ':', '.', 'T', 'Z', '+']

/-- The time as it is stored. -/
def normalizePublishedAt (value : String) : Except AppError (Option String) :=
  let value := trim value
  if value.isEmpty then
    .ok none
  else
    match calendar.parseFromRfc3339 value with
    | some parsed => .ok (some parsed.toRfc3339)
    | none =>
        match calendar.parseLocal value with
        | some parsed =>
            match calendar.eastEight parsed with
            | some parsed => .ok (some parsed.toRfc3339)
            | none => .error (.invalidInput "发布时间格式不正确，请检查日期和时间")
        | none =>
            if acceptsVerbatim value then
              .ok (some value)
            else
              .error (.invalidInput ("发布时间格式不正确，请使用 ISO-8601 时间，" ++
                "例如 2026-06-09T10:00:00Z，或页面中的本地时间"))

/-- The instant that the program reads from a text. -/
def parsed (value : String) : Option DateTime :=
  if (trim value).isEmpty then
    none
  else
    calendar.parseFromRfc3339 (trim value) <|>
      (calendar.parseLocal (trim value)).bind calendar.eastEight

/-- The instant that the operator entered. -/
def instantEntered (value : String) : Option DateTime :=
  calendar.parsed value <|> calendar.iso8601 (trim value)

/-- A time in one of the two forms that the program reads, whose year in UTC has at most four
digits. -/
def Dated (value : String) : Prop := ∃ instant, calendar.parsed value = some instant ∧
  instant.year ≤ 9999

variable {calendar}

theorem normalizePublishedAt_of_parsed {value : String} {instant : DateTime}
    (h : calendar.parsed value = some instant) :
    calendar.normalizePublishedAt value = .ok (some instant.toRfc3339) := by
  rw [parsed] at h
  split at h
  · cases h
  · rename_i hempty
    rw [normalizePublishedAt]
    simp only [hempty, Bool.false_eq_true, ↓reduceIte]
    cases hrfc : calendar.parseFromRfc3339 (trim value) with
    | some direct =>
        rw [hrfc] at h
        obtain rfl := Option.some.inj h
        rfl
    | none =>
        rw [hrfc] at h
        obtain ⟨naive, hnaive, hlocal⟩ := Option.bind_eq_some_iff.mp h
        rw [hnaive]
        simp only [hlocal]

end Calendar

end EasyDeploy.ReleaseQueue
