import EasyDeploy.Foundation.Trimming

/-!
# URLs

The parts of a URL. Reading and writing one is the work of a library, with what its
documentation says about it.
-/

namespace EasyDeploy.Foundation

/-- A URL by its parts. -/
structure Url where
  scheme : String
  userinfo : String
  host : Option String
  /-- Not the port that the scheme implies. -/
  port : Option Nat
  /-- The path, the query and the fragment. -/
  rest : String
deriving Repr, DecidableEq

namespace Url

/-- The ports that need not be written. -/
def defaultPort : String → Option Nat
  | "http" | "ws" => some 80
  | "https" | "wss" => some 443
  | "ftp" => some 21
  | _ => none

variable (url : Url)

/-- The port that is connected to. -/
def portOrKnownDefault : Option Nat := url.port.or (defaultPort url.scheme)

/-- The same URL with another port. -/
def withPort (port : Nat) : Url :=
  { url with port := if some port = defaultPort url.scheme then none else some port }

/-- `set_port` fails without a host. -/
def setPort (port : Nat) : Option Url :=
  if url.host.getD "" = "" ∨ url.scheme = "file" then none else some (url.withPort port)

/-- The schemes of the web. -/
def IsHttp : Prop := url.scheme = "http" ∨ url.scheme = "https"

instance : Decidable url.IsHttp := inferInstanceAs (Decidable (_ ∨ _))

end Url

/-- The characters of a scheme. -/
def IsScheme (text : List Char) : Prop :=
  text.head?.any Char.isAlpha = true ∧
    text.all (fun char => char.isAlphanum || ['+', '-', '.'].contains char) = true

instance (text : List Char) : Decidable (IsScheme text) := inferInstanceAs (Decidable (_ ∧ _))

/-- A host and a port, as they stand in an address. -/
def socketText (host : String) (port : Int) : String := host ++ ":" ++ toString port

/-- A parser of URLs with the text it gives back. -/
structure UrlLibrary where
  parse : String → Option Url
  serialize : Url → String

/-- The characters of an address. -/
def isAddressChar (char : Char) : Bool :=
  char.isAlphanum || ['-', '.', '_', ':', '[', ']'].contains char

/-- What the documentation of the library says. -/
structure UrlLibrary.Standard (library : UrlLibrary) : Prop where
  begins_with_scheme : ∀ text url, library.parse text = some url →
    (∀ char ∈ text.toList, isAddressChar char = true) →
      ∃ scheme rest, text.toList = scheme ++ ':' :: rest ∧ IsScheme scheme
  /-- A number behind a scheme is no port. -/
  scheme_and_number : ∀ name (port : Nat), IsScheme name.toList → port ≤ 65535 →
    ∃ url, library.parse (socketText name port) = some url ∧ url.port = none
  default_port : ∀ text url, library.parse text = some url →
    url.port = none ∨ url.port ≠ Url.defaultPort url.scheme
  http_host : ∀ text url, library.parse text = some url → url.IsHttp → url.host.getD "" ≠ ""
  parse_serialize : ∀ text url port, library.parse text = some url → url.IsHttp → port ≤ 65535 →
    library.parse (library.serialize (url.withPort port)) = some (url.withPort port)

/-- `rsplit_once`. -/
def rsplitOnce (separator : Char) (text : List Char) : Option (List Char × List Char) :=
  if separator ∈ text then
    some ((text.rdropWhile (· != separator)).dropLast, text.rtakeWhile (· != separator))
  else
    none

/-- A number. -/
def parseDigits (text : List Char) : Option Nat :=
  if text ≠ [] ∧ text.all Char.isDigit then some (Nat.ofDigitChars 10 text 0) else none

/-- `parse::<i64>`. -/
def parseI64 (text : List Char) : Option Int :=
  if text.head? = some '-' then
    (parseDigits text.tail).bind fun value =>
      if value ≤ 9223372036854775808 then some (-value) else none
  else
    (parseDigits (if text.head? = some '+' then text.tail else text)).bind fun value =>
      if value ≤ 9223372036854775807 then some (value : Int) else none

/-- `parse::<u16>`. -/
def parseU16 (text : List Char) : Option Nat :=
  (parseDigits (if text.head? = some '+' then text.tail else text)).bind fun value =>
    if value ≤ 65535 then some value else none

theorem rsplitOnce_append {separator : Char} {before behind : List Char} (h : separator ∉ behind) :
    rsplitOnce separator (before ++ separator :: behind) = some (before, behind) := by
  have hkept : ∀ char ∈ behind, (char != separator) = true := by
    intro char hchar
    apply bne_iff_ne.mpr
    rintro rfl
    exact h hchar
  have htake : (before ++ separator :: behind).rtakeWhile (· != separator) = behind := by
    rw [@rtakeWhile_append_cons (· != separator) separator (bne_self_eq_false separator)]
    exact List.rtakeWhile_eq_self_iff.mpr hkept
  have hdrop : (before ++ separator :: behind).rdropWhile (· != separator) = before ++ [separator] := by
    have hboth := @List.rdropWhile_append_rtakeWhile _ (· != separator) (before ++ separator :: behind)
    rw [htake, List.append_cons] at hboth
    rw [List.append_cons]
    exact List.append_cancel_right hboth
  rw [rsplitOnce, if_pos (List.mem_append_right before List.mem_cons_self), htake, hdrop,
    List.dropLast_concat]

/-- The separator that splits is the last one. -/
theorem rsplitOnce_eq_some_iff {separator : Char} {text before behind : List Char} :
    rsplitOnce separator text = some (before, behind) ↔
      text = before ++ separator :: behind ∧ separator ∉ behind := by
  constructor
  · intro h
    by_cases hmem : separator ∈ text
    · obtain ⟨last, first, heq, hlast⟩ := List.eq_append_cons_of_mem (List.mem_reverse.mpr hmem)
      have htext : text = first.reverse ++ separator :: last.reverse := by
        rw [← List.reverse_reverse text, heq, List.reverse_append, List.reverse_cons,
          List.append_assoc, List.singleton_append]
      have hbehind : separator ∉ last.reverse := fun hfalse => hlast (List.mem_reverse.mp hfalse)
      rw [htext, rsplitOnce_append hbehind] at h
      obtain ⟨rfl, rfl⟩ := Prod.mk.inj (Option.some.inj h)
      exact ⟨htext, hbehind⟩
    · rw [rsplitOnce, if_neg hmem] at h
      cases h
  · rintro ⟨rfl, h⟩
    exact rsplitOnce_append h

/-- The digits of a number. -/
theorem toList_toString_nat (number : Nat) :
    (toString (number : Int)).toList = Nat.toDigits 10 number := Nat.toList_repr

theorem isUpper_iff {char : Char} : char.isUpper = true ↔ 65 ≤ char.toNat ∧ char.toNat ≤ 90 :=
  decide_eq_true_iff

theorem isLower_iff {char : Char} : char.isLower = true ↔ 97 ≤ char.toNat ∧ char.toNat ≤ 122 :=
  Bool.and_eq_true_iff.trans (and_congr decide_eq_true_iff decide_eq_true_iff)

theorem isDigit_toDigits {number : Nat} {char : Char} (h : char ∈ Nat.toDigits 10 number) :
    char.isDigit = true := Nat.isDigit_of_mem_toDigits (by decide) (by decide) h

theorem parseDigits_toDigits (number : Nat) : parseDigits (Nat.toDigits 10 number) = some number := by
  have hall : (Nat.toDigits 10 number).all Char.isDigit = true :=
    List.all_eq_true.mpr fun _ hchar => isDigit_toDigits hchar
  rw [parseDigits, if_pos ⟨Nat.toDigits_ne_nil, hall⟩,
    Nat.ofDigitChars_toDigits (by decide) (by decide)]

theorem head?_toDigits {number : Nat} {char : Char} (h : char.isDigit = false) :
    (Nat.toDigits 10 number).head? ≠ some char := by
  intro hhead
  rw [isDigit_toDigits (List.mem_of_mem_head? hhead)] at h
  cases h

theorem parseI64_toString {number : Nat} (h : number ≤ 65535) :
    parseI64 (toString (number : Int)).toList = some (number : Int) := by
  rw [toList_toString_nat, parseI64, if_neg (head?_toDigits (by decide)),
    if_neg (head?_toDigits (by decide)), parseDigits_toDigits, Option.bind_some,
    if_pos (by omega)]

theorem parseU16_toString {number : Nat} (h : number ≤ 65535) :
    parseU16 (toString (number : Int)).toList = some number := by
  rw [toList_toString_nat, parseU16, if_neg (head?_toDigits (by decide)), parseDigits_toDigits,
    Option.bind_some, if_pos h]

theorem colon_not_mem_toString (number : Nat) : ':' ∉ (toString (number : Int)).toList := by
  rw [toList_toString_nat]
  intro hmem
  exact absurd (isDigit_toDigits hmem) (by decide)

theorem rsplitOnce_socketText (host : String) (port : Nat) :
    rsplitOnce ':' (socketText host port).toList =
      some (host.toList, (toString (port : Int)).toList) := by
  have hcolon : ":".toList = [':'] := rfl
  rw [socketText, String.toList_append, String.toList_append, hcolon, List.append_assoc,
    List.singleton_append, rsplitOnce_append (colon_not_mem_toString port)]

end EasyDeploy.Foundation
