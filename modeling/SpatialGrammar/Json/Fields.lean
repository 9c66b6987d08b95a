/-
SpatialGrammar/Json/Fields.lean

Reading typed data out of JSON values.

A record may be written as an object or, more tersely, as the array of its fields in
order.  In an object, members of other names are passed over, and a field must not be
given twice; in an array, fields at the end may be left out.  Whether a field that is
missing has a default is for the caller to say.
-/
import SpatialGrammar.Decimal.Integer
import SpatialGrammar.Decimal.Stepwise
import SpatialGrammar.Json.Value

namespace SpatialGrammar.Json

/-! ### Plain data -/

/-- A truth value. -/
def bool? : Json → Option Bool
  | .bool b => some b
  | _ => none

/-- A string that is a text. -/
def text? : Json → Option String
  | .string text => text
  | _ => none

/-- A whole number that is not negative and fits the given number of bits.  It is written with
digits alone. -/
def nat? (bits : Nat) : Json → Option Nat
  | .number numeral => (Decimal.natural? numeral.toList).filter (· < Nat.pow 2 bits)
  | _ => none

/-- A whole number of up to 64 bits, written with digits alone or, below zero, with a minus sign in
front of them. -/
def wholeNumber? (numeral : List Char) : Option Decimal :=
  match numeral with
  | '-' :: digits =>
    ((Decimal.natural? digits).filter fun n => 0 < n ∧ n ≤ Nat.pow 2 63).map fun n => ⟨true, n, 0⟩
  | digits => ((Decimal.natural? digits).filter (· < Nat.pow 2 64)).map fun n => ⟨false, n, 0⟩

/-- A number that is no whole number of 64 bits; it is read in double precision, whose range it
must not exceed. -/
def stepwise? (numeral : List Char) : Option Float32 :=
  (Decimal.gathered? numeral).bind Decimal.toSingleStepwise?

/-- A single-precision number.  A whole number of up to 64 bits is rounded once. -/
def single? : Json → Option Float32
  | .number numeral =>
    match wholeNumber? numeral.toList with
    | some d => some d.toSingle
    | none => stepwise? numeral.toList
  | _ => none

/-- A list of data of one type. -/
def list? {β : Type} (read : Json → Option β) : Json → Option (List β)
  | .array items => items.mapM read
  | _ => none

/-- Data that may be absent, which `null` says. -/
def optional? {β : Type} (read : Json → Option β) : Json → Option (Option β)
  | .null => some none
  | v => (read v).map some

/-! ### Records -/

/-- The fields of a record that were given, by name. -/
abbrev Fields := List (String × Json)

/-- The members of an object whose names are all texts. -/
def namedMembers? (members : List (Option String × Json)) : Option Fields :=
  members.mapM fun (name, v) => name.map fun name => (name, v)

/-- The members that belong to a record with the given fields, none of them given twice. -/
def Fields.select? (names : List String) (members : Fields) : Option Fields :=
  let mine := members.filter fun m => names.contains m.1
  if (mine.map Prod.fst).Nodup then some mine else none

/-- The fields of a record, written either way. -/
def fields? (names : List String) : Json → Option Fields
  | .object members => (namedMembers? members).bind (Fields.select? names)
  | .array items => if items.length ≤ names.length then some (names.zip items) else none
  | _ => none

/-- A field that must be given. -/
def Fields.required {β : Type} (fields : Fields) (name : String) (read : Json → Option β) :
    Option β :=
  (fields.lookup name).bind read

/-- A field with a default. -/
def Fields.withDefault {β : Type} (fields : Fields) (name : String) (read : Json → Option β)
    (default : β) : Option β :=
  match fields.lookup name with
  | none => some default
  | some v => read v

/-! ### Values that are kept before they are read -/

mutual

/-- Whether a value can be kept to be read later: it nests no deeper than `depth`, its strings and
names are texts, and its numbers do not exceed double precision. -/
def isKeepable : Nat → Json → Bool
  | _, .null => true
  | _, .bool _ => true
  | _, .number numeral => (stepwise? numeral.toList).isSome
  | _, .string text => text.isSome
  | 0, .array _ => false
  | depth + 1, .array items => areKeepable depth items
  | 0, .object _ => false
  | depth + 1, .object members => membersKeepable depth members

/-- Whether every item can be kept. -/
def areKeepable : Nat → List Json → Bool
  | _, [] => true
  | depth, v :: vs => isKeepable depth v && areKeepable depth vs

/-- Whether every member can be kept. -/
def membersKeepable : Nat → List (Option String × Json) → Bool
  | _, [] => true
  | depth, (name, v) :: ms => name.isSome && isKeepable depth v && membersKeepable depth ms

end

end SpatialGrammar.Json
