import RecordAlgebra.Pattern.Syntax
import RecordAlgebra.Text.Alphabetic
import RecordAlgebra.Text.Cased
import RecordAlgebra.Text.Category
import RecordAlgebra.Text.Script

/-!
# Named sets of characters

The names that may stand in brackets and after a property escape.
-/

namespace RecordAlgebra.CharSet

/-- The named sets of a bracket, which hold characters of seven bits only. -/
def bracketName? : String → Option CharSet
  | "alnum" => some (.ranges [(0x30, 0x39), (0x41, 0x5A), (0x61, 0x7A)])
  | "alpha" => some (.ranges [(0x41, 0x5A), (0x61, 0x7A)])
  | "ascii" => some (.range 0x00 0x7F)
  | "blank" => some (.ranges [(0x09, 0x09), (0x20, 0x20)])
  | "cntrl" => some (.ranges [(0x00, 0x1F), (0x7F, 0x7F)])
  | "digit" => some (.range 0x30 0x39)
  | "graph" => some (.range 0x21 0x7E)
  | "lower" => some (.range 0x61 0x7A)
  | "print" => some (.range 0x20 0x7E)
  | "punct" => some (.ranges [(0x21, 0x2F), (0x3A, 0x40), (0x5B, 0x60), (0x7B, 0x7E)])
  | "space" => some (.ranges [(0x09, 0x0D), (0x20, 0x20)])
  | "upper" => some (.range 0x41 0x5A)
  | "word" => some (.ranges [(0x30, 0x39), (0x41, 0x5A), (0x5F, 0x5F), (0x61, 0x7A)])
  | "xdigit" => some (.ranges [(0x30, 0x39), (0x41, 0x46), (0x61, 0x66)])
  | _ => none

/-- What counts of a name, in small letters. -/
def bareName (name : List Char) : List Char :=
  (name.filter fun c => c != ' ' && c != '_' && c != '-' && c.toNat < 0x80).map Char.toLower

/-- Names are compared without case, and neither blanks and lines in them nor a
leading `is` count, except that `isc` is a name of its own. -/
def normalName (name : List Char) : String :=
  match name.map Char.toLower with
  | 'i' :: 's' :: rest => if bareName rest = ['c'] then "isc" else String.ofList (bareName rest)
  | _ => String.ofList (bareName name)

/-- The entry of a table under one of its names. -/
def named? {α : Type} (table : List (List String × α)) (name : String) : Option α :=
  (table.find? fun entry => entry.1.contains name).map Prod.snd

def ofTables (tables : List (List (Nat × Nat))) : CharSet := unionAll (tables.map .ranges)

def categories (names : List String) : CharSet :=
  ofTables (names.filterMap (named? Text.categories))

/-- A general category, a group of them, or one of the sets that count as such. -/
def category? (name : String) : Option CharSet :=
  let assigned := ofTables (Text.categories.map Prod.snd)
  match name with
  | "any" => some (.complement .empty)
  | "ascii" => some (.range 0x00 0x7F)
  | "assigned" => some assigned
  | "cn" | "unassigned" => some (.complement assigned)
  | "c" | "other" => some (.union (.complement assigned) (categories ["cc", "cf", "co"]))
  | name =>
      ((named? Text.categories name).map .ranges).orElse fun _ =>
        (named? Text.categoryGroups name).map categories

def script? (name : String) : Option CharSet := (named? Text.scripts name).map .ranges

/-- The properties that are not a matter of category or script. -/
def ownProperty? : String → Option CharSet
  | "alphabetic" | "alpha" =>
      some <| .union (categories ["lu", "ll", "lt", "lm", "lo", "nl"])
        (.ranges Text.otherAlphabetic)
  | "lowercase" | "lower" => some (ofTables [Text.lowercaseLetters, Text.otherLowercase])
  | "uppercase" | "upper" => some (ofTables [Text.uppercaseLetters, Text.otherUppercase])
  | "cased" => some (.ranges Text.casedRanges)
  | "caseignorable" | "ci" => some (.ranges Text.caseIgnorableRanges)
  | "whitespace" | "space" | "wspace" => some (.ranges Text.blankRanges)
  | "hexdigit" | "hex" => some (.ranges Text.hexDigits)
  | "asciihexdigit" | "ahex" => some (.ranges [(0x30, 0x39), (0x41, 0x46), (0x61, 0x66)])
  | "ideographic" | "ideo" => some (.ranges Text.ideographs)
  | "dash" => some (.ranges Text.dashes)
  | "emoji" => some (.ranges Text.emoji)
  | "math" => some (.ranges Text.mathematical)
  | _ => none

/-- What a single name stands for. -/
def property? (name : List Char) : Option CharSet :=
  let name := normalName name
  (ownProperty? name).orElse fun _ => (category? name).orElse fun _ => script? name

/-- What a value of a named property stands for. -/
def propertyValue? (property value : List Char) : Option CharSet :=
  match normalName property with
  | "generalcategory" | "gc" => category? (normalName value)
  | "script" | "sc" => script? (normalName value)
  | _ => none

/-- The parts of a text before and after a mark. -/
def splitAtMark? (mark : List Char) : List Char → Option (List Char × List Char)
  | [] => none
  | c :: rest =>
      if mark.isPrefixOf (c :: rest) then some ([], (c :: rest).drop mark.length)
      else (splitAtMark? mark rest).map fun (before, after) => (c :: before, after)

/-- What stands in the braces of a property escape: a name, or the value of a
property that a character has or does not have. -/
def query? (text : List Char) : Option (Bool × CharSet) :=
  match splitAtMark? ['!', '='] text, splitAtMark? [':'] text, splitAtMark? ['='] text with
  | some (property, value), _, _ => (propertyValue? property value).map (true, ·)
  | none, some (property, value), _ | none, none, some (property, value) =>
      (propertyValue? property value).map (false, ·)
  | none, none, none => (property? text).map (false, ·)

end RecordAlgebra.CharSet
