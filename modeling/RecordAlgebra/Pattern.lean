import RecordAlgebra.Error
import RecordAlgebra.Pattern.Match
import RecordAlgebra.Pattern.Reader

/-!
# Patterns

A pattern is a regular expression together with the text that it was read from.
Two patterns are the same if their texts are.
-/

namespace RecordAlgebra

structure Pattern where
  text : String
  regex : Regex

namespace Pattern

def ofText (text : String) : Except Error Pattern :=
  match Regex.parse? text with
  | some regex => .ok { text, regex }
  | none => .error ((Error.ofCause .invalidPattern).attach "pattern" text)

def isMatch (pattern : Pattern) (s : String) : Bool := pattern.regex.isMatch s

def same (a b : Pattern) : Bool := a.text == b.text

end Pattern

end RecordAlgebra
