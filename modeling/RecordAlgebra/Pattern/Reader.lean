import RecordAlgebra.Pattern.Property

/-!
# Reading regular expressions

An expression is read from left to right under the flags in force, which a
group may change for its contents and a flag item for the rest of its group.
Only whether a text is an expression and what it matches are of interest, so
groups leave no trace, and greed makes no difference.
-/

namespace RecordAlgebra.Regex

abbrev Chars := List Char

structure Flags where
  caseless : Bool := false
  multiLine : Bool := false
  dotAll : Bool := false
  carriageReturns : Bool := false
  verbose : Bool := false
  unicode : Bool := true

/-- What an escape stands for. A character is raw if it was given as a byte. -/
inductive Escape where
  | char (c : Char) (raw : Bool)
  | set (chars : CharSet)
  | look (condition : Look)

inductive SetOp where
  | intersection
  | difference
  | symmetricDifference

/-- An expression with the depth to which it is nested. -/
structure Piece where
  regex : Regex
  nesting : Nat

def nestingLimit : Nat := 250

/-- Blanks and comments, which only a verbose expression may have. -/
def skipVerbose (inComment : Bool) : Chars → Chars
  | [] => []
  | c :: rest =>
      if inComment then skipVerbose (c != '\n') rest
      else if Text.isBlank c then skipVerbose false rest
      else if c = '#' then skipVerbose true rest
      else c :: rest

def skip (flags : Flags) (s : Chars) : Chars := if flags.verbose then skipVerbose false s else s

def hexDigit? (c : Char) : Option Nat :=
  if '0' ≤ c && c ≤ '9' then some (c.toNat - '0'.toNat)
  else if 'a' ≤ c && c ≤ 'f' then some (c.toNat - 'a'.toNat + 10)
  else if 'A' ≤ c && c ≤ 'F' then some (c.toNat - 'A'.toNat + 10)
  else none

def charOfCode? (code : Nat) : Option Char :=
  if code < 0xD800 || (0xDFFF < code && code < 0x110000) then some (Char.ofNat code) else none

def hexNumber? (digits : Chars) : Option Nat :=
  digits.foldlM (fun n c => (hexDigit? c).map (16 * n + ·)) 0

/-- The code of a character in so many digits, or in braces. -/
def readHex? (flags : Flags) (width : Nat) (s : Chars) : Option (Char × Chars) :=
  match skip flags s with
  | '\x7b' :: rest =>
      let digits := rest.takeWhile (· != '\x7d')
      let shown := if flags.verbose then digits.filter fun c => !Text.isBlank c else digits
      match rest.drop digits.length with
      | _ :: rest =>
          if shown.isEmpty then none
          else do pure (← charOfCode? (← hexNumber? shown), rest)
      | [] => none
  | s =>
      let digits := s.take width
      if digits.length < width then none
      else do pure (← charOfCode? (← hexNumber? digits), s.drop width)

def caselessSet (flags : Flags) (chars : CharSet) : CharSet :=
  if flags.caseless then .caseless flags.unicode chars else chars

def readProperty? (flags : Flags) (negated : Bool) (s : Chars) : Option (CharSet × Chars) :=
  let found (inverted : Bool) (chars : CharSet) : CharSet :=
    let chars := caselessSet flags chars
    if negated != inverted then .complement chars else chars
  match skip flags s with
  | [] => none
  | '\x7b' :: rest =>
      let name := rest.takeWhile (· != '\x7d')
      match rest.drop name.length with
      | _ :: rest =>
          if flags.unicode then
            (CharSet.query? name).map fun (inverted, chars) => (found inverted chars, rest)
          else none
      | [] => none
  | '\\' :: _ => none
  | c :: rest =>
      if flags.unicode then (CharSet.property? [c]).map fun chars => (found false chars, rest)
      else none

/-- Without Unicode a set may hold characters of seven bits only. -/
def checkedSet? (flags : Flags) (chars : CharSet) : Option CharSet :=
  if flags.unicode || (List.range 128).all fun c => !chars.contains (128 + c) then some chars
  else none

def classEscape? (flags : Flags) (chars : CharSet) (negated : Bool) : Option Escape :=
  (checkedSet? flags (if negated then .complement chars else chars)).map .set

def isPunctuation (c : Char) : Bool :=
  c.toNat < 0x80 && !c.isAlphanum && c != '<' && c != '>'

/-- The kind of a word boundary, in braces after its escape. -/
def readBoundary? (flags : Flags) (s : Chars) : Option (Look × Chars) :=
  let u := flags.unicode
  let isNameChar (c : Char) : Bool := c.isAlpha || c == '-'
  match s with
  | '\x7b' :: rest =>
      let inside := skip flags rest
      match inside with
      | [] => none
      | c :: _ =>
          if !isNameChar c then some (.wordBoundary u, s)
          else
            let name := inside.takeWhile isNameChar
            match skip flags (inside.drop name.length) with
            | '\x7d' :: rest =>
                match String.ofList name with
                | "start" => some (.wordStart u, rest)
                | "end" => some (.wordFinish u, rest)
                | "start-half" => some (.wordStartHalf u, rest)
                | "end-half" => some (.wordFinishHalf u, rest)
                | _ => none
            | _ => none
  | s => some (.wordBoundary u, s)

def readEscape? (flags : Flags) (s : Chars) : Option (Escape × Chars) :=
  let u := flags.unicode
  match s with
  | [] => none
  | 'x' :: rest => (readHex? flags 2 rest).map fun (c, rest) => (.char c true, rest)
  | 'u' :: rest => (readHex? flags 4 rest).map fun (c, rest) => (.char c false, rest)
  | 'U' :: rest => (readHex? flags 8 rest).map fun (c, rest) => (.char c false, rest)
  | 'p' :: rest => (readProperty? flags false rest).map fun (chars, rest) => (.set chars, rest)
  | 'P' :: rest => (readProperty? flags true rest).map fun (chars, rest) => (.set chars, rest)
  | 'b' :: rest => (readBoundary? flags rest).map fun (condition, rest) => (.look condition, rest)
  | c :: rest =>
      let escape := match c with
        | 'd' => classEscape? flags (.digits u) false
        | 'D' => classEscape? flags (.digits u) true
        | 's' => classEscape? flags (.blanks u) false
        | 'S' => classEscape? flags (.blanks u) true
        | 'w' => classEscape? flags (.wordCharacters u) false
        | 'W' => classEscape? flags (.wordCharacters u) true
        | 'a' => some (.char '\x07' false)
        | 'f' => some (.char '\x0c' false)
        | 't' => some (.char '\t' false)
        | 'n' => some (.char '\n' false)
        | 'r' => some (.char '\r' false)
        | 'v' => some (.char '\x0b' false)
        | 'A' => some (.look .start)
        | 'z' => some (.look .finish)
        | 'B' => some (.look (.noWordBoundary u))
        | '<' => some (.look (.wordStart u))
        | '>' => some (.look (.wordFinish u))
        | c => if isPunctuation c then some (.char c false) else none
      escape.map (·, rest)

/-- A character that stands for itself. -/
def literal? (flags : Flags) (c : Char) (raw : Bool) : Option Regex :=
  if raw && !flags.unicode && 0x7F < c.toNat then none
  else some (.set (caselessSet flags (.single c)))

def dot? (flags : Flags) : Option Regex :=
  if !flags.unicode then none
  else if flags.dotAll then some (.set (.complement .empty))
  else if flags.carriageReturns then
    some (.set (.complement (.ranges [(0x0A, 0x0A), (0x0D, 0x0D)])))
  else some (.set (.complement (.single '\n')))

/-- A character or a set in brackets. -/
def readSetItem? (flags : Flags) (s : Chars) : Option ((Char ⊕ CharSet) × Chars) :=
  let checked (c : Char) (rest : Chars) : Option ((Char ⊕ CharSet) × Chars) :=
    if !flags.unicode && 0x7F < c.toNat then none else some (.inl c, rest)
  match s with
  | [] => none
  | '\\' :: rest =>
      match readEscape? flags rest with
      | some (.char c _, rest) => checked c rest
      | some (.set chars, rest) => some (.inr chars, rest)
      | _ => none
  | c :: rest => checked c rest

def startsWithDash (flags : Flags) : Chars → Bool
  | '-' :: rest =>
      match skip flags rest with
      | ']' :: _ | '-' :: _ => false
      | _ => true
  | _ => false

/-- One item in brackets, or a range between two characters. -/
def readSetRange? (flags : Flags) (s : Chars) : Option (CharSet × Chars) := do
  let (first, rest) ← readSetItem? flags s
  let rest := skip flags rest
  if startsWithDash flags rest then
    let (last, rest) ← readSetItem? flags (skip flags (rest.drop 1))
    match first, last with
    | .inl a, .inl b => if a ≤ b then some (.range a.toNat b.toNat, rest) else none
    | _, _ => none
  else
    match first with
    | .inl c => some (.single c, rest)
    | .inr chars => some (chars, rest)

/-- A named set in brackets within brackets, after the inner opening one. -/
def readNamedSet? : Chars → Option (CharSet × Chars)
  | ':' :: rest =>
      let (negated, rest) := match rest with
        | '^' :: rest => (true, rest)
        | rest => (false, rest)
      let name := rest.takeWhile (· != ':')
      match rest.drop name.length with
      | ':' :: ']' :: rest =>
          (CharSet.bracketName? (String.ofList name)).map fun chars =>
            (if negated then .complement chars else chars, rest)
      | _ => none
  | _ => none

def combine (flags : Flags) (left : Option (SetOp × CharSet)) (right : CharSet) : CharSet :=
  match left with
  | none => right
  | some (op, left) =>
      let left := caselessSet flags left
      let right := caselessSet flags right
      match op with
      | .intersection => .intersection left right
      | .difference => .difference left right
      | .symmetricDifference => .symmetricDifference left right

/-- The start of a set: whether it is negated, and the characters that stand for
themselves only there. -/
def readSetStart (flags : Flags) (s : Chars) : Bool × CharSet × Chars :=
  let s := skip flags s
  let (negated, s) := match s with
    | '^' :: rest => (true, skip flags rest)
    | s => (false, s)
  let rec dashes : Chars → Bool × Chars
    | '-' :: rest => (true, (dashes rest).2)
    | s => (false, s)
  match dashes s with
  | (true, s) => (negated, .single '-', skip flags s)
  | (false, ']' :: rest) => (negated, .single ']', skip flags rest)
  | (false, s) => (negated, .empty, s)

/-- The rest of a set up to its closing bracket, with its depth. Each step reads
a character. -/
def readSet? (flags : Flags) :
    Nat → Bool → Option (SetOp × CharSet) → CharSet → Nat → Chars →
      Option (CharSet × Nat × Chars)
  | 0, _, _, _, _, _ => none
  | steps + 1, negated, left, members, depth, s =>
      match skip flags s with
      | [] => none
      | ']' :: rest =>
          let all := caselessSet flags (combine flags left members)
          (checkedSet? flags (if negated then .complement all else all)).map (·, depth + 1, rest)
      | '[' :: rest =>
          match readNamedSet? rest with
          | some (chars, rest) =>
              match checkedSet? flags chars with
              | some chars => readSet? flags steps negated left (.union members chars) depth rest
              | none => none
          | none =>
              let (innerNegated, initial, rest) := readSetStart flags rest
              match readSet? flags steps innerNegated none initial 0 rest with
              | some (chars, inner, rest) =>
                  readSet? flags steps negated left (.union members chars) (max depth inner) rest
              | none => none
      | '&' :: '&' :: rest =>
          readSet? flags steps negated (some (.intersection, combine flags left members)) .empty
            depth rest
      | '-' :: '-' :: rest =>
          readSet? flags steps negated (some (.difference, combine flags left members)) .empty
            depth rest
      | '~' :: '~' :: rest =>
          readSet? flags steps negated (some (.symmetricDifference, combine flags left members))
            .empty depth rest
      | s =>
          match readSetRange? flags s with
          | some (chars, rest) =>
              readSet? flags steps negated left (.union members chars) depth rest
          | none => none

def withFlag? (flags : Flags) (c : Char) (on : Bool) : Option Flags :=
  match c with
  | 'i' => some { flags with caseless := on }
  | 'm' => some { flags with multiLine := on }
  | 's' => some { flags with dotAll := on }
  | 'R' => some { flags with carriageReturns := on }
  | 'x' => some { flags with verbose := on }
  | 'u' => some { flags with unicode := on }
  | 'U' => some flags
  | _ => none

/-- Flags up to a colon or a closing parenthesis. No flag may be given twice, and
a flag has to follow the sign that turns flags off. -/
def readFlags? (seen : List Char) : Flags → Chars → Option (Flags × Chars)
  | _, [] => none
  | flags, c :: rest =>
      if c = ':' || c = ')' then
        if seen.head? = some '-' then none else some (flags, c :: rest)
      else if seen.contains c then none
      else if c = '-' then readFlags? ('-' :: seen) flags rest
      else
        match withFlag? flags c (!seen.contains '-') with
        | some flags => readFlags? (c :: seen) flags rest
        | none => none

def isNameStart (c : Char) : Bool :=
  c = '_' ||
    ((CharSet.wordCharacters true).contains c.toNat && !(CharSet.digits true).contains c.toNat)

def isNameChar (c : Char) : Bool :=
  c = '.' || c = '[' || c = ']' || (CharSet.wordCharacters true).contains c.toNat

/-- The name of a group, which has to be new. -/
def readGroupName? (names : List (List Char)) (s : Chars) : Option (List Char × Chars) :=
  let name := s.takeWhile (· != '>')
  match name, s.drop name.length with
  | first :: others, _ :: rest =>
      if isNameStart first && others.all isNameChar && !names.contains name then some (name, rest)
      else none
  | _, _ => none

def readCount? (s : Chars) : Option (Nat × Chars) :=
  let s := Text.dropBlanks s
  let digits := s.takeWhile Char.isDigit
  let count := digits.foldl (fun n c => 10 * n + (c.toNat - '0'.toNat)) 0
  if digits.isEmpty || 4294967296 ≤ count then none
  else some (count, Text.dropBlanks (s.drop digits.length))

/-- The bounds of a repetition, after the opening brace. -/
def readBounds? (flags : Flags) (s : Chars) : Option ((Nat × Option Nat) × Chars) := do
  let (least, rest) ← readCount? (skip flags s)
  match rest with
  | '\x7d' :: rest => some ((least, some least), rest)
  | ',' :: rest =>
      match skip flags rest with
      | '\x7d' :: rest => some ((least, none), rest)
      | rest =>
          let (most, rest) ← readCount? rest
          match rest with
          | '\x7d' :: rest => if least ≤ most then some ((least, some most), rest) else none
          | _ => none
  | _ => none

def dropLazyMark : Chars → Chars
  | '?' :: rest => rest
  | s => s

/-- The items of a branch, the last one first. Flag items have no piece. -/
def sequence (items : List (Option Piece)) : Piece :=
  let pieces := items.filterMap id
  let regex := pieces.foldl (fun later piece => match later with
    | none => some piece.regex
    | some later => some (.seq piece.regex later)) none
  let deepest := pieces.foldl (fun n piece => max n piece.nesting) 0
  { regex := regex.getD .empty
    nesting := if items.length ≤ 1 then deepest else deepest + 1 }

/-- The branches of an alternation, the last one first. -/
def alternation (branches : List Piece) : Piece :=
  match branches with
  | [] => { regex := .empty, nesting := 0 }
  | [only] => only
  | last :: earlier =>
      { regex := earlier.foldl (fun later piece => .either piece.regex later) last.regex
        nesting := 1 + branches.foldl (fun n piece => max n piece.nesting) 0 }

/-- Repeats the last item. A flag item cannot be repeated. -/
def repeatLast? (items : List (Option Piece)) (least : Nat) (most : Option Nat) :
    Option (List (Option Piece)) :=
  match items with
  | some piece :: earlier =>
      some (some { regex := .repeated piece.regex least most, nesting := piece.nesting + 1 } ::
        earlier)
  | _ => none

def isLookaround : Chars → Bool
  | '?' :: '=' :: _ | '?' :: '!' :: _ | '?' :: '<' :: '=' :: _ | '?' :: '<' :: '!' :: _ => true
  | _ => false

/-- Reads up to the end or to a parenthesis that closes nothing. Each step reads
a character. -/
def readBranches? : Nat → Flags → List (List Char) → List Piece → List (Option Piece) → Chars →
    Option (Piece × List (List Char) × Chars)
  | 0, _, _, _, _, _ => none
  | steps + 1, flags, names, branches, items, s =>
      let piece (p : Piece) (rest : Chars) :=
        readBranches? steps flags names branches (some p :: items) rest
      let leaf (r : Regex) (rest : Chars) := piece { regex := r, nesting := 0 } rest
      let repeated (least : Nat) (most : Option Nat) (rest : Chars) :=
        match repeatLast? items least most with
        | some items => readBranches? steps flags names branches items (dropLazyMark rest)
        | none => none
      let group (inner : Flags) (names : List (List Char)) (rest : Chars) :=
        match readBranches? steps inner names [] [] rest with
        | some (body, names, ')' :: rest) =>
            readBranches? steps flags names branches
              (some { body with nesting := body.nesting + 1 } :: items) rest
        | _ => none
      match skip flags s with
      | [] => some (alternation (sequence items :: branches), names, [])
      | ')' :: rest => some (alternation (sequence items :: branches), names, ')' :: rest)
      | '|' :: rest => readBranches? steps flags names (sequence items :: branches) [] rest
      | '(' :: rest =>
          let rest := skip flags rest
          if isLookaround rest then none
          else
            match rest with
            | '?' :: 'P' :: '<' :: rest | '?' :: '<' :: rest =>
                match readGroupName? names rest with
                | some (name, rest) => group flags (name :: names) rest
                | none => none
            | '?' :: rest =>
                match readFlags? [] flags rest with
                | some (inner, ':' :: after) => group inner names after
                | some (changed, ')' :: after) =>
                    if rest.head? = some ')' then none
                    else readBranches? steps changed names branches (none :: items) after
                | _ => none
            | rest => group flags names rest
      | '[' :: rest =>
          let (negated, initial, rest) := readSetStart flags rest
          match readSet? flags (rest.length + 1) negated none initial 0 rest with
          | some (chars, depth, rest) => piece { regex := .set chars, nesting := depth } rest
          | none => none
      | '?' :: rest => repeated 0 (some 1) rest
      | '*' :: rest => repeated 0 none rest
      | '+' :: rest => repeated 1 none rest
      | '\x7b' :: rest =>
          match readBounds? flags rest with
          | some ((least, most), rest) => repeated least most rest
          | none => none
      | '\\' :: rest =>
          match readEscape? flags rest with
          | some (.char c raw, rest) => (literal? flags c raw).bind fun r => leaf r rest
          | some (.set chars, rest) => leaf (.set (caselessSet flags chars)) rest
          | some (.look condition, rest) => leaf (.look condition) rest
          | none => none
      | '.' :: rest => (dot? flags).bind fun r => leaf r rest
      | '^' :: rest =>
          leaf (.look (if flags.multiLine then .lineStart flags.carriageReturns else .start)) rest
      | '$' :: rest =>
          leaf (.look (if flags.multiLine then .lineFinish flags.carriageReturns else .finish)) rest
      | c :: rest => (literal? flags c false).bind fun r => leaf r rest

/-- The expression that a text stands for. -/
def parse? (text : String) : Option Regex :=
  let s := text.toList
  match readBranches? (s.length + 1) {} [] [] [] s with
  | some (piece, _, []) =>
      if piece.nesting ≤ nestingLimit && piece.regex.weight ≤ weightLimit then some piece.regex
      else none
  | _ => none

end RecordAlgebra.Regex
