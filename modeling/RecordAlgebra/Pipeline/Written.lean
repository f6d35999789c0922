import RecordAlgebra.Pipeline.Basic

/-!
# Pipelines as documents

A pipeline is written as an array of its stages. Stages, conditions, operands
and accumulators are objects with one member, whose name says what they are and
whose value holds their parts. What has no parts is a string, but an object
whose member is null is read just the same.
-/

namespace RecordAlgebra.Pipeline

/-- The text of something without parts. -/
def bareTag? : Json → Option String
  | .text tag => some tag
  | .object [(tag, .null)] => some tag
  | _ => none

def tagged (tag : String) (payload : Json) : Json := .object [(tag, payload)]

section Codes

/-- The first of these that has the code. -/
def byCode? {α : Type} (code : α → String) (choices : List α) (text : String) : Option α :=
  choices.find? fun choice => code choice == text

def Combination.code : Combination → String
  | .add => "$add"
  | .subtract => "$subtract"
  | .multiply => "$multiply"
  | .concat => "$concat"

def LetterCase.code : LetterCase → String
  | .upper => "$toUpper"
  | .lower => "$toLower"

def comparisonCode : ComparisonOp → String
  | .equal => "$eq"
  | .notEqual => "$ne"
  | .less => "$lt"
  | .lessOrEqual => "$lte"
  | .greater => "$gt"
  | .greaterOrEqual => "$gte"

def directionCode : Direction → String
  | .ascending => "asc"
  | .descending => "desc"

def comparisonOfJson? (document : Json) : Option ComparisonOp :=
  (bareTag? document).bind <|
    byCode? comparisonCode
      [.equal, .notEqual, .less, .lessOrEqual, .greater, .greaterOrEqual]

def directionOfJson? (document : Json) : Option Direction :=
  (bareTag? document).bind <| byCode? directionCode [.ascending, .descending]

/-- What an operand is, apart from its parts. -/
inductive OperandTag where
  | root
  | field
  | literal
  | combine (op : Combination)
  | changeCase (letters : LetterCase)
  | object
  | merge
  deriving DecidableEq, Repr

namespace OperandTag

def code : OperandTag → String
  | .root => "$$ROOT"
  | .field => "$field"
  | .literal => "$literal"
  | .combine op => op.code
  | .changeCase letters => letters.code
  | .object => "$object"
  | .merge => "$mergeObjects"

def ofCode? : String → Option OperandTag :=
  byCode? code
    [.root, .field, .literal, .combine .add, .combine .subtract, .combine .multiply,
      .combine .concat, .changeCase .upper, .changeCase .lower, .object, .merge]

theorem ofCode?_code (tag : OperandTag) : ofCode? tag.code = some tag := by
  rcases tag with _ | _ | _ | op | letters | _ | _
  case combine => cases op <;> decide
  case changeCase => cases letters <;> decide
  all_goals decide

end OperandTag

end Codes

namespace Operand

mutual

def toJson : Operand → Json
  | .root => .text OperandTag.root.code
  | .field name => tagged OperandTag.field.code (.text name)
  | .literal document => tagged OperandTag.literal.code document
  | .combine op left right =>
      tagged (OperandTag.combine op).code (.array [toJson left, toJson right])
  | .changeCase letters operand => tagged (OperandTag.changeCase letters).code (toJson operand)
  | .object fields => tagged OperandTag.object.code (.object (fieldsToJson fields))
  | .merge parts => tagged OperandTag.merge.code (.array (allToJson parts))

def allToJson : List Operand → List Json
  | [] => []
  | operand :: rest => toJson operand :: allToJson rest

def fieldsToJson : List (String × Operand) → List (String × Json)
  | [] => []
  | (name, operand) :: rest => (name, toJson operand) :: fieldsToJson rest

end

mutual

def ofJson? : Json → Option Operand
  | .text code => if code = OperandTag.root.code then some .root else none
  | .object [(code, payload)] =>
      match OperandTag.ofCode? code, payload with
      | some .root, .null => some .root
      | some .field, .text name => some (.field name)
      | some .literal, document => some (.literal document)
      | some (.combine op), .array [left, right] => do
          let left ← ofJson? left
          let right ← ofJson? right
          some (.combine op left right)
      | some (.changeCase letters), operand => (ofJson? operand).map (.changeCase letters)
      | some .object, .object members =>
          (ofMembers? members).map fun fields => .object (Fields.ofList fields)
      | some .merge, .array elements => (ofElements? elements).map .merge
      | _, _ => none
  | _ => none

def ofElements? : List Json → Option (List Operand)
  | [] => some []
  | document :: rest => do
      let operand ← ofJson? document
      let operands ← ofElements? rest
      some (operand :: operands)

def ofMembers? : List (String × Json) → Option (List (String × Operand))
  | [] => some []
  | (name, document) :: rest => do
      let operand ← ofJson? document
      let fields ← ofMembers? rest
      some ((name, operand) :: fields)

end

/-- An operand, or none where the document is null. -/
def optionOfJson? : Json → Option (Option Operand)
  | .null => some none
  | document => (ofJson? document).map some

def optionToJson : Option Operand → Json
  | none => .null
  | some operand => operand.toJson

/-- The fields of an object of operands. -/
def fieldsOfJson? : Json → Option (Fields Operand)
  | .object members => (ofMembers? members).map Fields.ofList
  | _ => none

end Operand

namespace Condition

mutual

def toJson : Condition → Json
  | .all parts => tagged "$and" (.array (allToJson parts))
  | .any parts => tagged "$or" (.array (allToJson parts))
  | .compare field op document =>
      tagged "$cmp" <|
        .object [("field", .text field), ("op", .text (comparisonCode op)), ("value", document)]

def allToJson : List Condition → List Json
  | [] => []
  | condition :: rest => toJson condition :: allToJson rest

end

/-- A comparison whose parts are given by name, or by position. -/
def comparisonOfParts? (field op document : Json) : Option Condition :=
  match field, comparisonOfJson? op with
  | .text field, some op => some (.compare field op document)
  | _, _ => none

def comparisonOfPayload? : Json → Option Condition
  | .array [field, op, document] => comparisonOfParts? field op document
  | .object members => do
      comparisonOfParts? (← Fields.get? members "field") (← Fields.get? members "op")
        (← Fields.get? members "value")
  | _ => none

mutual

def ofJson? : Json → Option Condition
  | .object [("$and", .array elements)] => (ofElements? elements).map .all
  | .object [("$or", .array elements)] => (ofElements? elements).map .any
  | .object [("$cmp", payload)] => comparisonOfPayload? payload
  | _ => none

def ofElements? : List Json → Option (List Condition)
  | [] => some []
  | document :: rest => do
      let condition ← ofJson? document
      let conditions ← ofElements? rest
      some (condition :: conditions)

end

end Condition

namespace Accumulator

def toJson : Accumulator → Json
  | .sum operand => tagged "$sum" operand.toJson
  | .avg operand => tagged "$avg" operand.toJson
  | .min operand => tagged "$min" operand.toJson
  | .max operand => tagged "$max" operand.toJson
  | .count operand => tagged "$count" (Operand.optionToJson operand)

def ofJson? : Json → Option Accumulator
  | .object [("$sum", payload)] => (Operand.ofJson? payload).map .sum
  | .object [("$avg", payload)] => (Operand.ofJson? payload).map .avg
  | .object [("$min", payload)] => (Operand.ofJson? payload).map .min
  | .object [("$max", payload)] => (Operand.ofJson? payload).map .max
  | .object [("$count", payload)] => (Operand.optionOfJson? payload).map .count
  | _ => none

end Accumulator

/-- The members of an object, each of them read. -/
def fieldsOfMembers? {α : Type} (read? : Json → Option α) (members : List (String × Json)) :
    Option (Fields α) :=
  (members.mapM fun member => (read? member.2).map fun part => (member.1, part)).map
    Fields.ofList

def membersOfFields {α : Type} (write : α → Json) (fields : Fields α) : List (String × Json) :=
  fields.map fun (name, part) => (name, write part)

namespace Grouping

/-- The accumulators stand beside the key. -/
def toJson (grouping : Grouping) : Json :=
  .object <|
    (groupIdField, Operand.optionToJson grouping.key) ::
      membersOfFields Accumulator.toJson grouping.accumulators

def ofJson? : Json → Option Grouping
  | .object members => do
      let key ← match Fields.get? members groupIdField with
        | none => some none
        | some document => Operand.optionOfJson? document
      let others := members.filter fun member => member.1 != groupIdField
      let accumulators ← fieldsOfMembers? Accumulator.ofJson? others
      some { key, accumulators }
  | _ => none

end Grouping

namespace Stage

def toJson : Stage → Json
  | .filter condition => tagged "$match" condition.toJson
  | .project fields => tagged "$project" (.object (Operand.fieldsToJson fields))
  | .addFields fields => tagged "$addFields" (.object (Operand.fieldsToJson fields))
  | .replaceWith operand => tagged "$replaceWith" operand.toJson
  | .sort keys =>
      tagged "$sort" (.object (membersOfFields (fun key => .text (directionCode key)) keys))
  | .group grouping => tagged "$group" grouping.toJson
  | .count name => tagged "$count" (.text name)
  | .skip n => tagged "$skip" (.int n)
  | .limit n => tagged "$limit" (.int n)

/-- A count, as an integer that is not negative. -/
def countOfJson? : Json → Option Nat
  | .int n => if 0 ≤ n then some n.toNat else none
  | _ => none

def ofJson? : Json → Option Stage
  | .object [("$match", payload)] => (Condition.ofJson? payload).map .filter
  | .object [("$project", payload)] => (Operand.fieldsOfJson? payload).map .project
  | .object [("$addFields", payload)] => (Operand.fieldsOfJson? payload).map .addFields
  | .object [("$replaceWith", payload)] => (Operand.ofJson? payload).map .replaceWith
  | .object [("$sort", .object members)] => (fieldsOfMembers? directionOfJson? members).map .sort
  | .object [("$group", payload)] => (Grouping.ofJson? payload).map .group
  | .object [("$count", .text name)] => some (.count name)
  | .object [("$skip", payload)] => (countOfJson? payload).map .skip
  | .object [("$limit", payload)] => (countOfJson? payload).map .limit
  | _ => none

end Stage

end RecordAlgebra.Pipeline

namespace RecordAlgebra.Pipeline

def toJson (pipeline : Pipeline) : Json := .array (pipeline.map Stage.toJson)

def ofJson? : Json → Option Pipeline
  | .array stages => stages.mapM Stage.ofJson?
  | _ => none

end RecordAlgebra.Pipeline
