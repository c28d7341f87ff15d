/-!
# Condition operators

The closed set of operators that a single predicate can have, and the two junctions. A name
outside of the set is kept as it is, so that a caller's own operator table can give it a
meaning.
-/

namespace DocumentAccess

/-- The known operators of a predicate. -/
inductive KnownOperator where
  | eq | ne | gt | gte | lt | lte
  | isIn | notIn | between
  | isTrue | isFalse | isNull | isNotNull
  | isEmpty | isNotEmpty
  | like
  | jsonExtract | fullText | arrayContains
deriving DecidableEq, Inhabited

namespace KnownOperator

/-- All known operators. -/
def all : List KnownOperator :=
  [eq, ne, gt, gte, lt, lte, isIn, notIn, between, isTrue, isFalse, isNull, isNotNull, isEmpty,
    isNotEmpty, like, jsonExtract, fullText, arrayContains]

/-- The name of an operator. -/
def name : KnownOperator → String
  | eq => "eq"
  | ne => "ne"
  | gt => "gt"
  | gte => "gte"
  | lt => "lt"
  | lte => "lte"
  | isIn => "in"
  | notIn => "nin"
  | between => "between"
  | isTrue => "is_true"
  | isFalse => "is_false"
  | isNull => "is_null"
  | isNotNull => "is_not_null"
  | isEmpty => "is_empty"
  | isNotEmpty => "is_not_empty"
  | like => "like"
  | jsonExtract => "json_extract"
  | fullText => "fulltext"
  | arrayContains => "array_contains"

/-- Whether the value is a pattern or a text to search for, never a value of the field. -/
def takesPattern : KnownOperator → Bool
  | like | fullText | jsonExtract => true
  | _ => false

/-- Whether the value is a collection of items that are compared one by one. -/
def takesItems : KnownOperator → Bool
  | isIn | notIn | between | arrayContains => true
  | _ => false

end KnownOperator

/-- The operator of a predicate: a known one, or a caller's own name. -/
inductive Operator where
  | known (op : KnownOperator)
  | custom (name : String)
deriving DecidableEq, Inhabited

namespace Operator

/-- The operator of a name. -/
def ofName (name : String) : Operator :=
  match KnownOperator.all.find? (·.name == name) with
  | some op => known op
  | none => custom name

/-- Whether an operator is one of the known ones. -/
def isKnown : Operator → Bool
  | known _ => true
  | custom _ => false

/-- The name of an operator. -/
def name : Operator → String
  | known op => op.name
  | custom name => name

/-- Whether the value is a pattern or a text to search for. -/
def takesPattern : Operator → Bool
  | known op => op.takesPattern
  | custom _ => false

/-- Whether the value is a collection of items that are compared one by one. -/
def takesItems : Operator → Bool
  | known op => op.takesItems
  | custom _ => false

end Operator

/-- How a composite joins its members: one of the two junctions, or a caller's own name. -/
inductive Junction where
  | all
  | any
  | custom (name : String)
deriving DecidableEq, Inhabited

namespace Junction

/-- The name of a junction. -/
def name : Junction → String
  | all => "and"
  | any => "or"
  | custom name => name

/-- The junction of a name. -/
def ofName (name : String) : Junction :=
  if name = "and" then all else if name = "or" then any else custom name

/-- Whether a junction is one of the two known ones. -/
def isKnown : Junction → Bool
  | custom _ => false
  | _ => true

/-- The filter operator of a junction. -/
def native? : Junction → Option String
  | all => some "$and"
  | any => some "$or"
  | custom _ => none

end Junction

end DocumentAccess
