import DocumentAccess.Condition.Junction
import DocumentAccess.Error

/-!
# Conditions

A condition is a tree of predicates over named fields. Leaves compare one field, groups join
their members by a junction and keep the caller's order, and a raw filter is passed on
untouched. The smart constructors `group`, `combine` and `Field.test` refuse what cannot be a
condition.
-/

namespace DocumentAccess

/-- A condition on documents. -/
inductive Condition where
  /-- No condition. -/
  | absent
  /-- A predicate on one field. -/
  | leaf (field : FieldName) (op : Operator) (value : Value)
  /-- Several conditions joined by a junction. -/
  | group (junction : Junction) (items : List Condition)
  /-- A filter in the store's own form. -/
  | raw (filter : Value)
  /-- A value in the place of a condition. -/
  | foreign (value : Value)
deriving Inhabited

namespace Condition

/-! ## Joining -/

/-- Joins some conditions; there must be one at least. -/
def join (junction : Junction) (items : List Condition) : Except Error Condition :=
  if items.isEmpty then .error .emptyComposite else .ok (group junction items)

/-- The name of the kind of what stands in the place of a condition; none for a condition. -/
def foreignKind? : Condition → Option String
  | absent => some "NoneType"
  | foreign v => some v.typeName
  | _ => none

/-- The members that a condition contributes to a junction: a group of the same junction is
opened. -/
def parts (junction : Junction) (c : Condition) : List Condition :=
  match c with
  | group j items => if j = junction then items else [c]
  | c => [c]

/-- Joins two conditions by `and` or `or`; chains of one junction stay flat. Two plain values
give a plain value if they can be joined. -/
def combine (junction : Junction) (left right : Condition) : Except Error Condition :=
  match left, right with
  | foreign v, foreign w =>
    match junction.joinValues? v w with
    | some u => .ok (foreign u)
    | none => .error (.mismatch (.operands junction.name v.typeName))
  | left, right =>
    match left.foreignKind?, right.foreignKind? with
    | some kind, _ => .error (.mismatch (.operands junction.name kind))
    | none, some kind => .error (.notCombinable kind)
    | none, none => join junction (left.parts junction ++ right.parts junction)

/-- Joins a first condition with some more, from left to right. -/
def combineAll (junction : Junction) (first : Condition) (more : List Condition) :
    Except Error Condition :=
  more.foldlM (combine junction) first

end Condition

/-! ## Fields -/

/-- A field, as the start of a predicate. -/
structure Field where
  path : String
deriving DecidableEq, Inhabited

namespace Field

/-- A field nested in this one; names with a leading underscore are hidden. -/
def member (f : Field) (name : String) : Except Error Field :=
  if name.startsWith "_" then .error (.hiddenMember name) else .ok ⟨f.path ++ "." ++ name⟩

/-- The field at the end of a chain of members. -/
def members (f : Field) (names : List String) : Except Error Field := names.foldlM member f

/-- Fields cannot be changed. -/
def setMember (_ : Field) (name : String) : Error := .fixedField name

/-- The text of a field in a message. -/
def literal (f : Field) : String := "Field(path=" ++ Value.quoted f.path ++ ")"

/-- A predicate on a field: the operator decides how many arguments there are and what they may
be. -/
def test (f : Field) (op : KnownOperator) (arguments : List Value) : Except Error Condition :=
  let leaf (v : Value) : Except Error Condition := .ok (.leaf (some f.path) (.known op) v)
  match op, arguments with
  | .isTrue, [] | .isFalse, [] | .isNull, [] | .isNotNull, []
  | .isEmpty, [] | .isNotEmpty, [] => leaf .null
  | .isIn, [v] | .notIn, [v] =>
    match v with
    | .list items | .tuple items | .set items => leaf (.list items)
    | _ => .error (.notCollection op)
  | .between, [lower, upper] => leaf (.tuple [lower, upper])
  | .like, [.str s] => leaf (.str s)
  | .like, [_] => .error (.notPattern op)
  | .jsonExtract, [path, v] => leaf (.ofFields [("path", path), ("value", v)])
  | .fullText, [search] | .fullText, [search, .null] => leaf search
  | .fullText, [search, language] => leaf (.ofFields [("search", search), ("language", language)])
  | .eq, [v] | .ne, [v] | .gt, [v] | .gte, [v] | .lt, [v] | .lte, [v]
  | .arrayContains, [v] => leaf v
  | _, _ => .error (.mismatch (.argumentCount op.name))

/-- The operations of a field that start a predicate, with the operators they stand for. -/
def operations : List (String × KnownOperator) :=
  [("==", .eq), ("!=", .ne), (">", .gt), (">=", .gte), ("<", .lt), ("<=", .lte),
    ("is_eq", .eq), ("is_ne", .ne), ("in_", .isIn), ("nin", .notIn), ("between", .between),
    ("is_true", .isTrue), ("is_false", .isFalse), ("is_null", .isNull),
    ("is_not_null", .isNotNull), ("is_empty", .isEmpty), ("is_not_empty", .isNotEmpty),
    ("like", .like), ("json_extract", .jsonExtract), ("fulltext", .fullText),
    ("array_contains", .arrayContains)]

/-- A predicate by the name of an operation; any other name is a nested field, which cannot be
called. -/
def call (f : Field) (name : String) (arguments : List Value) : Except Error Condition :=
  match operations.lookup name with
  | some op => f.test op arguments
  | none => do
    let _ ← f.member name
    throw (.mismatch (.noOperation name))

end Field

end DocumentAccess
