import DocumentAccess.Condition
import DocumentAccess.Condition.Like
import DocumentAccess.Table
import DocumentAccess.Value.Access

/-!
# Filters

The filter document that a condition compiles to. A compiler has a table from operators to the
store's own, the names of identifier fields, and a switch for letter case in patterns. Values
compared with an identifier field are turned into identifiers where they name one. Compiling
fails on the first node, in reading order, that the compiler cannot express.
-/

namespace DocumentAccess

/-- How conditions are compiled. -/
structure FilterCompiler where
  operators : Table Operator String
  idFields : List String
  ignoreCase : Bool
deriving Inhabited

namespace FilterCompiler

/-! ## Tables -/

/-- The store's operator for a known one. Markers without a dollar sign stand for filters of
several keys. -/
def nativeOperator : KnownOperator → String
  | .eq | .isTrue | .isFalse | .isNull => "$eq"
  | .ne | .isNotNull => "$ne"
  | .gt => "$gt"
  | .gte => "$gte"
  | .lt => "$lt"
  | .lte => "$lte"
  | .isIn => "$in"
  | .notIn => "$nin"
  | .between => "between"
  | .isEmpty => "$or"
  | .isNotEmpty => "$and"
  | .like => "$regex"
  | .jsonExtract => "json_extract"
  | .fullText => "$text"
  | .arrayContains => "$all"

/-- The table of all known operators. -/
def defaultOperators : Table Operator String :=
  KnownOperator.all.map fun op => (.known op, nativeOperator op)

/-- The names of identifier fields. -/
def defaultIdFields : List String := ["id", "_id"]

/-- The compiler that is used unless another one is given. -/
def standard : FilterCompiler := ⟨defaultOperators, defaultIdFields, true⟩

/-- The store's operator for an operator. -/
def native? (c : FilterCompiler) (op : Operator) : Option String := c.operators.lookup op

/-- The entries of the table by name, in order. -/
def listed (c : FilterCompiler) : List (String × String) :=
  (c.operators.map fun e => (e.1.name, e.2)).mergeSort fun a b =>
    a.1 < b.1 || (a.1 == b.1 && a.2 ≤ b.2)

/-! ## Identifiers -/

/-- The part of a path behind its last dot. -/
def lastSegment (path : String) : String :=
  String.ofList ((path.toList.reverse.takeWhile (· ≠ '.')).reverse)

/-- Whether a field holds identifiers: by its name, or by the last part of its path. -/
def isIdField (c : FilterCompiler) (path : String) : Bool :=
  c.idFields.contains path || lastSegment path == "_id"

/-- Whether a field holds identifiers; a field without a name has no path to look at. -/
def holdsIds (c : FilterCompiler) (field : FieldName) : Except Error Bool :=
  match field with
  | some path => .ok (c.isIdField path)
  | none => .error (.mismatch (.noMember "NoneType" "rsplit"))

mutual

/-- Turns texts that name an identifier into it, inside of lists, tuples and documents as well. -/
def coerceId : Value → Value
  | .str s =>
    match ObjectId.ofText? s with
    | some id => .objectId id
    | none => .str s
  | .list items | .tuple items => .list (coerceIds items)
  | .doc entries => .doc (coerceEntries entries)
  | v => v

/-- Turns the items of a list into identifiers. -/
def coerceIds : List Value → List Value
  | [] => []
  | x :: xs => coerceId x :: coerceIds xs

/-- Turns the values of a document into identifiers. -/
def coerceEntries : List (Value × Value) → List (Value × Value)
  | [] => []
  | (k, v) :: es => (k, coerceId v) :: coerceEntries es

end

/-! ## Leaves -/

/-- The filter of one test on one field. -/
def single (field : FieldName) (native : String) (v : Value) : Value :=
  .doc [(field.key, .ofFields [(native, v)])]

/-- The values that count as empty. -/
def emptyValues : List Value := [.str "", .list [], .doc []]

/-- The filter of a full-text search: a text, or a document with a text and perhaps a language. -/
def fullText (v : Value) : Except Error Value :=
  match v with
  | .doc entries =>
    match Document.field? entries "search" with
    | none => .error (.mismatch (.missingKey (.str "search")))
    | some search =>
      let language := (Document.field? entries "language").getD .null
      let terms :=
        [("$search", search)] ++ if language.truthy then [("$language", language)] else []
      .ok (.ofFields [("$text", .ofFields terms)])
  | v => .ok (.ofFields [("$text", .ofFields [("$search", v)])])

/-- A path inside of a field's value, without the mark of its root. -/
def innerPath (path : String) : String :=
  match path.toList with
  | '$' :: '.' :: rest => String.ofList rest
  | '$' :: rest => String.ofList rest
  | _ => path

/-- The filter of a comparison with a part of a field's value. -/
def jsonExtract (field : FieldName) (v : Value) : Except Error Value :=
  match v with
  | .doc entries =>
    match Document.field? entries "path" with
    | none => .error (.jsonExtractShape field)
    | some path =>
      let inner := innerPath path.plain
      let target := if inner.isEmpty then field else some (field.text ++ "." ++ inner)
      .ok (single target "$eq" ((Document.field? entries "value").getD .null))
  | _ => .error (.jsonExtractShape field)

/-- The filter of a predicate with a known operator, its value already coerced. -/
def knownLeaf (c : FilterCompiler) (field : FieldName) (op : KnownOperator) (native : String)
    (v : Value) : Except Error Value :=
  match op with
  | .between =>
    match v with
    | .list [lower, upper] | .tuple [lower, upper] =>
      .ok (.doc [(field.key, .ofFields [("$gte", lower), ("$lte", upper)])])
    | v => .error (.betweenShape field v)
  | .isTrue => .ok (single field native (.bool true))
  | .isFalse => .ok (single field native (.bool false))
  | .isNull | .isNotNull => .ok (single field native .null)
  | .isEmpty => .ok (.ofFields [(native, .list (emptyValues.map (single field "$eq")))])
  | .isNotEmpty => .ok (.ofFields [(native, .list (emptyValues.map (single field "$ne")))])
  | .like =>
    match v with
    | .str pattern =>
      let regex : Document := .ofFields [(native, .str (Like.regex pattern))]
      let regex := if c.ignoreCase then regex.insert (.str "$options") (.str "i") else regex
      .ok (.doc [(field.key, .doc regex)])
    | _ => .error (.likePattern field)
  | .fullText => fullText v
  | .jsonExtract => jsonExtract field v
  | .arrayContains =>
    match v with
    | .list items | .tuple items | .set items => .ok (single field native (.list items))
    | v => .ok (single field native (.list [v]))
  | .isIn | .notIn =>
    match v with
    | .list items | .tuple items | .set items => .ok (single field native (.list items))
    | _ => .error (.membershipList op field)
  | .eq | .ne | .gt | .gte | .lt | .lte => .ok (single field native v)

/-- The filter of a predicate. -/
def compileLeaf (c : FilterCompiler) (field : FieldName) (op : Operator) (v : Value) :
    Except Error Value :=
  match c.native? op with
  | none => .error (.unsupportedOperator op.name)
  | some native => do
    let coerces ← if op.takesPattern then pure false else c.holdsIds field
    let v := if coerces then coerceId v else v
    match op with
    | .known op => c.knownLeaf field op native v
    | .custom _ => return single field native v

/-! ## Trees -/

mutual

/-- The filter of a condition. -/
def compile (c : FilterCompiler) : Condition → Except Error Value
  | .absent => .ok (.doc [])
  | .raw filter => .ok filter
  | .foreign v => .error (.unknownNode v.typeName)
  | .leaf field op v => c.compileLeaf field op v
  | .group junction items =>
    match junction.native? with
    | none => .error (.unsupportedOperator junction.name)
    | some native => do
      let filters ← c.compileAll items
      return .ofFields [(native, .list filters)]

/-- The filters of some conditions, in order. -/
def compileAll (c : FilterCompiler) : List Condition → Except Error (List Value)
  | [] => .ok []
  | x :: xs => do
    let filter ← c.compile x
    return filter :: (← c.compileAll xs)

end

end FilterCompiler

end DocumentAccess
