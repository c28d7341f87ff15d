import DocumentAccess.Condition
import DocumentAccess.Update
import DocumentAccess.Text.LetterCase

/-!
# Queries

What a caller asks for, in domain names (`FindParams` and its siblings), and the descriptor of
the store's operation that it is built into (`FindQuery` and its siblings). A descriptor is
complete: it speaks stored names, and running it needs nothing else.
-/

namespace DocumentAccess

/-! ## Descriptors -/

/-- The direction of a sort. -/
inductive Direction where
  | ascending
  | descending
deriving DecidableEq, Inhabited

/-- The number that a store writes for a direction. -/
def Direction.sign : Direction → Int
  | ascending => 1
  | descending => -1

/-- Stored names with their directions, the most significant first. -/
abbrev SortOrder := List (FieldName × Direction)

/-- A sort order as a value. -/
def SortOrder.toValue (order : SortOrder) : Value :=
  .tuple (order.map fun (f, d) => .tuple [f.key, .int d.sign])

/-- Whether an update changes one of the documents it matches or all of them. -/
inductive UpdateMethod where
  | one
  | many
deriving DecidableEq, Inhabited

/-- The name of an update method. -/
def UpdateMethod.name : UpdateMethod → String
  | one => "updateOne"
  | many => "updateMany"

/-- A search for documents. -/
structure FindQuery where
  filter : Value
  limit : Value
  skip : Value
  sort : Option SortOrder
  projection : Option Document
deriving Inhabited

/-- An update of the documents that a filter matches. -/
structure UpdateQuery where
  filter : Value
  update : Value
  method : UpdateMethod
  upsert : Bool
deriving Inhabited

/-- A write in a bulk: an update, or a write of another kind by its name. -/
inductive Write where
  | update (q : UpdateQuery)
  | other (name : String)
deriving Inhabited

/-- Whether a write is an update. -/
def Write.isUpdate : Write → Bool
  | update _ => true
  | other _ => false

/-- Whether a write changes all documents that it matches. -/
def Write.isMany : Write → Bool
  | update q => q.method = .many
  | other _ => false

/-- Whether all writes of a bulk are updates. -/
def isBulkUpdate (writes : List Write) : Bool := writes.all Write.isUpdate

/-- Several writes in one call. -/
structure BulkUpdateQuery where
  operations : List Write
  ordered : Bool
deriving Inhabited

/-- An update in one of its two forms. -/
inductive AnyUpdateQuery where
  | single (q : UpdateQuery)
  | bulk (q : BulkUpdateQuery)
deriving Inhabited

/-! ## Requests -/

/-- What to find. Numbers and shapes come from the caller as they are. -/
structure FindParams where
  filter : Condition
  limit : Value
  offset : Value
  sort : Value
  projection : Value
deriving Inhabited

/-- The parameters that ask for everything. -/
def FindParams.all : FindParams := ⟨.absent, .null, .null, .null, .null⟩

/-- An update as the caller gives it: a document, or a builder. -/
inductive UpdateItem where
  | document (v : Value)
  | builder (u : Update)
deriving Inhabited

/-- An update method as the caller names it. -/
inductive MethodTag where
  | method (m : UpdateMethod)
  | value (v : Value)
deriving Inhabited

/-- Updates with their conditions and methods, place by place. -/
structure UpdateParams where
  updates : List UpdateItem
  filters : List Condition
  methods : List MethodTag
  upsert : Bool
deriving Inhabited

/-- The parameters of a single update. -/
def UpdateParams.single (m : UpdateMethod) (update : UpdateItem) (filter : Condition)
    (upsert : Bool) : UpdateParams := ⟨[update], [filter], [.method m], upsert⟩

/-- What to aggregate, and how to filter and order the groups. -/
structure AggregationParams where
  filter : Condition
  groupBy : Value
  sum : Value
  average : Value
  min : Value
  max : Value
  count : Value
  having : Condition
  filterBy : Condition
  sort : Value
  limit : Value
  offset : Value
deriving Inhabited

/-- The parameters that ask for nothing. -/
def AggregationParams.none : AggregationParams :=
  ⟨.absent, .null, .null, .null, .null, .null, .null, .absent, .absent, .null, .null, .null⟩

/-! ## Update methods -/

/-- The spellings of the update methods. -/
def methodSpellings : List (String × UpdateMethod) :=
  [("updateone", .one), ("update_one", .one), ("one", .one),
    ("updatemany", .many), ("update_many", .many), ("many", .many)]

/-- The method that a value names: by a spelling in any letter case, or by the numbers 0 and 1. -/
def UpdateMethod.ofValue? : Value → Option UpdateMethod
  | .str s => methodSpellings.lookup (Text.lowercase s)
  | .int 0 => some one
  | .int 1 => some many
  | _ => none

/-- The method that a tag names. -/
def MethodTag.resolve? : MethodTag → Option UpdateMethod
  | method m => some m
  | value v => UpdateMethod.ofValue? v

/-- The method that a tag names; an unknown one is reported with its place. -/
def MethodTag.resolve (index : Int) (tag : MethodTag) : Except Error UpdateMethod :=
  match tag with
  | method m => .ok m
  | value v =>
    match UpdateMethod.ofValue? v with
    | some m => .ok m
    | none => .error (.unknownUpdateMethod index v)

end DocumentAccess
