import DocumentAccess.Store.Fault
import DocumentAccess.Condition.Operator

/-!
# Errors

Everything that can go wrong, as causes. `Mismatch` holds the cases in which a dynamic value
does not have the shape that an operation needs; `Error` adds those that the library itself
refuses, the store's failures and the faults that pass through. `Error.text` is the wording of
each.
-/

namespace DocumentAccess

/-! ## Fields -/

/-- The name of a field. A mapping may leave a stored name out, and such a field has no name. -/
abbrev FieldName := Option String

/-- The text of a field name inside a sentence or a path. -/
def FieldName.text (f : FieldName) : String := f.getD "None"

/-- The key of a field name in a document. -/
def FieldName.key : FieldName → Value
  | some s => .str s
  | none => .null

/-! ## Values of the wrong shape -/

/-- A value that does not have the shape an operation needs. -/
inductive Mismatch where
  /-- A document lacks a required key. -/
  | missingKey (key : Value)
  /-- A value of this kind has no such member. -/
  | noMember (kind member : String)
  /-- A fluent field builder has no such operation. -/
  | noOperation (name : String)
  /-- An operation was given the wrong number of arguments. -/
  | argumentCount (operation : String)
  /-- The two sides of a junction cannot be joined. -/
  | operands (junction left : String)
  /-- A value has no entries under text keys. -/
  | noEntries (kind : String)
  /-- A value cannot be walked through. -/
  | notIterable (kind : String)
  /-- A value cannot be taken apart into a pair. -/
  | notUnpackable (kind : String)
  /-- A sequence is too short for a pair. -/
  | tooFewItems (found : Nat)
  /-- A sequence is too long for a pair. -/
  | tooManyItems
  /-- A value cannot be a key. -/
  | unhashable (kind : String)
  /-- A value is no document. -/
  | notMapping (kind : String)
  /-- The filter of a write is no document. -/
  | writeFilter (kind : String)
  /-- An entry of a document to be is no sequence. -/
  | entryKind (index : Nat)
  /-- An entry of a document to be is no pair. -/
  | entrySize (index size : Nat)
  /-- Bytes stand where text is needed. -/
  | bytesForText
  /-- Bytes stand where the start of a text is looked at. -/
  | bytesForStart
  /-- A text is no identifier. -/
  | identifierText (value : Value)
  /-- A value cannot be an identifier. -/
  | identifierKind (kind : String)
  /-- A value has no form in an interchange text. -/
  | notSerializable (kind : String)
  /-- A key has no form in an interchange text. -/
  | keyNotSerializable (kind : String)
  /-- An infinite number has no integer. -/
  | infiniteNumber
  /-- No integer is near an undefined number. -/
  | undefinedNumber
  /-- A quotient of integers is too large for a float. -/
  | quotientTooLarge
  /-- An integer is too large for a float. -/
  | integerTooLarge
  /-- A text is no moment. -/
  | momentText (text : String)
  /-- A number of milliseconds is out of the calendar's range. -/
  | momentRange
  /-- A number of milliseconds is out of the clock's range. -/
  | clockRange
  /-- A number of milliseconds is out of the range of a clock's calendar. -/
  | clockOverflow
  /-- Two values have no order. -/
  | notOrdered (comparison left right : String)
  /-- A moment with an offset and one without have no order. -/
  | momentOrder
  /-- A value is no position in a list. -/
  | badPosition
  /-- A value is no text to search in. -/
  | notText (kind : String)
  /-- Bytes stand where a text to search in is needed. -/
  | bytesForSearch
  /-- A class declares no stored fields. -/
  | notModel (name : String)
  /-- A moment stands where parts of a text are replaced; its own replacement takes other
  arguments. -/
  | momentForText
  /-- The name of an argument is no text. -/
  | argumentName
  /-- A window is to hold more than any window can. -/
  | windowTooLarge
deriving Inhabited

namespace Mismatch

/-- The wording of a mismatch. -/
def text : Mismatch → String
  | missingKey key => key.literal
  | noMember kind member => "'" ++ kind ++ "' object has no attribute '" ++ member ++ "'"
  | noOperation name => "'Field' object is not callable: " ++ name
  | argumentCount operation => operation ++ "() takes a different number of positional arguments"
  | operands junction left => "unsupported operand type(s) for " ++ junction ++ ": '" ++ left ++ "'"
  | noEntries "str" => "string indices must be integers, not 'str'"
  | noEntries "bytes" => "byte indices must be integers or slices, not str"
  | noEntries "list" => "list indices must be integers or slices, not str"
  | noEntries "tuple" => "tuple indices must be integers or slices, not str"
  | noEntries kind => "'" ++ kind ++ "' object is not subscriptable"
  | notIterable kind => "'" ++ kind ++ "' object is not iterable"
  | notUnpackable kind => "cannot unpack non-iterable " ++ kind ++ " object"
  | tooFewItems found => "not enough values to unpack (expected 2, got " ++ toString found ++ ")"
  | tooManyItems => "too many values to unpack (expected 2)"
  | unhashable kind => "unhashable type: '" ++ kind ++ "'"
  | notMapping kind => "'" ++ kind ++ "' object is not a mapping"
  | writeFilter _ =>
    "filter must be an instance of dict, bson.son.SON, or any other type that inherits from " ++
      "collections.Mapping"
  | entryKind index =>
    "cannot convert dictionary update sequence element #" ++ toString index ++ " to a sequence"
  | entrySize index size =>
    "dictionary update sequence element #" ++ toString index ++ " has length " ++ toString size ++
      "; 2 is required"
  | bytesForText => "a bytes-like object is required, not 'str'"
  | bytesForStart => "startswith first arg must be bytes or a tuple of bytes, not str"
  | identifierText value =>
    value.literal ++
      " is not a valid ObjectId, it must be a 12-byte input or a 24-character hex string"
  | identifierKind kind =>
    "id must be an instance of (bytes, str, ObjectId), not <class '" ++ kind ++ "'>"
  | notSerializable kind => "Object of type " ++ kind ++ " is not JSON serializable"
  | keyNotSerializable kind => "keys must be str, int, float, bool or None, not " ++ kind
  | infiniteNumber => "cannot convert float infinity to integer"
  | undefinedNumber => "cannot convert float NaN to integer"
  | quotientTooLarge => "integer division result too large for a float"
  | integerTooLarge => "int too large to convert to float"
  | momentText text => "Invalid isoformat string: " ++ Value.quoted text
  | momentRange => "year is out of range"
  | clockRange => "timestamp out of range for platform time_t"
  | clockOverflow => "[Errno 75] Value too large for defined data type"
  | notOrdered comparison left right =>
    "'" ++ comparison ++ "' not supported between instances of '" ++ left ++ "' and '" ++
      right ++ "'"
  | momentOrder => "can't compare offset-naive and offset-aware datetimes"
  | badPosition => "slice indices must be integers or None or have an __index__ method"
  | notText kind => "expected string or bytes-like object, got '" ++ kind ++ "'"
  | bytesForSearch => "cannot use a string pattern on a bytes-like object"
  | notModel name => "Cannot derive field mappings from " ++ name
  | momentForText => "'str' object cannot be interpreted as an integer"
  | argumentName => "keywords must be strings"
  | windowTooLarge => "a window cannot be that large"

end Mismatch

/-! ## Store failures -/

/-- How a store's failure is reported to the caller. -/
inductive FailureKind where
  | duplicate
  | invalidData
  | other
deriving DecidableEq, Inhabited

/-- A store's failure: its kind, its message, the fault behind it, the ids that collided, and,
for an insert, the documents that made it into the collection and those that did not. -/
structure Failure where
  kind : FailureKind
  message : String
  cause : Fault
  duplicatedIds : List Value
  inserted : List Value
  failed : List Value
deriving Inhabited

/-- What is known about a transaction whose end failed. -/
inductive SessionErrorKind where
  | unknownCommitResult
  | transientTransaction
  | other
deriving DecidableEq, Inhabited

/-- The kind that a fault's labels tell; an unknown commit result comes before a transient
failure. -/
def SessionErrorKind.ofFault (f : Fault) : SessionErrorKind :=
  if f.hasLabel "UnknownTransactionCommitResult" then unknownCommitResult
  else if f.hasLabel "TransientTransactionError" then transientTransaction
  else other

/-- The name of a kind. -/
def SessionErrorKind.name : SessionErrorKind → String
  | unknownCommitResult => "UnknownTransactionCommitResult"
  | transientTransaction => "TransientTransactionError"
  | other => "Other"

/-! ## Errors -/

/-- How the paths of two update operations overlap. -/
inductive Overlap where
  /-- The paths are equal. -/
  | same
  /-- The new path lies below the recorded one. -/
  | below
  /-- The new path lies above the recorded one. -/
  | above
deriving DecidableEq, Inhabited

/-- Why an operation was refused or failed. -/
inductive Error where
  | mismatch (m : Mismatch)
  -- conditions
  | emptyComposite
  | notCombinable (kind : String)
  | notCollection (op : KnownOperator)
  | notPattern (op : KnownOperator)
  | hiddenMember (name : String)
  | fixedField (name : String)
  | unknownNode (kind : String)
  | unsupportedOperator (name : String)
  | betweenShape (field : FieldName) (value : Value)
  | likePattern (field : FieldName)
  | membershipList (op : KnownOperator) (field : FieldName)
  | jsonExtractShape (field : FieldName)
  -- mappings
  | unknownTransformer (name : String)
  -- updates
  | updateField (kind : String)
  | overlap (how : Overlap) (path recorded : String)
  | notNumeric (role kind : String)
  | nothingToPush
  | popPosition (value : Value)
  | updateKind (kind : String)
  -- queries
  | sortDirection (direction name : Value)
  | unevenUpdates (updates filters methods : Nat)
  | noUpdates
  | unknownUpdateMethod (index : Int) (method : Value)
  | mixedBulkUpdate
  -- the store
  | fault (f : Fault)
  | failure (f : Failure)
  | pendingTransaction
  | session (cause : Fault)
  -- settings, metrics and migrations
  | settings (fields : List String)
  | collectorFailed
  | migrationIdTaken (id : String)
  | migrationVersionTaken (version : Int) (owner : String)
  | migrationUnknown (id : Value)
  | migrationFixed (id : Value)
  | migrationClash (versions : List Int)
deriving Inhabited

namespace Error

/-- The wording of an error. -/
def text : Error → String
  | mismatch m => m.text
  | emptyComposite => "CompositeCondition requires at least one condition"
  | notCombinable kind => "Cannot combine condition with " ++ kind
  | notCollection op => "Operator '" ++ op.name ++ "' requires a list/set/tuple"
  | notPattern op => "Operator '" ++ op.name ++ "' requires a string value"
  | hiddenMember name => "'Field' object has no attribute '" ++ name ++ "'"
  | fixedField name => "Cannot set attribute '" ++ name ++ "' on Field object."
  | unknownNode kind => "Unknown condition node type: " ++ kind
  | unsupportedOperator name => "Unsupported operator " ++ Value.quoted name
  | betweenShape field value =>
    "'between' on '" ++ field.text ++ "' requires a two element list, got " ++ value.literal
  | likePattern field => "'like' on '" ++ field.text ++ "' requires a string pattern"
  | membershipList op field => "'" ++ op.name ++ "' on '" ++ field.text ++ "' requires a list"
  | jsonExtractShape field =>
    "'json_extract' on '" ++ field.text ++ "' requires a \x7b'path', 'value'\x7d mapping"
  | unknownTransformer name => "Unknown transformer '" ++ name ++ "'"
  | updateField kind => "Expected field to be str or Field, got " ++ kind
  | overlap .same path _ =>
    "Field '" ++ path ++ "' already has an operation. Multiple operations on the same field are " ++
      "not allowed in a single update."
  | overlap .below path recorded =>
    "Field '" ++ path ++ "' conflicts with existing operation on parent field '" ++ recorded ++ "'."
  | overlap .above path recorded =>
    "Field '" ++ path ++ "' conflicts with existing operation on child field '" ++ recorded ++ "'."
  | notNumeric role kind => role ++ " must be numeric, got " ++ kind ++ "."
  | nothingToPush => "push requires at least one item"
  | popPosition value =>
    "Position for pop must be 1 (last) or -1 (first), got " ++ value.plain ++ "."
  | updateKind kind => "Expected an update dict or Update, got " ++ kind
  | sortDirection direction name =>
    "Invalid sort direction " ++ direction.literal ++ " for field '" ++ name.plain ++ "'"
  | unevenUpdates updates filters methods =>
    "The number of parameters does not match. Number of updates: " ++ toString updates ++
      ", where clauses: " ++ toString filters ++ ", method types: " ++ toString methods
  | noUpdates => "At least one update is required"
  | unknownUpdateMethod index method =>
    "Unknown update method " ++ method.literal ++ " with index \"" ++ toString index ++ "\"."
  | mixedBulkUpdate =>
    "Some of the BulkUpdate operations are different than UpdateOne and UpdateMany."
  | fault f => f.text
  | failure f => f.message
  | pendingTransaction => "The current session has an active transaction. Cannot start a new one."
  | session cause => cause.text
  | settings fields => "invalid settings: " ++ ", ".intercalate fields
  | collectorFailed => "collector failed"
  | migrationIdTaken id => "Migration id '" ++ id ++ "' is already registered"
  | migrationVersionTaken version owner =>
    "Migration version " ++ toString version ++ " is already registered by '" ++ owner ++ "'"
  | migrationUnknown id => "Migration '" ++ id.plain ++ "' is not registered"
  | migrationFixed id => "Migration '" ++ id.plain ++ "' is not reversible"
  | migrationClash versions =>
    "Migration versions already applied under other ids: " ++
      (Value.list (versions.map Value.int)).literal

end Error

end DocumentAccess
