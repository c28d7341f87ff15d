import DocumentAccess.Condition
import DocumentAccess.Table
import DocumentAccess.Transformer

/-!
# Field mappings

A mapping gives a field's stored name and how its values are stored. A resolver holds the mappings
of one kind of document and translates names, values, conditions, sort orders and whole documents; a
field without a mapping keeps its name and its values. A dotted path is mapped by its first
segment.
-/

namespace DocumentAccess

/-- The stored name and the transformer of a field. -/
structure FieldMapping where
  domain : String
  storage : FieldName
  transformer : Option Transformer
deriving Inhabited

/-- Mappings by their domain names and by their stored names, each table in order of declaration. -/
structure Resolver where
  byDomain : Table String FieldMapping
  byStorage : Table FieldName FieldMapping
deriving Inhabited

namespace Resolver

/-! ## Tables -/

/-- The resolver without mappings. -/
def empty : Resolver := ⟨[], []⟩

/-- Adds a mapping; a later one wins over an earlier one of the same name. -/
def add (r : Resolver) (m : FieldMapping) : Resolver :=
  ⟨r.byDomain.set m.domain m, r.byStorage.set m.storage m⟩

/-- The resolver of some mappings. -/
def ofMappings (ms : List FieldMapping) : Resolver := ms.foldl add empty

/-- The mapping of a field. -/
def mapping? (r : Resolver) (name : String) : Option FieldMapping := r.byDomain.lookup name

/-- The mapping that stores under a name. -/
def stored? (r : Resolver) (name : FieldName) : Option FieldMapping := r.byStorage.lookup name

/-- An added mapping is found under its domain name. -/
theorem mapping?_add (r : Resolver) (m : FieldMapping) (name : String) :
    (r.add m).mapping? name = if name == m.domain then some m else r.mapping? name :=
  Table.lookup_set r.byDomain m.domain name m

/-- An added mapping is found under its stored name. -/
theorem stored?_add (r : Resolver) (m : FieldMapping) (name : FieldName) :
    (r.add m).stored? name = if name == m.storage then some m else r.stored? name :=
  Table.lookup_set r.byStorage m.storage name m

/-! ## Names -/

/-- A path before and behind its first dot; none without a dot. -/
def splitPath? (path : String) : Option (String × String) :=
  match path.toList.span (· ≠ '.') with
  | (_, []) => none
  | (head, _ :: rest) => some (String.ofList head, String.ofList rest)

/-- The stored name of a field or path. -/
def resolveField (r : Resolver) (name : String) : FieldName :=
  match r.mapping? name with
  | some m => m.storage
  | none =>
    match splitPath? name with
    | none => some name
    | some (head, rest) =>
      match r.mapping? head with
      | some m => some (m.storage.text ++ "." ++ rest)
      | none => some name

/-- A value in the place of a field's name, as a name. -/
def nameOf (member : String) (v : Value) : Except Error String := do (← v.asKey).asText member

/-! ## Values -/

/-- The stored form of a field's value. -/
def storeValue (r : Resolver) (name : String) (v : Value) : Except Error Value :=
  match (r.mapping? name).bind (·.transformer) with
  | some t => t.store v
  | none => .ok v

/-- The domain value of what is stored for a field. -/
def loadValue (r : Resolver) (name : String) (v : Value) : Except Error Value :=
  match (r.mapping? name).bind (·.transformer) with
  | some t => t.load v
  | none => .ok v

/-- Whether a key's text starts with a dollar sign. -/
def isMarked (key : Value) : Bool := key.plain.startsWith "$"

/-- Whether a document has entries and all of them are operators. -/
def isOperatorDocument (entries : Document) : Bool :=
  !entries.isEmpty && entries.all fun e => isMarked e.1

/-- The operators whose operand is a list of values of the field. -/
def listOperators : List String := ["$in", "$nin", "$all", "$each"]

/-- The stored form of an operand of an operator on a field. -/
def storeOperand (r : Resolver) (name : String) (op operand : Value) : Except Error Value :=
  match operand with
  | .list items =>
    if (listOperators.map Value.str).any op.same then do
      return .list (← items.mapM (r.storeValue name))
    else r.storeValue name operand
  | operand => r.storeValue name operand

/-- The stored form of a value under a field's key: operator by operator, or as a whole. -/
def storeEntry (r : Resolver) (name : String) (v : Value) : Except Error Value :=
  match v with
  | .doc entries =>
    if isOperatorDocument entries then do
      return .doc (← entries.mapM fun (op, operand) => do
        return (op, ← r.storeOperand name op operand))
    else r.storeValue name v
  | v => r.storeValue name v

mutual

/-- A native document with stored names and values, also below its operators. -/
def resolveObject (r : Resolver) : Value → Except Error Value
  | .list items => do return .list (← r.resolveObjects items)
  | .doc entries => do return .doc (← r.resolveEntries [] entries)
  | v => .ok v

/-- Native documents, in order. -/
def resolveObjects (r : Resolver) : List Value → Except Error (List Value)
  | [] => .ok []
  | x :: xs => do
    let item ← r.resolveObject x
    return item :: (← r.resolveObjects xs)

/-- Entries with stored names and values, added to those already resolved. -/
def resolveEntries (r : Resolver) (done : Document) : List (Value × Value) → Except Error Document
  | [] => .ok done
  | (key, v) :: rest => do
    let name ← key.asStart
    if name.startsWith "$" then
      let v ← r.resolveObject v
      r.resolveEntries (done.insert key v) rest
    else
      let v ← r.storeEntry name v
      r.resolveEntries (done.insert (r.resolveField name).key v) rest

end

/-! ## Conditions -/

/-- The stored form of a condition's value. Patterns and documents are left alone, collections go
item by item. -/
def resolveConditionValue (r : Resolver) (name : String) (op : Operator) (v : Value) :
    Except Error Value :=
  if op.takesPattern then .ok v
  else
    match v with
    | .list items | .tuple items | .set items =>
      if op.takesItems then do return .list (← items.mapM (r.storeValue name))
      else r.storeValue name v
    | .doc _ => .ok v
    | v => r.storeValue name v

mutual

/-- A condition with stored names and values. -/
def resolveCondition (r : Resolver) : Condition → Except Error Condition
  | .absent => .ok .absent
  | .raw filter => .ok (.raw filter)
  | .foreign v => .error (.unknownNode v.typeName)
  | .group junction items => do Condition.join junction (← r.resolveConditions items)
  | .leaf field op v =>
    match field with
    | some name => do return .leaf (r.resolveField name) op (← r.resolveConditionValue name op v)
    | none => .error (.mismatch (.noMember "NoneType" "partition"))

/-- Conditions with stored names and values, in order. -/
def resolveConditions (r : Resolver) : List Condition → Except Error (List Condition)
  | [] => .ok []
  | x :: xs => do
    let item ← r.resolveCondition x
    return item :: (← r.resolveConditions xs)

end

/-! ## Whole documents -/

/-- Entries of an entity as a document: stored names and stored values, added to what is there. -/
def toDocumentFrom (r : Resolver) (done : Document) : List (Value × Value) → Except Error Document
  | [] => .ok done
  | (key, v) :: rest => do
    let name ← nameOf "partition" key
    let v ← r.storeValue name v
    r.toDocumentFrom (done.insert (r.resolveField name).key v) rest

/-- The document that an entity is stored as. -/
def toDocument (r : Resolver) (entity : Document) : Except Error Document :=
  r.toDocumentFrom [] entity

/-- The mapping that stores under a key. -/
def storedUnder? (r : Resolver) (key : Value) : Option FieldMapping :=
  match key with
  | .str s => r.stored? (some s)
  | .null => r.stored? none
  | _ => none

/-- Entries of a document as an entity: domain names and values, added to what is there. -/
def toEntityFrom (r : Resolver) (done : Document) : List (Value × Value) → Except Error Document
  | [] => .ok done
  | (key, v) :: rest =>
    match r.storedUnder? key with
    | none => r.toEntityFrom (done.insert key v) rest
    | some m => do
      let v ← match m.transformer with
        | some t => t.load v
        | none => pure v
      r.toEntityFrom (done.insert (.str m.domain) v) rest

/-- The entity that a document holds. -/
def toEntity (r : Resolver) (document : Document) : Except Error Document :=
  r.toEntityFrom [] document

end Resolver

end DocumentAccess
