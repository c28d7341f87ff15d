import DocumentAccess.Binary64
import DocumentAccess.ObjectId
import DocumentAccess.Calendar

/-!
# Values

The dynamic values that callers hand in and that a document store holds: scalars, sequences,
documents with ordered entries, and the caller's own records. Equality follows the store's view:
numbers of all kinds compare by their exact value, and documents do not depend on the order of
their entries.
-/

namespace DocumentAccess

/-- What a caller's record is: a plain one, or a model whose fields may have an alias. -/
inductive RecordKind where
  | plain
  | model
deriving DecidableEq, Inhabited

/-- What a caller's record is an instance of. A frozen record cannot be changed, so it can be a
key. -/
structure RecordType where
  kind : RecordKind
  name : String
  frozen : Bool
deriving DecidableEq, Inhabited

/-- The name of a record's field and the alias it is stored under, if it has one. -/
structure FieldLabel where
  name : String
  storedName : Option String
deriving DecidableEq, Inhabited

/-- The name that a field is stored under. -/
def FieldLabel.stored (l : FieldLabel) : String := l.storedName.getD l.name

/-- A dynamic value. Its texts are sequences of characters, so a text with half of a surrogate pair
in it is none of them. -/
inductive Value where
  | null
  | bool (b : Bool)
  | int (n : Int)
  | float (x : Binary64)
  | str (s : String)
  | list (items : List Value)
  | tuple (items : List Value)
  | set (items : List Value)
  | doc (entries : List (Value × Value))
  | bytes (bs : List UInt8)
  | objectId (id : ObjectId)
  | moment (m : Moment)
  | record (type : RecordType) (fields : List (FieldLabel × Value))
  | url (text : String)
  | session (number : Nat)
deriving Inhabited

namespace Value

/-! ## Kinds -/

/-- The name of a value's kind, as messages show it. -/
def typeName : Value → String
  | null => "NoneType"
  | bool _ => "bool"
  | int _ => "int"
  | float _ => "float"
  | str _ => "str"
  | list _ => "list"
  | tuple _ => "tuple"
  | set _ => "set"
  | doc _ => "dict"
  | bytes _ => "bytes"
  | objectId _ => "ObjectId"
  | moment _ => "datetime"
  | record type _ => type.name
  | url _ => "AnyUrl"
  | session _ => "ClientSession"

/-- Whether a value counts as present where one is optional: not null, not zero, not empty. -/
def truthy : Value → Bool
  | null => false
  | bool b => b
  | int n => n != 0
  | float x => !x.isZero
  | str s => !s.isEmpty
  | list items | tuple items | set items => !items.isEmpty
  | doc entries => !entries.isEmpty
  | bytes bs => !bs.isEmpty
  | objectId _ | moment _ | record .. | url _ | session _ => true

/-! ## Equality -/

/-- The most digits that an integer may have in a text that it is read from. -/
def maxDigits : Nat := 4300

/-- The integer of a value that is a whole number of some kind; truth values count as 0 and 1. -/
def toInt? : Value → Option Int
  | bool b => some (if b then 1 else 0)
  | int n => some n
  | float x => x.toInt?
  | _ => none

/-- Equality of numbers by their exact value; none if one side is no number. -/
def sameNumber? (a b : Value) : Option Bool :=
  match a, b with
  | float x, float y => some (x.eqv y)
  | float x, bool _ | float x, int _ => some (x.toInt? == b.toInt?)
  | bool _, float y | int _, float y => some (a.toInt? == y.toInt?)
  | bool _, bool _ | bool _, int _ | int _, bool _ | int _, int _ => some (a.toInt? == b.toInt?)
  | _, _ => none

/-- The exact value of a finite number as numerator and positive denominator. -/
def ratio? : Value → Option (Int × Nat)
  | bool b => some (if b then 1 else 0, 1)
  | int n => some (n, 1)
  | float x => x.ratio?
  | _ => none

/-- The float, if the value is one. -/
def float? : Value → Option Binary64
  | float x => some x
  | _ => none

/-- Whether a number is smaller than another one; none if one side is no number. An infinity
lies beyond all finite numbers, and an undefined number is not smaller than anything. -/
def numberLt? (a b : Value) : Option Bool :=
  match a.ratio?, b.ratio? with
  | some (n, d), some (m, e) => some (n * e < m * d)
  | some _, none => b.float?.map fun y => (Binary64.zero false).lt y
  | none, some _ => a.float?.map fun x => x.lt (.zero false)
  | none, none => do return (← a.float?).lt (← b.float?)

/-- Integers are compared as such. -/
theorem numberLt?_int (m n : Int) : (int m).numberLt? (int n) = some (decide (m < n)) := by
  simp [numberLt?, ratio?]

mutual

/-- Whether two values are equal. -/
def same : Value → Value → Bool
  | null, null => true
  | str s, str t => s == t
  | list xs, list ys => sameItems xs ys
  | tuple xs, tuple ys => sameItems xs ys
  | set xs, set ys => sameItems xs ys
  | doc es, doc fs => es.length == fs.length && sameEntries es fs
  | bytes bs, bytes cs => bs == cs
  | objectId i, objectId j => i == j
  | moment m, moment n => m.same n
  | record t fs, record u gs => t == u && sameFields fs gs
  | url s, url t => s == t
  | session n, session m => n == m
  | a, b => (sameNumber? a b).getD false

/-- Whether two sequences are equal place by place. -/
def sameItems : List Value → List Value → Bool
  | [], [] => true
  | x :: xs, y :: ys => same x y && sameItems xs ys
  | _, _ => false

/-- Whether each entry has an equal one in the other document. -/
def sameEntries : List (Value × Value) → List (Value × Value) → Bool
  | [], _ => true
  | (k, v) :: es, fs => fs.any (fun f => same k f.1 && same v f.2) && sameEntries es fs

/-- Whether two records have the same fields with equal values. -/
def sameFields : List (FieldLabel × Value) → List (FieldLabel × Value) → Bool
  | [], [] => true
  | (l, v) :: fs, (m, w) :: gs => l == m && same v w && sameFields fs gs
  | _, _ => false

end

/-- Only a text is equal to a text. -/
theorem same_str_iff (v : Value) (s : String) : v.same (str s) = true ↔ v = str s := by
  cases v <;> simp [same, sameNumber?]

/-- Whether a value is equal to a member of a list. -/
def isIn (v : Value) (items : List Value) : Bool := items.any (same v)

mutual

/-- The kind of the part that keeps a value from being a key; none if it can be one. -/
def unhashable? : Value → Option String
  | v@(list _) | v@(set _) | v@(doc _) => some v.typeName
  | record type fields => if type.frozen then unhashableField? fields else some type.name
  | tuple items => unhashableItem? items
  | _ => none

/-- The kind of the first member that cannot be a key. -/
def unhashableItem? : List Value → Option String
  | [] => none
  | x :: xs =>
    match unhashable? x with
    | some t => some t
    | none => unhashableItem? xs

/-- The kind of the first field that cannot be a key. -/
def unhashableField? : List (FieldLabel × Value) → Option String
  | [] => none
  | (_, v) :: fs =>
    match unhashable? v with
    | some t => some t
    | none => unhashableField? fs

end

/-- A tuple can be a key if each of its items can. -/
theorem unhashableItem?_cons_eq_none_iff {x : Value} {xs : List Value} :
    unhashableItem? (x :: xs) = none ↔ unhashable? x = none ∧ unhashableItem? xs = none := by
  cases h : unhashable? x <;> simp [unhashableItem?, h]

end Value

/-! ## Documents -/

/-- An ordered document: each key once, keys compared by equality of values. -/
abbrev Document := List (Value × Value)

namespace Document

/-- The value under a key. -/
def get? (d : Document) (key : Value) : Option Value :=
  match d with
  | [] => none
  | (k, v) :: rest => if k.same key then some v else get? rest key

/-- The value under a text key. -/
def field? (d : Document) (name : String) : Option Value := get? d (.str name)

/-- Whether a key is present. -/
def contains (d : Document) (key : Value) : Bool := (get? d key).isSome

/-- Sets a value: in place if the key is present, else at the end. -/
def insert (d : Document) (key value : Value) : Document :=
  match d with
  | [] => [(key, value)]
  | (k, v) :: rest =>
    if k.same key then (k, value) :: rest else (k, v) :: insert rest key value

/-- Sets the entries of a list in turn. -/
def insertAll (d : Document) (entries : List (Value × Value)) : Document :=
  entries.foldl (fun d e => insert d e.1 e.2) d

/-- The document of some entries; a repeated key keeps its first place and takes its last value. -/
def ofList (entries : List (Value × Value)) : Document := insertAll [] entries

/-- The entries with text keys, for documents that the library itself makes. -/
def ofFields (fields : List (String × Value)) : Document := fields.map fun (k, v) => (.str k, v)

/-- Nothing is found in the empty document. -/
@[simp] theorem field?_nil (name : String) : field? [] name = none := rfl

/-- A document is searched from its first entry on. -/
theorem field?_cons (e : Value × Value) (d : Document) (name : String) :
    field? (e :: d) name = if e.1.same (.str name) then some e.2 else field? d name := rfl

/-- Setting a text key changes what is found under it and nothing else. -/
theorem field?_insert (d : Document) (name other : String) (v : Value) :
    (d.insert (.str name) v).field? other = if name = other then some v else d.field? other := by
  induction d with
  | nil => by_cases h : name = other <;> simp [insert, field?_cons, Value.same, h]
  | cons e d ih =>
    obtain ⟨k, w⟩ := e
    by_cases h : k.same (.str name)
    · obtain rfl := (Value.same_str_iff k name).mp h
      by_cases ho : name = other <;> simp [insert, field?_cons, Value.same, ho]
    · by_cases ho : name = other
      · subst ho
        simp [insert, field?_cons, h, ih]
      · simp [insert, field?_cons, h, ih, ho]

end Document

/-- A document value with text keys. -/
def Value.ofFields (fields : List (String × Value)) : Value := .doc (Document.ofFields fields)

/-- The text value, if it is one. -/
def Value.text? : Value → Option String
  | .str s => some s
  | _ => none

end DocumentAccess
