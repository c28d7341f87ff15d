import DocumentAccess.Error

/-!
# Access to dynamic values

Walking through a value, taking a pair apart, reading an entry, and making a document of
whatever has pairs in it. Each of these fails with the mismatch that says what the value lacks.
-/

namespace DocumentAccess

namespace Value

/-- The name of a value's kind with the part of the calendar it belongs to. -/
def fullTypeName : Value → String
  | moment _ => "datetime.datetime"
  | v => v.typeName

/-- The members that a walk through a value visits: items, keys, characters, bytes, or a model's
fields. -/
def elements? : Value → Option (List Value)
  | list items | tuple items | set items => some items
  | doc entries => some (entries.map (·.1))
  | str s => some (s.toList.map fun c => str c.toString)
  | bytes bs => some (bs.map fun b => int b.toNat)
  | record ⟨.model, _, _⟩ fields => some (fields.map fun (l, v) => tuple [str l.name, v])
  | _ => none

/-- The members that a walk through a value visits. -/
def elements (v : Value) : Except Error (List Value) :=
  match v.elements? with
  | some items => .ok items
  | none => .error (.mismatch (.notIterable v.fullTypeName))

/-- The two members of a pair. -/
def pair (v : Value) : Except Error (Value × Value) :=
  match v.elements? with
  | none => .error (.mismatch (.notUnpackable v.fullTypeName))
  | some [a, b] => .ok (a, b)
  | some [] => .error (.mismatch (.tooFewItems 0))
  | some [_] => .error (.mismatch (.tooFewItems 1))
  | some _ => .error (.mismatch .tooManyItems)

/-- The entries of a document value; another value has no such member. -/
def entriesFor (member : String) (v : Value) : Except Error Document :=
  match v with
  | doc entries => .ok entries
  | v => .error (.mismatch (.noMember v.fullTypeName member))

/-- A value that is to be a key. -/
def asKey (v : Value) : Except Error Value :=
  match v.unhashable? with
  | some kind => .error (.mismatch (.unhashable kind))
  | none => .ok v

/-- Whether a value is among some numbers or texts; a value that can be no key is refused, a set
is simply not there. -/
def isKeyAmong (v : Value) (keys : List Value) : Except Error Bool :=
  match v with
  | set _ => .ok false
  | v => do return (← v.asKey).isIn keys

/-- The pair at a position in a sequence of entries. -/
def entryAt (index : Nat) (v : Value) : Except Error (Value × Value) :=
  match v.elements? with
  | none => .error (.mismatch (.entryKind index))
  | some [k, w] => .ok (k, w)
  | some items => .error (.mismatch (.entrySize index items.length))

/-- The document that a sequence of pairs makes, added to one that is already there. -/
def collectEntries (d : Document) (index : Nat) : List Value → Except Error Document
  | [] => .ok d
  | x :: xs => do
    let (k, v) ← x.entryAt index
    collectEntries (d.insert (← k.asKey) v) (index + 1) xs

/-- A value as a document: its entries, or those of the pairs in it. -/
def toDocument (v : Value) : Except Error Document :=
  match v with
  | doc entries => .ok entries
  | v => do collectEntries [] 0 (← v.elements)

/-- A text in a place that splits, replaces or trims text. -/
def asText (member : String) (v : Value) : Except Error String :=
  match v with
  | str s => .ok s
  | bytes _ => .error (.mismatch .bytesForText)
  | v =>
    if v matches moment _ ∧ member = "replace" then .error (.mismatch .momentForText)
    else .error (.mismatch (.noMember v.fullTypeName member))

/-- A text in a place that looks at how it starts. -/
def asStart (v : Value) : Except Error String :=
  match v with
  | str s => .ok s
  | bytes _ => .error (.mismatch .bytesForStart)
  | v => .error (.mismatch (.noMember v.fullTypeName "startswith"))

end Value

end DocumentAccess
