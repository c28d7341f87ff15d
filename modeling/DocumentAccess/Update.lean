import DocumentAccess.Condition
import DocumentAccess.Value.Storage

/-!
# Updates

A builder of one update of one document. It records operations on fields and refuses one whose
path is, or lies below or above, the path of a recorded operation, since a store refuses such
an update as a whole. A refused call leaves the recorded operations as they were.
-/

namespace DocumentAccess

/-! ## Operations -/

/-- What is done to a field. -/
inductive UpdateAction where
  | set (value : Value)
  | unset
  | increment (amount : Value)
  | multiply (factor : Value)
  | min (value : Value)
  | max (value : Value)
  | push (items : List Value)
  | pop (position : Value)
  | pull (target : Value)
deriving Inhabited

/-- An operation on the field at a path. -/
structure UpdateOperation where
  path : String
  action : UpdateAction
deriving Inhabited

namespace UpdateAction

/-- The name of an action's record in messages. -/
def label : UpdateAction → String
  | set _ => "SetOperation"
  | unset => "UnsetOperation"
  | increment _ => "IncrementOperation"
  | multiply _ => "MultiplyOperation"
  | min _ => "MinOperation"
  | max _ => "MaxOperation"
  | push _ => "PushOperation"
  | pop _ => "PopOperation"
  | pull _ => "PullOperation"

/-- The name of what an action takes, and the value it took. -/
def argument? : UpdateAction → Option (String × Value)
  | set v | min v | max v => some ("value", v)
  | unset => none
  | increment v => some ("amount", v)
  | multiply v => some ("factor", v)
  | push items => some ("items", .list items)
  | pop v => some ("position", v)
  | pull v => some ("value_or_condition", v)

/-- The store's operator for an action. -/
def native : UpdateAction → String
  | set _ => "$set"
  | unset => "$unset"
  | increment _ => "$inc"
  | multiply _ => "$mul"
  | min _ => "$min"
  | max _ => "$max"
  | push _ => "$push"
  | pop _ => "$pop"
  | pull _ => "$pull"

/-- What stands under the path in the store's form of an action. -/
def operand : UpdateAction → Value
  | set v | min v | max v | increment v | multiply v | pop v | pull v => v
  | unset => .str ""
  | push items => .ofFields [("$each", .list items)]

end UpdateAction

/-- The text of an operation in a message. -/
def UpdateOperation.literal (op : UpdateOperation) : String :=
  let argument := match op.action.argument? with
    | some (name, v) => ", " ++ name ++ "=" ++ v.literal
    | none => ""
  op.action.label ++ "(field_path=" ++ Value.quoted op.path ++ argument ++ ")"

/-! ## Calls -/

/-- The builder's calls. -/
inductive UpdateCall where
  | set | unset | increment | decrement | mul | min | max | push | pop | pull
deriving DecidableEq, Inhabited

namespace UpdateCall

/-- The name of a call. -/
def name : UpdateCall → String
  | set => "set"
  | unset => "unset"
  | increment => "increment"
  | decrement => "decrement"
  | mul => "mul"
  | min => "min"
  | max => "max"
  | push => "push"
  | pop => "pop"
  | pull => "pull"

/-- All calls. -/
def all : List UpdateCall := [set, unset, increment, decrement, mul, min, max, push, pop, pull]

/-- The call of a name. -/
def ofName? (name : String) : Option UpdateCall := all.find? (·.name == name)

/-- A number, which a truth value is not. -/
def numeric (role : String) (v : Value) : Except Error Value :=
  match v with
  | .int _ | .float _ => .ok v
  | v => .error (.notNumeric role v.typeName)

/-- The number with the other sign. -/
def negated : Value → Value
  | .int n => .int (-n)
  | .float x => .float x.neg
  | v => v

/-- The end of a list: 1 is the last place and -1 the first. -/
def position (v : Value) : Except Error Value :=
  if v.same (.int 1) || v.same (.int (-1)) then .ok v else .error (.popPosition v)

/-- Whether a value to pull is a condition in the store's own form. -/
def isNativeCondition : Value → Bool
  | .doc entries => entries.any fun e => e.1.plain.startsWith "$"
  | _ => false

/-- What is pulled: a condition as it is, and any other value in stored form. -/
def pulled (v : Value) : Except Error Value :=
  if isNativeCondition v then .ok v else v.prepare

/-- The action of a call with some arguments, which it looks at. -/
def action (call : UpdateCall) (arguments : List Value) : Except Error UpdateAction :=
  match call, arguments with
  | set, [v] => .ok (.set v)
  | unset, [] => .ok .unset
  | increment, [] => .ok (.increment (.int 1))
  | increment, [v] => do return .increment (← numeric "Increment amount" v)
  | decrement, [] => .ok (.increment (.int (-1)))
  | decrement, [v] => do return .increment (negated (← numeric "Decrement amount" v))
  | mul, [v] => do return .multiply (← numeric "Multiply factor" v)
  | min, [v] => .ok (.min v)
  | max, [v] => .ok (.max v)
  | push, [] => .error .nothingToPush
  | push, items => .ok (.push items)
  | pop, [] => .ok (.pop (.int 1))
  | pop, [v] => do return .pop (← position v)
  | pull, [v] => do return .pull (← pulled v)
  | call, _ => .error (.mismatch (.argumentCount call.name))

end UpdateCall

/-- An action with its values in stored form. A value to pull has been looked at already. -/
def UpdateAction.prepared : UpdateAction → Except Error UpdateAction
  | set v => do return .set (← v.prepare)
  | min v => do return .min (← v.prepare)
  | max v => do return .max (← v.prepare)
  | push items => do return .push (← items.mapM Value.prepare)
  | action => .ok action

/-! ## The builder -/

/-- What a caller names a field by. -/
inductive FieldReference where
  | name (path : String)
  | field (f : Field)
  | other (v : Value)
deriving Inhabited

/-- The path that a reference names. -/
def FieldReference.path : FieldReference → Except Error String
  | name path => .ok path
  | field f => .ok f.path
  | other v => .error (.updateField v.typeName)

/-- The operation that a call asks for: its arguments are looked at first, then the field, and
then the values are brought into stored form. -/
def UpdateCall.operation (c : UpdateCall) (field : FieldReference) (arguments : List Value) :
    Except Error UpdateOperation := do
  let action ← c.action arguments
  let path ← field.path
  return ⟨path, ← action.prepared⟩

/-- Whether a path lies below another one. -/
def isBelow (path above : String) : Bool := (above ++ ".").toList.isPrefixOf path.toList

/-- A path lies below another one if it goes on behind it with a dot. -/
theorem isBelow_iff (path above : String) :
    isBelow path above = true ↔ ∃ rest, path.toList = (above ++ ".").toList ++ rest := by
  simp only [isBelow, List.isPrefixOf_iff_prefix]
  exact ⟨fun ⟨r, h⟩ => ⟨r, h.symm⟩, fun ⟨r, h⟩ => ⟨r, h.symm⟩⟩

/-- How a path overlaps a recorded one. -/
def overlap? (path recorded : String) : Option Overlap :=
  if recorded = path then some .same
  else if isBelow path recorded then some .below
  else if isBelow recorded path then some .above
  else none

/-- The operations recorded so far. -/
structure Update where
  operations : List UpdateOperation
deriving Inhabited

namespace Update

/-- The builder without operations. -/
def empty : Update := ⟨[]⟩

/-- The first recorded path that a path overlaps, and how. -/
def conflict? (u : Update) (path : String) : Option (Overlap × String) :=
  u.operations.findSome? fun op => (overlap? path op.path).map (·, op.path)

/-- Records an operation, unless it overlaps a recorded one. -/
def add (u : Update) (op : UpdateOperation) : Except Error Unit × Update :=
  match u.conflict? op.path with
  | some (how, recorded) => (.error (.overlap how op.path recorded), u)
  | none => (.ok (), ⟨u.operations ++ [op]⟩)

/-- Carries out a call: what it asks for is made, and then compared with the recorded
operations. -/
def call (u : Update) (c : UpdateCall) (field : FieldReference) (arguments : List Value) :
    Except Error Unit × Update :=
  match c.operation field arguments with
  | .ok op => u.add op
  | .error e => (.error e, u)

/-- The number of recorded operations. -/
def size (u : Update) : Nat := u.operations.length

/-- The text of a builder in a message. -/
def literal (u : Update) : String :=
  "Update([" ++ ", ".intercalate (u.operations.map UpdateOperation.literal) ++ "])"

/-- Sets the operand of a path under an operator. -/
def place (d : Document) (native path : String) (operand : Value) : Document :=
  match d.field? native with
  | some (.doc fields) => d.insert (.str native) (.doc (Document.insert fields (.str path) operand))
  | _ => d.insert (.str native) (.doc [(.str path, operand)])

/-- The update document of the recorded operations, by operator in order of first use. -/
def toDocument (u : Update) : Document :=
  u.operations.foldl (fun d op => place d op.action.native op.path op.action.operand) []

end Update

end DocumentAccess
