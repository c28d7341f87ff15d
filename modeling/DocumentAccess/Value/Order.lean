import DocumentAccess.Value.Access

/-!
# The order of values

Which of two values comes first: numbers by size, texts and bytes character by character,
moments in time, sets by inclusion, and sequences at the first place where they differ. Values
of different kinds have no order, and neither have documents and records.
-/

namespace DocumentAccess

/-- Whether a moment comes before another one; the two need an offset both, or both none. -/
def Moment.before (m n : Moment) : Except Error Bool :=
  if m.offset.isSome = n.offset.isSome then .ok (m.instant < n.instant)
  else .error (.mismatch .momentOrder)

namespace Value

mutual

/-- Whether a value comes before another one. -/
def before : Value → Value → Except Error Bool
  | str s, str t => .ok (s < t)
  | bytes bs, bytes cs => .ok (bs < cs)
  | objectId i, objectId j => .ok (i.bytes < j.bytes)
  | moment m, moment n => m.before n
  | set xs, set ys => .ok (xs.length < ys.length && xs.all (·.isIn ys))
  | list xs, list ys => itemsBefore xs ys
  | tuple xs, tuple ys => itemsBefore xs ys
  | a, b =>
    match a.numberLt? b with
    | some r => .ok r
    | none => .error (.mismatch (.notOrdered "<" a.fullTypeName b.fullTypeName))

/-- Whether a sequence comes before another one; a shorter one comes before its continuations. -/
def itemsBefore : List Value → List Value → Except Error Bool
  | [], ys => .ok (!ys.isEmpty)
  | _ :: _, [] => .ok false
  | x :: xs, y :: ys => if x.same y then itemsBefore xs ys else x.before y

end

theorem before_int (m n : Int) : (int m).before (int n) = .ok (decide (m < n)) := by
  rw [before]
  · rw [numberLt?_int]
  all_goals
    intro _ _ h
    cases h

/-- The items in order of a key; those with equal keys keep their order, and keys without an
order are refused. -/
def orderedBy {α : Type} (key : α → Value) (items : List α) : Except Error (List α) := do
  let _ ← (items.zip (items.drop 1)).mapM fun (a, b) => (key b).before (key a)
  return items.mergeSort fun a b => !(((key b).before (key a)).toOption.getD false)

end Value

end DocumentAccess
