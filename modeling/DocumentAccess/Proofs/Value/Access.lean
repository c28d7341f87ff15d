import DocumentAccess.Proofs.Outcome
import DocumentAccess.Value.Order

/-!
# What reading a value can fail with

Values are read by walking through them, taking them apart, looking at them as
keys, texts or documents, and by comparing them. All of that fails with what the
value lacks, and with no other error.
-/

namespace DocumentAccess

/-! ## Kinds of error -/

/-- An error that says what a value lacks. -/
def Error.IsMismatch (e : Error) : Prop := ∃ m, e = .mismatch m

/-- An error that is not the fault of a call. -/
def Error.IsOwn (e : Error) : Prop := ∀ f, e ≠ .fault f

/-- A computation that fails for want of something in a value. -/
abbrev Reads {α : Type} (a : Except Error α) : Prop := FailsWith Error.IsMismatch a

/-- A computation that refuses what it is given by itself. -/
abbrev Own {α : Type} (a : Except Error α) : Prop := FailsWith Error.IsOwn a

theorem Reads.mismatch {α : Type} (m : Mismatch) : Reads (.error (.mismatch m) : Except Error α) :=
  .error ⟨m, rfl⟩

theorem Reads.own {α : Type} {a : Except Error α} (h : Reads a) : Own a := by
  refine h.imp fun e he => ?_
  obtain ⟨m, rfl⟩ := he
  exact nofun

/-! ## Access -/

namespace Value

theorem elements_reads (v : Value) : Reads v.elements := by
  unfold elements
  split
  · exact .ok _
  · exact .mismatch _

theorem pair_reads (v : Value) : Reads v.pair := by
  unfold pair
  split
  · exact .mismatch _
  · exact .ok _
  · exact .mismatch _
  · exact .mismatch _
  · exact .mismatch _

theorem entriesFor_reads (member : String) (v : Value) : Reads (v.entriesFor member) := by
  unfold entriesFor
  split
  · exact .ok _
  · exact .mismatch _

theorem asKey_reads (v : Value) : Reads v.asKey := by
  unfold asKey
  split
  · exact .mismatch _
  · exact .ok _

theorem isKeyAmong_reads (v : Value) (keys : List Value) : Reads (v.isKeyAmong keys) := by
  unfold isKeyAmong
  split
  · exact .ok _
  · exact .bind (asKey_reads _) fun _ _ => .ok _

theorem asText_reads (member : String) (v : Value) : Reads (v.asText member) := by
  unfold asText
  split
  · exact .ok _
  · exact .mismatch _
  · split
    all_goals
      split
      · exact .mismatch _
      · exact .mismatch _

theorem asStart_reads (v : Value) : Reads v.asStart := by
  unfold asStart
  split
  · exact .ok _
  · exact .mismatch _
  · exact .mismatch _

theorem entryAt_reads (index : Nat) (v : Value) : Reads (v.entryAt index) := by
  unfold entryAt
  split
  · exact .mismatch _
  · exact .ok _
  · exact .mismatch _

theorem collectEntries_reads (xs : List Value) (d : Document) (index : Nat) :
    Reads (collectEntries d index xs) := by
  induction xs generalizing d index with
  | nil => exact .ok d
  | cons x xs ih =>
      rw [collectEntries]
      exact .bind (entryAt_reads index x) fun e _ => .bind (asKey_reads e.1) fun _ _ => ih _ _

theorem toDocument_reads (v : Value) : Reads v.toDocument := by
  unfold toDocument
  split
  · exact .ok _
  · exact .bind (elements_reads _) fun _ _ => collectEntries_reads _ _ _

/-! ## Order -/

mutual

theorem before_reads (a b : Value) : Reads (a.before b) := by
  unfold before
  split
  case h_4 m n =>
    unfold Moment.before
    split
    · exact .ok _
    · exact .mismatch _
  case h_6 xs ys => exact itemsBefore_reads xs ys
  case h_7 xs ys => exact itemsBefore_reads xs ys
  case h_8 =>
    split
    · exact .ok _
    · exact .mismatch _
  all_goals exact .ok _

theorem itemsBefore_reads : ∀ xs ys : List Value, Reads (itemsBefore xs ys)
  | [], _ => .ok _
  | _ :: _, [] => .ok _
  | x :: xs, y :: ys => by
      rw [itemsBefore]
      split
      · exact itemsBefore_reads xs ys
      · exact before_reads x y

end

end Value

end DocumentAccess
