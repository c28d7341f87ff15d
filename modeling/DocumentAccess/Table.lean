/-!
# Tables

Entries under keys, in the order in which their keys first appeared. Setting a key that is there
replaces its entry in place; any other key goes to the end, so that a table made from a list
keeps each key once.
-/

namespace DocumentAccess

/-- Entries under keys, in order of first appearance. -/
abbrev Table (κ α : Type) := List (κ × α)

namespace Table

variable {κ α : Type} [BEq κ]

/-- Sets the entry of a key: in place if the key is present, else at the end. -/
def set (table : Table κ α) (key : κ) (a : α) : Table κ α :=
  match table with
  | [] => [(key, a)]
  | e :: es => if e.1 == key then (key, a) :: es else e :: set es key a

/-- The table of some entries; a repeated key keeps its first place and takes its last entry. -/
def ofList (entries : List (κ × α)) : Table κ α :=
  entries.foldl (fun table e => set table e.1 e.2) []

/-- Setting a key changes what is found under it and nothing else. -/
theorem lookup_set [LawfulBEq κ] (table : Table κ α) (key other : κ) (a : α) :
    (set table key a).lookup other = if other == key then some a else table.lookup other := by
  induction table with
  | nil => cases h : other == key <;> simp [set, List.lookup_cons, h]
  | cons e table ih =>
    obtain ⟨k, b⟩ := e
    by_cases hk : k == key
    · obtain rfl := eq_of_beq hk
      cases h : other == k <;> simp [set, List.lookup_cons, h]
    · by_cases ho : other == k
      · obtain rfl := eq_of_beq ho
        simp [set, hk]
      · simp only [set, if_neg hk, List.lookup_cons, Bool.eq_false_iff.mpr ho, ih]

end Table

end DocumentAccess
