import DocumentAccess.Mapping
import DocumentAccess.Query

/-!
# Sort orders

A sort can be written as a document of names and directions, as a list of pairs, or as a list of
names with a sign in front; all of them give the same order. The entries are read first, then
all directions, and the names are translated last.
-/

namespace DocumentAccess

/-- The spellings of the directions. -/
def directionSpellings : List (Value × Direction) :=
  [(.int 1, .ascending), (.int (-1), .descending), (.str "asc", .ascending),
    (.str "ascending", .ascending), (.str "desc", .descending), (.str "descending", .descending)]

/-- The direction that a value names; text counts in any letter case. -/
def Direction.ofValue (name v : Value) : Except Error Direction := do
  let key ← match v with
    | .str s => pure (Value.str (Text.lowercase s))
    | v => v.asKey
  match directionSpellings.find? fun e => e.1.same key with
  | some (_, d) => return d
  | none => throw (.sortDirection v name)

/-- A name with a sign in front: a minus for descending, else any number of pluses. -/
def signedName (s : String) : Value × Value :=
  match s.toList with
  | '-' :: rest => (.str (String.ofList rest), .int (-1))
  | cs => (.str (String.ofList (cs.dropWhile (· = '+'))), .int 1)

/-- One entry of a list: a signed name or a pair. -/
def sortEntry (v : Value) : Except Error (Value × Value) :=
  match v with
  | .str s => .ok (signedName s)
  | v => v.pair

/-- The entries of a sort in any of its shapes. -/
def sortEntries (sort : Value) : Except Error (List (Value × Value)) :=
  match sort with
  | .doc entries => .ok entries
  | sort => do (← sort.elements).mapM sortEntry

/-- The directions of some entries. -/
def sortDirections (entries : List (Value × Value)) : Except Error (List (Value × Direction)) :=
  entries.mapM fun (name, v) => do return (name, ← Direction.ofValue name v)

/-- The sort order that a value asks for; none if it asks for none. -/
def Resolver.buildSort (r : Resolver) (sort : Value) : Except Error (Option SortOrder) :=
  if !sort.truthy then .ok none
  else do
    let directed ← sortDirections (← sortEntries sort)
    return some <| ← directed.mapM fun (name, d) => do
      return (r.resolveField (← Resolver.nameOf "partition" name), d)

/-- The sort entries of a list of pairs with stored names; directions are left as they are. -/
def Resolver.resolveSort (r : Resolver) (sort : Value) : Except Error Value :=
  match sort with
  | .null => .ok .null
  | sort => do
    let entries ← (← sort.elements).mapM fun e => do
      let (name, direction) ← e.pair
      return Value.tuple [(r.resolveField (← Resolver.nameOf "partition" name)).key, direction]
    return .list entries

end DocumentAccess
