import DocumentAccess.Value.Access
import DocumentAccess.Text.Blank

/-!
# Diagnosis of store faults

What a fault says about the write that failed: its codes, whether a unique index or the schema
refused it, and the values that collided. A bulk fault speaks for each failed item and not with
a code of its own. Colliding values come from the structured report if there is one, else from
the fault's text, else from the rejected document.
-/

namespace DocumentAccess.Fault

/-! ## Codes -/

/-- The codes by which a store says that a unique index refused a write. -/
def duplicateCodes : List Value := [.int 11000, .int 11001, .int 12582]

/-- The code by which a store says that the schema refused a document. -/
def invalidDataCode : Value := .int 121

/-- The value of an entry, null where there is none. -/
def entryOrNull (v : Value) (name : String) : Except Error Value := do
  return ((← v.entriesFor "get").field? name).getD .null

/-- The reports of a bulk fault on its failed items. -/
def writeErrors (f : Fault) : Except Error (List Value) :=
  match (f.details.getD []).field? "writeErrors" with
  | some v => v.elements
  | none => .ok []

/-- The codes that a fault carries. -/
def codes (f : Fault) : Except Error (List Value) :=
  match f.kind with
  | .bulkWrite => do
    let items ← (← f.writeErrors).mapM (entryOrNull · "code")
    let concern := ((f.details.getD []).field? "writeConcernError").getD .null
    let last ← if concern.truthy then (do return [← entryOrNull concern "code"]) else pure []
    return (items ++ last).filter fun c => !c.same .null
  | _ => .ok (f.code.toList.filter fun c => !c.same .null)

/-- Whether one of some codes says that a unique index refused a write. -/
def anyDuplicate : List Value → Except Error Bool
  | [] => .ok false
  | c :: cs => do if ← c.isKeyAmong duplicateCodes then return true else anyDuplicate cs

/-- Whether a unique index refused the write. -/
def isDuplicate (f : Fault) : Except Error Bool := do anyDuplicate (← f.codes)

/-- Whether the schema refused a document. -/
def isInvalidData (f : Fault) : Except Error Bool := do return invalidDataCode.isIn (← f.codes)

/-! ## Colliding values in a text -/

/-- All nonempty pieces between double quotes, from left to right. -/
def quotedPieces : Nat → List Char → List String
  | 0, _ => []
  | _, [] => []
  | fuel + 1, c :: rest =>
    if c = '\x22' then
      match rest.span (· ≠ '\x22') with
      | ([], _) => quotedPieces fuel rest
      | (piece, _ :: after) => String.ofList piece :: quotedPieces fuel after
      | (_, []) => quotedPieces fuel rest
    else quotedPieces fuel rest

/-- The shortest nonempty piece of one line that is followed by blanks and a closing brace. -/
def upToBrace (seen : List Char) : List Char → Option (List Char)
  | [] => none
  | c :: rest =>
    if c = '\n' then none
    else if (rest.dropWhile Text.isBlank).head? = some '\x7d' then some ((c :: seen).reverse)
    else upToBrace (c :: seen) rest

/-- The value behind a colon: as many blanks as possible are skipped first, fewer if no value
follows them. -/
def valueAfterBlanks : List Char → Option (List Char)
  | [] => none
  | c :: rest =>
    if Text.isBlank c then (valueAfterBlanks rest).orElse fun _ => upToBrace [] (c :: rest)
    else upToBrace [] (c :: rest)

/-- The first value in a text that goes on behind the opening of a list of duplicate keys. -/
def firstKeyValue (cs : List Char) : Option (List Char) :=
  match cs.dropWhile (· ≠ ':') with
  | [] => none
  | _ :: rest => valueAfterBlanks rest

/-- How a store's text opens the list of duplicate keys. -/
def keyListOpening : List Char := "dup key: \x7b".toList

/-- The first value of the first list of duplicate keys in a text. -/
def listedValue : List Char → Option (List Char)
  | [] => none
  | c :: rest =>
    let here := if keyListOpening.isPrefixOf (c :: rest)
      then firstKeyValue ((c :: rest).drop keyListOpening.length) else none
    here.orElse fun _ => listedValue rest

/-- Whether a character is dropped at the ends of a listed value. -/
def isWrapping (c : Char) : Bool := c = '\x27' || c = '\x22' || c = ' '

/-- The colliding values that a text names. -/
def valuesInText (text : String) : List Value :=
  let cs := text.toList
  match quotedPieces (cs.length + 1) cs with
  | [] =>
    match listedValue cs with
    | some piece => [.str (String.ofList (Text.stripChars isWrapping piece))]
    | none => []
  | pieces => pieces.map .str

/-! ## Colliding values of a fault -/

/-- The text to search in. -/
def searchText (v : Value) : Except Error String :=
  match v with
  | .str s => .ok s
  | .bytes _ => if v.truthy then .error (.mismatch .bytesForSearch) else .ok ""
  | v => if v.truthy then .error (.mismatch (.notText v.fullTypeName)) else .ok ""

/-- The colliding values that a report on one write names. -/
def valuesOfReport (report : Document) : Except Error (List Value) := do
  let keyValue := (report.field? "keyValue").getD .null
  if keyValue.truthy then
    return (← keyValue.entriesFor "values").map (·.2)
  else
    match valuesInText (← searchText ((report.field? "errmsg").getD .null)) with
    | [] =>
      match report.field? "op" with
      | some (.doc op) => return (Document.field? op "_id").toList
      | _ => return []
    | values => return values

/-- The colliding values that the reports of a bulk fault name; reports with other codes are
left out. -/
def valuesOfReports : List Value → Except Error (List Value)
  | [] => .ok []
  | v :: vs => do
    let report ← v.entriesFor "get"
    let values ← if ← ((report.field? "code").getD .null).isKeyAmong duplicateCodes
      then valuesOfReport report else pure []
    return values ++ (← valuesOfReports vs)

/-- The values that violated a unique index, as far as a fault tells them. -/
def duplicatedIds (f : Fault) : Except Error (List Value) :=
  match f.kind with
  | .bulkWrite => do valuesOfReports (← f.writeErrors)
  | _ => valuesOfReport (Document.insertAll [(.str "errmsg", .str f.text)] (f.details.getD []))

/-! ## Failures -/

/-- The failure that a store's fault is reported as, in the fault's own words; what is known of an
insert's documents is given along. -/
def toFailure (f : Fault) (inserted failed : List Value) : Except Error Failure := do
  if ← f.isDuplicate then
    return ⟨.duplicate, f.text, f, ← f.duplicatedIds, inserted, failed⟩
  else if ← f.isInvalidData then
    return ⟨.invalidData, f.text, f, [], inserted, failed⟩
  else
    return ⟨.other, f.text, f, [], inserted, failed⟩

end DocumentAccess.Fault
