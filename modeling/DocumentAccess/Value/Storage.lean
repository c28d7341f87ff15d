import DocumentAccess.Outcome
import DocumentAccess.Value.Access

/-!
# Stored form of values

A store holds scalars, lists, tuples and documents. `Value.prepare` turns everything a caller
hands in into that form: a record becomes a document under its stored field names, a set
becomes a list, an address becomes its text. Everything else keeps its kind, and
`Value.isStorable` says when nothing is left to convert.

The entries of a record are made elsewhere: a plain record is written out by a conversion of
its own, a model dumps itself (`ModelDump`). Either goes on into some of the values below and
leaves others as they are, so what it makes is prepared in turn. All that it does is write
records out (`Value.WrittenOut`). This makes a value lighter (`Value.weight`), so preparing
comes to an end.

Either fails where it would have to put a document in the place of a key or of a member of a
set, which a frozen record can be.
-/

namespace DocumentAccess

/-- The key that a record of a kind writes a field under. -/
def RecordKind.keyOf : RecordKind → FieldLabel → String
  | plain, l => l.name
  | model, l => l.stored

/-! ## Writing records out -/

/-- What a conversion of records goes into, besides lists, tuples and documents: the records
that it writes out, and perhaps sets and the keys of documents. -/
structure Reach where
  records : RecordKind → Bool
  sets : Bool
  keys : Bool

namespace Reach

/-- The reach of the conversion of plain records: models and sets are copied as they are. -/
def plainRecords : Reach := ⟨(· == .plain), false, true⟩

/-- The reach of the dump of a model whose fields take any value. -/
def allRecords : Reach := ⟨fun _ => true, true, false⟩

end Reach

namespace Value

mutual

/-- A value with the records in reach written out as documents. -/
def writeOut (r : Reach) : Value → Except Error Value
  | list items => do return list (← writeOutItems r items)
  | tuple items => do return tuple (← writeOutItems r items)
  | set items =>
    if r.sets then do return set (← (← writeOutItems r items).mapM asKey)
    else .ok (set items)
  | doc entries => do return doc (← writeOutEntries r entries)
  | record type fields =>
    if r.records type.kind then do
      return doc (Document.ofList (← writeOutFields r type.kind fields))
    else .ok (record type fields)
  | v => .ok v

/-- Items with the records in reach written out. -/
def writeOutItems (r : Reach) : List Value → Except Error (List Value)
  | [] => .ok []
  | x :: xs => do
    let y ← writeOut r x
    return y :: (← writeOutItems r xs)

/-- Entries with the records in reach written out. -/
def writeOutEntries (r : Reach) : List (Value × Value) → Except Error (List (Value × Value))
  | [] => .ok []
  | (k, v) :: es => do
    let l ← (if r.keys then writeOut r k else .ok k : Except Error Value)
    let w ← writeOut r v
    let l ← l.asKey
    return (l, w) :: (← writeOutEntries r es)

/-- The entries that the fields of a record are written out as. -/
def writeOutFields (r : Reach) (kind : RecordKind) :
    List (FieldLabel × Value) → Except Error (List (Value × Value))
  | [] => .ok []
  | (l, v) :: fs => do
    let w ← writeOut r v
    return (str (kind.keyOf l), w) :: (← writeOutFields r kind fs)

end

mutual

/-- The second value is the first one with some records, at any depth, written out as
documents. The keys of documents and the members of sets stay as they are. -/
inductive WrittenOut : Value → Value → Prop where
  | same (v : Value) : WrittenOut v v
  | list {xs ys : List Value} (items : WrittenOutItems xs ys) : WrittenOut (list xs) (list ys)
  | tuple {xs ys : List Value} (items : WrittenOutItems xs ys) : WrittenOut (tuple xs) (tuple ys)
  | doc {es fs : List (Value × Value)} (entries : WrittenOutEntries es fs) :
    WrittenOut (doc es) (doc fs)
  | record {type : RecordType} {fields : List (FieldLabel × Value)} {es : List (Value × Value)}
    (entries : WrittenOutFields type.kind fields es) :
    WrittenOut (record type fields) (doc (Document.ofList es))

/-- The same for each of some items. -/
inductive WrittenOutItems : List Value → List Value → Prop where
  | nil : WrittenOutItems [] []
  | cons {x y : Value} {xs ys : List Value} (first : WrittenOut x y)
    (rest : WrittenOutItems xs ys) : WrittenOutItems (x :: xs) (y :: ys)

/-- The same for the values of some entries. -/
inductive WrittenOutEntries : List (Value × Value) → List (Value × Value) → Prop where
  | nil : WrittenOutEntries [] []
  | cons {v w : Value} {es fs : List (Value × Value)} (k : Value) (first : WrittenOut v w)
    (rest : WrittenOutEntries es fs) : WrittenOutEntries ((k, v) :: es) ((k, w) :: fs)

/-- The same for the fields of a record and the entries that they become. -/
inductive WrittenOutFields :
    RecordKind → List (FieldLabel × Value) → List (Value × Value) → Prop where
  | nil (kind : RecordKind) : WrittenOutFields kind [] []
  | cons {kind : RecordKind} {v w : Value} {fs : List (FieldLabel × Value)}
    {es : List (Value × Value)} (l : FieldLabel) (first : WrittenOut v w)
    (rest : WrittenOutFields kind fs es) :
    WrittenOutFields kind ((l, v) :: fs) ((str (kind.keyOf l), w) :: es)

end

/-! ## Weight -/

mutual

/-- A measure of a value that is smaller for its parts, and smaller for the document of a
record than for the record. -/
def weight : Value → Nat
  | list items | tuple items | set items => weightOfItems items + 1
  | doc entries => weightOfEntries entries + 1
  | record _ fields => weightOfFields fields + 2
  | _ => 1

def weightOfItems : List Value → Nat
  | [] => 0
  | x :: xs => weight x + weightOfItems xs + 1

def weightOfEntries : List (Value × Value) → Nat
  | [] => 0
  | (_, v) :: es => weight v + weightOfEntries es + 1

def weightOfFields : List (FieldLabel × Value) → Nat
  | [] => 0
  | (_, v) :: fs => weight v + weightOfFields fs + 1

end

theorem weightOfEntries_insert (d : Document) (key v : Value) :
    weightOfEntries (d.insert key v) ≤ weightOfEntries d + v.weight + 1 := by
  induction d with
  | nil => simp [Document.insert, weightOfEntries]
  | cons e d ih =>
    obtain ⟨k, w⟩ := e
    rw [Document.insert]
    split <;> simp only [weightOfEntries] <;> omega

theorem weightOfEntries_insertAll (d : Document) (es : List (Value × Value)) :
    weightOfEntries (d.insertAll es) ≤ weightOfEntries d + weightOfEntries es := by
  induction es generalizing d with
  | nil => exact Nat.le_refl _
  | cons e es ih =>
    have hfirst := weightOfEntries_insert d e.1 e.2
    have hrest := ih (d.insert e.1 e.2)
    rw [Document.insertAll] at hrest ⊢
    rw [List.foldl_cons, weightOfEntries]
    omega

theorem weightOfEntries_ofList (es : List (Value × Value)) :
    weightOfEntries (Document.ofList es) ≤ weightOfEntries es := by
  have hall := weightOfEntries_insertAll [] es
  rwa [weightOfEntries, Nat.zero_add] at hall

mutual

/-- Writing records out makes no value heavier. -/
theorem WrittenOut.weight_le {v w : Value} : WrittenOut v w → w.weight ≤ v.weight
  | .same v => Nat.le_refl _
  | .list items => by have hitems := items.weight_le; simp only [weight]; omega
  | .tuple items => by have hitems := items.weight_le; simp only [weight]; omega
  | .doc entries => by have hentries := entries.weight_le; simp only [weight]; omega
  | @WrittenOut.record _ _ es entries => by
    have hentries := entries.weight_le
    have hdocument := weightOfEntries_ofList es
    simp only [weight]
    omega

theorem WrittenOutItems.weight_le {xs ys : List Value} :
    WrittenOutItems xs ys → weightOfItems ys ≤ weightOfItems xs
  | .nil => Nat.le_refl _
  | .cons first rest => by
    have hfirst := first.weight_le
    have hrest := rest.weight_le
    simp only [weightOfItems]
    omega

theorem WrittenOutEntries.weight_le {es fs : List (Value × Value)} :
    WrittenOutEntries es fs → weightOfEntries fs ≤ weightOfEntries es
  | .nil => Nat.le_refl _
  | .cons _ first rest => by
    have hfirst := first.weight_le
    have hrest := rest.weight_le
    simp only [weightOfEntries]
    omega

theorem WrittenOutFields.weight_le {kind : RecordKind} {fields : List (FieldLabel × Value)}
    {es : List (Value × Value)} :
    WrittenOutFields kind fields es → weightOfEntries es ≤ weightOfFields fields
  | .nil _ => Nat.le_refl _
  | .cons _ first rest => by
    have hfirst := first.weight_le
    have hrest := rest.weight_le
    simp only [weightOfEntries, weightOfFields]
    omega

end

/-- The document of a record is lighter than the record. -/
theorem WrittenOutFields.weight_lt {type : RecordType} {fields : List (FieldLabel × Value)}
    {es : List (Value × Value)} (h : WrittenOutFields type.kind fields es) :
    (doc (Document.ofList es)).weight < (record type fields).weight := by
  have hentries := h.weight_le
  have hdocument := weightOfEntries_ofList es
  simp only [weight]
  omega

/-! ## Keys that stay keys -/

/-- A value that is taken for a key is what it was. -/
theorem asKey_eq_ok {v w : Value} (h : v.asKey = .ok w) : v.unhashable? = none ∧ w = v := by
  unfold asKey at h
  split at h
  · exact nomatch h
  · exact ⟨‹_›, (Except.ok.inj h).symm⟩

theorem mapM_asKey_eq_ok {xs ys : List Value} (h : xs.mapM asKey = .ok ys) :
    ys = xs ∧ unhashableItem? xs = none := by
  induction xs generalizing ys with
  | nil =>
    rw [List.mapM_nil] at h
    exact ⟨(Except.ok.inj h).symm, rfl⟩
  | cons x xs ih =>
    rw [List.mapM_cons] at h
    obtain ⟨y, hy, hrest⟩ := bind_eq_ok_iff.mp h
    obtain ⟨zs, hzs, hys⟩ := bind_eq_ok_iff.mp hrest
    obtain ⟨hkey, hyx⟩ := asKey_eq_ok hy
    obtain ⟨hzsxs, hkeys⟩ := ih hzs
    obtain rfl := Except.ok.inj hys
    rw [hyx, hzsxs]
    exact ⟨rfl, unhashableItem?_cons_eq_none_iff.mpr ⟨hkey, hkeys⟩⟩

mutual

/-- Nothing can be written out of a value that still is a key then. -/
theorem WrittenOut.eq_of_hashable :
    ∀ {v w : Value}, WrittenOut v w → w.unhashable? = none → w = v
  | _, _, .same v, _ => rfl
  | _, _, .tuple items, h => congrArg Value.tuple (items.eq_of_hashable h)

theorem WrittenOutItems.eq_of_hashable :
    ∀ {xs ys : List Value}, WrittenOutItems xs ys → unhashableItem? ys = none → ys = xs
  | _, _, .nil, _ => rfl
  | _, _, .cons first rest, h => by
    rw [unhashableItem?_cons_eq_none_iff] at h
    rw [first.eq_of_hashable h.1, rest.eq_of_hashable h.2]

end

/-! ## Conversions -/

mutual

/-- A conversion of records does nothing but write them out. -/
theorem writtenOut_writeOut (r : Reach) :
    ∀ {v w : Value}, writeOut r v = .ok w → WrittenOut v w
  | list items, w, h => by
    rw [writeOut] at h
    obtain ⟨ys, hitems, h⟩ := bind_eq_ok_iff.mp h
    obtain rfl := Except.ok.inj h
    exact .list (writtenOutItems_writeOut r hitems)
  | tuple items, w, h => by
    rw [writeOut] at h
    obtain ⟨ys, hitems, h⟩ := bind_eq_ok_iff.mp h
    obtain rfl := Except.ok.inj h
    exact .tuple (writtenOutItems_writeOut r hitems)
  | set items, w, h => by
    rw [writeOut] at h
    split at h
    · obtain ⟨ys, hitems, h⟩ := bind_eq_ok_iff.mp h
      obtain ⟨zs, hkeys, h⟩ := bind_eq_ok_iff.mp h
      obtain rfl := Except.ok.inj h
      -- What is still a key has nothing written out.
      obtain ⟨rfl, hhashable⟩ := mapM_asKey_eq_ok hkeys
      rw [(writtenOutItems_writeOut r hitems).eq_of_hashable hhashable]
      exact .same _
    · obtain rfl := Except.ok.inj h
      exact .same _
  | doc entries, w, h => by
    rw [writeOut] at h
    obtain ⟨es, hentries, h⟩ := bind_eq_ok_iff.mp h
    obtain rfl := Except.ok.inj h
    exact .doc (writtenOutEntries_writeOut r hentries)
  | record type fields, w, h => by
    rw [writeOut] at h
    split at h
    · obtain ⟨es, hfields, h⟩ := bind_eq_ok_iff.mp h
      obtain rfl := Except.ok.inj h
      exact .record (writtenOutFields_writeOut r hfields)
    · obtain rfl := Except.ok.inj h
      exact .same _
  | null, w, h | bool _, w, h | int _, w, h | float _, w, h | str _, w, h | bytes _, w, h
  | objectId _, w, h | moment _, w, h | url _, w, h | session _, w, h => by
    simp only [writeOut] at h
    obtain rfl := Except.ok.inj h
    exact .same _

theorem writtenOutItems_writeOut (r : Reach) : ∀ {items ys : List Value},
    writeOutItems r items = .ok ys → WrittenOutItems items ys
  | [], ys, h => by
    obtain rfl := Except.ok.inj h
    exact .nil
  | x :: xs, ys, h => by
    rw [writeOutItems] at h
    obtain ⟨y, hx, h⟩ := bind_eq_ok_iff.mp h
    obtain ⟨zs, hxs, h⟩ := bind_eq_ok_iff.mp h
    obtain rfl := Except.ok.inj h
    exact .cons (writtenOut_writeOut r hx) (writtenOutItems_writeOut r hxs)

theorem writtenOutEntries_writeOut (r : Reach) : ∀ {entries es : List (Value × Value)},
    writeOutEntries r entries = .ok es → WrittenOutEntries entries es
  | [], es, h => by
    obtain rfl := Except.ok.inj h
    exact .nil
  | (k, v) :: rest, es, h => by
    rw [writeOutEntries] at h
    obtain ⟨l, hl, h⟩ := bind_eq_ok_iff.mp h
    obtain ⟨w, hv, h⟩ := bind_eq_ok_iff.mp h
    obtain ⟨l', hkey, h⟩ := bind_eq_ok_iff.mp h
    obtain ⟨fs, hrest, h⟩ := bind_eq_ok_iff.mp h
    obtain rfl := Except.ok.inj h
    obtain ⟨hhashable, rfl⟩ := asKey_eq_ok hkey
    have hwritten : WrittenOut k l' := by
      split at hl
      · exact writtenOut_writeOut r hl
      · obtain rfl := Except.ok.inj hl
        exact .same k
    rw [hwritten.eq_of_hashable hhashable]
    exact .cons k (writtenOut_writeOut r hv) (writtenOutEntries_writeOut r hrest)

theorem writtenOutFields_writeOut (r : Reach) {kind : RecordKind} :
    ∀ {fields : List (FieldLabel × Value)} {es : List (Value × Value)},
      writeOutFields r kind fields = .ok es → WrittenOutFields kind fields es
  | [], es, h => by
    obtain rfl := Except.ok.inj h
    exact .nil kind
  | (l, v) :: fs, es, h => by
    rw [writeOutFields] at h
    obtain ⟨w, hv, h⟩ := bind_eq_ok_iff.mp h
    obtain ⟨es', hfs, h⟩ := bind_eq_ok_iff.mp h
    obtain rfl := Except.ok.inj h
    exact .cons l (writtenOut_writeOut r hv) (writtenOutFields_writeOut r hfs)

end

end Value

/-! ## Preparing -/

/-- How a model dumps itself: its fields become entries under the names they are stored by,
and other records in them may be written out as well. -/
structure ModelDump where
  entries : List (FieldLabel × Value) → Except Error (List (Value × Value))
  writtenOut : ∀ {fields es}, entries fields = .ok es → Value.WrittenOutFields .model fields es

/-- The dump of models whose fields take any value: all records in them are written out. -/
def ModelDump.ofAny : ModelDump where
  entries := Value.writeOutFields .allRecords .model
  writtenOut := Value.writtenOutFields_writeOut .allRecords

namespace Value

/-- The entries that a record is converted to. -/
def entriesBy (d : ModelDump) : RecordKind → List (FieldLabel × Value) →
    Except Error (List (Value × Value))
  | .plain => writeOutFields .plainRecords .plain
  | .model => d.entries

theorem writtenOut_entriesBy (d : ModelDump) {kind : RecordKind}
    {fields : List (FieldLabel × Value)} {es : List (Value × Value)}
    (h : entriesBy d kind fields = .ok es) : WrittenOutFields kind fields es :=
  match kind with
  | .plain => writtenOutFields_writeOut .plainRecords h
  | .model => d.writtenOut h

mutual

/-- The stored form of a value whose models dump themselves in a given way. -/
def prepareBy (d : ModelDump) : Value → Except Error Value
  | record type fields =>
    match _hentries : entriesBy d type.kind fields with
    | .ok es => prepareBy d (doc (Document.ofList es))
    | .error e => .error e
  | doc entries => do return doc (← prepareEntriesBy d entries)
  | list items => do return list (← prepareItemsBy d items)
  | tuple items => do return tuple (← prepareItemsBy d items)
  | set items => do return list (← prepareItemsBy d items)
  | url text => .ok (str text)
  | v => .ok v
termination_by v => v.weight
decreasing_by
  · exact (writtenOut_entriesBy d _hentries).weight_lt
  all_goals simp only [weight]; omega

/-- The stored forms of some items. -/
def prepareItemsBy (d : ModelDump) : List Value → Except Error (List Value)
  | [] => .ok []
  | x :: xs => do
    let y ← prepareBy d x
    return y :: (← prepareItemsBy d xs)
termination_by items => weightOfItems items
decreasing_by all_goals simp only [weightOfItems]; omega

/-- Entries with their values in stored form; keys stay as they are. -/
def prepareEntriesBy (d : ModelDump) : List (Value × Value) → Except Error (List (Value × Value))
  | [] => .ok []
  | (k, v) :: es => do
    let w ← prepareBy d v
    return (k, w) :: (← prepareEntriesBy d es)
termination_by entries => weightOfEntries entries
decreasing_by all_goals simp only [weightOfEntries]; omega

end

theorem prepareItemsBy_eq_mapM (d : ModelDump) (items : List Value) :
    prepareItemsBy d items = items.mapM (prepareBy d) := by
  induction items with
  | nil =>
    rw [prepareItemsBy, List.mapM_nil]
    rfl
  | cons x xs ih => rw [prepareItemsBy, ih, List.mapM_cons]

/-- The stored form of a value. -/
def prepare (v : Value) : Except Error Value := prepareBy .ofAny v

theorem prepare_str (s : String) : prepare (str s) = .ok (str s) := by
  rw [prepare, prepareBy] <;> nofun

theorem prepare_list (items : List Value) :
    prepare (list items) = do return list (← items.mapM prepare) := by
  rw [prepare, prepareBy, prepareItemsBy_eq_mapM]
  rfl

mutual

/-- Whether a value has its stored form: no record, set or address at any depth outside of
keys. -/
def isStorable : Value → Bool
  | list items | tuple items => areStorable items
  | doc entries => entriesStorable entries
  | set _ | record .. | url _ => false
  | _ => true

/-- Whether all items have their stored form. -/
def areStorable : List Value → Bool
  | [] => true
  | x :: xs => isStorable x && areStorable xs

/-- Whether the values of all entries have their stored form. -/
def entriesStorable : List (Value × Value) → Bool
  | [] => true
  | (_, v) :: es => isStorable v && entriesStorable es

end

end Value

end DocumentAccess
