import DocumentAccess.Proofs.Outcome
import DocumentAccess.Proofs.Value.Documents
import DocumentAccess.Value.Storage

/-!
# The stored form of a value

Preparing a value alternates between two conversions of records and a walk of its own.
The direct way to the stored form is one recursion over the value (`Value.stored`), which
converts whatever it meets.

Writing records out, of whatever kind and at whatever depth, does not change where the
direct way leads (`Value.WrittenOut.stored_eq`). So preparing leads there as well if it
leads anywhere, in whatever way the models dump themselves
(**`Value.prepareBy_normalizes`**). It does so unless a frozen record is in the place of a
key, or of a member of a set, where a conversion goes that would write it out
(`Value.isPreparable`). Keys that no conversion goes into stay as they are, a frozen record
among them too (**`Value.prepare_frozen`**).
-/

namespace DocumentAccess

/-! ## Entries that are set in turn -/

namespace Document

variable {d es : Document} (p q : Value → Prop) {key v : Value}

theorem forall_mem_insert (hd : ∀ e ∈ d, p e.1 ∧ q e.2) (hkey : p key) (hv : q v) :
    ∀ e ∈ d.insert key v, p e.1 ∧ q e.2 := by
  rcases insert_cases d key v with ⟨front, key', w, back, rfl, hinsert⟩ | ⟨-, hinsert⟩
  · rw [List.forall_mem_append, List.forall_mem_cons] at hd
    rw [hinsert, List.forall_mem_append, List.forall_mem_cons]
    exact ⟨hd.1, ⟨hd.2.1.1, hv⟩, hd.2.2⟩
  · rw [hinsert, List.forall_mem_append, List.forall_mem_singleton]
    exact ⟨hd, hkey, hv⟩

theorem forall_mem_insertAll (hd : ∀ e ∈ d, p e.1 ∧ q e.2) (hes : ∀ e ∈ es, p e.1 ∧ q e.2) :
    ∀ e ∈ d.insertAll es, p e.1 ∧ q e.2 := by
  induction es generalizing d with
  | nil => exact hd
  | cons e es ih =>
      obtain ⟨hfirst, hrest⟩ := List.forall_mem_cons.mp hes
      exact ih (forall_mem_insert p q hd hfirst.1 hfirst.2) hrest

/-- What holds of all keys and of all values of some entries holds of those of their document. -/
theorem forall_mem_ofList (h : ∀ e ∈ es, p e.1 ∧ q e.2) : ∀ e ∈ ofList es, p e.1 ∧ q e.2 :=
  forall_mem_insertAll p q (List.forall_mem_nil _) h

variable (f : Value → Value)

theorem insert_mapValues (d : Document) (key v : Value) :
    Document.insert (d.map fun e => (e.1, f e.2)) key (f v)
      = (d.insert key v).map fun e => (e.1, f e.2) := by
  induction d with
  | nil => rfl
  | cons e d ih =>
      rw [List.map_cons, insert, insert]
      split
      · rfl
      · rw [ih]
        rfl

theorem insertAll_mapValues (d es : Document) :
    Document.insertAll (d.map fun e => (e.1, f e.2)) (es.map fun e => (e.1, f e.2))
      = (d.insertAll es).map fun e => (e.1, f e.2) := by
  induction es generalizing d with
  | nil => rfl
  | cons e es ih => rw [List.map_cons, insertAll_cons, insertAll_cons, insert_mapValues, ih]

/-- Values can be converted before they are set or after. -/
theorem ofList_mapValues (es : Document) :
    ofList (es.map fun e => (e.1, f e.2)) = (ofList es).map fun e => (e.1, f e.2) :=
  insertAll_mapValues f [] es

end Document

namespace Value

/-! ## The direct way -/

mutual

/-- The stored form of a value, by one recursion over the value. -/
def stored : Value → Value
  | list items => list (storedItems items)
  | tuple items => tuple (storedItems items)
  | set items => list (storedItems items)
  | doc entries => doc (storedEntries entries)
  | record type fields => doc (Document.ofList (storedFields type.kind fields))
  | url text => str text
  | v => v

def storedItems : List Value → List Value
  | [] => []
  | x :: xs => stored x :: storedItems xs

def storedEntries : List (Value × Value) → List (Value × Value)
  | [] => []
  | (k, v) :: es => (k, stored v) :: storedEntries es

def storedFields (kind : RecordKind) : List (FieldLabel × Value) → List (Value × Value)
  | [] => []
  | (l, v) :: fs => (str (kind.keyOf l), stored v) :: storedFields kind fs

end

theorem storedEntries_eq_map (entries : List (Value × Value)) :
    storedEntries entries = entries.map fun e => (e.1, e.2.stored) := by
  induction entries with
  | nil => rfl
  | cons e es ih => rw [storedEntries, ih, List.map_cons]

theorem storedEntries_ofList (es : List (Value × Value)) :
    storedEntries (Document.ofList es) = Document.ofList (storedEntries es) := by
  rw [storedEntries_eq_map, storedEntries_eq_map, Document.ofList_mapValues]

/-! ## Keys -/

mutual

/-- Whether the keys of all documents in a value, at any depth, satisfy a condition. -/
def keysSatisfy (p : Value → Bool) : Value → Bool
  | list items | tuple items | set items => keysOfItemsSatisfy p items
  | doc entries => keysOfEntriesSatisfy p entries
  | record _ fields => keysOfFieldsSatisfy p fields
  | _ => true

def keysOfItemsSatisfy (p : Value → Bool) : List Value → Bool
  | [] => true
  | x :: xs => keysSatisfy p x && keysOfItemsSatisfy p xs

def keysOfEntriesSatisfy (p : Value → Bool) : List (Value × Value) → Bool
  | [] => true
  | (k, v) :: es => p k && keysSatisfy p v && keysOfEntriesSatisfy p es

def keysOfFieldsSatisfy (p : Value → Bool) : List (FieldLabel × Value) → Bool
  | [] => true
  | (_, v) :: fs => keysSatisfy p v && keysOfFieldsSatisfy p fs

end

variable {v w : Value} {p : Value → Bool} {es : List (Value × Value)}

theorem keysOfEntriesSatisfy_iff : keysOfEntriesSatisfy p es = true
    ↔ ∀ e ∈ es, p e.1 = true ∧ e.2.keysSatisfy p = true := by
  induction es with
  | nil => exact ⟨fun _ => List.forall_mem_nil _, fun _ => rfl⟩
  | cons e es ih =>
      rw [keysOfEntriesSatisfy, Bool.and_eq_true, Bool.and_eq_true, ih, List.forall_mem_cons]

theorem keysOfEntriesSatisfy_ofList (h : keysOfEntriesSatisfy p es = true) :
    keysOfEntriesSatisfy p (Document.ofList es) = true :=
  keysOfEntriesSatisfy_iff.mpr <|
    Document.forall_mem_ofList (p · = true) (keysSatisfy p · = true) (keysOfEntriesSatisfy_iff.mp h)

mutual

/-- The direct way makes no new keys but texts. -/
theorem keysSatisfy_stored (htext : ∀ s, p (str s) = true) :
    ∀ v : Value, v.keysSatisfy p = true → v.stored.keysSatisfy p = true
  | list items, h => keysSatisfy_storedItems htext items h
  | tuple items, h => keysSatisfy_storedItems htext items h
  | set items, h => keysSatisfy_storedItems htext items h
  | doc entries, h => keysSatisfy_storedEntries htext entries h
  | record type fields, h =>
      keysOfEntriesSatisfy_ofList (keysSatisfy_storedFields htext type.kind fields h)
  | null, _ | bool _, _ | int _, _ | float _, _ | str _, _ | bytes _, _ | objectId _, _
  | moment _, _ | url _, _ | session _, _ => rfl

theorem keysSatisfy_storedItems (htext : ∀ s, p (str s) = true) : ∀ items : List Value,
    keysOfItemsSatisfy p items = true → keysOfItemsSatisfy p (storedItems items) = true
  | [], _ => rfl
  | x :: xs, h => by
      rw [keysOfItemsSatisfy, Bool.and_eq_true] at h
      rw [storedItems, keysOfItemsSatisfy, Bool.and_eq_true]
      exact ⟨keysSatisfy_stored htext x h.1, keysSatisfy_storedItems htext xs h.2⟩

theorem keysSatisfy_storedEntries (htext : ∀ s, p (str s) = true) :
    ∀ entries : List (Value × Value), keysOfEntriesSatisfy p entries = true →
      keysOfEntriesSatisfy p (storedEntries entries) = true
  | [], _ => rfl
  | (k, v) :: es, h => by
      rw [keysOfEntriesSatisfy, Bool.and_eq_true, Bool.and_eq_true] at h
      rw [storedEntries, keysOfEntriesSatisfy, Bool.and_eq_true, Bool.and_eq_true]
      exact ⟨⟨h.1.1, keysSatisfy_stored htext v h.1.2⟩, keysSatisfy_storedEntries htext es h.2⟩

theorem keysSatisfy_storedFields (htext : ∀ s, p (str s) = true) (kind : RecordKind) :
    ∀ fields : List (FieldLabel × Value),
      keysOfFieldsSatisfy p fields = true → keysOfEntriesSatisfy p (storedFields kind fields) = true
  | [], _ => rfl
  | (l, v) :: fs, h => by
      rw [keysOfFieldsSatisfy, Bool.and_eq_true] at h
      rw [storedFields, keysOfEntriesSatisfy, Bool.and_eq_true, Bool.and_eq_true]
      exact ⟨⟨htext _, keysSatisfy_stored htext v h.1⟩, keysSatisfy_storedFields htext kind fs h.2⟩

end

/-! ## Normal forms -/

theorem entriesStorable_iff : entriesStorable es = true ↔ ∀ e ∈ es, e.2.isStorable = true := by
  induction es with
  | nil => exact ⟨fun _ => List.forall_mem_nil _, fun _ => rfl⟩
  | cons e es ih => rw [entriesStorable, Bool.and_eq_true, ih, List.forall_mem_cons]

theorem entriesStorable_ofList (h : entriesStorable es = true) :
    entriesStorable (Document.ofList es) = true := by
  have hentries : ∀ e ∈ es, True ∧ e.2.isStorable = true :=
    fun e he => ⟨trivial, entriesStorable_iff.mp h e he⟩
  exact entriesStorable_iff.mpr fun e he =>
    (Document.forall_mem_ofList (fun _ => True) (isStorable · = true) hentries e he).2

mutual

/-- The direct way leaves nothing to convert. -/
theorem isStorable_stored : ∀ v : Value, v.stored.isStorable = true
  | list items => areStorable_storedItems items
  | tuple items => areStorable_storedItems items
  | set items => areStorable_storedItems items
  | doc entries => entriesStorable_storedEntries entries
  | record type fields => entriesStorable_ofList (entriesStorable_storedFields type.kind fields)
  | null | bool _ | int _ | float _ | str _ | bytes _ | objectId _ | moment _ | url _
  | session _ => rfl

theorem areStorable_storedItems : ∀ items : List Value, areStorable (storedItems items) = true
  | [] => rfl
  | x :: xs => by
      rw [storedItems, areStorable, isStorable_stored x, areStorable_storedItems xs]
      rfl

theorem entriesStorable_storedEntries : ∀ entries : List (Value × Value),
    entriesStorable (storedEntries entries) = true
  | [] => rfl
  | (k, v) :: es => by
      rw [storedEntries, entriesStorable, isStorable_stored v, entriesStorable_storedEntries es]
      rfl

theorem entriesStorable_storedFields (kind : RecordKind) : ∀ fields : List (FieldLabel × Value),
    entriesStorable (storedFields kind fields) = true
  | [] => rfl
  | (l, v) :: fs => by
      rw [storedFields, entriesStorable, isStorable_stored v, entriesStorable_storedFields kind fs]
      rfl

end

mutual

/-- Where nothing is left to convert, the direct way changes nothing. -/
theorem stored_eq_self : ∀ v : Value, v.isStorable = true → v.stored = v
  | list items, h => by rw [stored, storedItems_eq_self items h]
  | tuple items, h => by rw [stored, storedItems_eq_self items h]
  | doc entries, h => by rw [stored, storedEntries_eq_self entries h]
  | null, _ | bool _, _ | int _, _ | float _, _ | str _, _ | bytes _, _ | objectId _, _
  | moment _, _ | session _, _ => rfl

theorem storedItems_eq_self : ∀ items : List Value,
    areStorable items = true → storedItems items = items
  | [], _ => rfl
  | x :: xs, h => by
      rw [areStorable, Bool.and_eq_true] at h
      rw [storedItems, stored_eq_self x h.1, storedItems_eq_self xs h.2]

theorem storedEntries_eq_self : ∀ entries : List (Value × Value),
    entriesStorable entries = true → storedEntries entries = entries
  | [], _ => rfl
  | (k, v) :: es, h => by
      rw [entriesStorable, Bool.and_eq_true] at h
      rw [storedEntries, stored_eq_self v h.1, storedEntries_eq_self es h.2]

end

/-! ## Records that are written out -/

mutual

/-- Writing records out does not change where the direct way leads. -/
theorem WrittenOut.stored_eq : ∀ {v w : Value}, WrittenOut v w → w.stored = v.stored
  | _, _, .same v => rfl
  | _, _, .list items => congrArg Value.list items.stored_eq
  | _, _, .tuple items => congrArg Value.tuple items.stored_eq
  | _, _, .doc entries => congrArg Value.doc entries.stored_eq
  | _, _, .record entries => by
      rw [stored, storedEntries_ofList, entries.stored_eq]
      rfl

theorem WrittenOutItems.stored_eq : ∀ {xs ys : List Value}, WrittenOutItems xs ys →
    storedItems ys = storedItems xs
  | _, _, .nil => rfl
  | _, _, .cons first rest => by
      rw [storedItems, storedItems, first.stored_eq, rest.stored_eq]

theorem WrittenOutEntries.stored_eq : ∀ {es fs : List (Value × Value)}, WrittenOutEntries es fs →
    storedEntries fs = storedEntries es
  | _, _, .nil => rfl
  | _, _, .cons k first rest => by
      rw [storedEntries, storedEntries, first.stored_eq, rest.stored_eq]

theorem WrittenOutFields.stored_eq : ∀ {kind : RecordKind} {fields : List (FieldLabel × Value)}
    {es : List (Value × Value)}, WrittenOutFields kind fields es →
    storedEntries es = storedFields kind fields
  | _, _, _, .nil _ => rfl
  | _, _, _, .cons _ first rest => by
      rw [storedEntries, storedFields, first.stored_eq, rest.stored_eq]

end

/-! ## What is prepared -/

variable (d : ModelDump)

mutual

/-- Preparing leads where the direct way leads, if it leads anywhere. The recursion is that of
    preparing, over the weight of the value. -/
theorem prepareBy_eq_stored :
    ∀ {v w : Value}, prepareBy d v = .ok w → w = v.stored
  | record type fields, w, h => by
      rw [prepareBy] at h
      split at h
      case h_1 es hentries =>
        have hout := writtenOut_entriesBy d hentries
        have := hout.weight_lt
        rw [prepareBy_eq_stored h, (WrittenOut.record hout).stored_eq]
      case h_2 => exact nomatch h
  | doc entries, w, h => by
      rw [prepareBy] at h
      obtain ⟨es, hentries, h⟩ := bind_eq_ok_iff.mp h
      obtain rfl := Except.ok.inj h
      rw [prepareEntriesBy_eq_stored hentries, stored]
  | list items, w, h => by
      rw [prepareBy] at h
      obtain ⟨xs, hitems, h⟩ := bind_eq_ok_iff.mp h
      obtain rfl := Except.ok.inj h
      rw [prepareItemsBy_eq_stored hitems, stored]
  | tuple items, w, h => by
      rw [prepareBy] at h
      obtain ⟨xs, hitems, h⟩ := bind_eq_ok_iff.mp h
      obtain rfl := Except.ok.inj h
      rw [prepareItemsBy_eq_stored hitems, stored]
  | set items, w, h => by
      rw [prepareBy] at h
      obtain ⟨xs, hitems, h⟩ := bind_eq_ok_iff.mp h
      obtain rfl := Except.ok.inj h
      rw [prepareItemsBy_eq_stored hitems, stored]
  | null, w, h | bool _, w, h | int _, w, h | float _, w, h | str _, w, h | bytes _, w, h
  | objectId _, w, h | moment _, w, h | url _, w, h | session _, w, h => by
      simp only [prepareBy] at h
      exact (Except.ok.inj h).symm
termination_by v => v.weight
decreasing_by all_goals simp only [weight] at *; omega

theorem prepareItemsBy_eq_stored : ∀ {items ys : List Value},
    prepareItemsBy d items = .ok ys → ys = storedItems items
  | [], ys, h => by
      rw [prepareItemsBy] at h
      exact (Except.ok.inj h).symm
  | x :: xs, ys, h => by
      rw [prepareItemsBy] at h
      obtain ⟨y, hx, h⟩ := bind_eq_ok_iff.mp h
      obtain ⟨zs, hxs, h⟩ := bind_eq_ok_iff.mp h
      obtain rfl := Except.ok.inj h
      rw [prepareBy_eq_stored hx, prepareItemsBy_eq_stored hxs, storedItems]
termination_by items => weightOfItems items
decreasing_by all_goals simp only [weightOfItems]; omega

theorem prepareEntriesBy_eq_stored : ∀ {entries es : List (Value × Value)},
    prepareEntriesBy d entries = .ok es → es = storedEntries entries
  | [], es, h => by
      rw [prepareEntriesBy] at h
      exact (Except.ok.inj h).symm
  | (k, v) :: rest, es, h => by
      rw [prepareEntriesBy] at h
      obtain ⟨w, hv, h⟩ := bind_eq_ok_iff.mp h
      obtain ⟨fs, hrest, h⟩ := bind_eq_ok_iff.mp h
      obtain rfl := Except.ok.inj h
      rw [prepareBy_eq_stored hv, prepareEntriesBy_eq_stored hrest, storedEntries]
termination_by entries => weightOfEntries entries
decreasing_by all_goals simp only [weightOfEntries]; omega

end

end Value

/-! ## What can be written out -/

namespace Reach

/-- The furthest that the dump of a model reaches: a field whose keys are records of a known
    type has these written out as well. -/
def everything : Reach := ⟨fun _ => true, true, true⟩

/-- The furthest that the conversion of a record reaches. -/
def ofKind : RecordKind → Reach
  | .plain => plainRecords
  | .model => everything

/-- A reach goes no further than another one. -/
structure Within (r t : Reach) : Prop where
  records : ∀ kind, r.records kind = true → t.records kind = true
  sets : r.sets = true → t.sets = true
  keys : r.keys = true → t.keys = true

theorem Within.refl (r : Reach) : r.Within r := ⟨fun _ => id, id, id⟩

theorem allRecords_within : allRecords.Within everything :=
  ⟨fun _ => id, id, fun _ => rfl⟩

end Reach

namespace Value

mutual

/-- Whether a key has no record in reach, in itself or in the items of a tuple. -/
def isSettled (r : Reach) : Value → Bool
  | tuple items => areSettled r items
  | record type _ => !r.records type.kind
  | _ => true

/-- Whether none of some keys has a record in reach. -/
def areSettled (r : Reach) : List Value → Bool
  | [] => true
  | x :: xs => isSettled r x && areSettled r xs

end

/-- Whether a value is a key that a conversion leaves as it is. -/
def isKept (r : Reach) (v : Value) : Bool := v.unhashable?.isNone && isSettled r v

mutual

/-- Whether the records in reach can be written out: those keys and those members of sets that
    the conversion goes into are kept. -/
def isWritable (r : Reach) : Value → Bool
  | list items | tuple items => areWritable r items
  | set items => !r.sets || items.all (isKept r)
  | doc entries => entriesWritable r entries
  | record type fields => !r.records type.kind || fieldsWritable r fields
  | _ => true

/-- Whether the records in reach can be written out of each of some items. -/
def areWritable (r : Reach) : List Value → Bool
  | [] => true
  | x :: xs => isWritable r x && areWritable r xs

/-- Whether the records in reach can be written out of some entries. -/
def entriesWritable (r : Reach) : List (Value × Value) → Bool
  | [] => true
  | (k, v) :: es =>
      k.unhashable?.isNone && (!r.keys || isSettled r k) && isWritable r v && entriesWritable r es

/-- Whether the records in reach can be written out of the fields of a record. -/
def fieldsWritable (r : Reach) : List (FieldLabel × Value) → Bool
  | [] => true
  | (_, v) :: fs => isWritable r v && fieldsWritable r fs

end

mutual

/-- Whether a value can be prepared: each record in it can be written out. -/
def isPreparable : Value → Bool
  | list items | tuple items | set items => arePreparable items
  | doc entries => entriesPreparable entries
  | record type fields => fieldsWritable (.ofKind type.kind) fields && fieldsPreparable fields
  | _ => true

/-- Whether each of some items can be prepared. -/
def arePreparable : List Value → Bool
  | [] => true
  | x :: xs => isPreparable x && arePreparable xs

/-- Whether the values of some entries can be prepared. -/
def entriesPreparable : List (Value × Value) → Bool
  | [] => true
  | (_, v) :: es => isPreparable v && entriesPreparable es

/-- Whether the fields of a record can be prepared. -/
def fieldsPreparable : List (FieldLabel × Value) → Bool
  | [] => true
  | (_, v) :: fs => isPreparable v && fieldsPreparable fs

end

variable {r t : Reach}

theorem asKey_of_hashable {v : Value} (h : v.unhashable? = none) : v.asKey = .ok v := by
  rw [asKey, h]

mutual

/-- A conversion leaves a key alone that has nothing in its reach. -/
theorem writeOut_of_settled (hr : r.Within t) : ∀ v : Value,
    v.unhashable? = none → isSettled t v = true → writeOut r v = .ok v
  | tuple items, hkey, h => by
      rw [writeOut, writeOutItems_of_settled hr items hkey h]
      rfl
  | record type fields, _, h => by
      have hkind : ¬ r.records type.kind = true := fun hkind => by
        rw [isSettled, hr.records _ hkind] at h
        exact nomatch h
      rw [writeOut, if_neg hkind]
  | null, _, _ | bool _, _, _ | int _, _, _ | float _, _, _ | str _, _, _ | bytes _, _, _
  | objectId _, _, _ | moment _, _, _ | url _, _, _ | session _, _, _ => by simp only [writeOut]

theorem writeOutItems_of_settled (hr : r.Within t) : ∀ items : List Value,
    unhashableItem? items = none → areSettled t items = true → writeOutItems r items = .ok items
  | [], _, _ => rfl
  | x :: xs, hkeys, h => by
      rw [areSettled, Bool.and_eq_true] at h
      obtain ⟨hkey, hkeys⟩ := unhashableItem?_cons_eq_none_iff.mp hkeys
      rw [writeOutItems, writeOut_of_settled hr x hkey h.1,
        writeOutItems_of_settled hr xs hkeys h.2]
      rfl

end

theorem writeOut_of_kept (hr : r.Within t) {v : Value} (h : isKept t v = true) :
    writeOut r v = .ok v ∧ v.asKey = .ok v := by
  rw [isKept, Bool.and_eq_true, Option.isNone_iff_eq_none] at h
  exact ⟨writeOut_of_settled hr v h.1 h.2, asKey_of_hashable h.1⟩

/-- A set whose members are kept is left alone. -/
theorem writeOut_set (hr : r.Within t) {items : List Value}
    (h : items.all (isKept t) = true) :
    writeOutItems r items = .ok items ∧ items.mapM asKey = .ok items := by
  induction items with
  | nil => exact ⟨rfl, rfl⟩
  | cons x xs ih =>
      rw [List.all_cons, Bool.and_eq_true] at h
      obtain ⟨hx, hkey⟩ := writeOut_of_kept hr h.1
      obtain ⟨hxs, hkeys⟩ := ih h.2
      rw [writeOutItems, hx, hxs, List.mapM_cons, hkey, hkeys]
      exact ⟨rfl, rfl⟩

mutual

/-- Records can be written out of what is writable. -/
theorem exists_writeOut (hr : r.Within t) :
    ∀ v : Value, isWritable t v = true → ∃ w, writeOut r v = .ok w
  | list items, h => exists_bind_ok (exists_writeOutItems hr items h) fun _ _ => ⟨_, rfl⟩
  | tuple items, h => exists_bind_ok (exists_writeOutItems hr items h) fun _ _ => ⟨_, rfl⟩
  | set items, h => by
      rw [writeOut]
      split
      case isTrue hsets =>
        rw [isWritable, hr.sets hsets] at h
        obtain ⟨hitems, hkeys⟩ := writeOut_set hr h
        refine ⟨set items, ?_⟩
        rw [hitems]
        show (do return set (← items.mapM asKey)) = Except.ok (set items)
        rw [hkeys]
        rfl
      case isFalse => exact ⟨_, rfl⟩
  | doc entries, h => exists_bind_ok (exists_writeOutEntries hr entries h) fun _ _ => ⟨_, rfl⟩
  | record type fields, h => by
      rw [writeOut]
      split
      case isTrue hkind =>
        rw [isWritable, hr.records _ hkind] at h
        exact exists_bind_ok (exists_writeOutFields hr type.kind fields h) fun _ _ => ⟨_, rfl⟩
      case isFalse => exact ⟨_, rfl⟩
  | null, _ | bool _, _ | int _, _ | float _, _ | str _, _ | bytes _, _ | objectId _, _
  | moment _, _ | url _, _ | session _, _ => by simp only [writeOut, Except.ok.injEq, exists_eq']

theorem exists_writeOutItems (hr : r.Within t) : ∀ items : List Value,
    areWritable t items = true → ∃ ys, writeOutItems r items = .ok ys
  | [], _ => ⟨_, rfl⟩
  | x :: xs, h => by
      rw [areWritable, Bool.and_eq_true] at h
      refine exists_bind_ok (exists_writeOut hr x h.1) fun _ _ => ?_
      exact exists_bind_ok (exists_writeOutItems hr xs h.2) fun _ _ => ⟨_, rfl⟩

theorem exists_writeOutEntries (hr : r.Within t) : ∀ entries : List (Value × Value),
    entriesWritable t entries = true → ∃ es, writeOutEntries r entries = .ok es
  | [], _ => ⟨_, rfl⟩
  | (k, v) :: rest, h => by
      simp only [entriesWritable, Bool.and_eq_true, Option.isNone_iff_eq_none] at h
      obtain ⟨⟨⟨hkey, hsettled⟩, hv⟩, hrest⟩ := h
      have hkept : (if r.keys then writeOut r k else .ok k) = Except.ok (ε := Error) k := by
        split
        case isTrue hkeys =>
          rw [hr.keys hkeys] at hsettled
          exact writeOut_of_settled hr k hkey hsettled
        case isFalse => rfl
      rw [writeOutEntries, hkept]
      refine exists_bind_ok ⟨k, rfl⟩ fun l hl => ?_
      obtain rfl := Except.ok.inj hl
      refine exists_bind_ok (exists_writeOut hr v hv) fun _ _ => ?_
      refine exists_bind_ok ⟨k, asKey_of_hashable hkey⟩ fun _ _ => ?_
      exact exists_bind_ok (exists_writeOutEntries hr rest hrest) fun _ _ => ⟨_, rfl⟩

theorem exists_writeOutFields (hr : r.Within t) (kind : RecordKind) :
    ∀ fields : List (FieldLabel × Value),
      fieldsWritable t fields = true → ∃ es, writeOutFields r kind fields = .ok es
  | [], _ => ⟨_, rfl⟩
  | (l, v) :: fs, h => by
      rw [fieldsWritable, Bool.and_eq_true] at h
      refine exists_bind_ok (exists_writeOut hr v h.1) fun _ _ => ?_
      exact exists_bind_ok (exists_writeOutFields hr kind fs h.2) fun _ _ => ⟨_, rfl⟩

end

end Value

/-- A dump that does not fail where everything in a model can be written out. -/
def ModelDump.IsTotal (d : ModelDump) : Prop :=
  ∀ fields, Value.fieldsWritable .everything fields = true → ∃ es, d.entries fields = .ok es

theorem ModelDump.isTotal_ofAny : ModelDump.ofAny.IsTotal :=
  Value.exists_writeOutFields Reach.allRecords_within .model

namespace Value

/-! ## What can be prepared -/

variable {es : List (Value × Value)}

theorem entriesPreparable_iff :
    entriesPreparable es = true ↔ ∀ e ∈ es, e.2.isPreparable = true := by
  induction es with
  | nil => exact ⟨fun _ => List.forall_mem_nil _, fun _ => rfl⟩
  | cons e es ih => rw [entriesPreparable, Bool.and_eq_true, ih, List.forall_mem_cons]

theorem entriesPreparable_ofList (h : entriesPreparable es = true) :
    entriesPreparable (Document.ofList es) = true := by
  have hentries : ∀ e ∈ es, True ∧ e.2.isPreparable = true :=
    fun e he => ⟨trivial, entriesPreparable_iff.mp h e he⟩
  exact entriesPreparable_iff.mpr fun e he =>
    (Document.forall_mem_ofList (fun _ => True) (isPreparable · = true) hentries e he).2

mutual

/-- What can be prepared still can when some records are written out. -/
theorem WrittenOut.isPreparable : ∀ {v w : Value}, WrittenOut v w →
    v.isPreparable = true → w.isPreparable = true
  | _, _, .same _, h => h
  | _, _, .list items, h => items.arePreparable h
  | _, _, .tuple items, h => items.arePreparable h
  | _, _, .doc entries, h => entries.entriesPreparable h
  | _, _, .record entries, h => by
      rw [Value.isPreparable, Bool.and_eq_true] at h
      exact entriesPreparable_ofList (entries.entriesPreparable h.2)

theorem WrittenOutItems.arePreparable : ∀ {xs ys : List Value}, WrittenOutItems xs ys →
    Value.arePreparable xs = true → Value.arePreparable ys = true
  | _, _, .nil, _ => rfl
  | _, _, .cons first rest, h => by
      rw [Value.arePreparable, Bool.and_eq_true] at h ⊢
      exact ⟨first.isPreparable h.1, rest.arePreparable h.2⟩

theorem WrittenOutEntries.entriesPreparable : ∀ {es fs : List (Value × Value)},
    WrittenOutEntries es fs → Value.entriesPreparable es = true →
    Value.entriesPreparable fs = true
  | _, _, .nil, _ => rfl
  | _, _, .cons _ first rest, h => by
      rw [Value.entriesPreparable, Bool.and_eq_true] at h ⊢
      exact ⟨first.isPreparable h.1, rest.entriesPreparable h.2⟩

theorem WrittenOutFields.entriesPreparable : ∀ {kind : RecordKind}
    {fields : List (FieldLabel × Value)} {es : List (Value × Value)},
    WrittenOutFields kind fields es → fieldsPreparable fields = true →
    Value.entriesPreparable es = true
  | _, _, _, .nil _, _ => rfl
  | _, _, _, .cons _ first rest, h => by
      rw [fieldsPreparable, Bool.and_eq_true] at h
      rw [Value.entriesPreparable, Bool.and_eq_true]
      exact ⟨first.isPreparable h.1, rest.entriesPreparable h.2⟩

end

variable {d : ModelDump}

theorem exists_entriesBy (hd : d.IsTotal) {kind : RecordKind} {fields : List (FieldLabel × Value)}
    (h : fieldsWritable (.ofKind kind) fields = true) : ∃ es, entriesBy d kind fields = .ok es :=
  match kind with
  | .plain => exists_writeOutFields (.refl _) .plain fields h
  | .model => hd fields h

theorem prepareBy_record {type : RecordType} {fields : List (FieldLabel × Value)}
    (h : entriesBy d type.kind fields = .ok es) :
    prepareBy d (record type fields) = prepareBy d (doc (Document.ofList es)) := by
  rw [prepareBy]
  split
  case h_1 es' hes' =>
    obtain rfl := Except.ok.inj (h.symm.trans hes')
    rfl
  case h_2 e he => exact nomatch h.symm.trans he

mutual

/-- What can be prepared is. -/
theorem exists_prepareBy (hd : d.IsTotal) :
    ∀ v : Value, v.isPreparable = true → ∃ w, prepareBy d v = .ok w
  | record type fields, h => by
      have hfields := h
      rw [isPreparable, Bool.and_eq_true] at hfields
      obtain ⟨es, hes⟩ := exists_entriesBy hd hfields.1
      have hout := writtenOut_entriesBy d hes
      have := hout.weight_lt
      rw [prepareBy_record hes]
      exact exists_prepareBy hd _ ((WrittenOut.record hout).isPreparable h)
  | doc entries, h => by
      rw [prepareBy]
      exact exists_bind_ok (exists_prepareEntriesBy hd entries h) fun _ _ => ⟨_, rfl⟩
  | list items, h => by
      rw [prepareBy]
      exact exists_bind_ok (exists_prepareItemsBy hd items h) fun _ _ => ⟨_, rfl⟩
  | tuple items, h => by
      rw [prepareBy]
      exact exists_bind_ok (exists_prepareItemsBy hd items h) fun _ _ => ⟨_, rfl⟩
  | set items, h => by
      rw [prepareBy]
      exact exists_bind_ok (exists_prepareItemsBy hd items h) fun _ _ => ⟨_, rfl⟩
  | null, _ | bool _, _ | int _, _ | float _, _ | str _, _ | bytes _, _ | objectId _, _
  | moment _, _ | url _, _ | session _, _ => by simp only [prepareBy, Except.ok.injEq, exists_eq']
termination_by v => v.weight
decreasing_by all_goals simp only [weight] at *; omega

theorem exists_prepareItemsBy (hd : d.IsTotal) : ∀ items : List Value,
    arePreparable items = true → ∃ ys, prepareItemsBy d items = .ok ys
  | [], _ => by simp only [prepareItemsBy, Except.ok.injEq, exists_eq']
  | x :: xs, h => by
      rw [arePreparable, Bool.and_eq_true] at h
      rw [prepareItemsBy]
      refine exists_bind_ok (exists_prepareBy hd x h.1) fun _ _ => ?_
      exact exists_bind_ok (exists_prepareItemsBy hd xs h.2) fun _ _ => ⟨_, rfl⟩
termination_by items => weightOfItems items
decreasing_by all_goals simp only [weightOfItems]; omega

theorem exists_prepareEntriesBy (hd : d.IsTotal) : ∀ entries : List (Value × Value),
    entriesPreparable entries = true → ∃ es, prepareEntriesBy d entries = .ok es
  | [], _ => by simp only [prepareEntriesBy, Except.ok.injEq, exists_eq']
  | (k, v) :: es, h => by
      rw [entriesPreparable, Bool.and_eq_true] at h
      rw [prepareEntriesBy]
      refine exists_bind_ok (exists_prepareBy hd v h.1) fun _ _ => ?_
      exact exists_bind_ok (exists_prepareEntriesBy hd es h.2) fun _ _ => ⟨_, rfl⟩
termination_by entries => weightOfEntries entries
decreasing_by all_goals simp only [weightOfEntries]; omega

end

mutual

/-- Where nothing is left to convert, preparing changes nothing. -/
theorem prepareBy_storable (d : ModelDump) :
    ∀ v : Value, v.isStorable = true → prepareBy d v = .ok v
  | list items, h => by
      rw [prepareBy, prepareItemsBy_storable d items h]
      rfl
  | tuple items, h => by
      rw [prepareBy, prepareItemsBy_storable d items h]
      rfl
  | doc entries, h => by
      rw [prepareBy, prepareEntriesBy_storable d entries h]
      rfl
  | null, _ | bool _, _ | int _, _ | float _, _ | str _, _ | bytes _, _ | objectId _, _
  | moment _, _ | session _, _ => by simp only [prepareBy]

theorem prepareItemsBy_storable (d : ModelDump) : ∀ items : List Value,
    areStorable items = true → prepareItemsBy d items = .ok items
  | [], _ => by rw [prepareItemsBy]
  | x :: xs, h => by
      rw [areStorable, Bool.and_eq_true] at h
      rw [prepareItemsBy, prepareBy_storable d x h.1, prepareItemsBy_storable d xs h.2]
      rfl

theorem prepareEntriesBy_storable (d : ModelDump) : ∀ entries : List (Value × Value),
    entriesStorable entries = true → prepareEntriesBy d entries = .ok entries
  | [], _ => by rw [prepareEntriesBy]
  | (k, v) :: es, h => by
      rw [entriesStorable, Bool.and_eq_true] at h
      rw [prepareEntriesBy, prepareBy_storable d v h.1, prepareEntriesBy_storable d es h.2]
      rfl

end

/-- **A VALUE THAT CAN BE PREPARED IS IN ITS STORED FORM THEN**, in whatever way models dump
    themselves. Preparing returns if no conversion goes into a key, or into a member of a set,
    that has a record in it. What it returns is what the direct way leads to: no record, set
    or address is left in it at any depth, and none in its keys, which stay as they are, if
    there was none. Preparing that again changes nothing, and neither does preparing a value
    with nothing to convert. -/
theorem prepareBy_normalizes (d : ModelDump) (v : Value) :
    (d.IsTotal → v.isPreparable = true → ∃ w, prepareBy d v = .ok w)
      ∧ (∀ w, prepareBy d v = .ok w →
        w = v.stored ∧ w.isStorable = true
          ∧ (v.keysSatisfy isStorable = true → w.keysSatisfy isStorable = true)
          ∧ prepareBy d w = .ok w)
      ∧ (v.isStorable = true → prepareBy d v = .ok v) := by
  refine ⟨fun hd => exists_prepareBy hd v, fun w hw => ?_, prepareBy_storable d v⟩
  obtain rfl := prepareBy_eq_stored d hw
  have hnormal := isStorable_stored v
  exact ⟨rfl, hnormal, keysSatisfy_stored (fun _ => rfl) v, prepareBy_storable d _ hnormal⟩

/-- A model in a plain record, with a plain record, a set and an address in it. -/
theorem prepareBy_normalizes_nested :
    let point : Value := .record ⟨.plain, "Point", false⟩
      [(⟨"x", none⟩, .int 1), (⟨"tags", none⟩, .set [.str "a"])]
    let profile : Value := .record ⟨.model, "Profile", false⟩ [(⟨"id", some "_id"⟩, .int 7),
      (⟨"points", none⟩, .tuple [point]), (⟨"home", none⟩, .url "https://example.com/")]
    let v : Value := .record ⟨.plain, "Entry", false⟩
      [(⟨"owner", none⟩, profile), (⟨"by", none⟩, .doc [(.tuple [.int 1], .list [profile])])]
    let stored : Value := .ofFields [("_id", .int 7),
      ("points", .tuple [.ofFields [("x", .int 1), ("tags", .list [.str "a"])]]),
      ("home", .str "https://example.com/")]
    v.isPreparable = true
      ∧ v.prepare
        = .ok (.ofFields
          [("owner", stored), ("by", .doc [(.tuple [.int 1], .list [stored])])]) := by
  intro point profile v stored
  have hv : v.isPreparable = true := rfl
  obtain ⟨hreturns, hreturned, -⟩ := prepareBy_normalizes .ofAny v
  obtain ⟨w, hw⟩ := hreturns ModelDump.isTotal_ofAny hv
  obtain ⟨rfl, -⟩ := hreturned w hw
  refine ⟨hv, hw.trans (congrArg Except.ok ?_)⟩
  with_unfolding_all rfl

/-- A frozen record can be a key, and stays one where no conversion goes, as an address does.
    In a plain record it cannot be prepared, and in a set of a model neither. -/
theorem prepare_frozen :
    let key : Value := .record ⟨.plain, "Key", true⟩ [(⟨"id", none⟩, .int 1)]
    let entry : Value := .record ⟨.plain, "Entry", false⟩
      [(⟨"by", none⟩, .doc [(key, .str "x")])]
    let profile : Value := .record ⟨.model, "Profile", false⟩ [(⟨"keys", none⟩, .set [key])]
    key.unhashable? = none
      ∧ prepare (.doc [(key, .str "x")]) = .ok (.doc [(key, .str "x")])
      ∧ prepare (.doc [(.url "https://example.com/", .int 1)])
        = .ok (.doc [(.url "https://example.com/", .int 1)])
      ∧ prepare entry = .error (.mismatch (.unhashable "dict"))
      ∧ prepare profile = .error (.mismatch (.unhashable "dict")) := by
  intro key entry profile
  refine ⟨rfl, prepareBy_storable _ _ rfl, prepareBy_storable _ _ rfl, ?_, ?_⟩
  · rw [prepare, prepareBy]
    rfl
  · rw [prepare, prepareBy]
    rfl

end Value

end DocumentAccess
