import DocumentAccess.Proofs.Update.Paths
import DocumentAccess.Proofs.Value.Documents
import DocumentAccess.Query.Factory
import Mathlib.Data.List.Induction
import Mathlib.Data.List.Perm.Basic

/-!
# Where update documents put operations

A builder checks its operations by their own paths, and the update document
puts each of them under the name that its path is stored by. So what the
document does with them is decided by the stored names: **`buildUpdate_faithful_iff`**
says that each operation has an entry of its own, and that no two entries
overlap, exactly if the stored names of the operations do not overlap.

That is the case if paths are renamed in their first segments, different ones
to different names. Where a name that is not mapped is also the stored name of
another one, operations are lost or collide (**`buildUpdate_loses`**).
-/

namespace DocumentAccess

/-! ## Names that overlap -/

/-- Stored names overlap as their paths do; a name that is left out is only equal
    to itself. -/
def FieldName.Overlaps : FieldName → FieldName → Prop
  | some p, some q => DocumentAccess.Overlaps p q
  | none, none => True
  | _, _ => False

section Names

variable {m n : FieldName}

theorem FieldName.overlaps_refl (n : FieldName) : n.Overlaps n := by
  cases n with
  | none => trivial
  | some p => exact .refl p

theorem FieldName.Overlaps.symm (h : m.Overlaps n) : n.Overlaps m := by
  cases m with
  | none =>
      cases n with
      | none => exact h
      | some q => exact h
  | some p =>
      cases n with
      | none => exact h
      | some q => exact DocumentAccess.Overlaps.symm h

/-- Names are different keys if they do not overlap. -/
theorem FieldName.key_same (h : ¬ m.Overlaps n) : m.key.same n.key = false := by
  refine Bool.eq_false_iff.mpr fun hsame => h ?_
  rw [key_same_iff.mp hsame]
  exact overlaps_refl n

end Names

/-! ## Entries by operator -/

/-- The entries of one operator: its key, and the key and the operand of a field. -/
def operatorEntries (group : Value × Value) : List (Value × Value × Value) :=
  match group.2 with
  | .doc fields => fields.map (Prod.mk group.1)
  | _ => []

/-- The field entries of an update document. -/
def fieldEntries (d : Document) : List (Value × Value × Value) := d.flatMap operatorEntries

theorem fieldEntries_append (d e : Document) :
    fieldEntries (d ++ e) = fieldEntries d ++ fieldEntries e := List.flatMap_append

theorem fieldEntries_cons (g : Value × Value) (d : Document) :
    fieldEntries (g :: d) = operatorEntries g ++ fieldEntries d := List.flatMap_cons

/-- A document with operators for keys, each of them once. -/
structure KeyedByOperators (d : Document) : Prop where
  operator : ∀ g ∈ d, ∃ native, g.1 = .str native ∧ native.startsWith "$" = true
  distinct : d.Distinct

/-- A document that holds documents of fields under different operators. -/
structure ByOperator (d : Document) : Prop where
  operator : ∀ g ∈ d, ∃ native fields,
    g = (.str native, .doc fields) ∧ native.startsWith "$" = true
  distinct : d.Distinct

/-- An action in the store's own language: its operator, and what stands under the path of the
    field. -/
def UpdateAction.inStore : UpdateAction → String × Value
  | .set value => ("$set", value)
  | .unset => ("$unset", .str "")
  | .increment amount => ("$inc", amount)
  | .multiply factor => ("$mul", factor)
  | .min value => ("$min", value)
  | .max value => ("$max", value)
  | .push items => ("$push", .doc [(.str "$each", .list items)])
  | .pop position => ("$pop", position)
  | .pull target => ("$pull", target)

/-- What a recorded operation stands for in a document: operator, path and operand. -/
def UpdateOperation.entry (op : UpdateOperation) : Value × Value × Value :=
  (.str op.action.inStore.1, .str op.path, op.action.inStore.2)

/-- Documents are built in the store's language. -/
theorem UpdateAction.inStore_eq (a : UpdateAction) : a.inStore = (a.native, a.operand) := by
  cases a <;> rfl

theorem UpdateOperation.entry_eq (op : UpdateOperation) :
    op.entry = (.str op.action.native, .str op.path, op.action.operand) := by
  rw [entry, UpdateAction.inStore_eq]

theorem native_startsWith (a : UpdateAction) : a.native.startsWith "$" = true := by
  cases a <;> with_unfolding_all rfl

namespace ByOperator

variable {d front back fields : Document} {native : String}

/-- The fields of an operator can be replaced. -/
theorem replace (h : ByOperator (front ++ (.str native, .doc fields) :: back))
    (hnative : native.startsWith "$" = true) (fields' : Document) :
    ByOperator (front ++ (.str native, .doc fields') :: back) where
  operator g hg := by
    rcases List.mem_append.mp hg with hg | hg
    · exact h.operator g (List.mem_append_left _ hg)
    · rcases List.mem_cons.mp hg with rfl | hg
      · exact ⟨_, _, rfl, hnative⟩
      · exact h.operator g (List.mem_append_right _ (List.mem_cons_of_mem _ hg))
  distinct := h.distinct.replace _

/-- An operator that is new can be put behind the others. -/
theorem concat (h : ByOperator d) (hnative : native.startsWith "$" = true) (fields : Document)
    (hfresh : ∀ e ∈ d, e.1.same (.str native) = false) :
    ByOperator (d ++ [(.str native, .doc fields)]) where
  operator g hg := by
    rcases List.mem_append.mp hg with hg | hg
    · exact h.operator g hg
    · rw [List.mem_singleton.mp hg]
      exact ⟨_, _, rfl, hnative⟩
  distinct := h.distinct.concat hfresh _

/-- What stands under an operator is a document of fields. -/
theorem field?_doc (h : ByOperator d) {v : Value} (hfound : d.field? native = some v) :
    ∃ fields, v = .doc fields := by
  obtain ⟨front, back, rfl, -⟩ := Document.split_of_field? hfound
  obtain ⟨_, fields, hg, -⟩ := h.operator (.str native, v)
    (List.mem_append_right _ (List.mem_cons_self ..))
  exact ⟨fields, congrArg Prod.snd hg⟩

/-- Its keys are operators. -/
theorem keyed (h : ByOperator d) : KeyedByOperators d where
  operator g hg := by
    obtain ⟨native, fields, rfl, hnative⟩ := h.operator g hg
    exact ⟨native, rfl, hnative⟩
  distinct := h.distinct

end ByOperator

/-- An operation on a new path adds an entry, to its operator's or under that. -/
theorem place_entries {d : Document} (h : ByOperator d) (op : UpdateOperation)
    (hnew : ∀ e ∈ fieldEntries d, e.2.1.same (.str op.path) = false) :
    ByOperator (Update.place d op.action.native op.path op.action.operand)
      ∧ (fieldEntries (Update.place d op.action.native op.path op.action.operand)).Perm
        (fieldEntries d ++ [op.entry]) := by
  rw [Update.place]
  have hnative := native_startsWith op.action
  split
  case h_1 fields hfields =>
    obtain ⟨front, back, rfl, hinsert⟩ := Document.split_of_field? hfields
    have hlast : Document.insert fields (.str op.path) op.action.operand
        = fields ++ [(.str op.path, op.action.operand)] := by
      refine Document.insert_new fun e he => hnew (.str op.action.native, e) ?_
      rw [fieldEntries_append, fieldEntries_cons]
      exact List.mem_append_right _ (List.mem_append_left _ (List.mem_map_of_mem he))
    rw [hinsert, hlast, op.entry_eq]
    refine ⟨h.replace hnative _, ?_⟩
    rw [fieldEntries_append, fieldEntries_append, fieldEntries_cons, fieldEntries_cons,
      List.append_assoc]
    refine List.Perm.append_left _ ?_
    rw [operatorEntries, operatorEntries]
    show ((fields ++ [_]).map _ ++ _).Perm _
    rw [List.map_append, List.append_assoc, List.append_assoc]
    exact List.Perm.append_left _ List.perm_append_comm
  case h_2 hother =>
    have hnone : d.field? op.action.native = none := by
      cases hfound : d.field? op.action.native with
      | none => rfl
      | some v =>
          obtain ⟨fields, rfl⟩ := h.field?_doc hfound
          exact absurd hfound (hother fields)
    have hfresh := Document.field?_eq_none hnone
    rw [Document.insert_new hfresh]
    refine ⟨h.concat hnative _ hfresh, ?_⟩
    rw [fieldEntries_append, op.entry_eq]
    exact List.Perm.refl _

theorem Update.toDocument_concat (ops : List UpdateOperation) (op : UpdateOperation) :
    Update.toDocument ⟨ops ++ [op]⟩
      = place (Update.toDocument ⟨ops⟩) op.action.native op.path op.action.operand :=
  List.foldl_concat ..

/-- Operations on different paths have an entry each, under their operators. -/
theorem toDocument_entries {ops : List UpdateOperation}
    (h : ops.Pairwise fun a b => a.path ≠ b.path) :
    ByOperator (Update.toDocument ⟨ops⟩)
      ∧ (fieldEntries (Update.toDocument ⟨ops⟩)).Perm (ops.map UpdateOperation.entry) := by
  induction ops using List.reverseRecOn with
  | nil => exact ⟨⟨fun g hg => (nomatch hg), .nil⟩, .refl _⟩
  | append_singleton ops op ih =>
      obtain ⟨hops, -, hnew⟩ := List.pairwise_append.mp h
      obtain ⟨hdoc, hperm⟩ := ih hops
      obtain ⟨hplaced, hplacedPerm⟩ := place_entries hdoc op (by
        intro e he
        obtain ⟨o, ho, rfl⟩ := List.mem_map.mp (hperm.mem_iff.mp he)
        exact Value.same_str_of_ne (hnew o ho op (List.mem_singleton_self _)))
      rw [Update.toDocument_concat, List.map_append]
      exact ⟨hplaced, hplacedPerm.trans (hperm.append_right _)⟩

/-! ## Stored entries -/

namespace Resolver

variable (r : Resolver)

/-- The name that a path is stored by in an update document; a path that starts
    with a dollar sign is taken for an operator and left as it is. -/
def storageName (path : String) : FieldName :=
  if path.startsWith "$" then some path else r.resolveField path

/-- The stored form of an entry: an operator's document is resolved in turn, and
    a field gets its stored name and value. -/
def storedEntry (e : Value × Value) : Except Error (Value × Value) := do
  let name ← e.1.asStart
  if name.startsWith "$" then
    return (e.1, ← r.resolveObject e.2)
  else
    return ((r.resolveField name).key, ← r.storeEntry name e.2)

variable {r} {name : String} {key : Value}

theorem storedEntry_of_marked (hname : key.asStart = .ok name) (h : name.startsWith "$" = true)
    (v : Value) : r.storedEntry (key, v) = (r.resolveObject v).map (Prod.mk key) := by
  rw [storedEntry, hname]
  show (if name.startsWith "$" then _ else _) = _
  rw [if_pos h]
  cases r.resolveObject v <;> rfl

theorem storedEntry_of_plain (hname : key.asStart = .ok name) (h : ¬ name.startsWith "$" = true)
    (v : Value) :
    r.storedEntry (key, v) = (r.storeEntry name v).map (Prod.mk (r.resolveField name).key) := by
  rw [storedEntry, hname]
  show (if name.startsWith "$" then _ else _) = _
  rw [if_neg h]
  cases r.storeEntry name v <;> rfl

/-- Entries are stored one by one, and set in turn. -/
theorem resolveEntries_eq (r : Resolver) (done : Document) (es : List (Value × Value)) :
    r.resolveEntries done es = (es.mapM r.storedEntry).map done.insertAll := by
  refine Document.walk_eq (fun _ => by rw [resolveEntries]) ?_ done es
  rintro done ⟨key, v⟩ es
  rw [resolveEntries]
  cases hname : key.asStart with
  | error e => rw [storedEntry, hname]; rfl
  | ok name =>
      show (if name.startsWith "$" then _ else _) = _
      split
      case isTrue hmarked =>
        rw [storedEntry_of_marked hname hmarked]
        cases r.resolveObject v <;> rfl
      case isFalse hplain =>
        rw [storedEntry_of_plain hname hplain]
        cases r.storeEntry name v <;> rfl

/-- A stored entry stands under the storage name of its path. -/
theorem storedEntry_key {path : String} {v : Value} {e : Value × Value}
    (h : r.storedEntry (.str path, v) = .ok e) : e.1 = (r.storageName path).key := by
  rw [storageName]
  split
  case isTrue hmarked =>
    rw [storedEntry_of_marked rfl hmarked] at h
    obtain ⟨w, -, rfl⟩ := map_eq_ok_iff.mp h
    rfl
  case isFalse hplain =>
    rw [storedEntry_of_plain rfl hplain] at h
    obtain ⟨w, -, rfl⟩ := map_eq_ok_iff.mp h
    rfl

/-- An operator's fields are stored one by one. -/
theorem storedEntry_group {native : String} (h : native.startsWith "$" = true) (fields : Document) :
    r.storedEntry (.str native, .doc fields)
      = (fields.mapM r.storedEntry).map fun es => (.str native, .doc (Document.ofList es)) := by
  rw [storedEntry_of_marked rfl h, resolveObject, resolveEntries_eq]
  cases fields.mapM r.storedEntry <;> rfl

/-- The value of a field is stored as a whole unless it is a document of operators. -/
theorem storeEntry_of_plain {v : Value}
    (h : ∀ d, v = .doc d → isOperatorDocument d = false) :
    r.storeEntry name v = r.storeValue name v := by
  cases v with
  | doc d => rw [storeEntry, if_neg (Bool.eq_false_iff.mp (h d rfl))]
  | _ => rfl

/-- A document that is keyed by operators stays so, and is stored entry by entry. -/
theorem resolveEntries_keyed {d d' : Document} (hd : KeyedByOperators d)
    (h : r.resolveEntries [] d = .ok d') :
    KeyedByOperators d' ∧ List.Forall₂ (fun g g' => r.storedEntry g = .ok g') d d' := by
  rw [resolveEntries_eq] at h
  obtain ⟨gs, hgs, hd'⟩ := map_eq_ok_iff.mp h
  have hstored : List.Forall₂ (fun g g' : Value × Value =>
      r.storedEntry g = .ok g' ∧ g'.1 = g.1) d gs := by
    refine ((List.forall₂_and_left d gs).mpr ⟨fun g hg => hg, mapM_eq_ok_iff.mp hgs⟩).imp ?_
    rintro ⟨key, v⟩ g' ⟨hmem, hg⟩
    obtain ⟨native, rfl, hnative⟩ := hd.operator _ hmem
    refine ⟨hg, ?_⟩
    rw [storedEntry_of_marked rfl hnative] at hg
    obtain ⟨w, -, rfl⟩ := map_eq_ok_iff.mp hg
    rfl
  have hkeys : Document.Distinct gs := by
    refine pairwise_of_forall₂ hstored hd.distinct ?_
    rintro a b c e ⟨-, hac⟩ ⟨-, hbe⟩ hab
    rwa [hac, hbe]
  obtain rfl : gs = d' := (Document.ofList_distinct hkeys).symm.trans hd'
  refine ⟨⟨fun g' hg' => ?_, hkeys⟩, hstored.imp fun _ _ hg => hg.1⟩
  obtain ⟨g, hg, -, hkey⟩ := exists_mem_of_forall₂ hstored hg'
  rw [hkey]
  exact hd.operator g hg

/-- Documents of fields under operators are stored as such. -/
theorem resolveEntries_byOperator {d d' : Document} (hd : ByOperator d)
    (h : r.resolveEntries [] d = .ok d') : ByOperator d' where
  operator g' hg' := by
    obtain ⟨g, hg, hstored⟩ := exists_mem_of_forall₂ (resolveEntries_keyed hd.keyed h).2 hg'
    obtain ⟨native, fields, rfl, hnative⟩ := hd.operator g hg
    rw [storedEntry_group hnative] at hstored
    obtain ⟨es, -, rfl⟩ := map_eq_ok_iff.mp hstored
    exact ⟨native, _, rfl, hnative⟩
  distinct := (resolveEntries_keyed hd.keyed h).1.distinct

end Resolver

/-! ## Entries that are kept apart -/

/-- Keys of fields whose names do not overlap. -/
def KeysApart (a b : Value) : Prop := ∃ m n : FieldName, a = m.key ∧ b = n.key ∧ ¬ m.Overlaps n

theorem KeysApart.symm {a b : Value} (h : KeysApart a b) : KeysApart b a := by
  obtain ⟨m, n, hm, hn, happart⟩ := h
  exact ⟨n, m, hn, hm, fun h => happart h.symm⟩

theorem KeysApart.same {a b : Value} (h : KeysApart a b) : a.same b = false := by
  obtain ⟨m, n, rfl, rfl, happart⟩ := h
  exact FieldName.key_same happart

namespace Resolver

variable (r : Resolver)

/-- An entry of a field under an operator, and the entry that it is stored as. -/
def Stores (a b : Value × Value × Value) : Prop := b.1 = a.1 ∧ r.storedEntry a.2 = .ok b.2

/-- Entries whose stored forms do not overlap. -/
def StoresApart (a b : Value × Value × Value) : Prop :=
  ∀ x y, r.storedEntry a.2 = .ok x → r.storedEntry b.2 = .ok y → KeysApart x.1 y.1

variable {r}

theorem StoresApart.symm {a b : Value × Value × Value} (h : r.StoresApart a b) :
    r.StoresApart b a := fun x y hx hy => (h y x hy hx).symm

theorem Stores.pairwise {es es' : List (Value × Value × Value)}
    (h : List.Forall₂ r.Stores es es') (hes : es.Pairwise r.StoresApart) :
    es'.Pairwise fun a b => KeysApart a.2.1 b.2.1 :=
  pairwise_of_forall₂ h hes fun _ _ c d hac hbd happart => happart c.2 d.2 hac.2 hbd.2

/-- Fields that are stored apart are all in the stored document of their operator. -/
theorem operatorEntries_stores {native : String} {fields : Document} {g : Value × Value}
    (hnative : native.startsWith "$" = true)
    (hg : r.storedEntry (.str native, .doc fields) = .ok g)
    (happart : (operatorEntries (.str native, .doc fields)).Pairwise r.StoresApart) :
    List.Forall₂ r.Stores (operatorEntries (.str native, .doc fields)) (operatorEntries g) := by
  rw [storedEntry_group hnative] at hg
  obtain ⟨es, hes, rfl⟩ := map_eq_ok_iff.mp hg
  have hstores : List.Forall₂ r.Stores (operatorEntries (.str native, .doc fields))
      (operatorEntries (.str native, .doc es)) := by
    rw [operatorEntries, operatorEntries, List.forall₂_map_left_iff, List.forall₂_map_right_iff]
    exact (mapM_eq_ok_iff.mp hes).imp fun a b hab => ⟨rfl, hab⟩
  have hdistinct : Document.Distinct es :=
    (List.pairwise_map.mp (Stores.pairwise hstores happart)).imp KeysApart.same
  rwa [Document.ofList_distinct hdistinct]

/-- Fields that are stored apart are all in the stored document, under their operators. -/
theorem resolveEntries_stores {d d' : Document} (hd : ByOperator d)
    (happart : (fieldEntries d).Pairwise r.StoresApart) (h : r.resolveEntries [] d = .ok d') :
    List.Forall₂ r.Stores (fieldEntries d) (fieldEntries d') := by
  obtain ⟨-, hstored⟩ := resolveEntries_keyed hd.keyed h
  refine List.rel_flatMap ((List.forall₂_and_left d d').mpr ⟨fun g hg => hg, hstored⟩) ?_
  rintro g g' ⟨hmem, hg⟩
  obtain ⟨native, fields, rfl, hnative⟩ := hd.operator g hmem
  exact operatorEntries_stores hnative hg ((List.pairwise_flatMap.mp happart).1 _ hmem)

/-! ## Faithful documents -/

variable (r) in
/-- An entry of an update document is that of an operation: under its operator and
    the storage name of its path, with its operand in stored form. -/
structure EntryOf (op : UpdateOperation) (e : Value × Value × Value) : Prop where
  operator : e.1 = .str op.action.inStore.1
  field : e.2.1 = (r.storageName op.path).key
  stored : r.storedEntry (.str op.path, op.action.inStore.2) = .ok e.2

variable (r) in
/-- A document does what the operations of a builder say: each operation has an
    entry and each entry is that of one operation, and no two entries overlap,
    whatever their operators. -/
structure Faithful (u : Update) (d : Document) : Prop where
  operators : ByOperator d
  entries : ∃ es, List.Forall₂ r.EntryOf u.operations es ∧ es.Perm (fieldEntries d)
  apart : (fieldEntries d).Pairwise fun a b => KeysApart a.2.1 b.2.1

/-- Operations on names that do not overlap are stored apart. -/
theorem storesApart_entry {a b : UpdateOperation}
    (h : ¬ (r.storageName a.path).Overlaps (r.storageName b.path)) :
    r.StoresApart a.entry b.entry := fun _ _ hx hy =>
  ⟨r.storageName a.path, r.storageName b.path, storedEntry_key hx, storedEntry_key hy, h⟩

/-- Names do not overlap where operations have entries apart. -/
theorem Faithful.names {u : Update} {d : Document} (h : r.Faithful u d) :
    u.operations.Pairwise fun a b =>
      ¬ (r.storageName a.path).Overlaps (r.storageName b.path) := by
  obtain ⟨es, hentries, hperm⟩ := h.entries
  have happart := (hperm.pairwise_iff KeysApart.symm).mpr h.apart
  refine pairwise_of_forall₂ hentries.flip happart ?_
  rintro x y a b ha hb ⟨m, n, hm, hn, happart⟩
  obtain rfl : m = _ := FieldName.key_inj.mp (hm.symm.trans ha.field)
  obtain rfl : n = _ := FieldName.key_inj.mp (hn.symm.trans hb.field)
  exact happart

/-- Operations on names that do not overlap have entries apart. -/
theorem faithful_of_names {u : Update} {d : Document}
    (hnames : u.operations.Pairwise fun a b =>
      ¬ (r.storageName a.path).Overlaps (r.storageName b.path))
    (h : r.resolveEntries [] u.toDocument = .ok d) : r.Faithful u d := by
  have hpaths : u.operations.Pairwise fun a b => a.path ≠ b.path :=
    hnames.imp fun {a b} happart heq => happart (by
      rw [heq]
      exact FieldName.overlaps_refl _)
  -- The document of the builder has its entries in another order.
  obtain ⟨hdoc, hperm⟩ := toDocument_entries hpaths
  have hentries : (u.operations.map UpdateOperation.entry).Pairwise r.StoresApart :=
    List.pairwise_map.mpr (hnames.imp storesApart_entry)
  have happart := (hperm.pairwise_iff StoresApart.symm).mpr hentries
  have hstores := resolveEntries_stores hdoc happart h
  obtain ⟨es, hes, hperm⟩ := List.perm_comp_forall₂ hperm.symm hstores
  refine ⟨resolveEntries_byOperator hdoc h, ⟨es, ?_, hperm⟩, Stores.pairwise hstores happart⟩
  exact (List.forall₂_map_left_iff.mp hes).imp fun op e he =>
    ⟨he.1, storedEntry_key he.2, he.2⟩

end Resolver

/-! ## Update documents -/

/-- Builders whose paths are renamed in their first segments keep their names apart. -/
theorem Update.Built.names {r : Resolver} {u : Update} (h : u.Built)
    (hplain : ∀ op ∈ u.operations, op.path.startsWith "$" = false)
    (hrenames : r.RenamesSegments (u.operations.map (·.path))) :
    u.operations.Pairwise fun a b =>
      ¬ (r.storageName a.path).Overlaps (r.storageName b.path) := by
  have hname : ∀ op ∈ u.operations, ∃ name, r.resolveField op.path = some name
      ∧ r.storageName op.path = some name := by
    intro op hop
    have hpath := List.mem_map_of_mem (f := UpdateOperation.path) hop
    obtain ⟨segment, hsegment, -⟩ := hrenames.plain op.path hpath
    obtain ⟨name, -, hname, -⟩ := r.resolveField_stem (hrenames.whole op.path hpath) hsegment
    refine ⟨name, hname, ?_⟩
    rw [Resolver.storageName, hplain op hop]
    exact hname
  -- Stored names that overlap come from paths that do.
  refine h.apart.imp_of_mem fun {a b} ha hb happart hoverlaps => happart ?_
  obtain ⟨p, hp, hp'⟩ := hname a ha
  obtain ⟨q, hq, hq'⟩ := hname b hb
  rw [hp', hq'] at hoverlaps
  have ha' := List.mem_map_of_mem (f := UpdateOperation.path) ha
  have hb' := List.mem_map_of_mem (f := UpdateOperation.path) hb
  rw [overlaps_iff]
  exact (overlaps_iff.mp hoverlaps).imp (hrenames.covers ha' hb' hp hq)
    (hrenames.covers hb' ha' hq hp)

/-- **The update document of a builder is faithful exactly if the storage names of
    its operations do not overlap**: then each operation has one entry, under its
    operator and its storage name, and no two entries overlap. Paths that are
    renamed in their first segments, different ones to different names, stay
    apart; a name that two paths share is not noticed. -/
theorem QueryFactory.buildUpdate_faithful_iff {f : QueryFactory} {u : Update} {v : Value}
    (h : f.buildUpdate (.builder u) = .ok v) :
    ∃ d, v = .doc d
      ∧ (f.resolver.Faithful u d ↔ u.operations.Pairwise fun a b =>
        ¬ (f.resolver.storageName a.path).Overlaps (f.resolver.storageName b.path))
      ∧ (u.Built → (∀ op ∈ u.operations, op.path.startsWith "$" = false) →
        f.resolver.RenamesSegments (u.operations.map (·.path)) → f.resolver.Faithful u d) := by
  have hresolve : f.resolver.resolveObject (.doc u.toDocument) = .ok v := h
  rw [Resolver.resolveObject] at hresolve
  obtain ⟨d, hd, heq⟩ := bind_eq_ok_iff.mp hresolve
  refine ⟨d, (Except.ok.inj heq).symm, ⟨Resolver.Faithful.names, ?_⟩, ?_⟩
  · exact fun hnames => Resolver.faithful_of_names hnames hd
  · exact fun hbuilt hplain hrenames =>
      Resolver.faithful_of_names (hbuilt.names hplain hrenames) hd

/-- A factory that stores one field under another name. -/
def QueryFactory.camelCased : QueryFactory :=
  ⟨.ofMappings [⟨"created_at", some "createdAt", none⟩], .standard⟩

/-- Calls of four kinds, two of them of one kind. -/
theorem QueryFactory.buildUpdate_faithful_iff_camelCased :
    let calls : List UpdateRequest := [⟨.set, .name "created_at", [.int 1]⟩,
      ⟨.unset, .name "address.city", []⟩, ⟨.decrement, .name "visits", [.int 2]⟩,
      ⟨.push, .name "tags", [.str "a", .str "b"]⟩, ⟨.set, .name "name", [.str "Ann"]⟩]
    let d : Document := [(.str "$set", .ofFields [("createdAt", .int 1), ("name", .str "Ann")]),
      (.str "$unset", .ofFields [("address.city", .str "")]),
      (.str "$inc", .ofFields [("visits", .int (-2))]),
      (.str "$push", .ofFields [("tags", .ofFields [("$each", .list [.str "a", .str "b"])])])]
    ∃ u, Update.empty.carryOutAll calls = (.ok (), u)
      ∧ camelCased.buildUpdate (.builder u) = .ok (.doc d) ∧ camelCased.resolver.Faithful u d := by
  intro calls d
  let u : Update := ⟨[⟨"created_at", .set (.int 1)⟩, ⟨"address.city", .unset⟩,
    ⟨"visits", .increment (.int (-2))⟩, ⟨"tags", .push [.str "a", .str "b"]⟩,
    ⟨"name", .set (.str "Ann")⟩]⟩
  have hops : List.Forall₂ (fun r op => r.operation = .ok op) calls u.operations := by
    refine .cons ?_ (.cons ?_ (.cons ?_ (.cons ?_ (.cons ?_ .nil)))) <;> with_unfolding_all rfl
  have hcalls : Update.empty.carryOutAll calls = (.ok (), u) :=
    (Update.carryOutAll_eq_ok_iff .nil).mpr ⟨u.operations, hops, by decide +kernel, rfl⟩
  have hbuild : camelCased.buildUpdate (.builder u) = .ok (.doc d) := by with_unfolding_all rfl
  obtain ⟨_, ⟨⟩, -, hfaithful⟩ := buildUpdate_faithful_iff hbuild
  refine ⟨u, hcalls, hbuild, hfaithful (.carryOutAll .empty hcalls) (by decide +kernel) ?_⟩
  constructor
  case whole =>
    intro p hp hdotted
    have hcity : ∀ q ∈ u.operations.map (·.path), '.' ∈ q.toList → q = "address.city" := by
      decide +kernel
    obtain rfl := hcity p hp hdotted
    rfl
  case plain =>
    intro p hp
    have hsegments : ∀ q ∈ u.operations.map (·.path),
        (camelCased.resolver.segmentName (stem q)).any fun name => '.' ∉ name.toList := by
      decide +kernel
    obtain ⟨name, hname, hplain⟩ := (Option.any_eq_true _ _).mp (hsegments p hp)
    exact ⟨name, hname, of_decide_eq_true hplain⟩
  case distinct => decide +kernel

/-- A write is lost: the field that is mapped and the field that has its stored
    name are both set, and the document sets one field, to the later value. -/
theorem QueryFactory.buildUpdate_loses :
    ∃ u : Update, u.Built
      ∧ u.operations = [⟨"created_at", .set (.int 1)⟩, ⟨"createdAt", .set (.int 2)⟩]
      ∧ camelCased.buildUpdate (.builder u)
        = .ok (.ofFields [("$set", .ofFields [("createdAt", .int 2)])])
      ∧ ¬ camelCased.resolver.Faithful u [(.str "$set", .ofFields [("createdAt", .int 2)])] := by
  let calls : List UpdateRequest :=
    [⟨.set, .name "created_at", [.int 1]⟩, ⟨.set, .name "createdAt", [.int 2]⟩]
  let u : Update := ⟨[⟨"created_at", .set (.int 1)⟩, ⟨"createdAt", .set (.int 2)⟩]⟩
  have hops : List.Forall₂ (fun r op => r.operation = .ok op) calls u.operations := by
    refine .cons ?_ (.cons ?_ .nil) <;> with_unfolding_all rfl
  have hcalls : Update.empty.carryOutAll calls = (.ok (), u) :=
    (Update.carryOutAll_eq_ok_iff .nil).mpr ⟨u.operations, hops, by decide +kernel, rfl⟩
  refine ⟨_, .carryOutAll .empty hcalls, rfl, by with_unfolding_all rfl, fun h => ?_⟩
  obtain ⟨es, hentries, hperm⟩ := h.entries
  exact absurd (hentries.length_eq.trans hperm.length_eq) (by decide)

end DocumentAccess
