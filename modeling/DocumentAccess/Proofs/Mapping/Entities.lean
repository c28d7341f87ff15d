import DocumentAccess.Proofs.Mapping.Tables
import DocumentAccess.Proofs.Update.Paths
import DocumentAccess.Proofs.Value.Documents

/-!
# Documents map back to entities

An entity is stored under other names and in other values, and a document is
read back by the stored names. Neither way looks at what the other one did: one
has a table by domain names and the first segment of a path, the other a table
by stored names. **`toEntity_toDocument`**: they undo each other, entry by entry
and in order, where each mapping has names of its own, a name without a mapping
is left alone on both sides, and each value is restored by the codecs of its
field.
-/

namespace DocumentAccess

/-- The same value, or one that is equal to it. -/
def Value.Equals (v w : Value) : Prop := v = w ∨ v.same w = true

/-- The domain value of what is stored by a mapping. -/
def FieldMapping.load (m : FieldMapping) (v : Value) : Except Error Value :=
  match m.transformer with
  | some t => t.load v
  | none => .ok v

namespace Resolver

/-! ## Entries -/

/-- What an entry of an entity is stored as. -/
def storedField (r : Resolver) (e : Value × Value) : Except Error (Value × Value) := do
  let name ← nameOf "partition" e.1
  return ((r.resolveField name).key, ← r.storeValue name e.2)

/-- What an entry of a document is loaded as. -/
def loadedField (r : Resolver) (e : Value × Value) : Except Error (Value × Value) :=
  match r.storedUnder? e.1 with
  | none => .ok e
  | some m => (m.load e.2).map (Prod.mk (.str m.domain))

/-- What a field's value is loaded as once it was stored. -/
def restore (r : Resolver) (name : String) (v : Value) : Except Error Value := do
  r.loadValue name (← r.storeValue name v)

variable {r : Resolver} {name : String} {v u : Value} {es es' : Document}

/-- The entries of an entity are stored one by one, and set in turn. -/
theorem toDocumentFrom_eq (done : Document) (es : List (Value × Value)) :
    r.toDocumentFrom done es = (es.mapM r.storedField).map done.insertAll := by
  refine Document.walk_eq (fun _ => rfl) ?_ done es
  rintro done ⟨key, v⟩ es
  rw [toDocumentFrom, storedField]
  cases nameOf "partition" key with
  | error e => rfl
  | ok name =>
      simp only [bind, Except.bind]
      cases r.storeValue name v <;> rfl

/-- The entries of a document are loaded one by one, and set in turn. -/
theorem toEntityFrom_eq (done : Document) (es : List (Value × Value)) :
    r.toEntityFrom done es = (es.mapM r.loadedField).map done.insertAll := by
  refine Document.walk_eq (fun _ => rfl) ?_ done es
  rintro done ⟨key, v⟩ es
  rw [toEntityFrom, loadedField]
  cases r.storedUnder? key with
  | none => rfl
  | some m =>
      simp only [FieldMapping.load]
      cases m.transformer with
      | none => rfl
      | some t =>
          simp only [bind, Except.bind]
          cases t.load v <;> rfl

theorem toDocument_of_distinct (h : es.mapM r.storedField = .ok es') (hkeys : es'.Distinct) :
    r.toDocument es = .ok es' := by
  rw [toDocument, toDocumentFrom_eq, h]
  exact congrArg Except.ok (Document.ofList_distinct hkeys)

theorem toEntity_of_distinct (h : es.mapM r.loadedField = .ok es') (hkeys : es'.Distinct) :
    r.toEntity es = .ok es' := by
  rw [toEntity, toEntityFrom_eq, h]
  exact congrArg Except.ok (Document.ofList_distinct hkeys)

/-! ## Names -/

/-- No two mappings have the same domain name, and no two the same stored name. -/
structure NamesApart (ms : List FieldMapping) : Prop where
  domains : (ms.map (·.domain)).Nodup
  stored : (ms.map (·.storage)).Nodup

/-- A name that no mapping stores under, and that does not start with a mapped segment. -/
structure LeftAlone (ms : List FieldMapping) (name : String) : Prop where
  stored : ∀ m ∈ ms, m.storage ≠ some name
  below : '.' ∈ name.toList → ∀ m ∈ ms, m.domain ≠ stem name

/-- A name that is mapped, or left alone. -/
def Settled (ms : List FieldMapping) (name : String) : Prop :=
  (∀ m ∈ ms, m.domain ≠ name) → LeftAlone ms name

theorem storedUnder?_key (r : Resolver) (stored : FieldName) :
    r.storedUnder? stored.key = r.stored? stored := by
  cases stored <;> rfl

variable {ms : List FieldMapping} {m : FieldMapping} {a b : String}

theorem mapping?_of_mem (hms : NamesApart ms) (hm : m ∈ ms) :
    (ofMappings ms).mapping? m.domain = some m :=
  (mapping?_ofMappings hms.domains).mpr ⟨hm, rfl⟩

theorem mapping?_of_unmapped (hms : NamesApart ms) (h : ∀ m ∈ ms, m.domain ≠ name) :
    (ofMappings ms).mapping? name = none :=
  Option.eq_none_iff_forall_ne_some.mpr fun m hm =>
    have hm := (mapping?_ofMappings hms.domains).mp hm
    h m hm.1 hm.2

theorem resolveField_mapped (hms : NamesApart ms) (hm : m ∈ ms) :
    (ofMappings ms).resolveField m.domain = m.storage := by
  rw [resolveField, mapping?_of_mem hms hm]

/-- A name that is left alone is its own stored name. -/
theorem resolveField_leftAlone (hms : NamesApart ms) (hunmapped : ∀ m ∈ ms, m.domain ≠ name)
    (h : LeftAlone ms name) : (ofMappings ms).resolveField name = some name := by
  rw [resolveField, mapping?_of_unmapped hms hunmapped]
  rcases splitPath?_stem name with ⟨hsplit, -⟩ | ⟨rest, hsplit, hpath⟩
  · rw [hsplit]
  · have hdot : '.' ∈ name.toList := hpath ▸ List.mem_append_right _ (List.mem_cons_self ..)
    simp only [hsplit, mapping?_of_unmapped hms (h.below hdot)]

theorem loadValue_of_mapped (h : r.mapping? name = some m) : r.loadValue name v = m.load v := by
  rw [loadValue, h, FieldMapping.load]
  rfl

/-- A mapped name is stored under its mapping, and any other name under itself, where
    no mapping stores. -/
theorem resolveField_cases (hms : NamesApart ms) (h : Settled ms name) :
    (∃ m ∈ ms, m.domain = name ∧ (ofMappings ms).mapping? name = some m
      ∧ (ofMappings ms).resolveField name = m.storage
      ∧ (ofMappings ms).stored? m.storage = some m)
    ∨ (ofMappings ms).mapping? name = none
      ∧ (ofMappings ms).resolveField name = some name
      ∧ (ofMappings ms).stored? (some name) = none := by
  by_cases hmapped : ∃ m ∈ ms, m.domain = name
  · obtain ⟨m, hm, rfl⟩ := hmapped
    exact .inl ⟨m, hm, rfl, mapping?_of_mem hms hm, resolveField_mapped hms hm,
      (stored?_ofMappings hms.stored).mpr ⟨hm, rfl⟩⟩
  · have hunmapped : ∀ m ∈ ms, m.domain ≠ name := fun m hm heq => hmapped ⟨m, hm, heq⟩
    refine .inr ⟨mapping?_of_unmapped hms hunmapped,
      resolveField_leftAlone hms hunmapped (h hunmapped), ?_⟩
    refine Option.eq_none_iff_forall_ne_some.mpr fun m hm => ?_
    have hm := (stored?_ofMappings hms.stored).mp hm
    exact (h hunmapped).stored m hm.1 hm.2

/-- Different names are stored under different names. -/
theorem resolveField_inj (hms : NamesApart ms) (ha : Settled ms a) (hb : Settled ms b)
    (h : (ofMappings ms).resolveField a = (ofMappings ms).resolveField b) : a = b := by
  -- The stored name tells the mapping, and with it the domain name.
  rcases resolveField_cases hms ha with ⟨m, -, rfl, -, hm, hmstored⟩ | ⟨-, hm, hfree⟩ <;>
    rcases resolveField_cases hms hb with ⟨n, -, rfl, -, hn, hnstored⟩ | ⟨-, hn, hfree'⟩
  · have hstored : m.storage = n.storage := hm.symm.trans (h.trans hn)
    rw [hstored, hnstored] at hmstored
    rw [Option.some.inj hmstored]
  · have hstored : m.storage = some b := hm.symm.trans (h.trans hn)
    rw [hstored, hfree'] at hmstored
    exact nomatch hmstored
  · have hstored : n.storage = some a := hn.symm.trans (h.symm.trans hm)
    rw [hstored, hfree] at hnstored
    exact nomatch hnstored
  · exact Option.some.inj (hm.symm.trans (h.trans hn))

/-! ## Entities -/

/-- A field that is restored is stored under its stored name, and loaded from there. -/
theorem storedField_restored (hms : NamesApart ms) (hname : Settled ms name)
    (h : (ofMappings ms).restore name v = .ok u) :
    ∃ w, (ofMappings ms).storedField (.str name, v)
        = .ok (((ofMappings ms).resolveField name).key, w)
      ∧ (ofMappings ms).loadedField (((ofMappings ms).resolveField name).key, w)
        = .ok (.str name, u) := by
  obtain ⟨w, hw, hu⟩ := bind_eq_ok_iff.mp h
  refine ⟨w, bind_eq_ok_iff.mpr ⟨name, rfl, bind_eq_ok_iff.mpr ⟨w, hw, rfl⟩⟩, ?_⟩
  rw [loadedField, storedUnder?_key]
  rcases resolveField_cases hms hname with ⟨m, -, rfl, hm, hfield, hstored⟩ | ⟨hm, hfield, hfree⟩
  · rw [loadValue_of_mapped hm] at hu
    rw [hfield, hstored]
    exact map_eq_ok_iff.mpr ⟨u, hu, rfl⟩
  · rw [loadValue, hm] at hu
    rw [storeValue, hm] at hw
    obtain rfl := Except.ok.inj hw
    obtain rfl := Except.ok.inj hu
    rw [hfield, hfree]
    rfl

/-- **What is stored as a document is loaded as the entity that it was.** Let mappings
    have names of their own on both sides, and let every name of an entity be mapped or
    left alone by them. If the codecs of the fields restore the values, the document has
    as many keys as the entity, and what is loaded from it has the keys of the entity,
    in their order, and equal values; it is the entity itself where the values
    are restored exactly. -/
theorem toEntity_toDocument {fields : List (String × Value)} (hms : NamesApart ms)
    (hkeys : (fields.map Prod.fst).Nodup) (hnames : ∀ f ∈ fields, Settled ms f.1)
    (hvalues : ∀ f ∈ fields, ∃ u, (ofMappings ms).restore f.1 f.2 = .ok u ∧ u.Equals f.2) :
    ∃ document entity,
      (ofMappings ms).toDocument (.ofFields fields) = .ok document
        ∧ document.Distinct ∧ document.length = fields.length
        ∧ (ofMappings ms).toEntity document = .ok entity
        ∧ List.Forall₂ (fun f e => e.1 = .str f.1 ∧ e.2.Equals f.2) fields entity
        ∧ ((∀ f ∈ fields, (ofMappings ms).restore f.1 f.2 = .ok f.2) →
          entity = .ofFields fields) := by
  choose! loaded hrestore hequals using hvalues
  have hfield := fun f hf => storedField_restored hms (hnames f hf) (hrestore f hf)
  choose! stored hstore hload using hfield
  have hapart : fields.Pairwise fun f g => f.1 ≠ g.1 := List.pairwise_map.mp hkeys
  -- The document and the entity that is loaded from it, field by field.
  let document : Document :=
    fields.map fun f => (((ofMappings ms).resolveField f.1).key, stored f)
  let entity : Document := fields.map fun f => (.str f.1, loaded f)
  have hdocument : document.Distinct := by
    refine List.pairwise_map.mpr (hapart.imp_of_mem fun {f g} hf hg hne => ?_)
    refine Bool.eq_false_iff.mpr fun hsame => hne ?_
    exact resolveField_inj hms (hnames f hf) (hnames g hg) (FieldName.key_same_iff.mp hsame)
  have hentity : entity.Distinct := List.pairwise_map.mpr (hapart.imp Value.same_str_of_ne)
  have hstored : (Document.ofFields fields).mapM (ofMappings ms).storedField = .ok document :=
    mapM_eq_ok_iff.mpr (List.forall₂_map_left_iff.mpr (List.forall₂_map_right_iff.mpr
      (List.forall₂_same.mpr hstore)))
  have hloaded : document.mapM (ofMappings ms).loadedField = .ok entity :=
    mapM_eq_ok_iff.mpr (List.forall₂_map_left_iff.mpr (List.forall₂_map_right_iff.mpr
      (List.forall₂_same.mpr hload)))
  refine ⟨document, entity, toDocument_of_distinct hstored hdocument, hdocument,
    List.length_map .., toEntity_of_distinct hloaded hentity, ?_, fun hexact => ?_⟩
  · exact List.forall₂_map_right_iff.mpr (List.forall₂_same.mpr fun f hf => ⟨rfl, hequals f hf⟩)
  · refine List.map_congr_left fun f hf => ?_
    rw [Except.ok.inj ((hrestore f hf).symm.trans (hexact f hf))]

/-- Two fields that are stored under each other's names, and a path that is mapped as a
    whole. -/
def swapped : List FieldMapping :=
  [⟨"a", some "b", some (.ofCodec .booleanToNumber)⟩, ⟨"b", some "a", none⟩,
    ⟨"x.y", some "z", none⟩]

theorem toEntity_toDocument_swapped :
    (ofMappings swapped).toDocument
        (.ofFields [("b", .int 7), ("a", .bool true), ("x.y", .str "t"), ("x.z", .null)])
        = .ok (.ofFields [("a", .int 7), ("b", .int 1), ("z", .str "t"), ("x.z", .null)])
      ∧ (ofMappings swapped).toEntity
        (.ofFields [("a", .int 7), ("b", .int 1), ("z", .str "t"), ("x.z", .null)])
        = .ok (.ofFields
          [("b", .int 7), ("a", .bool true), ("x.y", .str "t"), ("x.z", .null)]) := by
  have hms : NamesApart swapped := ⟨by decide, by decide⟩
  have hexact : ∀ f ∈ [("b", Value.int 7), ("a", .bool true), ("x.y", .str "t"), ("x.z", .null)],
      (ofMappings swapped).restore f.1 f.2 = .ok f.2 := by
    simp only [List.forall_mem_cons]
    exact ⟨rfl, by with_unfolding_all rfl, rfl, rfl, fun _ hf => absurd hf List.not_mem_nil⟩
  have hnames : ∀ f ∈ [("b", Value.int 7), ("a", .bool true), ("x.y", .str "t"), ("x.z", .null)],
      Settled swapped f.1 := by
    have hmapped {m : FieldMapping} (hm : m ∈ swapped) : Settled swapped m.domain :=
      fun hunmapped => absurd rfl (hunmapped m hm)
    have hfree : LeftAlone swapped "x.z" := ⟨by decide, fun _ => by decide⟩
    simp only [List.forall_mem_cons]
    exact ⟨hmapped (.tail _ (.head _)), hmapped (.head _), hmapped (.tail _ (.tail _ (.head _))),
      fun _ => hfree, fun _ hf => absurd hf List.not_mem_nil⟩
  obtain ⟨document, entity, hdocument, -, -, hentity, -, heq⟩ :=
    toEntity_toDocument hms (by decide) hnames fun f hf => ⟨f.2, hexact f hf, .inl rfl⟩
  have hbuild : (ofMappings swapped).toDocument
      (.ofFields [("b", .int 7), ("a", .bool true), ("x.y", .str "t"), ("x.z", .null)])
      = .ok (.ofFields [("a", .int 7), ("b", .int 1), ("z", .str "t"), ("x.z", .null)]) := by
    with_unfolding_all rfl
  obtain rfl := Except.ok.inj (hdocument.symm.trans hbuild)
  exact ⟨hbuild, hentity.trans (congrArg _ (heq hexact))⟩

end Resolver

end DocumentAccess
