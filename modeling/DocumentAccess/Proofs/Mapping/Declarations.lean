import DocumentAccess.Proofs.Mapping.Entities
import DocumentAccess.Proofs.Mapping.Fields
import DocumentAccess.Proofs.Query.Stages

/-!
# Declarations that agree

Aliases, remarks and entries of a table declare the same fields, and what becomes of
them is seen through two tables of mappings. A mapping of a name onto itself, which
only some of the ways make, seems to say nothing. But it ends the search for the first
segment of a path, and what is stored under the name is loaded by it and no longer by
a field in front of it (`Undisturbed`). The resolver of some fields is told apart from
that of all by nothing else (`agrees_kept_iff`).

**`declarations_agree_iff`**: the three ways agree exactly if each remark of a stored
name has a text and no field that asks for nothing is disturbed by another one.
-/

namespace DocumentAccess

/-! ## Fields that are left alone -/

/-- A field that the others leave alone under its own name: none renames the path that its
    name is, and one in front of it is stored under its name only if one behind it is, too. -/
structure Undisturbed (fs : List ModelField) (f : ModelField) : Prop where
  path : '.' ∈ f.name.toList → ∀ g ∈ fs, g.name = stem f.name → g.storedAs = g.name
  place : ∀ before after, fs = before ++ f :: after →
    (∃ g ∈ before, g.storedAs = f.name) → ∃ g ∈ after, g.storedAs = f.name

/-- Among fields of distinct stored names, one of a name without dots is left alone. -/
theorem undisturbed_of_distinct {fs : List ModelField} {f : ModelField}
    (hstored : (fs.map (·.storedAs)).Nodup) (hplain : '.' ∉ f.name.toList)
    (hname : f.storedAs = f.name) : Undisturbed fs f where
  path hdot := absurd hdot hplain
  place before after hsplit := by
    rintro ⟨g, hg, hg'⟩
    rw [hsplit] at hstored
    exact absurd (hg'.trans hname.symm) ((nodup_front hstored).2 g hg)

/-- Each codec loads what is not there as such. -/
theorem ModelField.UsesStock.load_null {f : ModelField} (h : f.UsesStock) :
    f.mapping.load .null = .ok .null := by
  obtain ⟨t, ht, hcodecs⟩ := h.exists_codecs
  rw [ModelField.mapping_of_resolve ht, FieldMapping.load]
  cases t with
  | none => rfl
  | some t =>
      obtain ⟨storing, loading, rfl⟩ := hcodecs t rfl
      show loading.load .null = _
      cases loading <;> rfl

namespace Resolver

/-! ## Resolvers that cannot be told apart -/

/-- Two resolvers that name, store and load alike, value by value and in whole documents. -/
structure Agrees (r s : Resolver) : Prop where
  field : ∀ path, r.resolveField path = s.resolveField path
  store : ∀ name v, r.storeValue name v = s.storeValue name v
  load : ∀ name v, r.loadValue name v = s.loadValue name v
  document : ∀ entity, r.toDocument entity = s.toDocument entity
  entity : ∀ document, r.toEntity document = s.toEntity document

/-- A resolver that stores each mapped field under a name that is not empty. -/
def StoresByText (r : Resolver) : Prop :=
  ∀ name m, r.mapping? name = some m → ∃ s, m.storage = some s ∧ s ≠ ""

variable {r s t : Resolver}

theorem Agrees.symm (h : r.Agrees s) : s.Agrees r where
  field path := (h.field path).symm
  store name v := (h.store name v).symm
  load name v := (h.load name v).symm
  document e := (h.document e).symm
  entity d := (h.entity d).symm

theorem Agrees.trans (h : r.Agrees s) (h' : s.Agrees t) : r.Agrees t where
  field path := (h.field path).trans (h'.field path)
  store name v := (h.store name v).trans (h'.store name v)
  load name v := (h.load name v).trans (h'.load name v)
  document e := (h.document e).trans (h'.document e)
  entity d := (h.entity d).trans (h'.entity d)

theorem loadedField_of_stored? {stored : String} {m : FieldMapping} {v : Value}
    (h : r.stored? (some stored) = some m) :
    r.loadedField (.str stored, v) = (m.load v).map (Prod.mk (.str m.domain)) := by
  rw [loadedField, storedUnder?, h]

theorem loadedField_of_free {stored : String} {v : Value} (h : r.stored? (some stored) = none) :
    r.loadedField (.str stored, v) = .ok (.str stored, v) := by
  rw [loadedField, storedUnder?, h]

theorem toEntity_singleton (r : Resolver) (e : Value × Value) :
    r.toEntity [e] = (r.loadedField e).map fun e' => [e'] := by
  rw [toEntity, toEntityFrom_eq, List.mapM_cons, List.mapM_nil]
  cases r.loadedField e <;> rfl

/-- Resolvers agree if they do so on names, on values and on the entries of documents. -/
theorem agrees_iff :
    r.Agrees s ↔ (∀ path, r.resolveField path = s.resolveField path)
      ∧ (∀ name v, r.storeValue name v = s.storeValue name v)
      ∧ (∀ name v, r.loadValue name v = s.loadValue name v)
      ∧ ∀ e, r.loadedField e = s.loadedField e := by
  constructor
  · refine fun h => ⟨h.field, h.store, h.load, fun e => ?_⟩
    have hentity := h.entity [e]
    rw [toEntity_singleton, toEntity_singleton] at hentity
    revert hentity
    cases r.loadedField e <;> cases s.loadedField e <;> simp [Except.map]
  · rintro ⟨hfield, hstore, hload, hentry⟩
    have hstored : r.storedField = s.storedField := by
      funext e
      simp only [storedField, hfield, hstore]
    refine ⟨hfield, hstore, hload, fun e => ?_, fun d => ?_⟩
    · rw [toDocument, toDocument, toDocumentFrom_eq, toDocumentFrom_eq, hstored]
    · rw [toEntity, toEntity, toEntityFrom_eq, toEntityFrom_eq, funext hentry]

/-! ## Fields that are dropped -/

variable {fs : List ModelField} {f : ModelField} {keep : ModelField → Bool} {name : String}

section Dropped

variable (hnames : (fs.map (·.name)).Nodup) (hsilent : ∀ f ∈ fs, keep f = false → f.Silent)

section Names

include hnames hsilent

/-- No transformer is lost with the fields that are dropped. -/
theorem transformer_kept (name : String) :
    ((kept keep fs).mapping? name).bind (·.transformer)
      = ((keptAll fs).mapping? name).bind (·.transformer) := by
  rcases mapping?_kept_cases hnames keep name with h | ⟨f, hf, hdropped, rfl⟩
  · rw [h]
  · rw [mapping?_dropped hnames hf hdropped, mapping?_keptAll hnames hf,
      (hsilent f hf hdropped).mapping_eq]
    rfl

theorem storeValue_kept (name : String) (v : Value) :
    (kept keep fs).storeValue name v = (keptAll fs).storeValue name v := by
  rw [storeValue, storeValue, transformer_kept hnames hsilent]

theorem loadValue_kept (name : String) (v : Value) :
    (kept keep fs).loadValue name v = (keptAll fs).loadValue name v := by
  rw [loadValue, loadValue, transformer_kept hnames hsilent]

/-- Only the names of the fields that are dropped may be resolved in another way. -/
theorem resolveField_kept (hname : ∀ f ∈ fs, keep f = false → f.name ≠ name) :
    (kept keep fs).resolveField name = (keptAll fs).resolveField name := by
  have hwhole : (kept keep fs).mapping? name = (keptAll fs).mapping? name := by
    rcases mapping?_kept_cases hnames keep name with h | ⟨f, hf, hdropped, h⟩
    · exact h
    · exact absurd h (hname f hf hdropped)
  rw [resolveField, resolveField, hwhole]
  cases (keptAll fs).mapping? name with
  | some m => rfl
  | none =>
      rcases splitPath?_stem name with ⟨hsplit, -⟩ | ⟨rest, hsplit, hpath⟩
      · rw [hsplit]
      · rw [hsplit]
        rcases mapping?_kept_cases hnames keep (stem name) with h | ⟨f, hf, hdropped, h⟩
        · simp only [h]
        · -- A mapping of the first segment onto itself makes the same path again.
          have hrejoin : f.name ++ "." ++ rest = name := (rejoin_eq_iff hpath).mpr h
          have hall := mapping?_keptAll hnames hf
          rw [(hsilent f hf hdropped).mapping_eq] at hall
          rw [← h]
          simp only [mapping?_dropped hnames hf hdropped, hall, FieldName.text, Option.getD_some,
            hrejoin]

/-- The name of a field that is dropped is kept unless its first segment is renamed. -/
theorem resolveField_dropped_iff (hf : f ∈ fs) (hdropped : keep f = false) :
    (kept keep fs).resolveField f.name = (keptAll fs).resolveField f.name
      ↔ ('.' ∈ f.name.toList → ∀ g ∈ fs, g.name = stem f.name → g.storedAs = g.name) := by
  have hall : (keptAll fs).resolveField f.name = some f.name := by
    rw [resolveField, mapping?_keptAll hnames hf, (hsilent f hf hdropped).mapping_eq]
  rw [hall, resolveField_eq_self_iff, keepsName_unmapped (mapping?_dropped hnames hf hdropped)]
  refine imp_congr_right fun _ => ⟨fun h g hg hname => ?_, fun h m hm => ?_⟩
  · cases hkeep : keep g with
    | false => exact (hsilent g hg hkeep).storedAs_eq
    | true =>
        have hmapped : (kept keep fs).mapping? (stem f.name) = some g.mapping :=
          (mapping?_kept_iff hnames).mpr ⟨g, hg, hkeep, hname, rfl⟩
        exact (h g.mapping hmapped).trans hname.symm
  · obtain ⟨g, hg, -, hname, rfl⟩ := (mapping?_kept_iff hnames).mp hm
    exact (h g hg hname).trans hname

end Names

variable {before after : List ModelField}

/-- If the last field that is stored under a name is dropped, and it takes the name from no
    other one, then none is found under it. -/
theorem stored?_dropped (hsplit : fs = before ++ f :: after) (hdropped : keep f = false)
    (hafter : ∀ g ∈ after, g.storedAs ≠ f.name)
    (hplace : (∃ g ∈ before, g.storedAs = f.name) → ∃ g ∈ after, g.storedAs = f.name) :
    (kept keep fs).stored? (some f.name) = none := by
  refine stored?_kept_eq_none_iff.mpr fun g hg hkeep hstored => ?_
  rw [hsplit, List.mem_append, List.mem_cons] at hg
  rcases hg with hbefore | rfl | hbehind
  · obtain ⟨h, hh, hh'⟩ := hplace ⟨g, hbefore, hstored⟩
    exact hafter h hh hh'
  · exact absurd hkeep (Bool.eq_false_iff.mp hdropped)
  · exact hafter g hbehind hstored

include hsilent

/-- Entries are loaded as by all fields if no field that is dropped takes its name from
    another one. -/
theorem loadedField_kept
    (hplace : ∀ f ∈ fs, keep f = false → ∀ before after, fs = before ++ f :: after →
      (∃ g ∈ before, g.storedAs = f.name) → ∃ g ∈ after, g.storedAs = f.name)
    (e : Value × Value) : (kept keep fs).loadedField e = (keptAll fs).loadedField e := by
  obtain ⟨key, v⟩ := e
  cases key with
  | null =>
      rw [keptAll, loadedField, loadedField, storedUnder?, storedUnder?, stored?_kept_absent,
        stored?_kept_absent]
  | str stored =>
      cases hall : (keptAll fs).stored? (some stored) with
      | none =>
          have hfree : (kept keep fs).stored? (some stored) = none :=
            stored?_kept_eq_none_iff.mpr fun f hf _ => stored?_kept_eq_none_iff.mp hall f hf rfl
          rw [loadedField_of_free hfree, loadedField_of_free hall]
      | some m =>
          obtain ⟨before, f, after, hsplit, -, rfl, hafter, rfl⟩ :=
            stored?_kept_eq_some_iff.mp hall
          have hf : f ∈ fs := hsplit ▸ List.mem_append_right _ (List.mem_cons_self ..)
          cases hkeep : keep f with
          | true =>
              have hfound : (kept keep fs).stored? (some f.storedAs) = some f.mapping :=
                stored?_kept_eq_some_iff.mpr ⟨before, f, after, hsplit, hkeep, rfl,
                  fun g hg _ => hafter g hg rfl, rfl⟩
              rw [loadedField_of_stored? hfound, loadedField_of_stored? hall]
          | false =>
              have hself := hsilent f hf hkeep
              rw [hself.storedAs_eq] at hall hafter ⊢
              have hfree := stored?_dropped hsplit hkeep (fun g hg => hafter g hg rfl)
                (hplace f hf hkeep before after hsplit)
              rw [loadedField_of_free hfree, loadedField_of_stored? hall, hself.mapping_eq]
              rfl
  | _ => rfl

include hnames

/-- A field that is dropped takes its name from no other one if the entry under it is loaded
    as by all fields. -/
theorem place_of_loadedField (hstock : ∀ f ∈ fs, f.UsesStock) (hf : f ∈ fs)
    (hdropped : keep f = false)
    (h : (kept keep fs).loadedField (.str f.name, .null)
      = (keptAll fs).loadedField (.str f.name, .null))
    (hsplit : fs = before ++ f :: after) (hbefore : ∃ g ∈ before, g.storedAs = f.name) :
    ∃ g ∈ after, g.storedAs = f.name := by
  by_contra hafter
  have hall : (keptAll fs).stored? (some f.name) = some f.mapping :=
    stored?_kept_eq_some_iff.mpr ⟨before, f, after, hsplit, rfl,
      (hsilent f hf hdropped).storedAs_eq, fun g hg _ hstored => hafter ⟨g, hg, hstored⟩, rfl⟩
  cases hkept : (kept keep fs).stored? (some f.name) with
  | none =>
      -- The field in front is stored under another name than its own, so it is not dropped.
      obtain ⟨g, hfront, hstored⟩ := hbefore
      have hg : g ∈ fs := hsplit ▸ List.mem_append_left _ hfront
      have hkeep : keep g = false :=
        Bool.eq_false_iff.mpr fun hkeep => stored?_kept_eq_none_iff.mp hkept g hg hkeep hstored
      have hname : g.name = f.name := (hsilent g hg hkeep).storedAs_eq.symm.trans hstored
      rw [hsplit] at hnames
      exact (nodup_front hnames).2 g hfront hname
  | some m =>
      -- The entry gets the names of two fields, of which one is kept and the other one dropped.
      obtain ⟨_, g, _, hsplit', hkeep, -, -, rfl⟩ := stored?_kept_eq_some_iff.mp hkept
      have hg : g ∈ fs := hsplit' ▸ List.mem_append_right _ (List.mem_cons_self ..)
      rw [loadedField_of_stored? hkept, loadedField_of_stored? hall, (hstock g hg).load_null,
        (hstock f hf).load_null] at h
      have hname : g.name = f.name := Value.str.inj (congrArg Prod.fst (Except.ok.inj h))
      obtain rfl := List.inj_on_of_nodup_map hnames hg hf hname
      exact absurd hkeep (Bool.eq_false_iff.mp hdropped)

/-- **The resolver of some fields agrees with that of all fields exactly if no field is
    disturbed that is dropped**, where only silent ones are. -/
theorem agrees_kept_iff (hstock : ∀ f ∈ fs, f.UsesStock) :
    (kept keep fs).Agrees (keptAll fs) ↔ ∀ f ∈ fs, keep f = false → Undisturbed fs f := by
  rw [agrees_iff]
  constructor
  · rintro ⟨hfield, -, -, hentry⟩ f hf hdropped
    refine ⟨(resolveField_dropped_iff hnames hsilent hf hdropped).mp (hfield f.name), ?_⟩
    exact fun before after =>
      place_of_loadedField hnames hsilent hstock hf hdropped (hentry _)
  · intro h
    refine ⟨fun name => ?_, storeValue_kept hnames hsilent, loadValue_kept hnames hsilent,
      loadedField_kept hsilent fun f hf hdropped => (h f hf hdropped).place⟩
    by_cases hdropped : ∃ f ∈ fs, keep f = false ∧ f.name = name
    · obtain ⟨f, hf, hdropped, rfl⟩ := hdropped
      exact (resolveField_dropped_iff hnames hsilent hf hdropped).mpr (h f hf hdropped).path
    · exact resolveField_kept hnames hsilent fun f hf hkeep hname => hdropped ⟨f, hf, hkeep, hname⟩

end Dropped

/-! ## The ways to declare fields -/

section Ways

variable (hnames : (fs.map (·.name)).Nodup)

include hnames

theorem storesByText_kept (keep : ModelField → Bool) (hfilled : ∀ f ∈ fs, f.name ≠ "") :
    (kept keep fs).StoresByText := by
  intro name m hm
  obtain ⟨f, hf, -, -, rfl⟩ := (mapping?_kept_iff hnames).mp hm
  exact ⟨f.storedAs, rfl, ModelField.storedAs_ne_empty (hfilled f hf)⟩

/-- Without a text, a remark is what a field is stored under. -/
theorem storesByText_remarked_iff (hfilled : ∀ f ∈ fs, f.name ≠ "") :
    (remarked fs).StoresByText ↔ ∀ f ∈ fs, f.IsNamed := by
  constructor
  · intro h f hf
    cases hremarked : f.isRemarked with
    | false => exact ModelField.isNamed_of_not_remarked hremarked
    | true =>
        obtain ⟨s, hs, hne⟩ := h f.name _ (mapping?_remarked hnames hf hremarked)
        have hstorage : f.storedName.getD (some f.name) = some s := hs
        refine ⟨fun hnull => ?_, fun hempty => ?_⟩
        · rw [hnull] at hstorage
          exact nomatch hstorage
        · rw [hempty] at hstorage
          exact absurd (Option.some.inj hstorage).symm hne
  · intro h name m hm
    obtain ⟨f, hf, -, -, rfl⟩ := (mapping?_map_iff hnames fun _ => rfl).mp hm
    rw [ModelField.remarkedMapping_eq_iff.mpr (h f hf)]
    exact ⟨f.storedAs, rfl, ModelField.storedAs_ne_empty (hfilled f hf)⟩

/-- Remarks agree with entries exactly if each stored name among them has a text and no field
    without a remark is disturbed. -/
theorem agrees_remarked_iff (hstock : ∀ f ∈ fs, f.UsesStock) :
    (remarked fs).Agrees (keptAll fs)
      ↔ (∀ f ∈ fs, f.IsNamed) ∧ ∀ f ∈ fs, f.isRemarked = false → Undisturbed fs f := by
  have hkept (h : ∀ f ∈ fs, f.IsNamed) : remarked fs = kept ModelField.isRemarked fs :=
    congrArg ofMappings (List.map_congr_left fun f hf =>
      ModelField.remarkedMapping_eq_iff.mpr (h f (List.mem_of_mem_filter hf)))
  have hagrees := agrees_kept_iff hnames (fun _ _ => ModelField.silent_of_not_remarked) hstock
  constructor
  · intro h
    have hnamed : ∀ f ∈ fs, f.IsNamed := by
      intro f hf
      cases hremarked : f.isRemarked with
      | false => exact ModelField.isNamed_of_not_remarked hremarked
      | true =>
          have hfield := h.field f.name
          rw [resolveField, mapping?_remarked hnames hf hremarked, resolveField,
            mapping?_keptAll hnames hf] at hfield
          exact ModelField.isNamed_iff.mpr hfield
    rw [hkept hnamed] at h
    exact ⟨hnamed, hagrees.mp h⟩
  · rintro ⟨hnamed, hundisturbed⟩
    rw [hkept hnamed]
    exact hagrees.mpr hundisturbed

/-- Aliases agree with entries exactly if no silent field is disturbed. -/
theorem agrees_asked_iff (hstock : ∀ f ∈ fs, f.UsesStock) :
    (kept ModelField.asks fs).Agrees (keptAll fs)
      ↔ ∀ f ∈ fs, f.Silent → Undisturbed fs f := by
  rw [agrees_kept_iff hnames (fun _ _ => ModelField.asks_eq_false_iff.mp) hstock]
  simp only [ModelField.asks_eq_false_iff]

/-- **The ways to declare fields agree exactly if each remark of a stored name has a text and
    no silent field is disturbed.** Each way is accepted where the transformers are stock ones.
    Aliases and entries store all fields under texts, and remarks do if they have one. -/
theorem declarations_agree_iff (hstock : ∀ f ∈ fs, f.UsesStock) (model model' : String) :
    ∃ byAlias byRemark byEntry,
      ofSource (.model ⟨.aliased, model, fs⟩) = .ok byAlias
        ∧ ofSource (.model ⟨.annotated, model', fs⟩) = .ok byRemark
        ∧ ofSource (.table (fs.map fun f => (f.name, .entry f.entry))) = .ok byEntry
        ∧ ([byAlias, byRemark, byEntry].Pairwise Agrees
          ↔ (∀ f ∈ fs, f.IsNamed) ∧ ∀ f ∈ fs, f.Silent → Undisturbed fs f)
        ∧ ((∀ f ∈ fs, f.name ≠ "") → byAlias.StoresByText ∧ byEntry.StoresByText
          ∧ (byRemark.StoresByText ↔ ∀ f ∈ fs, f.IsNamed)) := by
  refine ⟨_, _, _, ofSource_aliased hstock model, ofSource_annotated hstock model',
    ofSource_table hstock hnames, ⟨fun h => ?_, ?_⟩, fun hfilled =>
      ⟨storesByText_kept hnames _ hfilled, storesByText_kept hnames _ hfilled,
        storesByText_remarked_iff hnames hfilled⟩⟩
  · obtain ⟨hfirst, hrest⟩ := List.pairwise_cons.mp h
    have hentry := hfirst _ (.tail _ (.head _))
    have hremark := List.rel_of_pairwise_cons hrest (.head _)
    exact ⟨((agrees_remarked_iff hnames hstock).mp hremark).1,
      (agrees_asked_iff hnames hstock).mp hentry⟩
  · rintro ⟨hnamed, hundisturbed⟩
    have hentry := (agrees_asked_iff hnames hstock).mpr hundisturbed
    have hremark := (agrees_remarked_iff hnames hstock).mpr ⟨hnamed, fun f hf hremarked =>
      hundisturbed f hf (ModelField.silent_of_not_remarked hremarked)⟩
    simp only [List.pairwise_cons, List.forall_mem_cons]
    exact ⟨⟨hentry.trans hremark.symm, hentry, nofun⟩, ⟨hremark, nofun⟩, nofun, .nil⟩

end Ways

/-- Fields with an alias, with a transformer, with both, and with neither. -/
def orderFields : List ModelField :=
  [⟨"id", some (some "_id"), some (.named "object_id")⟩,
    ⟨"total", none, some (.given (.ofCodec .cents))⟩,
    ⟨"created", some (some "createdAt"), none⟩,
    ⟨"note", none, some .unset⟩,
    ⟨"items", none, none⟩]

theorem declarations_agree_iff_order :
    (orderFields.map (·.name)).Nodup
      ∧ (∀ f ∈ orderFields, f.UsesStock)
      ∧ ∃ byAlias byRemark byEntry,
        ofSource (.model ⟨.aliased, "Order", orderFields⟩) = .ok byAlias
          ∧ ofSource (.model ⟨.annotated, "Order", orderFields⟩) = .ok byRemark
          ∧ ofSource (.table (orderFields.map fun f => (f.name, .entry f.entry))) = .ok byEntry
          ∧ [byAlias, byRemark, byEntry].Pairwise Agrees
          ∧ byAlias.StoresByText ∧ byRemark.StoresByText ∧ byEntry.StoresByText := by
  have hnames : (orderFields.map (·.name)).Nodup := by decide
  have hnamed : ∀ f ∈ orderFields, f.IsNamed := by
    simp only [ModelField.isNamed_iff]
    decide
  have hstock : ∀ f ∈ orderFields, f.UsesStock := by
    have hnamed : ∀ f ∈ orderFields, ∀ name, f.transformer = some (.named name) →
        "object_id" = name := by
      simp [orderFields]
    have hgiven : ∀ f ∈ orderFields, ∀ t, f.transformer = some (.given t) →
        Transformer.ofCodec .cents = t := by
      simp [orderFields]
    exact fun f hf => ⟨fun name hname => ⟨.objectId, hnamed f hf name hname⟩,
      fun t ht => ⟨.cents, .cents, (hgiven f hf t ht).symm⟩⟩
  have hplain : ∀ f ∈ orderFields, '.' ∉ f.name.toList := by decide
  have hundisturbed : ∀ f ∈ orderFields, f.Silent → Undisturbed orderFields f :=
    fun f hf hsilent =>
      undisturbed_of_distinct (by decide) (hplain f hf) hsilent.storedAs_eq
  obtain ⟨byAlias, byRemark, byEntry, halias, hremark, hentry, hagree, htext⟩ :=
    declarations_agree_iff hnames hstock "Order" "Order"
  obtain ⟨haliasText, hentryText, hremarkText⟩ := htext (by decide)
  exact ⟨hnames, hstock, byAlias, byRemark, byEntry, halias, hremark, hentry,
    hagree.mpr ⟨hnamed, hundisturbed⟩, haliasText, hremarkText.mpr hnamed, hentryText⟩

/-- Two remarks of a stored name without a text, and a field that is stored under the name of a
    silent one. -/
def mislabelled : List ModelField :=
  [⟨"price", some none, some (.named "cents")⟩, ⟨"label", some (some ""), none⟩,
    ⟨"key", some (some "code"), none⟩, ⟨"code", none, none⟩]

/-- A price is stored under no name and a label under an empty one, and a code is loaded as
    the key that is stored under its name. -/
theorem declarations_disagree :
    (mislabelled.map (·.name)).Nodup
      ∧ ∃ byAlias byRemark byEntry,
        ofSource (.model ⟨.aliased, "Item", mislabelled⟩) = .ok byAlias
          ∧ ofSource (.model ⟨.annotated, "Item", mislabelled⟩) = .ok byRemark
          ∧ ofSource (.table (mislabelled.map fun f => (f.name, .entry f.entry))) = .ok byEntry
          ∧ byAlias.resolveField "price" = some "price" ∧ byRemark.resolveField "price" = none
          ∧ byAlias.resolveField "label" = some "label" ∧ byRemark.resolveField "label" = some ""
          ∧ byAlias.toEntity (.ofFields [("code", .int 1)]) = .ok (.ofFields [("key", .int 1)])
          ∧ byEntry.toEntity (.ofFields [("code", .int 1)]) = .ok (.ofFields [("code", .int 1)])
          ∧ ¬ byAlias.Agrees byRemark ∧ ¬ byAlias.Agrees byEntry := by
  refine ⟨by decide, _, _, _, rfl, rfl, rfl, rfl, rfl, rfl, rfl, rfl, rfl, fun h => ?_, fun h => ?_⟩
  · exact absurd (h.field "price") (by decide)
  · have hentity : (.ok (.ofFields [("key", .int 1)]) : Except Error Document)
        = .ok (.ofFields [("code", .int 1)]) := h.entity (.ofFields [("code", .int 1)])
    simp [Document.ofFields] at hentity

end Resolver

end DocumentAccess
