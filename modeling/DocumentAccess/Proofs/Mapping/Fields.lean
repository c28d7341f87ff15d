import DocumentAccess.Mapping.Declaration
import DocumentAccess.Proofs.Mapping.Tables

/-!
# Mappings of declared fields

A field says how it is stored by an alias, by a remark, or in an entry of a table. Each
way has its own rule for which fields get a mapping: those that ask for something, those
with a remark, all of them. The mapping is that of the name which the field asks for
(`ModelField.mapping`), but a remark is taken as it is (`ModelField.remarkedMapping`),
where an alias or an entry without text counts as left out. So the resolvers of the
three ways are made of the mappings of some fields (`ofSource_aliased`,
`ofSource_annotated`, `ofSource_table`).
-/

namespace DocumentAccess

/-! ## Fields -/

namespace ModelField

/-- The name that a field asks to be stored under; an empty one asks for nothing. -/
def requested? (f : ModelField) : Option String := nonempty? f.storedName.join

/-- The name that a field is to be stored under. -/
def storedAs (f : ModelField) : String := f.requested?.getD f.name

instance (choice : TransformerChoice) : Decidable (choice = .unset) :=
  match choice with
  | .unset => .isTrue rfl
  | .named _ => .isFalse nofun
  | .given _ => .isFalse nofun

/-- A field that asks neither for a stored name nor for a transformer. -/
def Silent (f : ModelField) : Prop := f.requested? = none ∧ f.transformer.getD .unset = .unset

instance : DecidablePred Silent := fun _ => inferInstanceAs (Decidable (_ ∧ _))

/-- A field that asks for a stored name or for a transformer. -/
def asks (f : ModelField) : Bool := !decide f.Silent

/-- A field with a remark. -/
def isRemarked (f : ModelField) : Bool := f.storedName.isSome || f.transformer.isSome

/-- A field whose remark of a stored name, if it has one, is a text, and is empty only where
    the name of the field is. -/
structure IsNamed (f : ModelField) : Prop where
  present : f.storedName ≠ some none
  filled : f.storedName = some (some "") → f.name = ""

/-- A field whose transformer, if it has one, is of the stock: it is called by a codec's name or
    given as a pair of codecs. -/
structure UsesStock (f : ModelField) : Prop where
  named : ∀ name, f.transformer = some (.named name) → ∃ c : Codec, c.name = name
  given : ∀ t, f.transformer = some (.given t) → ∃ storing loading, t = .ofCodecs storing loading

/-- The entry of a field in a table of declarations. -/
def entry (f : ModelField) : MappingEntry :=
  ⟨none, f.storedName.join, none, f.transformer.getD .unset⟩

/-- The mapping that a field asks for. -/
def mapping (f : ModelField) : FieldMapping :=
  ⟨f.name, some f.storedAs, f.resolveTransformer.toOption.join⟩

/-- The mapping of a field whose remark is taken as it is. -/
def remarkedMapping (f : ModelField) : FieldMapping :=
  { f.mapping with storage := f.storedName.getD (some f.name) }

variable {f : ModelField} {t : Option Transformer}

/-! ### Stored names -/

theorem storedAs_ne_empty (h : f.name ≠ "") : f.storedAs ≠ "" := by
  rw [storedAs]
  cases hrequested : f.requested? with
  | none => exact h
  | some s =>
      rw [requested?, nonempty?, Option.filter_eq_some_iff] at hrequested
      rintro rfl
      exact absurd hrequested.2 (by decide)

/-- A remark is taken as an alias would be exactly if it has a text. -/
theorem isNamed_iff : f.IsNamed ↔ f.storedName.getD (some f.name) = some f.storedAs := by
  obtain ⟨name, storedName, transformer⟩ := f
  rcases storedName with _ | _ | s
  · exact ⟨fun _ => rfl, fun _ => ⟨nofun, nofun⟩⟩
  · exact ⟨fun h => absurd rfl h.present, nofun⟩
  · by_cases hs : s = ""
    · subst hs
      constructor
      · exact fun h => congrArg some (h.filled rfl).symm
      · exact fun h => ⟨nofun, fun _ => (Option.some.inj h).symm⟩
    · have hrequested : requested? ⟨name, some (some s), transformer⟩ = some s := by
        simp [requested?, nonempty?, hs]
      rw [storedAs, hrequested]
      refine ⟨fun _ => rfl, fun _ => ⟨nofun, fun h => ?_⟩⟩
      exact absurd (Option.some.inj (Option.some.inj h)) hs

theorem remarkedMapping_eq_iff : f.remarkedMapping = f.mapping ↔ f.IsNamed := by
  rw [isNamed_iff]
  constructor
  · exact fun h => congrArg FieldMapping.storage h
  · intro h
    rw [remarkedMapping, h]
    rfl

/-! ### Silent fields -/

theorem Silent.storedAs_eq (h : f.Silent) : f.storedAs = f.name := by
  rw [storedAs, h.1]
  rfl

/-- What a silent field asks for is a mapping onto itself. -/
theorem Silent.mapping_eq (h : f.Silent) : f.mapping = ⟨f.name, some f.name, none⟩ := by
  rw [mapping, h.storedAs_eq, resolveTransformer, h.2]
  rfl

theorem asks_eq_false_iff : f.asks = false ↔ f.Silent := by
  rw [asks, Bool.not_eq_false', decide_eq_true_eq]

theorem isRemarked_eq_false_iff :
    f.isRemarked = false ↔ f.storedName = none ∧ f.transformer = none := by
  rw [isRemarked, Bool.or_eq_false_iff, Option.isSome_eq_false_iff, Option.isSome_eq_false_iff,
    Option.isNone_iff_eq_none, Option.isNone_iff_eq_none]

theorem silent_of_not_remarked (h : f.isRemarked = false) : f.Silent := by
  obtain ⟨hstored, htransformer⟩ := isRemarked_eq_false_iff.mp h
  rw [Silent, requested?, hstored, htransformer]
  exact ⟨rfl, rfl⟩

theorem isNamed_of_not_remarked (h : f.isRemarked = false) : f.IsNamed := by
  obtain ⟨hstored, -⟩ := isRemarked_eq_false_iff.mp h
  rw [isNamed_iff, (silent_of_not_remarked h).storedAs_eq, hstored]
  rfl

/-! ### What each way makes of a field -/

/-- A transformer of the stock is found by its name or given as it is. -/
theorem UsesStock.exists_codecs (h : f.UsesStock) : ∃ t, f.resolveTransformer = .ok t
    ∧ ∀ t' ∈ t, ∃ storing loading, t' = Transformer.ofCodecs storing loading := by
  rw [resolveTransformer]
  rcases hchoice : f.transformer with _ | _ | name | transformer
  · exact ⟨none, rfl, nofun⟩
  · exact ⟨none, rfl, nofun⟩
  · obtain ⟨c, rfl⟩ := h.named name hchoice
    refine ⟨some (.ofCodec c), by cases c <;> rfl, ?_⟩
    rintro t' ⟨⟩
    exact ⟨c, c, rfl⟩
  · refine ⟨some transformer, rfl, ?_⟩
    rintro t' ⟨⟩
    exact h.given transformer hchoice

theorem exists_resolveTransformer (h : f.UsesStock) : ∃ t, f.resolveTransformer = .ok t := by
  obtain ⟨t, ht, -⟩ := h.exists_codecs
  exact ⟨t, ht⟩

theorem mapping_of_resolve (h : f.resolveTransformer = .ok t) :
    f.mapping = ⟨f.name, some f.storedAs, t⟩ := by
  rw [mapping, h]
  rfl

theorem silent_iff (h : f.resolveTransformer = .ok t) :
    f.Silent ↔ f.requested? = none ∧ t = none := by
  rw [Silent, and_congr_right_iff]
  intro _
  rw [resolveTransformer] at h
  cases hchoice : f.transformer.getD .unset with
  | unset =>
      rw [hchoice] at h
      exact ⟨fun _ => (Except.ok.inj h).symm, fun _ => rfl⟩
  | named name =>
      rw [hchoice] at h
      obtain ⟨transformer, -, ht⟩ := bind_eq_ok_iff.mp h
      obtain rfl := Except.ok.inj ht
      exact ⟨nofun, nofun⟩
  | given transformer =>
      rw [hchoice] at h
      obtain rfl := Except.ok.inj h
      exact ⟨nofun, nofun⟩

/-- An alias declares a field that asks for something. -/
theorem aliasedMapping_eq (h : f.resolveTransformer = .ok t) :
    f.aliasedMapping = .ok (if f.asks then some f.mapping else none) := by
  have hasks : f.asks = (f.requested?.isSome || t.isSome) := by
    rw [asks, Bool.eq_iff_iff, Bool.not_eq_true', decide_eq_false_iff_not, silent_iff h]
    cases f.requested? <;> cases t <;> simp
  rw [aliasedMapping, h, mapping_of_resolve h, hasks]
  show (if (f.requested?.isSome || t.isSome) = true then _ else _) = _
  split <;> rfl

/-- A remark declares a field, with what it says as its stored name. -/
theorem annotatedMapping_eq (h : f.resolveTransformer = .ok t) :
    f.annotatedMapping = .ok (if f.isRemarked then some f.remarkedMapping else none) := by
  rw [annotatedMapping, h, remarkedMapping, mapping_of_resolve h]
  show (if f.isRemarked = true then _ else _) = _
  split <;> rfl

/-- An entry declares a field in any case. -/
theorem toMapping_entry (h : f.resolveTransformer = .ok t) :
    (MappingDeclaration.entry f.entry).toMapping (some f.name) = .ok f.mapping := by
  have hstorage : (f.requested?.orElse fun _ => nonempty? none).getD f.name = f.storedAs := by
    rw [storedAs]
    cases f.requested? <;> rfl
  show (do return FieldMapping.mk f.name _ (← f.resolveTransformer)) = _
  rw [h, mapping_of_resolve h, ← hstorage]
  rfl

end ModelField

/-! ## Resolvers of fields -/

namespace Resolver

/-- The resolver of the fields that are kept. -/
def kept (keep : ModelField → Bool) (fs : List ModelField) : Resolver :=
  ofMappings ((fs.filter keep).map ModelField.mapping)

/-- The resolver of all fields. -/
def keptAll (fs : List ModelField) : Resolver := kept (fun _ => true) fs

/-- The resolver of the fields with a remark, which is taken as it is. -/
def remarked (fs : List ModelField) : Resolver :=
  ofMappings ((fs.filter ModelField.isRemarked).map ModelField.remarkedMapping)

variable {fs : List ModelField}

/-- Fields are declared if they are kept, and the others are left out. -/
theorem mapM_declare {declare : ModelField → Except Error (Option FieldMapping)}
    {keep : ModelField → Bool} {asked : ModelField → FieldMapping}
    (h : ∀ f ∈ fs, declare f = .ok (if keep f then some (asked f) else none)) :
    (do return (← fs.mapM declare).filterMap id) = Except.ok ((fs.filter keep).map asked) := by
  rw [mapM_eq_map h]
  show Except.ok ((fs.map fun f => if keep f then some (asked f) else none).filterMap id) = _
  rw [List.filterMap_map, ← List.filterMap_eq_map (f := asked), List.filterMap_filter]
  rfl

section Stock

variable (hstock : ∀ f ∈ fs, f.UsesStock)

include hstock

/-- Aliases keep the fields that ask for something. -/
theorem ofSource_aliased (model : String) :
    ofSource (.model ⟨.aliased, model, fs⟩) = .ok (kept ModelField.asks fs) := by
  have hdeclared : MappingSource.mappings (.model ⟨.aliased, model, fs⟩)
      = .ok ((fs.filter ModelField.asks).map ModelField.mapping) := by
    refine mapM_declare fun f hf => ?_
    obtain ⟨t, ht⟩ := ModelField.exists_resolveTransformer (hstock f hf)
    exact ModelField.aliasedMapping_eq ht
  rw [ofSource, hdeclared]
  rfl

theorem ofSource_annotated (model : String) :
    ofSource (.model ⟨.annotated, model, fs⟩) = .ok (remarked fs) := by
  have hdeclared : MappingSource.mappings (.model ⟨.annotated, model, fs⟩)
      = .ok ((fs.filter ModelField.isRemarked).map ModelField.remarkedMapping) := by
    refine mapM_declare fun f hf => ?_
    obtain ⟨t, ht⟩ := ModelField.exists_resolveTransformer (hstock f hf)
    exact ModelField.annotatedMapping_eq ht
  rw [ofSource, hdeclared]
  rfl

/-- Entries keep all fields. -/
theorem ofSource_table (hnames : (fs.map (·.name)).Nodup) :
    ofSource (.table (fs.map fun f => (f.name, .entry f.entry))) = .ok (keptAll fs) := by
  have hkeys : ((fs.map fun f => (f.name, MappingDeclaration.entry f.entry)).map
      Prod.fst).Nodup := by
    rwa [List.map_map]
  have hdeclared : MappingSource.mappings (.table (fs.map fun f => (f.name, .entry f.entry)))
      = .ok (fs.map ModelField.mapping) := by
    rw [MappingSource.mappings, Table.ofList_distinct hkeys, List.mapM_map]
    refine mapM_eq_map fun f hf => ?_
    obtain ⟨t, ht⟩ := ModelField.exists_resolveTransformer (hstock f hf)
    exact ModelField.toMapping_entry ht
  rw [ofSource, hdeclared, keptAll, kept, List.filter_true]
  rfl

end Stock

/-! ### Fields by their names -/

section Names

variable {f : ModelField} {keep : ModelField → Bool} {name : String} {m : FieldMapping}
  (hnames : (fs.map (·.name)).Nodup)

include hnames

theorem mapping?_map_iff {declare : ModelField → FieldMapping}
    (hdeclare : ∀ f, (declare f).domain = f.name) :
    (ofMappings ((fs.filter keep).map declare)).mapping? name = some m
      ↔ ∃ f ∈ fs, keep f = true ∧ f.name = name ∧ declare f = m := by
  have hdomains : (((fs.filter keep).map declare).map (·.domain)).Nodup := by
    have hcompose : (fun m : FieldMapping => m.domain) ∘ declare = (·.name) := funext hdeclare
    rw [List.map_map, hcompose]
    exact (List.filter_sublist.map _).nodup hnames
  rw [mapping?_ofMappings hdomains, List.mem_map]
  constructor
  · rintro ⟨⟨f, hf, rfl⟩, hname⟩
    obtain ⟨hf, hkeep⟩ := List.mem_filter.mp hf
    exact ⟨f, hf, hkeep, (hdeclare f).symm.trans hname, rfl⟩
  · rintro ⟨f, hf, hkeep, rfl, rfl⟩
    exact ⟨⟨f, List.mem_filter.mpr ⟨hf, hkeep⟩, rfl⟩, hdeclare f⟩

theorem mapping?_kept_iff :
    (kept keep fs).mapping? name = some m
      ↔ ∃ f ∈ fs, keep f = true ∧ f.name = name ∧ f.mapping = m :=
  mapping?_map_iff hnames fun _ => rfl

theorem mapping?_keptAll (hf : f ∈ fs) : (keptAll fs).mapping? f.name = some f.mapping :=
  (mapping?_kept_iff hnames).mpr ⟨f, hf, rfl, rfl, rfl⟩

theorem mapping?_remarked (hf : f ∈ fs) (hremarked : f.isRemarked = true) :
    (remarked fs).mapping? f.name = some f.remarkedMapping :=
  (mapping?_map_iff hnames fun _ => rfl).mpr ⟨f, hf, hremarked, rfl, rfl⟩

theorem mapping?_dropped (hf : f ∈ fs) (hdropped : keep f = false) :
    (kept keep fs).mapping? f.name = none := by
  refine Option.eq_none_iff_forall_ne_some.mpr fun m hm => ?_
  obtain ⟨g, hg, hkeep, hname, -⟩ := (mapping?_kept_iff hnames).mp hm
  obtain rfl := List.inj_on_of_nodup_map hnames hg hf hname
  exact absurd hkeep (Bool.eq_false_iff.mp hdropped)

/-- A name is mapped as it is by all fields, or it is that of a field that is dropped. -/
theorem mapping?_kept_cases (keep : ModelField → Bool) (name : String) :
    (kept keep fs).mapping? name = (keptAll fs).mapping? name
      ∨ ∃ f ∈ fs, keep f = false ∧ f.name = name := by
  by_cases hdropped : ∃ f ∈ fs, keep f = false ∧ f.name = name
  · exact .inr hdropped
  · refine .inl (Option.ext fun m => ?_)
    rw [keptAll, mapping?_kept_iff hnames, mapping?_kept_iff hnames]
    constructor
    · rintro ⟨f, hf, -, hname, hm⟩
      exact ⟨f, hf, rfl, hname, hm⟩
    · rintro ⟨f, hf, -, hname, hm⟩
      have hkeep : keep f = true :=
        (Bool.not_eq_false _).mp fun h => hdropped ⟨f, hf, h, hname⟩
      exact ⟨f, hf, hkeep, hname, hm⟩

end Names

/-! ### Fields by their stored names -/

section Stored

variable {keep : ModelField → Bool} {stored : String} {m : FieldMapping}

theorem stored?_kept (keep : ModelField → Bool) (stored : String) :
    (kept keep fs).stored? (some stored)
      = (fs.reverse.find? fun f => decide (keep f = true ∧ f.storedAs = stored)).map
          ModelField.mapping := by
  rw [kept, stored?_eq_find?, ← List.map_reverse, ← List.filter_reverse, List.find?_map,
    List.find?_filter]
  have hpredicate (f : ModelField) :
      (((fun m : FieldMapping => some stored == m.storage) ∘ ModelField.mapping) f = true)
        = (f.storedAs = stored) := by
    show ((some stored == some f.storedAs) = true) = _
    rw [beq_iff_eq, Option.some.injEq, eq_comm (a := stored)]
  simp only [hpredicate]

/-- Under a stored name, the last field is found that is kept and stored under it. -/
theorem stored?_kept_eq_some_iff :
    (kept keep fs).stored? (some stored) = some m
      ↔ ∃ before f after, fs = before ++ f :: after ∧ keep f = true ∧ f.storedAs = stored
        ∧ (∀ g ∈ after, keep g = true → g.storedAs ≠ stored) ∧ f.mapping = m := by
  simp only [stored?_kept, Option.map_eq_some_iff, List.find?_eq_some_iff_append,
    Bool.not_eq_true', decide_eq_true_eq, decide_eq_false_iff_not, not_and]
  constructor
  · rintro ⟨f, ⟨⟨hkeep, hstored⟩, after, before, hsplit, hafter⟩, hm⟩
    refine ⟨before.reverse, f, after.reverse, ?_, hkeep, hstored, fun g hg => ?_, hm⟩
    · rw [← List.reverse_reverse fs, hsplit]
      simp
    · exact hafter g (List.mem_reverse.mp hg)
  · rintro ⟨before, f, after, rfl, hkeep, hstored, hafter, hm⟩
    refine ⟨f, ⟨⟨hkeep, hstored⟩, after.reverse, before.reverse, by simp, fun g hg => ?_⟩, hm⟩
    exact hafter g (List.mem_reverse.mp hg)

theorem stored?_kept_eq_none_iff :
    (kept keep fs).stored? (some stored) = none
      ↔ ∀ f ∈ fs, keep f = true → f.storedAs ≠ stored := by
  simp only [stored?_kept, Option.map_eq_none_iff, List.find?_eq_none, List.mem_reverse,
    decide_eq_true_eq, not_and]

theorem stored?_kept_absent : (kept keep fs).stored? none = none := by
  rw [kept, stored?_eq_find?, List.find?_eq_none]
  intro m hm
  obtain ⟨f, -, rfl⟩ := List.mem_map.mp (List.mem_reverse.mp hm)
  exact Bool.false_ne_true

end Stored

end Resolver

end DocumentAccess
