import DocumentAccess.Mapping
import DocumentAccess.Proofs.Outcome
import Mathlib.Data.List.Induction
import Mathlib.Data.List.Nodup

/-!
# What a resolver's tables say

A resolver made of mappings finds each of them by its domain name and by its
stored name, as long as no name is declared twice (`mapping?_ofMappings`,
`stored?_ofMappings`). Where mappings share a stored name, the last one of them is
found (`stored?_eq_find?`). The resolver without mappings leaves names and values
as they are.
-/

namespace DocumentAccess

/-! ## Tables of distinct keys -/

/-- Where no key is repeated, what stands in front of a place has other keys. -/
theorem nodup_front {α κ : Type} {key : α → κ} {before after : List α} {a : α}
    (h : ((before ++ a :: after).map key).Nodup) :
    (before.map key).Nodup ∧ ∀ b ∈ before, key b ≠ key a := by
  rw [List.map_append, List.nodup_append] at h
  obtain ⟨hbefore, -, hapart⟩ := h
  exact ⟨hbefore, fun b hb => hapart (key b) (List.mem_map_of_mem hb) (key a)
    (List.mem_map_of_mem (List.mem_cons_self ..))⟩

namespace Table

variable {κ α : Type} [BEq κ] {entries : List (κ × α)} {key : κ} {a : α}

theorem ofList_concat (entries : List (κ × α)) (key : κ) (a : α) :
    ofList (entries ++ [(key, a)]) = set (ofList entries) key a :=
  List.foldl_concat ..

variable [LawfulBEq κ]

/-- With distinct keys, a table holds the entries that it is made of. -/
theorem lookup_ofList (h : (entries.map Prod.fst).Nodup) :
    (ofList entries).lookup key = some a ↔ (key, a) ∈ entries := by
  induction entries using List.reverseRecOn with
  | nil => simp [ofList]
  | append_singleton entries e ih =>
      obtain ⟨last, b⟩ := e
      obtain ⟨hentries, hnew⟩ := nodup_front h
      have hlast : ∀ b, (last, b) ∉ entries := fun b hb => hnew (last, b) hb rfl
      rw [ofList_concat, lookup_set, List.mem_append, List.mem_singleton]
      split
      case isTrue heq =>
        obtain rfl := eq_of_beq heq
        simp [hlast, eq_comm]
      case isFalse hne =>
        have hkey : key ≠ last := fun h => hne (beq_iff_eq.mpr h)
        simp [ih hentries, hkey]

theorem set_new (h : ∀ e ∈ entries, e.1 ≠ key) : set entries key a = entries ++ [(key, a)] := by
  induction entries with
  | nil => rfl
  | cons e entries ih =>
      obtain ⟨hfirst, hrest⟩ := List.forall_mem_cons.mp h
      rw [set, if_neg fun heq => hfirst (eq_of_beq heq), ih hrest]
      rfl

/-- Entries of distinct keys are a table as they are. -/
theorem ofList_distinct (h : (entries.map Prod.fst).Nodup) : ofList entries = entries := by
  induction entries using List.reverseRecOn with
  | nil => rfl
  | append_singleton entries e ih =>
      obtain ⟨hentries, hnew⟩ := nodup_front h
      rw [ofList_concat, ih hentries, set_new hnew]

end Table

namespace Resolver

/-! ## Resolvers of distinct names -/

variable {ms : List FieldMapping} {m : FieldMapping} {name : String} {stored : FieldName}

theorem ofMappings_concat (ms : List FieldMapping) (m : FieldMapping) :
    ofMappings (ms ++ [m]) = (ofMappings ms).add m :=
  List.foldl_concat ..

theorem byDomain_ofMappings (ms : List FieldMapping) :
    (ofMappings ms).byDomain = Table.ofList (ms.map fun m => (m.domain, m)) := by
  induction ms using List.reverseRecOn with
  | nil => rfl
  | append_singleton ms m ih =>
      rw [List.map_append, List.map_singleton, Table.ofList_concat, ← ih, ofMappings_concat]
      rfl

theorem byStorage_ofMappings (ms : List FieldMapping) :
    (ofMappings ms).byStorage = Table.ofList (ms.map fun m => (m.storage, m)) := by
  induction ms using List.reverseRecOn with
  | nil => rfl
  | append_singleton ms m ih =>
      rw [List.map_append, List.map_singleton, Table.ofList_concat, ← ih, ofMappings_concat]
      rfl

theorem mapping?_ofMappings (h : (ms.map (·.domain)).Nodup) :
    (ofMappings ms).mapping? name = some m ↔ m ∈ ms ∧ m.domain = name := by
  have hkeys : ((ms.map fun m => (m.domain, m)).map Prod.fst).Nodup := by
    rwa [List.map_map]
  rw [mapping?, byDomain_ofMappings, Table.lookup_ofList hkeys]
  simp [and_comm]

theorem stored?_ofMappings (h : (ms.map (·.storage)).Nodup) :
    (ofMappings ms).stored? stored = some m ↔ m ∈ ms ∧ m.storage = stored := by
  have hkeys : ((ms.map fun m => (m.storage, m)).map Prod.fst).Nodup := by
    rwa [List.map_map]
  rw [stored?, byStorage_ofMappings, Table.lookup_ofList hkeys]
  simp [and_comm]

/-- Of the mappings that store under a name, the last one is found. -/
theorem stored?_eq_find? (ms : List FieldMapping) (stored : FieldName) :
    (ofMappings ms).stored? stored = ms.reverse.find? fun m => stored == m.storage := by
  induction ms using List.reverseRecOn with
  | nil => rfl
  | append_singleton ms last ih =>
      rw [ofMappings_concat, stored?_add, List.reverse_concat, List.find?_cons, ih]
      cases stored == last.storage <;> rfl

/-- What is found in a resolver is one of the mappings that it is made of. -/
theorem mem_of_mapping? (h : (ofMappings ms).mapping? name = some m) : m ∈ ms := by
  induction ms using List.reverseRecOn with
  | nil => exact nomatch h
  | append_singleton ms last ih =>
      rw [ofMappings_concat, mapping?_add] at h
      split at h
      · obtain rfl := Option.some.inj h
        exact List.mem_append_right _ (List.mem_singleton_self _)
      · exact List.mem_append_left _ (ih h)

/-! ## The resolver without mappings -/

theorem resolveField_empty (name : String) : empty.resolveField name = some name := by
  rw [resolveField]
  cases splitPath? name <;> rfl

theorem storeValue_empty (name : String) (v : Value) : empty.storeValue name v = .ok v := rfl

theorem mapM_storeValue_empty (name : String) (items : List Value) :
    items.mapM (empty.storeValue name) = .ok items :=
  mapM_eq_ok_iff.mpr (List.forall₂_same.mpr fun v _ => storeValue_empty name v)

theorem storeOperand_empty (name : String) (op operand : Value) :
    empty.storeOperand name op operand = .ok operand := by
  unfold storeOperand
  split
  · split
    · rw [mapM_storeValue_empty]
      rfl
    · rfl
  · rfl

theorem storeEntry_empty (name : String) (v : Value) : empty.storeEntry name v = .ok v := by
  unfold storeEntry
  split
  · split
    · refine bind_eq_ok_iff.mpr ⟨_, mapM_eq_ok_iff.mpr (List.forall₂_same.mpr ?_), rfl⟩
      rintro ⟨op, operand⟩ -
      exact bind_eq_ok_iff.mpr ⟨operand, storeOperand_empty name op operand, rfl⟩
    · rfl
  · rfl

end Resolver

end DocumentAccess
