import DocumentAccess.Migration
import Mathlib.Data.List.Nodup

/-!
# Registries that were built by registration

Registration refuses an id or a version that is taken, so in every registry
that was built by it ids and versions are unique, and its migrations have one
order: strictly ascending by version (`Built.ordered_ascending`).
-/

namespace DocumentAccess

/-! ## Sorting by a number -/

/-- Sorting depends on how the items compare with each other, and on nothing else. -/
theorem mergeSort_congr {α : Type} {r s : α → α → Bool} {xs : List α}
    (h : ∀ x ∈ xs, ∀ y ∈ xs, r x y = s x y) : xs.mergeSort r = xs.mergeSort s := by
  have hsame : (xs.mergeSort r).map id = (xs.map id).mergeSort s := List.map_mergeSort h
  rwa [List.map_id, List.map_id] at hsame

/-- What is sorted by a number is in its order. -/
theorem pairwise_mergeSort_key {α : Type} {le : α → α → Bool} (key : α → Int) {xs : List α}
    (h : ∀ x ∈ xs, ∀ y ∈ xs, le x y = decide (key x ≤ key y)) :
    (xs.mergeSort le).Pairwise fun x y => key x ≤ key y := by
  rw [mergeSort_congr h]
  refine List.Pairwise.imp of_decide_eq_true
    (List.pairwise_mergeSort (fun a b c hab hbc => ?_) (fun a b => ?_) xs)
  · exact decide_eq_true (Int.le_trans (of_decide_eq_true hab) (of_decide_eq_true hbc))
  · rcases Int.le_total (key a) (key b) with h | h <;> simp [h]

/-- Sorting by a number finds the one arrangement whose numbers are strictly ascending. -/
theorem mergeSort_eq_of_key {α : Type} {le : α → α → Bool} (key : α → Int) {xs ys : List α}
    (h : ∀ x ∈ xs, ∀ y ∈ xs, le x y = decide (key x ≤ key y)) (hperm : xs.Perm ys)
    (hascending : ys.Pairwise fun x y => key x < key y) : xs.mergeSort le = ys := by
  have hkeys : (ys.map key).Nodup := List.pairwise_map.mpr (hascending.imp Int.ne_of_lt)
  have hsame : (xs.mergeSort le).Perm ys := (List.mergeSort_perm _ _).trans hperm
  refine hsame.eq_of_pairwise (fun x y hx hy hxy hyx => ?_) (pairwise_mergeSort_key key h)
    (hascending.imp Int.le_of_lt)
  exact List.inj_on_of_nodup_map hkeys (hsame.mem_iff.mp hx) hy (Int.le_antisymm hxy hyx)

/-! ## Registries -/

namespace MigrationRegistry

/-- The registries that come about by registering migrations one after another. -/
inductive Built : MigrationRegistry → Prop where
  | empty : Built .empty
  | register {r s : MigrationRegistry} (u : MigrationUnit) :
      Built r → r.register u = (.ok (), s) → Built s

/-- Each id and each version is registered once. -/
structure Unique (r : MigrationRegistry) : Prop where
  ids : (r.units.map (·.id)).Nodup
  versions : (r.units.map (·.version)).Nodup

/-- A migration that is refused leaves the registry as it was. -/
theorem register_refused {r s : MigrationRegistry} {u : MigrationUnit} {e : Error}
    (h : r.register u = (.error e, s)) : s = r := by
  rw [register] at h
  split at h
  · exact (congrArg Prod.snd h).symm
  · split at h
    · exact (congrArg Prod.snd h).symm
    · exact nomatch h

/-- A migration is only registered under an id and a version that are new. -/
theorem new_of_register {r s : MigrationRegistry} {u : MigrationUnit}
    (h : r.register u = (.ok (), s)) :
    u.id ∉ r.units.map (·.id) ∧ u.version ∉ r.units.map (·.version) := by
  rw [register] at h
  split at h
  · exact nomatch h
  · rename_i hid
    split at h
    · exact nomatch h
    · rename_i hversion
      constructor
      · intro hm
        obtain ⟨v, hv, he⟩ := List.mem_map.mp hm
        exact hid (List.any_eq_true.mpr ⟨v, hv, decide_eq_true he⟩)
      · intro hm
        obtain ⟨v, hv, he⟩ := List.mem_map.mp hm
        exact List.find?_eq_none.mp hversion v hv (decide_eq_true he)

theorem Unique.register {r s : MigrationRegistry} {u : MigrationUnit} (h : r.Unique)
    (hs : r.register u = (.ok (), s)) : s.Unique := by
  obtain ⟨hid, hversion⟩ := new_of_register hs
  constructor
  · rw [units_register hs, List.map_append, List.map_singleton]
    exact (List.perm_append_singleton _ _).nodup_iff.mpr (List.nodup_cons.mpr ⟨hid, h.ids⟩)
  · rw [units_register hs, List.map_append, List.map_singleton]
    exact (List.perm_append_singleton _ _).nodup_iff.mpr
      (List.nodup_cons.mpr ⟨hversion, h.versions⟩)

theorem Built.unique {r : MigrationRegistry} (h : r.Built) : r.Unique := by
  induction h with
  | empty => exact ⟨List.nodup_nil, List.nodup_nil⟩
  | register u _ hs ih => exact ih.register hs

/-- Registering migrations in turn leaves a registry that was built by registration, with
    the migrations that were there and some of these behind them. -/
theorem Built.registerAll {r : MigrationRegistry} (h : r.Built) (us : List MigrationUnit) :
    (r.registerAll us).2.Built
      ∧ ∃ vs, (r.registerAll us).2.units = r.units ++ vs ∧ ∀ v ∈ vs, v ∈ us := by
  induction us generalizing r with
  | nil => exact ⟨h, [], (List.append_nil _).symm, fun _ hv => absurd hv List.not_mem_nil⟩
  | cons u us ih =>
      rw [MigrationRegistry.registerAll]
      split
      case h_2 e s hs =>
        obtain rfl := register_refused hs
        exact ⟨h, [], (List.append_nil _).symm, fun _ hv => absurd hv List.not_mem_nil⟩
      case h_1 s hs =>
        obtain ⟨hbuilt, vs, hunits, hvs⟩ := ih (h.register u hs)
        refine ⟨hbuilt, u :: vs, ?_, List.forall_mem_cons.mpr ⟨List.mem_cons_self .., ?_⟩⟩
        · rw [hunits, units_register hs, List.append_assoc]
          rfl
        · exact fun v hv => List.mem_cons_of_mem u (hvs v hv)

theorem mem_ordered {r : MigrationRegistry} {u : MigrationUnit} :
    u ∈ r.ordered ↔ u ∈ r.units :=
  (List.mergeSort_perm _ _).mem_iff

/-- The registered migrations in ascending order are the order that they are run in. -/
theorem ordered_eq {r : MigrationRegistry} {us : List MigrationUnit} (hperm : r.units.Perm us)
    (hascending : us.Pairwise fun u v => u.version < v.version) : r.ordered = us :=
  mergeSort_eq_of_key MigrationUnit.version (fun _ _ _ _ => rfl) hperm hascending

/-- The migrations of a built registry have strictly ascending versions. -/
theorem Built.ordered_ascending {r : MigrationRegistry} (h : r.Built) :
    r.ordered.Pairwise fun u v => u.version < v.version := by
  have hle : r.ordered.Pairwise fun u v => u.version ≤ v.version :=
    pairwise_mergeSort_key MigrationUnit.version fun _ _ _ _ => rfl
  have hne : r.ordered.Pairwise fun u v => u.version ≠ v.version := by
    have hp : (r.ordered.map (·.version)).Perm (r.units.map (·.version)) :=
      (List.mergeSort_perm _ _).map _
    exact List.pairwise_map.mp (hp.nodup_iff.mpr h.unique.versions)
  exact (hle.and hne).imp fun ⟨hl, hn⟩ => by omega

/-- The migrations of a built registry have distinct ids, in order as well. -/
theorem Built.ordered_ids {r : MigrationRegistry} (h : r.Built) :
    (r.ordered.map (·.id)).Nodup := by
  have hp : (r.ordered.map (·.id)).Perm (r.units.map (·.id)) :=
    (List.mergeSort_perm _ _).map _
  exact hp.nodup_iff.mpr h.unique.ids

/-- A registered migration is found under its id. -/
theorem Unique.find?_eq {r : MigrationRegistry} (h : r.Unique) {u : MigrationUnit}
    (hu : u ∈ r.units) : r.find? (.str u.id) = some u := by
  cases hfound : r.find? (.str u.id) with
  | none =>
      have hsame : (Value.str u.id).same (.str u.id) = true := (Value.same_str_iff _ _).mpr rfl
      exact absurd hsame (List.find?_eq_none.mp hfound u hu)
  | some v =>
      have hsame := List.find?_some (show r.units.find? _ = some v from hfound)
      have hid := Value.str.inj ((Value.same_str_iff _ _).mp hsame)
      rw [List.inj_on_of_nodup_map h.ids (List.mem_of_find?_eq_some hfound) hu hid]

end MigrationRegistry

end DocumentAccess
