import DocumentAccess.Proofs.Migration.Registry

/-!
# What a registry accepts

Migrations are registered one at a time or several in a call (`RegistryCall`). One is
accepted exactly if its id and its version are new (`register_ok_iff`), and several
exactly if each of them is new behind those before it (`registerAll_ok_iff`). A call
that is refused midway has taken what came before the one that was refused
(`registerAll_cases`).

**`registry_lawful`**: after any calls the registry holds the migrations that were
accepted (`acceptedBy`, read off the answers) and no others, and lists each of them
once, with an id of its own and strictly ascending by version.
-/

namespace DocumentAccess

/-- A call on a registry. -/
inductive RegistryCall where
  | register (u : MigrationUnit)
  | registerAll (us : List MigrationUnit)

/-- The migrations that a call is about. -/
def RegistryCall.units : RegistryCall → List MigrationUnit
  | register u => [u]
  | registerAll us => us

namespace MigrationRegistry

/-- Makes a call. -/
def call (r : MigrationRegistry) : RegistryCall → Except Error Unit × MigrationRegistry
  | .register u => r.register u
  | .registerAll us => r.registerAll us

/-- Makes calls one after another, whatever they come to. -/
def callAll (r : MigrationRegistry) (calls : List RegistryCall) : MigrationRegistry :=
  calls.foldl (fun r c => (r.call c).2) r

/-! ## What is accepted -/

/-- Whether neither the id nor the version of a migration is registered. -/
structure New (r : MigrationRegistry) (u : MigrationUnit) : Prop where
  id : u.id ∉ r.units.map (·.id)
  version : u.version ∉ r.units.map (·.version)

/-- Whether each of some migrations is new when those before it are registered. -/
def AllNew (r : MigrationRegistry) (us : List MigrationUnit) : Prop :=
  ∀ front u back, us = front ++ u :: back → New ⟨r.units ++ front⟩ u

/-- The migrations that are accepted when a list of them is registered in turn, up to the
    first one that is not. -/
def accepted (r : MigrationRegistry) : List MigrationUnit → List MigrationUnit
  | [] => []
  | u :: us =>
    match r.register u with
    | (.ok _, s) => u :: s.accepted us
    | (.error _, _) => []

/-- The migrations that are accepted by calls one after another. -/
def acceptedBy (r : MigrationRegistry) : List RegistryCall → List MigrationUnit
  | [] => []
  | c :: cs => r.accepted c.units ++ (r.call c).2.acceptedBy cs

variable {r : MigrationRegistry} {u : MigrationUnit}

/-- A migration is accepted exactly if its id and its version are new. -/
theorem register_ok_iff : (∃ s, r.register u = (.ok (), s)) ↔ r.New u := by
  constructor
  · rintro ⟨s, hs⟩
    obtain ⟨hid, hversion⟩ := new_of_register hs
    exact ⟨hid, hversion⟩
  · intro h
    have hid : ¬ r.units.any (fun v => decide (v.id = u.id)) = true := by
      intro hany
      obtain ⟨v, hv, he⟩ := List.any_eq_true.mp hany
      exact h.id (List.mem_map.mpr ⟨v, hv, of_decide_eq_true he⟩)
    have hversion : r.units.find? (fun v => decide (v.version = u.version)) = none := by
      refine List.find?_eq_none.mpr fun v hv he => ?_
      exact h.version (List.mem_map.mpr ⟨v, hv, of_decide_eq_true he⟩)
    exact ⟨⟨r.units ++ [u]⟩, by rw [register, if_neg hid, hversion]⟩

theorem allNew_cons {us : List MigrationUnit} :
    r.AllNew (u :: us) ↔ r.New u ∧ AllNew ⟨r.units ++ [u]⟩ us := by
  constructor
  · refine fun h => ⟨?_, fun front v back hus => ?_⟩
    · have hu := h [] u us rfl
      rwa [List.append_nil] at hu
    · have hv := h (u :: front) v back (congrArg (u :: ·) hus)
      rwa [List.append_cons] at hv
  · rintro ⟨hu, hus⟩ (_ | ⟨w, front⟩) v back hsplit
    · obtain ⟨rfl, -⟩ := List.cons.inj hsplit
      rwa [List.append_nil]
    · obtain ⟨rfl, hrest⟩ := List.cons.inj hsplit
      rw [List.append_cons]
      exact hus front v back hrest

/-- Several migrations are accepted exactly if each is new behind those before it. -/
theorem registerAll_ok_iff (r : MigrationRegistry) (us : List MigrationUnit) :
    (∃ s, r.registerAll us = (.ok (), s)) ↔ r.AllNew us := by
  induction us generalizing r with
  | nil =>
      refine ⟨fun _ front u back h => ?_, fun _ => ⟨r, rfl⟩⟩
      exact absurd h.symm (List.append_ne_nil_of_right_ne_nil front (List.cons_ne_nil u back))
  | cons u us ih =>
      rw [registerAll, allNew_cons]
      split
      case h_2 e s hs =>
        constructor
        · rintro ⟨s, hok⟩
          cases hok
        · rintro ⟨hu, -⟩
          obtain ⟨s, hok⟩ := register_ok_iff.mpr hu
          cases hs.symm.trans hok
      case h_1 s hs =>
        obtain rfl : s = ⟨r.units ++ [u]⟩ := congrArg mk (units_register hs)
        exact (ih _).trans (and_iff_right (register_ok_iff.mp ⟨_, hs⟩)).symm

/-! ## What a call leaves -/

/-- To register one migration is to register a list of one. -/
theorem call_eq_registerAll (r : MigrationRegistry) (c : RegistryCall) :
    r.call c = r.registerAll c.units := by
  cases c with
  | registerAll us => rfl
  | register u =>
      rw [call, RegistryCall.units, registerAll]
      split
      case h_1 s hs => exact hs
      case h_2 e s hs => exact hs

/-- What was accepted is registered behind the others, in turn. -/
theorem units_registerAll (r : MigrationRegistry) (us : List MigrationUnit) :
    (r.registerAll us).2.units = r.units ++ r.accepted us := by
  induction us generalizing r with
  | nil => exact (List.append_nil _).symm
  | cons u us ih =>
      rw [registerAll, accepted]
      rcases hu : r.register u with ⟨e | ⟨⟩, s⟩
      case error =>
        obtain rfl := register_refused hu
        exact (List.append_nil _).symm
      case ok =>
        show (s.registerAll us).2.units = r.units ++ u :: s.accepted us
        rw [ih s, units_register hu, List.append_assoc]
        rfl

/-- A list is registered as a whole, or up to the first migration that is refused: what came
    before it was registered, and the error is that of registering it then. -/
theorem registerAll_cases (r : MigrationRegistry) (us : List MigrationUnit) :
    (∃ s, r.registerAll us = (.ok (), s) ∧ s.units = r.units ++ us)
      ∨ ∃ front u back s e, us = front ++ u :: back ∧ r.registerAll front = (.ok (), s)
        ∧ s.units = r.units ++ front ∧ s.register u = (.error e, s)
        ∧ r.registerAll us = (.error e, s) := by
  induction us generalizing r with
  | nil => exact .inl ⟨r, rfl, (List.append_nil _).symm⟩
  | cons u us ih =>
      rw [registerAll]
      split
      case h_2 e s hs =>
        obtain rfl := register_refused hs
        exact .inr ⟨[], u, us, s, e, rfl, rfl, (List.append_nil _).symm, hs, rfl⟩
      case h_1 s hs =>
        have hunits (vs : List MigrationUnit) : s.units ++ vs = r.units ++ u :: vs := by
          rw [units_register hs, List.append_assoc]
          rfl
        rcases ih s with ⟨t, ht, htunits⟩ | ⟨front, v, back, t, e, rfl, hfront, htunits, hv, ht⟩
        · exact .inl ⟨t, ht, htunits.trans (hunits us)⟩
        · refine .inr ⟨u :: front, v, back, t, e, rfl, ?_, htunits.trans (hunits front), hv, ht⟩
          rw [registerAll, hs]
          exact hfront

/-! ## Any calls -/

theorem units_callAll (calls : List RegistryCall) (r : MigrationRegistry) :
    (r.callAll calls).units = r.units ++ r.acceptedBy calls := by
  induction calls generalizing r with
  | nil => exact (List.append_nil _).symm
  | cons c cs ih =>
      show ((r.call c).2.callAll cs).units = r.units ++ (r.accepted c.units ++ _)
      rw [ih, call_eq_registerAll, units_registerAll, List.append_assoc]

theorem Built.callAll (h : r.Built) (calls : List RegistryCall) : (r.callAll calls).Built := by
  induction calls generalizing r with
  | nil => exact h
  | cons c cs ih =>
      refine ih (r := (r.call c).2) ?_
      rw [call_eq_registerAll]
      exact (h.registerAll c.units).1

/-- **A REGISTRY HOLDS WHAT IT ACCEPTED, ONCE AND IN ORDER.** After any calls, refused ones
    included: a migration is accepted exactly if neither its id nor its version is registered,
    and several exactly if this holds of each behind those before it; one that is refused leaves
    the registry as it was, and a call of several that is refused at one of them keeps those
    before it and no others; and the migrations in order are all that were accepted so far, each
    once, with ids of their own and strictly ascending versions. -/
theorem registry_lawful (calls : List RegistryCall) :
    let r := empty.callAll calls
    (∀ u, (∃ s, r.call (.register u) = (.ok (), s)) ↔ r.New u)
      ∧ (∀ u s e, r.call (.register u) = (.error e, s) → s = r)
      ∧ (∀ us, (∃ s, r.call (.registerAll us) = (.ok (), s)) ↔ r.AllNew us)
      ∧ (∀ us s e, r.call (.registerAll us) = (.error e, s) →
        ∃ front u back, us = front ++ u :: back ∧ r.AllNew front ∧ s.units = r.units ++ front
          ∧ ¬ s.New u)
      ∧ r.ordered.Perm (empty.acceptedBy calls) ∧ (r.ordered.map (·.id)).Nodup
      ∧ r.ordered.Pairwise fun u v => u.version < v.version := by
  intro r
  have hbuilt : r.Built := Built.empty.callAll calls
  refine ⟨fun u => ?_, fun u s e h => ?_, r.registerAll_ok_iff, fun us s e h => ?_, ?_,
    hbuilt.ordered_ids, hbuilt.ordered_ascending⟩
  · exact register_ok_iff
  · exact register_refused h
  · rw [call] at h
    obtain ⟨t, ht, -⟩ | ⟨front, u, back, t, _, hus, hfront, ht, hu, hall⟩ :=
      r.registerAll_cases us
    · exact nomatch h.symm.trans ht
    · obtain rfl : s = t := congrArg Prod.snd (h.symm.trans hall)
      refine ⟨front, u, back, hus, (r.registerAll_ok_iff front).mp ⟨s, hfront⟩, ht, fun hnew => ?_⟩
      obtain ⟨_, hok⟩ := register_ok_iff.mpr hnew
      exact nomatch hu.symm.trans hok
  · rw [← List.nil_append (empty.acceptedBy calls)]
    exact units_callAll calls empty ▸ List.mergeSort_perm _ _

end MigrationRegistry

end DocumentAccess
