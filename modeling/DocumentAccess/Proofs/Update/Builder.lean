import DocumentAccess.Proofs.Mapping.Tables
import DocumentAccess.Proofs.Text.Pieces
import DocumentAccess.Proofs.Update.Placement

/-!
# What a builder accepts

A builder compares paths as texts: one lies below another if it goes on behind
it with a dot. That is the same as comparing lists of segments, where two paths
overlap if one list starts with the other (`overlaps_iff_segments`).

**`Update.accepts_apart`** says what a builder does with any calls, good or bad:
a call is carried out exactly if what it is given is valid and its path overlaps
no recorded one, and changes nothing otherwise. So recorded operations never
overlap, valid calls are all accepted exactly if their paths do not overlap, in
whatever order they are made, and without mappings the update document has each
operation once, under its operator and in order.
-/

namespace DocumentAccess

/-! ## Segments -/

/-- The segments of a path, between its dots. -/
def segments (path : String) : List (List Char) := Text.splitChars '.' path.toList

/-- Two paths overlap if the segments of one are the first ones of the other. -/
def SegmentsOverlap (p q : String) : Prop := segments p <+: segments q ∨ segments q <+: segments p

instance (p q : String) : Decidable (SegmentsOverlap p q) :=
  inferInstanceAs (Decidable (_ ∨ _))

section Segments

variable {p q : String}

/-- Lists of segments start alike exactly if the texts do, with a dot behind each
    segment. -/
theorem flatMap_prefix_iff {xs ys : List (List Char)} (hxs : ∀ x ∈ xs, '.' ∉ x)
    (hys : ∀ y ∈ ys, '.' ∉ y) :
    xs.flatMap (· ++ ['.']) <+: ys.flatMap (· ++ ['.']) ↔ xs <+: ys := by
  induction xs generalizing ys with
  | nil => exact ⟨fun _ => List.nil_prefix, fun _ => List.nil_prefix⟩
  | cons x xs ih =>
      cases ys with
      | nil => simp
      | cons y ys =>
          obtain ⟨hx, hxs⟩ := List.forall_mem_cons.mp hxs
          obtain ⟨hy, hys⟩ := List.forall_mem_cons.mp hys
          rw [List.flatMap_cons, List.flatMap_cons, List.append_assoc, List.append_assoc,
            List.singleton_append, List.singleton_append, prefix_at_dot hx hy, ih hxs hys,
            List.cons_prefix_cons]

theorem covers_iff_segments : Covers p q ↔ segments p <+: segments q := by
  rw [Covers, ← flatMap_splitChars, ← flatMap_splitChars]
  exact flatMap_prefix_iff (fun _ => not_mem_splitChars) fun _ => not_mem_splitChars

/-- Paths overlap as texts exactly if they do as lists of segments. -/
theorem overlaps_iff_segments : Overlaps p q ↔ SegmentsOverlap p q := by
  rw [overlaps_iff, covers_iff_segments, covers_iff_segments, SegmentsOverlap]

theorem SegmentsOverlap.symm (h : SegmentsOverlap p q) : SegmentsOverlap q p := Or.symm h

end Segments

/-! ## Calls -/

/-- A number; a truth value is none. -/
def Value.IsQuantity : Value → Prop
  | .int _ | .float _ => True
  | _ => False

/-- A value that has a stored form. -/
def Value.IsPreparable (v : Value) : Prop := ∃ w, v.prepare = .ok w

/-- What a call takes: how many arguments, and of which kind. -/
def UpdateCall.Takes : UpdateCall → List Value → Prop
  | .set, [v] | .min, [v] | .max, [v] => v.IsPreparable
  | .pull, [v] => isNativeCondition v = true ∨ v.IsPreparable
  | .unset, [] | .increment, [] | .decrement, [] | .pop, [] => True
  | .increment, [v] | .decrement, [v] | .mul, [v] => v.IsQuantity
  | .push, items => items ≠ [] ∧ ∀ v ∈ items, v.IsPreparable
  | .pop, [v] => v.same (.int 1) = true ∨ v.same (.int (-1)) = true
  | _, _ => False

namespace UpdateRequest

variable {r : UpdateRequest} {op : UpdateOperation}

/-- A request is valid if its call takes the arguments and its field is one. -/
def IsValid (r : UpdateRequest) : Prop :=
  r.call.Takes r.arguments ∧ ∃ path, r.field.path = .ok path

/-- The paths of two requests do not overlap. -/
def Apart (r s : UpdateRequest) : Prop :=
  ∀ p q, r.field.path = .ok p → s.field.path = .ok q → ¬ SegmentsOverlap p q

theorem Apart.symm {s : UpdateRequest} (h : r.Apart s) : s.Apart r :=
  fun p q hp hq hoverlap => h q p hq hp hoverlap.symm

section Actions

variable {α : Type} {x : Except Error α} {f : α → UpdateAction}

theorem exists_return_iff : (∃ a, (do return f (← x)) = Except.ok a) ↔ ∃ w, x = .ok w := by
  constructor
  · rintro ⟨a, h⟩
    obtain ⟨w, hw, -⟩ := bind_eq_ok_iff.mp h
    exact ⟨w, hw⟩
  · rintro ⟨w, hw⟩
    exact ⟨f w, bind_eq_ok_iff.mpr ⟨w, hw, rfl⟩⟩

/-- What a call makes of a number or of a condition is prepared already. -/
theorem exists_return_prepared_iff (hf : ∀ w, (f w).prepared = .ok (f w)) :
    (∃ a, (do return f (← x)) >>= UpdateAction.prepared = Except.ok a) ↔ ∃ w, x = .ok w := by
  rw [← exists_return_iff (f := f)]
  cases x with
  | error e => exact Iff.rfl
  | ok w => exact iff_of_true ⟨f w, hf w⟩ ⟨f w, rfl⟩

end Actions

/-- A number is recorded for an action exactly if it is one. -/
theorem exists_numeric_iff {role : String} {v : Value} :
    (∃ w, UpdateCall.numeric role v = .ok w) ↔ v.IsQuantity := by
  cases v with
  | int _ | float _ => exact ⟨fun _ => trivial, fun _ => ⟨_, rfl⟩⟩
  | _ => exact ⟨nofun, False.elim⟩

theorem exists_position_iff {v : Value} : (∃ w, UpdateCall.position v = .ok w)
    ↔ v.same (.int 1) = true ∨ v.same (.int (-1)) = true := by
  rw [UpdateCall.position, ← Bool.or_eq_true]
  split
  case isTrue h => exact ⟨fun _ => h, fun _ => ⟨_, rfl⟩⟩
  case isFalse h => exact ⟨nofun, fun h' => absurd h' h⟩

theorem exists_pulled_iff {v : Value} : (∃ w, UpdateCall.pulled v = .ok w)
    ↔ UpdateCall.isNativeCondition v = true ∨ v.IsPreparable := by
  rw [UpdateCall.pulled]
  split
  case isTrue h => exact ⟨fun _ => .inl h, fun _ => ⟨_, rfl⟩⟩
  case isFalse h => exact ⟨.inr, fun h' => h'.resolve_left h⟩

theorem exists_prepared_items_iff {items : List Value} :
    (∃ ws, items.mapM Value.prepare = .ok ws) ↔ ∀ v ∈ items, v.IsPreparable := by
  simp only [mapM_eq_ok_iff]
  constructor
  · rintro ⟨ws, hws⟩ v hv
    obtain ⟨w, -, hw⟩ := exists_mem_of_forall₂ hws.flip hv
    exact ⟨w, hw⟩
  · exact exists_forall₂

/-- A call gives an action exactly if it takes its arguments. -/
theorem exists_action_iff {c : UpdateCall} {arguments : List Value} :
    (∃ a, c.action arguments >>= UpdateAction.prepared = .ok a) ↔ c.Takes arguments := by
  have hyes {a : UpdateAction} : (∃ b, (.ok a : Except Error UpdateAction) = .ok b) ↔ True :=
    iff_true_intro ⟨a, rfl⟩
  have hno {e : Error} : (∃ b, (.error e : Except Error UpdateAction) = .ok b) ↔ False :=
    iff_false_intro nofun
  -- The number of arguments decides, and for one argument its kind.
  cases c with
  | set | min | max =>
      rcases arguments with _ | ⟨v, _ | ⟨w, rest⟩⟩
      · exact hno
      · exact exists_return_iff
      · exact hno
  | pull =>
      rcases arguments with _ | ⟨v, _ | ⟨w, rest⟩⟩
      · exact hno
      · exact (exists_return_prepared_iff fun _ => rfl).trans exists_pulled_iff
      · exact hno
  | unset =>
      rcases arguments with _ | ⟨v, rest⟩
      · exact hyes
      · exact hno
  | increment | decrement =>
      rcases arguments with _ | ⟨v, _ | ⟨w, rest⟩⟩
      · exact hyes
      · exact (exists_return_prepared_iff fun _ => rfl).trans exists_numeric_iff
      · exact hno
  | mul =>
      rcases arguments with _ | ⟨v, _ | ⟨w, rest⟩⟩
      · exact hno
      · exact (exists_return_prepared_iff fun _ => rfl).trans exists_numeric_iff
      · exact hno
  | push =>
      rcases arguments with _ | ⟨v, rest⟩
      · exact hno.trans (iff_of_false id fun h => h.1 rfl)
      · exact (exists_return_iff.trans exists_prepared_items_iff).trans
          (and_iff_right (List.cons_ne_nil v rest)).symm
  | pop =>
      rcases arguments with _ | ⟨v, _ | ⟨w, rest⟩⟩
      · exact hyes
      · exact (exists_return_prepared_iff fun _ => rfl).trans exists_position_iff
      · exact hno

/-- A request asks for an operation exactly if it is valid. -/
theorem isValid_iff : r.IsValid ↔ ∃ op, r.operation = .ok op := by
  rw [IsValid, ← exists_action_iff]
  constructor
  · rintro ⟨⟨action, haction⟩, path, hpath⟩
    exact ⟨⟨path, action⟩, UpdateCall.operation_eq_ok_iff.mpr ⟨haction, hpath⟩⟩
  · rintro ⟨op, hop⟩
    obtain ⟨haction, hpath⟩ := UpdateCall.operation_eq_ok_iff.mp hop
    exact ⟨⟨_, haction⟩, _, hpath⟩

/-- An operation is on the path that its request names. -/
theorem path_of_operation (h : r.operation = .ok op) : r.field.path = .ok op.path :=
  (UpdateCall.operation_eq_ok_iff.mp h).2

/-- Valid requests do not overlap exactly if their operations do not. -/
theorem pairwise_apart_iff {rs : List UpdateRequest} {ops : List UpdateOperation}
    (h : List.Forall₂ (fun r op => r.operation = .ok op) rs ops) :
    rs.Pairwise Apart ↔ ops.Pairwise fun a b => ¬ SegmentsOverlap a.path b.path := by
  constructor
  · intro hrs
    refine pairwise_of_forall₂ h hrs fun r s a b ha hb happart => ?_
    exact happart _ _ (path_of_operation ha) (path_of_operation hb)
  · intro hops
    refine pairwise_of_forall₂ h.flip hops fun a b r s ha hb happart p q hp hq => ?_
    rw [Except.ok.inj (hp.symm.trans (path_of_operation ha)),
      Except.ok.inj (hq.symm.trans (path_of_operation hb))]
    exact happart

end UpdateRequest

/-! ## Builders -/

namespace Update

variable {u v : Update} {r : UpdateRequest} {rs : List UpdateRequest} {op : UpdateOperation}

/-- Carries out a request, whatever that comes to. -/
def attempt (u : Update) (r : UpdateRequest) : Update := (u.carryOut r).2

/-- Carries out some requests in turn, whatever they come to. -/
def attemptAll (u : Update) (rs : List UpdateRequest) : Update := rs.foldl attempt u

/-- No two recorded operations overlap. -/
def IsApart (u : Update) : Prop :=
  u.operations.Pairwise fun a b => ¬ SegmentsOverlap a.path b.path

instance (u : Update) : Decidable u.IsApart := inferInstanceAs (Decidable (List.Pairwise _ _))

theorem isApart_iff :
    u.IsApart ↔ u.operations.Pairwise fun a b => ¬ Overlaps a.path b.path := by
  simp only [IsApart, ← overlaps_iff_segments]

/-- A request is carried out exactly if it asks for an operation whose path overlaps no
    recorded one, and then that is recorded behind the others. -/
theorem carryOut_eq_ok_iff :
    u.carryOut r = (.ok (), v) ↔
      ∃ op, r.operation = .ok op ∧ (∀ o ∈ u.operations, ¬ SegmentsOverlap op.path o.path)
        ∧ v = ⟨u.operations ++ [op]⟩ := by
  simp only [← overlaps_iff_segments]
  exact call_eq_ok_iff

/-- A request leaves the recorded operations apart, whether it is carried out or not. -/
theorem IsApart.attempt (h : u.IsApart) (r : UpdateRequest) : (u.attempt r).IsApart := by
  cases hcall : (u.carryOut r).1 with
  | error e =>
      rw [Update.attempt, Update.carryOut, call_refused hcall]
      exact h
  | ok _ =>
      have hok : u.carryOut r = (.ok (), u.attempt r) := Prod.ext hcall rfl
      obtain ⟨op, -, hnew, hv⟩ := carryOut_eq_ok_iff.mp hok
      rw [hv]
      refine List.pairwise_append.mpr ⟨h, List.pairwise_singleton _ _, fun a ha b hb => ?_⟩
      obtain rfl := List.mem_singleton.mp hb
      exact fun hoverlap => hnew a ha hoverlap.symm

/-- So do any requests. -/
theorem IsApart.attemptAll (h : u.IsApart) (rs : List UpdateRequest) :
    (u.attemptAll rs).IsApart := by
  induction rs generalizing u with
  | nil => exact h
  | cons r rs ih => exact ih (h.attempt r)

theorem isApart_empty : Update.empty.IsApart := .nil

/-- Requests are all carried out exactly if the operations that they ask for do not overlap,
    and these are recorded then. -/
theorem carryOutAll_empty_eq_ok_iff :
    empty.carryOutAll rs = (.ok (), v) ↔
      List.Forall₂ (fun r op => r.operation = .ok op) rs v.operations ∧ v.IsApart := by
  rw [carryOutAll_eq_ok_iff (u := empty) .nil, isApart_iff]
  constructor
  · rintro ⟨ops, hops, hapart, rfl⟩
    exact ⟨hops, hapart⟩
  · rintro ⟨hops, hapart⟩
    exact ⟨v.operations, hops, hapart, rfl⟩

/-- Requests that are all carried out are attempted with the same outcome. -/
theorem attemptAll_of_ok (h : u.carryOutAll rs = (.ok (), v)) : u.attemptAll rs = v := by
  induction rs generalizing u with
  | nil => exact congrArg Prod.snd h
  | cons r rs ih =>
      obtain ⟨w, hw, h⟩ := carryOutAll_cons_eq_ok_iff.mp h
      rw [attemptAll, List.foldl_cons, attempt, hw]
      exact ih h

/-- A valid request is refused exactly if its path overlaps a recorded one. -/
theorem refused_iff (h : r.IsValid) :
    (∃ e, (u.carryOut r).1 = .error e) ↔
      ∃ p, r.field.path = .ok p ∧ ∃ o ∈ u.operations, SegmentsOverlap p o.path := by
  obtain ⟨op, hop⟩ := UpdateRequest.isValid_iff.mp h
  have hpath := UpdateRequest.path_of_operation hop
  constructor
  · rintro ⟨e, he⟩
    refine ⟨op.path, hpath, ?_⟩
    by_contra hnone
    -- Without an overlap it would be carried out.
    have hok : u.carryOut r = (.ok (), ⟨u.operations ++ [op]⟩) :=
      carryOut_eq_ok_iff.mpr ⟨op, hop, fun o ho hoverlap => hnone ⟨o, ho, hoverlap⟩, rfl⟩
    rw [hok] at he
    exact nomatch he
  · rintro ⟨p, hp, o, ho, hoverlap⟩
    cases hcall : (u.carryOut r).1 with
    | error e => exact ⟨e, rfl⟩
    | ok _ =>
        obtain ⟨op', hop', hnew, -⟩ := carryOut_eq_ok_iff.mp (Prod.ext hcall rfl)
        obtain rfl := Except.ok.inj (hp.symm.trans (UpdateRequest.path_of_operation hop'))
        exact absurd hoverlap (hnew o ho)

/-- Valid requests are all carried out, in whatever order, exactly if no two of their
    paths overlap. -/
theorem carryOutAll_iff {rs' : List UpdateRequest} (hvalid : ∀ r ∈ rs, r.IsValid)
    (hperm : rs'.Perm rs) :
    (∃ v, empty.carryOutAll rs' = (.ok (), v)) ↔ rs.Pairwise UpdateRequest.Apart := by
  rw [← hperm.pairwise_iff UpdateRequest.Apart.symm]
  obtain ⟨ops, hops⟩ := exists_forall₂ fun r hr =>
    UpdateRequest.isValid_iff.mp (hvalid r (hperm.mem_iff.mp hr))
  constructor
  · rintro ⟨v, hv⟩
    obtain ⟨hops', hapart⟩ := carryOutAll_empty_eq_ok_iff.mp hv
    exact (UpdateRequest.pairwise_apart_iff hops').mpr hapart
  · intro hapart
    have hoverlaps := (UpdateRequest.pairwise_apart_iff hops).mp hapart
    exact ⟨⟨ops⟩, carryOutAll_empty_eq_ok_iff.mpr ⟨hops, hoverlaps⟩⟩

/-! ## Documents -/

/-- What a builder has recorded for an operator, in order: paths and operands. -/
def recorded (u : Update) (native : String) : Document :=
  (u.operations.filter fun op => op.action.inStore.1 == native).map fun op =>
    (.str op.path, op.action.inStore.2)

/-- A document of the recorded operations and nothing else: it has each operator that is in use
    once, with the operations recorded for it in order, so that each operation has one entry. -/
structure Transcribes (u : Update) (d : Document) : Prop where
  distinct : d.Distinct
  groups : ∀ g, g ∈ d ↔ ∃ op ∈ u.operations,
    g = (.str op.action.inStore.1, .doc (u.recorded op.action.inStore.1))
  entries : (fieldEntries d).Perm (u.operations.map UpdateOperation.entry)

section Documents

variable {d fields : Document} {native path : String} {operand : Value} {ops : List UpdateOperation}

theorem recorded_concat (ops : List UpdateOperation) (op : UpdateOperation) (native : String) :
    recorded ⟨ops ++ [op]⟩ native = recorded ⟨ops⟩ native
      ++ if op.action.native = native then [(.str op.path, op.action.operand)] else [] := by
  rw [recorded, List.filter_append, List.map_append, recorded]
  by_cases h : op.action.native = native <;> simp [UpdateAction.inStore_eq, h]

theorem recorded_ne_nil_iff :
    u.recorded native ≠ [] ↔ ∃ op ∈ u.operations, op.action.native = native := by
  simp [recorded, UpdateAction.inStore_eq]

theorem exists_of_mem_recorded {e : Value × Value} (h : e ∈ u.recorded native) :
    ∃ op ∈ u.operations, e = (.str op.path, op.action.operand) := by
  obtain ⟨op, hop, rfl⟩ := List.mem_map.mp h
  exact ⟨op, List.mem_of_mem_filter hop, by rw [UpdateAction.inStore_eq]⟩

/-- Operations on different paths have different keys under each operator. -/
theorem distinct_recorded (h : u.operations.Pairwise fun a b => a.path ≠ b.path)
    (native : String) : (u.recorded native).Distinct :=
  List.pairwise_map.mpr ((h.filter _).imp Value.same_str_of_ne)

/-- A field that is placed under an operator comes behind the operator's other fields. -/
theorem field?_place (hfields : d.field? native = if fields = [] then none else some (.doc fields))
    (hnew : ∀ e ∈ fields, e.1.same (.str path) = false) (other : String) :
    (place d native path operand).field? other
      = if native = other then some (.doc (fields ++ [(.str path, operand)]))
        else d.field? other := by
  rw [place, hfields]
  split
  case h_1 fields' h =>
    split at h
    case isTrue => cases h
    case isFalse =>
      obtain rfl := Value.doc.inj (Option.some.inj h)
      rw [Document.field?_insert, Document.insert_new hnew]
  case h_2 hother =>
    have hempty : fields = [] := by
      by_contra hne
      exact hother fields (if_neg hne)
    rw [Document.field?_insert, hempty, List.nil_append]

/-- Under each operator, the update document has the operations that are recorded for it. -/
theorem field?_toDocument (h : ops.Pairwise fun a b => a.path ≠ b.path) (native : String) :
    (toDocument ⟨ops⟩).field? native
      = if recorded ⟨ops⟩ native = [] then none else some (.doc (recorded ⟨ops⟩ native)) := by
  induction ops using List.reverseRecOn generalizing native with
  | nil => rfl
  | append_singleton ops op ih =>
      obtain ⟨hops, -, hnew⟩ := List.pairwise_append.mp h
      have hfresh : ∀ e ∈ recorded ⟨ops⟩ op.action.native, e.1.same (.str op.path) = false := by
        intro e he
        obtain ⟨o, ho, rfl⟩ := exists_of_mem_recorded he
        exact Value.same_str_of_ne (hnew o ho op (List.mem_singleton_self op))
      rw [toDocument_concat, field?_place (ih hops _) hfresh, recorded_concat]
      split
      case isTrue heq =>
        subst heq
        rw [if_neg (List.append_ne_nil_of_right_ne_nil _ (List.cons_ne_nil _ _))]
      case isFalse =>
        rw [List.append_nil]
        exact ih hops native

/-- The update document transcribes the recorded operations. -/
theorem transcribes_toDocument (h : u.operations.Pairwise fun a b => a.path ≠ b.path) :
    u.Transcribes u.toDocument := by
  obtain ⟨hdoc, hperm⟩ := toDocument_entries h
  refine ⟨hdoc.distinct, fun g => ?_, hperm⟩
  simp only [UpdateAction.inStore_eq]
  constructor
  · intro hg
    obtain ⟨native, fields, rfl, -⟩ := hdoc.operator g hg
    have hfound := hdoc.distinct.field?_eq_some_iff.mpr hg
    rw [field?_toDocument h native] at hfound
    split at hfound
    case isTrue => exact nomatch hfound
    case isFalse hne =>
      obtain ⟨op, hop, rfl⟩ := recorded_ne_nil_iff.mp hne
      exact ⟨op, hop, congrArg (Prod.mk _) (Option.some.inj hfound).symm⟩
  · rintro ⟨op, hop, rfl⟩
    refine hdoc.distinct.field?_eq_some_iff.mp ?_
    rw [field?_toDocument h, if_neg (recorded_ne_nil_iff.mpr ⟨op, hop, rfl⟩)]

end Documents

end Update

/-! ## Factories without mappings -/

namespace Resolver

theorem storedEntry_empty {path : String} (h : path.startsWith "$" = false) (v : Value) :
    empty.storedEntry (.str path, v) = .ok (.str path, v) := by
  rw [storedEntry_of_plain rfl (Bool.eq_false_iff.mp h), storeEntry_empty, resolveField_empty]
  rfl

/-- Without mappings, an update document of plain paths is resolved to itself. -/
theorem resolveObject_empty {u : Update} {d : Document}
    (hpaths : u.operations.Pairwise fun a b => a.path ≠ b.path)
    (hplain : ∀ op ∈ u.operations, op.path.startsWith "$" = false) (h : u.Transcribes d) :
    empty.resolveObject (.doc d) = .ok (.doc d) := by
  have hgroup : ∀ g ∈ d, empty.storedEntry g = .ok g := by
    intro g hg
    obtain ⟨op, -, rfl⟩ := (h.groups g).mp hg
    rw [UpdateAction.inStore_eq]
    have hfields : (u.recorded op.action.native).mapM empty.storedEntry
        = .ok (u.recorded op.action.native) := by
      refine mapM_eq_ok_iff.mpr (List.forall₂_same.mpr fun e he => ?_)
      obtain ⟨o, ho, rfl⟩ := Update.exists_of_mem_recorded he
      exact storedEntry_empty (hplain o ho) _
    rw [storedEntry_group (native_startsWith op.action), hfields]
    show Except.ok (_, Value.doc (Document.ofList _)) = _
    rw [Document.ofList_distinct (Update.distinct_recorded hpaths _)]
  have hall : d.mapM empty.storedEntry = .ok d := mapM_eq_ok_iff.mpr (List.forall₂_same.mpr hgroup)
  rw [resolveObject, resolveEntries_eq, hall]
  show Except.ok (Value.doc (Document.insertAll [] d)) = _
  rw [Document.insertAll_new (d := []) h.distinct]
  rfl

end Resolver

/-- **A builder accepts the updates whose paths do not overlap, and loses none.** After any
    requests, refused ones among them, no two recorded paths overlap. A refused request
    changes nothing, and a valid one is refused exactly if its path overlaps a recorded one; so
    valid requests are all carried out, in whatever order, exactly if no two of their paths
    overlap, and then their operations are recorded in that order. Without mappings, the update
    document transcribes what is recorded. -/
theorem Update.accepts_apart :
    (∀ rs, (empty.attemptAll rs).IsApart)
      ∧ (∀ (u : Update) r, (∃ e, (u.carryOut r).1 = .error e) → (u.carryOut r).2 = u)
      ∧ (∀ (u : Update) (r : UpdateRequest), r.IsValid →
        ((∃ e, (u.carryOut r).1 = .error e) ↔
          ∃ p, r.field.path = .ok p ∧ ∃ o ∈ u.operations, SegmentsOverlap p o.path))
      ∧ (∀ rs rs' : List UpdateRequest, (∀ r ∈ rs, r.IsValid) → rs'.Perm rs →
        ((∃ v, empty.carryOutAll rs' = (.ok (), v)) ↔ rs.Pairwise UpdateRequest.Apart))
      ∧ (∀ rs v, empty.carryOutAll rs = (.ok (), v) → empty.attemptAll rs = v
        ∧ List.Forall₂ (fun r op => r.operation = .ok op) rs v.operations)
      ∧ (∀ rs compiler, (∀ op ∈ (empty.attemptAll rs).operations, op.path.startsWith "$" = false) →
        ∃ d, QueryFactory.buildUpdate ⟨.empty, compiler⟩ (.builder (empty.attemptAll rs))
            = .ok (.doc d)
          ∧ (empty.attemptAll rs).Transcribes d) := by
  refine ⟨fun rs => isApart_empty.attemptAll rs, ?_, fun u r h => refused_iff h,
    fun rs rs' hvalid hperm => carryOutAll_iff hvalid hperm, ?_, ?_⟩
  · rintro u r ⟨e, he⟩
    exact call_refused he
  · intro rs v hv
    exact ⟨attemptAll_of_ok hv, (carryOutAll_empty_eq_ok_iff.mp hv).1⟩
  · intro rs compiler hplain
    have hpaths : (empty.attemptAll rs).operations.Pairwise fun a b => a.path ≠ b.path :=
      (isApart_empty.attemptAll rs).imp fun {a b} happart (heq : a.path = b.path) =>
        happart (.inl (congrArg segments heq ▸ List.prefix_rfl))
    have htranscribes := transcribes_toDocument hpaths
    exact ⟨_, Resolver.resolveObject_empty hpaths hplain htranscribes, htranscribes⟩

/-- Calls of several kinds, one of them on a part of a field that is recorded already. -/
theorem Update.accepts_apart_profile :
    let u : Update := ⟨[⟨"name", .unset⟩, ⟨"visits", .increment (.int (-1))⟩,
      ⟨"city", .set (.str "Rome")⟩, ⟨"tags", .push [.str "a", .int 2]⟩,
      ⟨"seen", .set (.bool true)⟩]⟩
    let calls : List UpdateRequest := [⟨.unset, .name "name", []⟩,
      ⟨.decrement, .name "visits", []⟩, ⟨.set, .name "city", [.str "Rome"]⟩,
      ⟨.push, .name "tags", [.str "a", .int 2]⟩, ⟨.set, .name "seen", [.bool true]⟩]
    let refused : UpdateRequest := ⟨.pop, .name "name.parts", []⟩
    let d : Document := [(.str "$unset", .ofFields [("name", .str "")]),
      (.str "$inc", .ofFields [("visits", .int (-1))]),
      (.str "$set", .ofFields [("city", .str "Rome"), ("seen", .bool true)]),
      (.str "$push", .ofFields [("tags", .ofFields [("$each", .list [.str "a", .int 2])])])]
    (∃ e, (u.carryOut refused).1 = .error e) ∧ (u.carryOut refused).2 = u
      ∧ (∃ v, empty.carryOutAll calls.reverse = (.ok (), v))
      ∧ empty.attemptAll (calls ++ [refused]) = u
      ∧ QueryFactory.buildUpdate ⟨.empty, .standard⟩ (.builder u) = .ok (.doc d)
      ∧ u.Transcribes d := by
  intro u calls refused d
  obtain ⟨-, hunchanged, hrefused, haccepted, hrecorded, hdocument⟩ := Update.accepts_apart
  have hops : List.Forall₂ (fun r op => r.operation = .ok op) calls u.operations := by
    refine .cons ?_ (.cons ?_ (.cons ?_ (.cons ?_ (.cons ?_ .nil)))) <;> with_unfolding_all rfl
  have hapart : u.IsApart := by decide
  have hvalid : ∀ r ∈ calls, r.IsValid := by
    intro r hr
    obtain ⟨op, -, hop⟩ := exists_mem_of_forall₂ hops.flip hr
    exact UpdateRequest.isValid_iff.mpr ⟨op, hop⟩
  have hpop : ∃ e, (u.carryOut refused).1 = .error e :=
    (hrefused u refused ⟨trivial, _, rfl⟩).mpr
      ⟨"name.parts", rfl, _, List.mem_cons_self .., by decide⟩
  have hcalls : empty.carryOutAll calls = (.ok (), u) :=
    carryOutAll_empty_eq_ok_iff.mpr ⟨hops, hapart⟩
  have hattempted : empty.attemptAll (calls ++ [refused]) = u := by
    rw [attemptAll, List.foldl_concat]
    show (Update.carryOut (empty.attemptAll calls) refused).2 = u
    rw [(hrecorded calls u hcalls).1]
    exact hunchanged u refused hpop
  obtain ⟨d', hd', htranscribes⟩ := hdocument (calls ++ [refused]) .standard (by
    rw [hattempted]
    decide +kernel)
  rw [hattempted] at hd' htranscribes
  have hbuild : QueryFactory.buildUpdate ⟨.empty, .standard⟩ (.builder u) = .ok (.doc d) := by
    with_unfolding_all rfl
  obtain rfl := Value.doc.inj (Except.ok.inj (hbuild.symm.trans hd'))
  refine ⟨hpop, hunchanged u refused hpop, ?_, hattempted, hbuild, htranscribes⟩
  exact (haccepted calls _ hvalid (List.reverse_perm _)).mpr
    ((UpdateRequest.pairwise_apart_iff hops).mpr hapart)

end DocumentAccess
