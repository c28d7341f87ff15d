import DocumentAccess.Mapping
import DocumentAccess.Update
import DocumentAccess.Proofs.Outcome
import Mathlib.Data.List.TakeDrop

/-!
# Paths that overlap

Two dotted paths overlap if they are equal or one lies below the other. With a
dot put behind it, a path covers another one exactly if it is a prefix of it
(`covers_iff`), which splits at the first dot: two paths overlap if they have
the same first segment and go on to overlap (`covers_append`). So a renaming of
first segments that keeps different ones apart keeps paths apart.

A builder records no two operations on overlapping paths (**`Built.apart`**).
-/

namespace DocumentAccess

/-! ## Overlap -/

/-- Two paths overlap: they are equal, or one lies below the other. -/
def Overlaps (p q : String) : Prop := p = q ∨ isBelow p q = true ∨ isBelow q p = true

/-- A path and all that lie below it: with a dot behind them they start alike. -/
def Covers (p q : String) : Prop := p.toList ++ ['.'] <+: q.toList ++ ['.']

variable {p q : String}

theorem Overlaps.refl (p : String) : Overlaps p p := .inl rfl

theorem Overlaps.symm (h : Overlaps p q) : Overlaps q p := by
  rcases h with h | h | h
  · exact .inl h.symm
  · exact .inr (.inr h)
  · exact .inr (.inl h)

theorem toList_dotted (p : String) : (p ++ ".").toList = p.toList ++ ['.'] := by
  rw [String.toList_append]
  rfl

/-- A path covers itself and those below it. -/
theorem covers_iff : Covers p q ↔ p = q ∨ isBelow q p = true := by
  rw [isBelow_iff, toList_dotted]
  constructor
  · rintro ⟨rest, hrest⟩
    rcases List.eq_nil_or_concat rest with rfl | ⟨rest, last, rfl⟩
    · rw [List.append_nil] at hrest
      exact .inl (String.toList_inj.mp (List.append_cancel_right hrest))
    · -- The dot behind the longer path is its own.
      rw [List.concat_eq_append, ← List.append_assoc] at hrest
      exact .inr ⟨rest, (List.append_inj' hrest rfl).1.symm⟩
  · rintro (rfl | ⟨rest, hrest⟩)
    · exact List.prefix_refl _
    · rw [Covers, hrest, List.append_assoc]
      exact List.prefix_append ..

theorem overlaps_iff : Overlaps p q ↔ Covers p q ∨ Covers q p := by
  rw [covers_iff, covers_iff, Overlaps, eq_comm (a := q)]
  constructor
  · rintro (h | h | h)
    · exact .inl (.inl h)
    · exact .inr (.inr h)
    · exact .inl (.inr h)
  · rintro ((h | h) | (h | h))
    · exact .inl h
    · exact .inr (.inr h)
    · exact .inl h
    · exact .inr (.inl h)

/-- Texts start alike behind their first dots if they start alike, and up to
    there they are equal. -/
theorem prefix_at_dot {a b x y : List Char} (ha : '.' ∉ a) (hb : '.' ∉ b) :
    a ++ '.' :: x <+: b ++ '.' :: y ↔ a = b ∧ x <+: y := by
  induction a generalizing b with
  | nil =>
      cases b with
      | nil => simp
      | cons c b =>
          have hc : '.' ≠ c := fun h => hb (h ▸ List.mem_cons_self ..)
          simp [hc]
  | cons c a ih =>
      rw [List.mem_cons, not_or] at ha
      cases b with
      | nil =>
          have hc : c ≠ '.' := fun h => ha.1 h.symm
          simp [hc]
      | cons d b =>
          rw [List.mem_cons, not_or] at hb
          rw [List.cons_append, List.cons_append, List.cons_prefix_cons, ih ha.2 hb.2,
            List.cons.injEq, and_assoc]

/-! ## Builders -/

/-- A call on a builder, with what it is given. -/
structure UpdateRequest where
  call : UpdateCall
  field : FieldReference
  arguments : List Value

/-- The operation that a request asks for. -/
def UpdateRequest.operation (r : UpdateRequest) : Except Error UpdateOperation :=
  r.call.operation r.field r.arguments

namespace Update

/-- Carries out the call of a request. -/
def carryOut (u : Update) (r : UpdateRequest) : Except Error Unit × Update :=
  u.call r.call r.field r.arguments

/-- Carries out some requests in turn, up to the first one that is refused. -/
def carryOutAll (u : Update) : List UpdateRequest → Except Error Unit × Update
  | [] => (.ok (), u)
  | r :: rs =>
    match u.carryOut r with
    | (.ok _, v) => v.carryOutAll rs
    | (.error e, v) => (.error e, v)

end Update

/-- A builder on which some calls succeeded. -/
inductive Update.Built : Update → Prop where
  | empty : Built .empty
  | call {u v : Update} {c : UpdateCall} {field : FieldReference} {arguments : List Value} :
      Built u → u.call c field arguments = (.ok (), v) → Built v

instance (p q : String) : Decidable (Overlaps p q) :=
  inferInstanceAs (Decidable (_ ∨ _ ∨ _))

theorem overlap?_eq_none_iff : overlap? p q = none ↔ ¬ Overlaps p q := by
  unfold overlap? Overlaps
  split
  case isTrue h => simp [h]
  case isFalse h =>
    have hne : p ≠ q := fun heq => h heq.symm
    split
    case isTrue hbelow => simp [hbelow]
    case isFalse hbelow =>
      split
      case isTrue habove => simp [habove]
      case isFalse habove => simp [hne, hbelow, habove]

theorem Update.conflict?_eq_none_iff {u : Update} :
    u.conflict? p = none ↔ ∀ o ∈ u.operations, ¬ Overlaps p o.path := by
  simp only [conflict?, List.findSome?_eq_none_iff, Option.map_eq_none_iff, overlap?_eq_none_iff]

/-- An operation is recorded exactly if its path overlaps no recorded one. -/
theorem Update.add_eq_ok_iff {u v : Update} {op : UpdateOperation} :
    u.add op = (.ok (), v) ↔
      (∀ o ∈ u.operations, ¬ Overlaps op.path o.path) ∧ v = ⟨u.operations ++ [op]⟩ := by
  rw [← conflict?_eq_none_iff, add]
  cases u.conflict? op.path with
  | none =>
      constructor
      · intro h
        exact ⟨rfl, (congrArg Prod.snd h).symm⟩
      · rintro ⟨-, rfl⟩
        rfl
  | some conflict => exact ⟨nofun, fun ⟨h, _⟩ => nomatch h⟩

section Calls

variable {u v : Update} {c : UpdateCall} {field : FieldReference} {arguments : List Value}
  {op : UpdateOperation} {e : Error}

/-- A call asks for an operation if it takes its arguments, the field has a path, and the
    values have a stored form. -/
theorem UpdateCall.operation_eq_ok_iff :
    c.operation field arguments = .ok op ↔
      (c.action arguments >>= UpdateAction.prepared) = .ok op.action
        ∧ field.path = .ok op.path := by
  rw [operation, bind_eq_ok_iff, bind_eq_ok_iff]
  constructor
  · rintro ⟨a, ha, h⟩
    obtain ⟨path, hpath, h⟩ := bind_eq_ok_iff.mp h
    obtain ⟨action, haction, h⟩ := bind_eq_ok_iff.mp h
    obtain rfl := Except.ok.inj h
    exact ⟨⟨a, ha, haction⟩, hpath⟩
  · rintro ⟨⟨a, ha, haction⟩, hpath⟩
    exact ⟨a, ha, bind_eq_ok_iff.mpr ⟨_, hpath, bind_eq_ok_iff.mpr ⟨_, haction, rfl⟩⟩⟩

/-- A call is carried out exactly if it asks for an operation on a path of its own, and then
    that is recorded behind the others. -/
theorem Update.call_eq_ok_iff :
    u.call c field arguments = (.ok (), v) ↔
      ∃ op, c.operation field arguments = .ok op
        ∧ (∀ o ∈ u.operations, ¬ Overlaps op.path o.path) ∧ v = ⟨u.operations ++ [op]⟩ := by
  rw [call]
  cases c.operation field arguments with
  | error e => exact ⟨nofun, nofun⟩
  | ok op =>
      refine add_eq_ok_iff.trans ⟨fun h => ⟨op, rfl, h⟩, ?_⟩
      rintro ⟨op', hop, h⟩
      obtain rfl := Except.ok.inj hop
      exact h

/-- A call that is refused leaves the builder as it was. -/
theorem Update.call_refused (h : (u.call c field arguments).1 = .error e) :
    (u.call c field arguments).2 = u := by
  rw [call] at h ⊢
  cases hop : c.operation field arguments with
  | error e' => rfl
  | ok op =>
      simp only [hop, add] at h ⊢
      cases hconflict : u.conflict? op.path with
      | some conflict => rfl
      | none =>
          rw [hconflict] at h
          exact nomatch h

end Calls

theorem Update.carryOutAll_cons_eq_ok_iff {u v : Update} {r : UpdateRequest}
    {rs : List UpdateRequest} :
    u.carryOutAll (r :: rs) = (.ok (), v)
      ↔ ∃ w, u.carryOut r = (.ok (), w) ∧ w.carryOutAll rs = (.ok (), v) := by
  rw [carryOutAll]
  split
  case h_1 w hw =>
    rw [hw]
    constructor
    · exact fun h => ⟨w, rfl, h⟩
    · rintro ⟨w', hw', h⟩
      obtain rfl : w = w' := congrArg Prod.snd hw'
      exact h
  case h_2 e w hw =>
    rw [hw]
    exact ⟨nofun, nofun⟩

/-- Requests are all carried out exactly if the operations that they ask for can stand behind
    the recorded ones. -/
theorem Update.carryOutAll_eq_ok_iff {u v : Update} {rs : List UpdateRequest}
    (h : u.operations.Pairwise fun a b => ¬ Overlaps a.path b.path) :
    u.carryOutAll rs = (.ok (), v) ↔
      ∃ ops, List.Forall₂ (fun r op => r.operation = .ok op) rs ops
        ∧ (v.operations.Pairwise fun a b => ¬ Overlaps a.path b.path)
        ∧ v = ⟨u.operations ++ ops⟩ := by
  induction rs generalizing u with
  | nil =>
      constructor
      · intro hv
        obtain rfl : u = v := congrArg Prod.snd hv
        exact ⟨[], .nil, h, by rw [List.append_nil]⟩
      · rintro ⟨ops, hops, -, rfl⟩
        obtain rfl := List.forall₂_nil_left_iff.mp hops
        rw [List.append_nil]
        rfl
  | cons r rs ih =>
      have hconcat {op : UpdateOperation} (hnew : ∀ o ∈ u.operations, ¬ Overlaps op.path o.path) :
          (u.operations ++ [op]).Pairwise fun a b => ¬ Overlaps a.path b.path := by
        refine List.pairwise_append.mpr ⟨h, List.pairwise_singleton _ _, fun a ha b hb => ?_⟩
        obtain rfl := List.mem_singleton.mp hb
        exact fun hoverlap => hnew a ha hoverlap.symm
      rw [carryOutAll_cons_eq_ok_iff]
      constructor
      · rintro ⟨w, hw, hv⟩
        obtain ⟨op, hop, hnew, rfl⟩ := call_eq_ok_iff.mp hw
        obtain ⟨ops, hops, hvApart, rfl⟩ := (ih (hconcat hnew)).mp hv
        exact ⟨op :: ops, .cons hop hops, hvApart, by rw [List.append_assoc]; rfl⟩
      · rintro ⟨_, hall, hv, rfl⟩
        obtain ⟨op, ops, hop, hops, rfl⟩ := List.forall₂_cons_left_iff.mp hall
        -- What stands behind the recorded operations overlaps none of them.
        obtain ⟨-, -, hcross⟩ := List.pairwise_append.mp hv
        have hnew : ∀ o ∈ u.operations, ¬ Overlaps op.path o.path := fun o ho hoverlap =>
          hcross o ho op (List.mem_cons_self ..) hoverlap.symm
        refine ⟨_, call_eq_ok_iff.mpr ⟨op, hop, hnew, rfl⟩, (ih (hconcat hnew)).mpr ?_⟩
        refine ⟨ops, hops, hv, ?_⟩
        rw [List.append_assoc]
        rfl

theorem Update.Built.carryOutAll {u v : Update} {rs : List UpdateRequest} (hu : u.Built)
    (h : u.carryOutAll rs = (.ok (), v)) : v.Built := by
  induction rs generalizing u with
  | nil =>
      obtain rfl : u = v := congrArg Prod.snd h
      exact hu
  | cons r rs ih =>
      obtain ⟨w, hw, h⟩ := carryOutAll_cons_eq_ok_iff.mp h
      exact ih (.call hu hw) h

/-- No two operations of a builder are on overlapping paths. -/
theorem Update.Built.apart {u : Update} (h : u.Built) :
    u.operations.Pairwise fun a b => ¬ Overlaps a.path b.path := by
  induction h with
  | empty => exact .nil
  | call _ hcall ih =>
      obtain ⟨op, -, hnew, rfl⟩ := call_eq_ok_iff.mp hcall
      rw [List.pairwise_append]
      refine ⟨ih, List.pairwise_singleton _ _, fun a ha b hb => ?_⟩
      obtain rfl := List.mem_singleton.mp hb
      exact fun h => hnew a ha h.symm

/-! ## Renaming first segments -/

/-- The first segment of a path. -/
def stem (path : String) : String := String.ofList (path.toList.takeWhile (· ≠ '.'))

theorem not_mem_stem (path : String) : '.' ∉ (stem path).toList := by
  rw [stem, String.toList_ofList]
  intro h
  have hall : (path.toList.takeWhile (· ≠ '.')).all (· ≠ '.') = true := List.all_takeWhile
  exact absurd rfl (of_decide_eq_true (List.all_eq_true.mp hall '.' h))

namespace Resolver

/-- A path is its first segment, or it is split behind that. -/
theorem splitPath?_stem (path : String) :
    (splitPath? path = none ∧ stem path = path)
      ∨ ∃ rest, splitPath? path = some (stem path, rest)
        ∧ path.toList = (stem path).toList ++ '.' :: rest.toList := by
  have hwhole : (stem path).toList ++ path.toList.dropWhile (· ≠ '.') = path.toList := by
    rw [stem, String.toList_ofList]
    exact List.takeWhile_append_dropWhile
  rw [splitPath?, List.span_eq_takeWhile_dropWhile]
  cases htail : path.toList.dropWhile (· ≠ '.') with
  | nil =>
      rw [htail, List.append_nil] at hwhole
      exact .inl ⟨rfl, String.toList_inj.mp hwhole⟩
  | cons c rest =>
      obtain rfl : c = '.' := by
        have hhead := List.head?_dropWhile_not (fun c : Char => c ≠ '.') path.toList
        rw [htail] at hhead
        exact of_not_not (of_decide_eq_false hhead)
      rw [htail] at hwhole
      refine .inr ⟨String.ofList rest, rfl, ?_⟩
      rw [String.toList_ofList, hwhole]

/-- The name that a path's first segment is stored under. -/
def segmentName (r : Resolver) (segment : String) : FieldName :=
  match r.mapping? segment with
  | some m => m.storage
  | none => some segment

/-- Paths are renamed in their first segments: no path of several segments is
    mapped as a whole, a segment is stored under a name of one segment, and
    different segments are stored under different names. -/
structure RenamesSegments (r : Resolver) (paths : List String) : Prop where
  whole : ∀ p ∈ paths, '.' ∈ p.toList → r.mapping? p = none
  plain : ∀ p ∈ paths, ∃ name, r.segmentName (stem p) = some name ∧ '.' ∉ name.toList
  distinct : ∀ p ∈ paths, ∀ q ∈ paths,
    r.segmentName (stem p) = r.segmentName (stem q) → stem p = stem q

/-- A path of one segment is stored under the name of the segment, and a longer
    path is stored under that name followed by its other segments. -/
theorem resolveField_stem (r : Resolver) {path name : String}
    (hwhole : '.' ∈ path.toList → r.mapping? path = none)
    (hname : r.segmentName (stem path) = some name) :
    ∃ renamed behind, r.resolveField path = some renamed
      ∧ path.toList ++ ['.'] = (stem path).toList ++ '.' :: behind
      ∧ renamed.toList ++ ['.'] = name.toList ++ '.' :: behind := by
  rw [resolveField]
  rcases splitPath?_stem path with ⟨hsingle, hstem⟩ | ⟨rest, hsplit, hpath⟩
  · rw [hstem, segmentName] at hname
    refine ⟨name, [], ?_, by rw [hstem], rfl⟩
    cases hm : r.mapping? path with
    | some m =>
        rw [hm] at hname
        exact hname
    | none =>
        rw [hm] at hname
        rw [hsingle]
        exact hname
  · have hmem : '.' ∈ path.toList := hpath ▸ List.mem_append_right _ (List.mem_cons_self ..)
    have hnone := hwhole hmem
    have hdotted : path.toList ++ ['.'] = (stem path).toList ++ '.' :: (rest.toList ++ ['.']) := by
      rw [hpath, List.append_assoc]
      rfl
    rw [segmentName] at hname
    cases hm : r.mapping? (stem path) with
    | some m =>
        rw [hm] at hname
        refine ⟨name ++ "." ++ rest, rest.toList ++ ['.'], ?_, hdotted, ?_⟩
        · simp only [hnone, hsplit, hm]
          rw [show m.storage = some name from hname]
          rfl
        · rw [String.toList_append, toList_dotted, List.append_assoc, List.append_assoc]
          rfl
    | none =>
        -- Neither the path nor its first segment is mapped: it stays as it is.
        rw [hm] at hname
        obtain rfl : stem path = name := Option.some.inj hname
        exact ⟨path, rest.toList ++ ['.'], by simp only [hnone, hsplit, hm], hdotted, hdotted⟩

/-- Paths that are renamed in their first segments overlap only if they did before. -/
theorem RenamesSegments.covers {r : Resolver} {paths : List String} (h : r.RenamesSegments paths)
    {p q p' q' : String} (hp : p ∈ paths) (hq : q ∈ paths) (hp' : r.resolveField p = some p')
    (hq' : r.resolveField q = some q') (hcovers : Covers p' q') : Covers p q := by
  obtain ⟨a, ha, hplain⟩ := h.plain p hp
  obtain ⟨b, hb, hplain'⟩ := h.plain q hq
  obtain ⟨_, x, hpx, hpath, hrenamed⟩ := r.resolveField_stem (h.whole p hp) ha
  obtain ⟨_, y, hqy, hpath', hrenamed'⟩ := r.resolveField_stem (h.whole q hq) hb
  obtain rfl := Option.some.inj (hp'.symm.trans hpx)
  obtain rfl := Option.some.inj (hq'.symm.trans hqy)
  rw [Covers, hrenamed, hrenamed', prefix_at_dot hplain hplain'] at hcovers
  obtain ⟨hname, hbehind⟩ := hcovers
  have hstem : stem p = stem q := h.distinct p hp q hq (by
    rw [ha, hb, String.toList_inj.mp hname])
  rw [Covers, hpath, hpath', prefix_at_dot (not_mem_stem p) (not_mem_stem q)]
  exact ⟨congrArg String.toList hstem, hbehind⟩

end Resolver

end DocumentAccess
