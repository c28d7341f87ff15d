import DocumentAccess.Outcome
import Mathlib.Data.List.Forall2

/-!
# Computations that can fail

A walk through a list succeeds if it does so at each place (`mapM_eq_ok_iff`),
and else it fails as the first place that does (`error?_mapM`).
Where a computation can only fail with errors of one kind (`FailsWith`), so can
all that is put together from such computations.
-/

namespace DocumentAccess

variable {α β γ ε : Type}

/-! ## Success -/

theorem exists_bind_ok {a : Except ε α} {f : α → Except ε β} (ha : ∃ x, a = .ok x)
    (hf : ∀ x, a = .ok x → ∃ y, f x = .ok y) : ∃ y, a >>= f = .ok y := by
  obtain ⟨x, hx⟩ := ha
  obtain ⟨y, hy⟩ := hf x hx
  exact ⟨y, bind_eq_ok_iff.mpr ⟨x, hx, hy⟩⟩

theorem map_eq_ok_iff {a : Except ε α} {f : α → β} {y : β} :
    a.map f = .ok y ↔ ∃ x, a = .ok x ∧ f x = y := by
  cases a with
  | error e => simp [Except.map]
  | ok x => simp [Except.map]

theorem mapM_eq_ok_iff {f : α → Except ε β} {xs : List α} {ys : List β} :
    xs.mapM f = .ok ys ↔ List.Forall₂ (fun x y => f x = .ok y) xs ys := by
  induction xs generalizing ys with
  | nil =>
      rw [List.mapM_nil, List.forall₂_nil_left_iff, eq_comm]
      exact ⟨Except.ok.inj, congrArg _⟩
  | cons x xs ih =>
      rw [List.mapM_cons, bind_eq_ok_iff, List.forall₂_cons_left_iff]
      constructor
      · rintro ⟨y, hy, h⟩
        obtain ⟨zs, hzs, h⟩ := bind_eq_ok_iff.mp h
        exact ⟨y, zs, hy, ih.mp hzs, (Except.ok.inj h).symm⟩
      · rintro ⟨y, zs, hy, hzs, rfl⟩
        exact ⟨y, hy, bind_eq_ok_iff.mpr ⟨zs, ih.mpr hzs, rfl⟩⟩

/-- A walk that succeeds at each place collects what it finds there. -/
theorem mapM_eq_map {f : α → Except ε β} {g : α → β} {xs : List α}
    (h : ∀ x ∈ xs, f x = .ok (g x)) : xs.mapM f = .ok (xs.map g) :=
  mapM_eq_ok_iff.mpr (List.forall₂_map_right_iff.mpr (List.forall₂_same.mpr h))

/-- Two walks, one through the outcome of the other, are steps in turn at each place. -/
theorem mapM_mapM_eq_ok_iff {f : α → Except ε β} {g : β → Except ε γ} {xs : List α}
    {zs : List γ} :
    (∃ ys, xs.mapM f = .ok ys ∧ ys.mapM g = .ok zs)
      ↔ List.Forall₂ (fun x z => ∃ y, f x = .ok y ∧ g y = .ok z) xs zs := by
  simp only [mapM_eq_ok_iff]
  constructor
  · rintro ⟨ys, hxy, hyz⟩
    induction hxy generalizing zs with
    | nil =>
        obtain rfl := List.forall₂_nil_left_iff.mp hyz
        exact .nil
    | cons hfirst _ ih =>
        obtain ⟨z, zs, hz, hzs, rfl⟩ := List.forall₂_cons_left_iff.mp hyz
        exact .cons ⟨_, hfirst, hz⟩ (ih hzs)
  · intro h
    induction h with
    | nil => exact ⟨[], .nil, .nil⟩
    | cons hfirst _ ih =>
        obtain ⟨y, hxy, hyz⟩ := hfirst
        obtain ⟨ys, hxys, hyzs⟩ := ih
        exact ⟨y :: ys, .cons hxy hxys, .cons hyz hyzs⟩

section Places

variable {R S : α → β → Prop} {P : α → α → Prop} {Q : β → β → Prop} {xs : List α} {ys : List β}

theorem exists_mem_of_forall₂ (h : List.Forall₂ R xs ys) {y : β} (hy : y ∈ ys) :
    ∃ x ∈ xs, R x y := by
  induction h with
  | nil => exact nomatch hy
  | @cons x z xs ys hxz _ ih =>
      rcases List.mem_cons.mp hy with rfl | hy
      · exact ⟨x, List.mem_cons_self .., hxz⟩
      · obtain ⟨w, hw, hwy⟩ := ih hy
        exact ⟨w, List.mem_cons_of_mem x hw, hwy⟩

theorem exists_forall₂ (h : ∀ x ∈ xs, ∃ y, R x y) : ∃ ys, List.Forall₂ R xs ys := by
  induction xs with
  | nil => exact ⟨[], .nil⟩
  | cons x xs ih =>
      obtain ⟨y, hy⟩ := h x (List.mem_cons_self ..)
      obtain ⟨ys, hys⟩ := ih fun x' hx' => h x' (List.mem_cons_of_mem x hx')
      exact ⟨y :: ys, .cons hy hys⟩

theorem forall₂_imp_of_mem (h : List.Forall₂ R xs ys) (hRS : ∀ x ∈ xs, ∀ y, R x y → S x y) :
    List.Forall₂ S xs ys :=
  ((List.forall₂_and_left xs ys).mpr ⟨fun _ hx => hx, h⟩).imp fun x y hxy => hRS x hxy.1 y hxy.2

/-- What holds of each two members of a list holds of what stands at their places. -/
theorem pairwise_of_forall₂ (h : List.Forall₂ R xs ys) (hxs : xs.Pairwise P)
    (hstep : ∀ a b c d, R a c → R b d → P a b → Q c d) : ys.Pairwise Q := by
  induction h with
  | nil => exact .nil
  | @cons x y xs ys hxy hrest ih =>
      obtain ⟨hfirst, hlater⟩ := List.pairwise_cons.mp hxs
      refine .cons (fun d hd => ?_) (ih hlater)
      obtain ⟨b, hb, hbd⟩ := exists_mem_of_forall₂ hrest hd
      exact hstep x b y d hxy hbd (hfirst b hb)

end Places

/-! ## Failure -/

/-- The error that a computation fails with, if it does. -/
def error? : Except ε α → Option ε
  | .ok _ => none
  | .error e => some e

theorem error?_eq_some_iff {a : Except ε α} {e : ε} : error? a = some e ↔ a = .error e := by
  cases a with
  | ok x => exact ⟨nofun, nofun⟩
  | error e' => simp [error?]

theorem error?_eq_none_iff {a : Except ε α} : error? a = none ↔ ∃ x, a = .ok x := by
  cases a with
  | ok x => exact ⟨fun _ => ⟨x, rfl⟩, fun _ => rfl⟩
  | error e => exact ⟨nofun, nofun⟩

/-- A walk through a list fails as the first place that fails. -/
theorem error?_mapM (f : α → Except ε β) (xs : List α) :
    error? (xs.mapM f) = xs.findSome? fun x => error? (f x) := by
  induction xs with
  | nil => rfl
  | cons x xs ih =>
      rw [List.mapM_cons, List.findSome?_cons, ← ih]
      cases f x with
      | error e => rfl
      | ok y => cases xs.mapM f <;> rfl

theorem map_eq_error_iff {a : Except ε α} {f : α → β} {e : ε} :
    a.map f = .error e ↔ a = .error e := by
  cases a with
  | error e' => simp [Except.map]
  | ok x => simp [Except.map]

/-- A walk that sees the places of a list fails as the first place that fails. -/
theorem mapM_zipIdx_eq_error_iff {f : α × Nat → Except ε β} {xs : List α} {k : Nat} {e : ε} :
    (xs.zipIdx k).mapM f = .error e ↔ ∃ before x after, xs = before ++ x :: after
      ∧ (∀ y ∈ before.zipIdx k, ∃ z, f y = .ok z) ∧ f (x, k + before.length) = .error e := by
  rw [← error?_eq_some_iff, error?_mapM, List.findSome?_eq_some_iff]
  constructor
  · rintro ⟨before, x, after, hsplit, hx, hbefore⟩
    obtain ⟨front, rest, rfl, rfl, hrest⟩ := List.zipIdx_eq_append_iff.mp hsplit
    obtain ⟨y, back, rfl, rfl, -⟩ := List.zipIdx_eq_cons_iff.mp hrest.symm
    exact ⟨front, y, back, rfl, fun z hz => error?_eq_none_iff.mp (hbefore z hz),
      error?_eq_some_iff.mp hx⟩
  · rintro ⟨before, x, after, rfl, hbefore, hx⟩
    refine ⟨before.zipIdx k, (x, k + before.length), after.zipIdx (k + before.length + 1), ?_,
      error?_eq_some_iff.mpr hx, fun y hy => error?_eq_none_iff.mpr (hbefore y hy)⟩
    rw [List.zipIdx_append, List.zipIdx_cons]

/-- Whatever a computation fails with is of some kind. -/
def FailsWith (P : ε → Prop) (a : Except ε α) : Prop := ∀ e, a = .error e → P e

namespace FailsWith

variable {P Q : ε → Prop} {a : Except ε α} {f : α → Except ε β} {xs : List α}

theorem ok (x : α) : FailsWith P (.ok x : Except ε α) := fun _ h => nomatch h

theorem error {e : ε} (h : P e) : FailsWith P (.error e : Except ε α) := by
  intro e' he
  obtain rfl := Except.error.inj he
  exact h

theorem imp (h : FailsWith P a) (hPQ : ∀ e, P e → Q e) : FailsWith Q a :=
  fun e he => hPQ e (h e he)

theorem bind (ha : FailsWith P a) (hf : ∀ x, a = .ok x → FailsWith P (f x)) :
    FailsWith P (a >>= f) := by
  cases a with
  | error e => exact .error (ha e rfl)
  | ok x => exact hf x rfl

theorem map {g : α → β} (h : FailsWith P a) : FailsWith P (a.map g) := by
  cases a with
  | error e => exact .error (h e rfl)
  | ok x => exact .ok _

theorem mapM (h : ∀ x ∈ xs, FailsWith P (f x)) : FailsWith P (xs.mapM f) := by
  induction xs with
  | nil => exact .ok []
  | cons x xs ih =>
      rw [List.mapM_cons]
      refine .bind (h x (List.mem_cons_self ..)) fun y _ => ?_
      refine .bind (ih fun x' hx' => h x' (List.mem_cons_of_mem x hx')) fun ys _ => ?_
      exact .ok _

theorem foldlM {f : β → α → Except ε β} {start : β} (h : ∀ y, ∀ x ∈ xs, FailsWith P (f y x)) :
    FailsWith P (xs.foldlM f start) := by
  induction xs generalizing start with
  | nil => exact .ok start
  | cons x xs ih =>
      rw [List.foldlM_cons]
      refine .bind (h start x (List.mem_cons_self ..)) fun y _ => ?_
      exact ih fun y' x' hx' => h y' x' (List.mem_cons_of_mem x hx')

end FailsWith

end DocumentAccess
