import DocumentAccess.Error
import Mathlib.Data.List.Basic

/-!
# Documents with distinct keys

A document has each key once (`Document.Distinct`). What is found under a name is
then what its entry holds, and the document is that of its entries. Setting
values keeps keys distinct (`Document.distinct_ofList`); if that gives as many
entries as were set, none was overwritten (`Document.ofList_of_length`).
-/

namespace DocumentAccess

/-! ## Names as keys -/

section Names

variable {m n : FieldName}

theorem FieldName.key_inj : m.key = n.key ↔ m = n := by
  cases m with
  | none => cases n <;> simp [key]
  | some p => cases n <;> simp [key]

/-- Names with equal keys are equal. -/
theorem FieldName.key_same_iff : m.key.same n.key = true ↔ m = n := by
  cases m with
  | none => cases n <;> simp [key, Value.same, Value.sameNumber?]
  | some p => cases n <;> simp [key, Value.same, Value.sameNumber?]

theorem Value.same_str_of_ne {a b : String} (h : a ≠ b) : (str a).same (str b) = false :=
  Bool.eq_false_iff.mpr fun hsame => h (str.inj ((same_str_iff _ _).mp hsame))

end Names

/-! ## Distinct keys -/

namespace Document

/-- No key of a document is equal to another one. -/
def Distinct (d : Document) : Prop := d.Pairwise fun a b => a.1.same b.1 = false

variable {d : Document} {name : String} {v : Value}

theorem insert_new {key : Value} (h : ∀ e ∈ d, e.1.same key = false) :
    d.insert key v = d ++ [(key, v)] := by
  induction d with
  | nil => rfl
  | cons e d ih =>
      have hfirst := h e (List.mem_cons_self ..)
      rw [insert, hfirst, ih fun e he => h e (List.mem_cons_of_mem _ he)]
      rfl

theorem insertAll_new {es : Document} (h : Distinct (d ++ es)) : d.insertAll es = d ++ es := by
  induction es generalizing d with
  | nil => exact (List.append_nil d).symm
  | cons e es ih =>
      have hnew : ∀ a ∈ d, a.1.same e.1 = false := fun a ha =>
        (List.pairwise_append.mp h).2.2 a ha e (List.mem_cons_self ..)
      rw [List.append_cons] at h ⊢
      rw [← ih h, ← insert_new hnew]
      rfl

theorem distinct_ofFields {fields : List (String × Value)} (h : (fields.map Prod.fst).Nodup) :
    Distinct (ofFields fields) :=
  List.pairwise_map.mpr ((List.pairwise_map.mp h).imp Value.same_str_of_ne)

theorem ofList_distinct {es : Document} (h : Distinct es) : ofList es = es :=
  insertAll_new (d := []) h

theorem field?_eq_none (h : d.field? name = none) : ∀ e ∈ d, e.1.same (.str name) = false := by
  induction d with
  | nil => exact fun e he => nomatch he
  | cons e d ih =>
      rw [field?_cons] at h
      split at h
      case isTrue => exact nomatch h
      case isFalse hfirst =>
        exact List.forall_mem_cons.mpr ⟨Bool.eq_false_iff.mpr hfirst, ih h⟩

/-- What is found under a name is replaced in its place. -/
theorem split_of_field? (h : d.field? name = some v) :
    ∃ front back, d = front ++ (.str name, v) :: back
      ∧ ∀ w, d.insert (.str name) w = front ++ (.str name, w) :: back := by
  induction d with
  | nil => exact nomatch h
  | cons e d ih =>
      rw [field?_cons] at h
      split at h
      case isTrue hfirst =>
        obtain rfl := Option.some.inj h
        refine ⟨[], d, ?_, fun w => ?_⟩
        · rw [← (Value.same_str_iff _ _).mp hfirst]
          rfl
        · rw [insert, if_pos hfirst, (Value.same_str_iff _ _).mp hfirst]
          rfl
      case isFalse hfirst =>
        obtain ⟨front, back, hd, hinsert⟩ := ih h
        refine ⟨e :: front, back, by rw [hd]; rfl, fun w => ?_⟩
        rw [insert, if_neg hfirst, hinsert]
        rfl

/-- With distinct keys, what is found under a name is what its entry holds. -/
theorem Distinct.field?_eq_some_iff (hd : d.Distinct) :
    d.field? name = some v ↔ (.str name, v) ∈ d := by
  induction d with
  | nil => exact ⟨nofun, nofun⟩
  | cons e d ih =>
      obtain ⟨hfirst, hrest⟩ := List.pairwise_cons.mp hd
      rw [field?_cons, List.mem_cons]
      split
      case isTrue hsame =>
        obtain ⟨key, w⟩ := e
        obtain rfl : key = .str name := (Value.same_str_iff _ _).mp hsame
        constructor
        · intro h
          exact .inl (congrArg _ (Option.some.inj h).symm)
        · rintro (h | h)
          · exact congrArg some (congrArg Prod.snd h).symm
          · -- Another entry under the name has another key.
            exact absurd hsame (Bool.eq_false_iff.mp (hfirst _ h))
      case isFalse hsame =>
        rw [ih hrest]
        refine ⟨.inr, fun h => h.resolve_left fun heq => hsame ?_⟩
        rw [← heq]
        exact (Value.same_str_iff _ _).mpr rfl

/-! ## Setting values -/

section Setting

variable {es : Document} {key w : Value}

/-- A value is set in the place of one entry, or behind all entries if the key is new. -/
theorem insert_cases (d : Document) (key v : Value) :
    (∃ front key' w back, d = front ++ (key', w) :: back
      ∧ d.insert key v = front ++ (key', v) :: back)
      ∨ (∀ e ∈ d, e.1.same key = false) ∧ d.insert key v = d ++ [(key, v)] := by
  induction d with
  | nil => exact .inr ⟨fun e he => (nomatch he), rfl⟩
  | cons e d ih =>
      obtain ⟨key', w⟩ := e
      rw [insert]
      split
      case isTrue => exact .inl ⟨[], key', w, d, rfl, rfl⟩
      case isFalse hfirst =>
        rcases ih with ⟨front, key'', w', back, hd, hinsert⟩ | ⟨hnew, hinsert⟩
        · exact .inl ⟨(key', w) :: front, key'', w', back, by rw [hd]; rfl, by rw [hinsert]; rfl⟩
        · refine .inr ⟨List.forall_mem_cons.mpr ⟨Bool.eq_false_iff.mpr hfirst, hnew⟩, ?_⟩
          rw [hinsert]
          rfl

theorem length_insert (d : Document) (key v : Value) :
    (d.insert key v).length = d.length
      ∨ (d.insert key v).length = d.length + 1 ∧ d.insert key v = d ++ [(key, v)] := by
  rcases insert_cases d key v with ⟨front, key', w, back, rfl, hinsert⟩ | ⟨-, hinsert⟩
  · left
    rw [hinsert, List.length_append, List.length_append]
    rfl
  · right
    rw [hinsert, List.length_append]
    exact ⟨rfl, rfl⟩

/-- Keys stay distinct where a value is replaced. -/
theorem Distinct.replace {front back : Document} (h : Distinct (front ++ (key, w) :: back))
    (v : Value) : Distinct (front ++ (key, v) :: back) := by
  rw [Distinct, List.pairwise_append, List.pairwise_cons] at h ⊢
  obtain ⟨hfront, hback, hboth⟩ := h
  refine ⟨hfront, hback, fun a ha b hb => ?_⟩
  rcases List.mem_cons.mp hb with rfl | hb
  · exact hboth a ha (key, w) (List.mem_cons_self ..)
  · exact hboth a ha b (List.mem_cons_of_mem _ hb)

/-- Keys stay distinct where a new one is put behind the others. -/
theorem Distinct.concat (h : d.Distinct) (hnew : ∀ e ∈ d, e.1.same key = false) (v : Value) :
    Distinct (d ++ [(key, v)]) := by
  refine List.pairwise_append.mpr ⟨h, List.pairwise_singleton _ _, fun a ha b hb => ?_⟩
  rw [List.mem_singleton.mp hb]
  exact hnew a ha

theorem Distinct.insert (h : d.Distinct) (key v : Value) : (d.insert key v).Distinct := by
  rcases insert_cases d key v with ⟨front, key', w, back, rfl, hinsert⟩ | ⟨hnew, hinsert⟩
  · rw [hinsert]
    exact h.replace v
  · rw [hinsert]
    exact h.concat hnew v

theorem Distinct.insertAll (h : d.Distinct) (es : Document) : (d.insertAll es).Distinct := by
  induction es generalizing d with
  | nil => exact h
  | cons e es ih => exact ih (h.insert e.1 e.2)

/-- The document of some entries has distinct keys. -/
theorem distinct_ofList (es : Document) : (ofList es).Distinct := Distinct.insertAll .nil es

theorem insertAll_cons (d : Document) (e : Value × Value) (es : Document) :
    d.insertAll (e :: es) = (d.insert e.1 e.2).insertAll es := rfl

/-- No entry that is there is lost, and at most one is won for each that is set. -/
theorem length_insertAll (d es : Document) :
    d.length ≤ (d.insertAll es).length ∧ (d.insertAll es).length ≤ d.length + es.length := by
  induction es generalizing d with
  | nil => exact ⟨Nat.le_refl _, Nat.le_refl _⟩
  | cons e es ih =>
      have hrest := ih (d.insert e.1 e.2)
      have hfirst := length_insert d e.1 e.2
      rw [insertAll_cons, List.length_cons]
      omega

/-- Where no entry is overwritten, the entries are set behind the others. -/
theorem insertAll_of_length (h : d.length + es.length ≤ (d.insertAll es).length) :
    d.insertAll es = d ++ es := by
  induction es generalizing d with
  | nil => exact (List.append_nil d).symm
  | cons e es ih =>
      have hrest := length_insertAll (d.insert e.1 e.2) es
      rw [insertAll_cons, List.length_cons] at h
      rcases length_insert d e.1 e.2 with hlength | ⟨hlength, hinsert⟩
      · omega
      · rw [insertAll_cons, ih (by omega), hinsert, ← List.append_cons]

/-- If a document has as many entries as it is made of, it is made of just these. -/
theorem ofList_of_length (h : (ofList es).length = es.length) : ofList es = es :=
  insertAll_of_length (d := []) (by rw [List.length_nil, Nat.zero_add]; exact Nat.le_of_eq h.symm)

/-- A walk that sets an entry for each one that it comes by makes all of these entries, and
    sets them in turn. -/
theorem walk_eq {step : Value × Value → Except Error (Value × Value)}
    {walk : Document → List (Value × Value) → Except Error Document}
    (hnil : ∀ done, walk done [] = .ok done)
    (hcons : ∀ done e es, walk done (e :: es)
      = step e >>= fun made => walk (done.insert made.1 made.2) es)
    (done : Document) (es : List (Value × Value)) :
    walk done es = (es.mapM step).map done.insertAll := by
  induction es generalizing done with
  | nil => exact hnil done
  | cons e es ih =>
      rw [hcons, List.mapM_cons]
      cases step e with
      | error e => rfl
      | ok made =>
          refine (ih (done.insert made.1 made.2)).trans ?_
          cases es.mapM step <;> rfl

end Setting

end Document

end DocumentAccess
