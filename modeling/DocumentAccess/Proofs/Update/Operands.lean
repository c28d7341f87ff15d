import DocumentAccess.Proofs.Mapping.Stock
import DocumentAccess.Proofs.Update.Placement

/-!
# What becomes of operands

The stored form of an update document takes every operand for a value of its
field. Most operands are that. The factor of `$mul`, the end of a list that
`$pop` takes, and the numbers that stand next to `$each` are not, and they come
out as they were recorded exactly if the codec of the field leaves such numbers
alone (**`QueryFactory.operands_conveyed_iff`**). Two codecs do not: `cents`
makes other numbers of numbers, and `booleanToNumber` makes numbers of truth
values.
-/

namespace DocumentAccess

/-! ## Numbers and codecs -/

/-- A number of some kind; truth values are numbers as well. -/
def Value.IsNumber : Value → Prop
  | .int _ | .float _ | .bool _ => True
  | _ => False

namespace Codec

/-- Whether a codec makes another value of a number. -/
def scales : Codec → Value → Bool
  | cents, .int n => n ≠ 0
  | cents, .float _ => true
  | booleanToNumber, .bool _ => true
  | _, _ => false

theorem toIdentifier_number {v w : Value} (hv : v.IsNumber) (h : toIdentifier v = .ok w) :
    w = v := by
  unfold toIdentifier toIdentifierBy at h
  split at h
  · exact (Except.ok.inj h).symm
  · cases v with
    | int _ | float _ | bool _ => exact nomatch h
    | _ => exact hv.elim

/-- A number that can be stored is stored as it is, unless its codec scales it. -/
theorem store_number_iff {c : Codec} {v w : Value} (hv : v.IsNumber) (h : c.store v = .ok w) :
    w = v ↔ c.scales v = false := by
  cases c with
  | cents =>
      cases v with
      | int n =>
          obtain rfl := Except.ok.inj h
          rw [Value.int.injEq, scales, decide_eq_false_iff_not, not_not]
          omega
      | float x =>
          replace h : wholeNumber (x.mul (.ofInt 100)) = .ok w := h
          unfold wholeNumber at h
          split at h
          · obtain rfl := Except.ok.inj h
            exact ⟨nofun, nofun⟩
          · exact nomatch h
      | bool b => exact ⟨fun _ => rfl, fun _ => (Except.ok.inj h).symm⟩
      | _ => exact hv.elim
  | booleanToNumber =>
      cases v with
      | bool b =>
          obtain rfl := Except.ok.inj h
          exact ⟨nofun, nofun⟩
      | int _ | float _ => exact ⟨fun _ => rfl, fun _ => (Except.ok.inj h).symm⟩
      | _ => exact hv.elim
  | objectId =>
      obtain rfl := toIdentifier_number hv h
      exact ⟨fun _ => rfl, fun _ => rfl⟩
  | _ =>
      -- The other codecs have nothing to do with numbers.
      cases v with
      | int _ | float _ | bool _ => exact ⟨fun _ => rfl, fun _ => (Except.ok.inj h).symm⟩
      | _ => exact hv.elim

/-- The empty text is stored as it is. -/
theorem store_blank (c : Codec) : c.store (.str "") = .ok (.str "") := by
  cases c <;> rfl

end Codec

/-! ## Documents with names for keys -/

namespace Document

/-- The keys of a document are names of fields. -/
def Named (d : Document) : Prop := ∀ e ∈ d, ∃ name : FieldName, e.1 = name.key

variable {d es : Document} {e : Value × Value} {name : FieldName} {v x : Value}

/-- What is in a document in which a name was set. -/
theorem mem_insert_named (hd : d.Named) (h : e ∈ d.insert name.key v) :
    e ∈ d ∨ e = (name.key, v) := by
  induction d with
  | nil => exact .inr (List.mem_singleton.mp h)
  | cons a d ih =>
      obtain ⟨hfirst, hrest⟩ := List.forall_mem_cons.mp hd
      obtain ⟨first, hfirst⟩ := hfirst
      rw [insert] at h
      split at h
      case isTrue hsame =>
        rw [hfirst, FieldName.key_same_iff] at hsame
        subst hsame
        rcases List.mem_cons.mp h with rfl | h
        · exact .inr (by rw [hfirst])
        · exact .inl (List.mem_cons_of_mem _ h)
      case isFalse =>
        rcases List.mem_cons.mp h with rfl | h
        · exact .inl (List.mem_cons_self ..)
        · exact (ih hrest h).imp_left (List.mem_cons_of_mem _)

/-- The keys of a document in which a name was set. -/
theorem mem_keys_insert (hd : d.Named) :
    x ∈ (d.insert name.key v).map Prod.fst ↔ x ∈ d.map Prod.fst ∨ x = name.key := by
  induction d with
  | nil => simp [insert]
  | cons a d ih =>
      obtain ⟨⟨first, hfirst⟩, hrest⟩ := List.forall_mem_cons.mp hd
      rw [insert]
      split
      case isTrue hsame =>
        rw [hfirst, FieldName.key_same_iff] at hsame
        subst hsame
        rw [List.map_cons, List.map_cons, List.mem_cons, ← hfirst]
        exact ⟨.inl, fun h => h.elim id .inl⟩
      case isFalse =>
        rw [List.map_cons, List.map_cons, List.mem_cons, List.mem_cons, ih hrest, or_assoc]

theorem Named.insert (hd : d.Named) (name : FieldName) (v : Value) :
    (d.insert name.key v).Named := by
  intro e he
  rcases mem_insert_named hd he with he | rfl
  · exact hd e he
  · exact ⟨name, rfl⟩

theorem named_nil : Named [] := fun _ h => nomatch h

/-- What is in a document in which some names were set. -/
theorem mem_insertAll_named (hd : d.Named) (hes : es.Named) (h : e ∈ d.insertAll es) :
    e ∈ d ∨ e ∈ es := by
  induction es generalizing d with
  | nil => exact .inl h
  | cons a es ih =>
      obtain ⟨key, v⟩ := a
      obtain ⟨⟨name, rfl⟩, hrest⟩ := List.forall_mem_cons.mp hes
      rcases ih (hd.insert name v) hrest h with h | h
      · rcases mem_insert_named hd h with h | rfl
        · exact .inl h
        · exact .inr (List.mem_cons_self ..)
      · exact .inr (List.mem_cons_of_mem _ h)

/-- The keys of a document in which some names were set. -/
theorem mem_keys_insertAll (hd : d.Named) (hes : es.Named) :
    x ∈ (d.insertAll es).map Prod.fst ↔ x ∈ d.map Prod.fst ∨ x ∈ es.map Prod.fst := by
  induction es generalizing d with
  | nil => simp [insertAll]
  | cons a es ih =>
      obtain ⟨key, v⟩ := a
      obtain ⟨⟨name, rfl⟩, hrest⟩ := List.forall_mem_cons.mp hes
      rw [List.map_cons, List.mem_cons, ← or_assoc, ← mem_keys_insert hd (v := v)]
      exact ih (hd.insert name v) hrest

end Document

/-! ## Entries and what they are stored as -/

theorem Value.asStart_eq_ok {v : Value} {s : String} (h : v.asStart = .ok s) : v = .str s := by
  cases v with
  | str t => exact congrArg _ (Except.ok.inj h)
  | _ => exact nomatch h

namespace Resolver

variable {r : Resolver} {d d' fields : Document} {native path : String} {v w : Value}

/-- An entry that can be stored has a text for its key, and a name once it is stored. -/
theorem storedEntry_named {a b : Value × Value} (h : r.storedEntry a = .ok b) :
    ∃ path, a.1 = .str path ∧ b.1 = (r.storageName path).key := by
  obtain ⟨key, v⟩ := a
  obtain ⟨path, hpath, -⟩ := bind_eq_ok_iff.mp h
  obtain rfl := Value.asStart_eq_ok hpath
  exact ⟨path, rfl, storedEntry_key h⟩

/-- Under an operator there is a document of fields, which are stored one by one and
    set in turn, or something without fields. -/
theorem storedEntry_operator (hnative : native.startsWith "$" = true) {g : Value × Value}
    (h : r.storedEntry (.str native, v) = .ok g) :
    (∃ fields es, v = .doc fields ∧ List.Forall₂ (fun a b => r.storedEntry a = .ok b) fields es
      ∧ g = (.str native, .doc (Document.ofList es)))
    ∨ (operatorEntries (.str native, v) = [] ∧ operatorEntries g = []) := by
  cases v with
  | doc fields =>
      rw [storedEntry_group hnative] at h
      obtain ⟨es, hes, rfl⟩ := map_eq_ok_iff.mp h
      exact .inl ⟨fields, es, rfl, mapM_eq_ok_iff.mp hes, rfl⟩
  | list items =>
      rw [storedEntry_of_marked rfl hnative, resolveObject] at h
      obtain ⟨w, hw, rfl⟩ := map_eq_ok_iff.mp h
      obtain ⟨stored, -, hw⟩ := bind_eq_ok_iff.mp hw
      obtain rfl := Except.ok.inj hw
      exact .inr ⟨rfl, rfl⟩
  | _ =>
      rw [storedEntry_of_marked rfl hnative] at h
      obtain ⟨w, hw, rfl⟩ := map_eq_ok_iff.mp h
      unfold resolveObject at hw
      obtain rfl := Except.ok.inj hw
      exact .inr ⟨rfl, rfl⟩

/-- The keys of stored entries are names. -/
theorem named_of_stored {es : Document}
    (h : List.Forall₂ (fun a b => r.storedEntry a = .ok b) fields es) : es.Named := by
  intro e he
  obtain ⟨a, -, ha⟩ := exists_mem_of_forall₂ h he
  obtain ⟨path, -, hkey⟩ := storedEntry_named ha
  exact ⟨_, hkey⟩

/-- Each field of a stored document is what a field under the same operator is stored as. -/
theorem fieldEntries_stored (hd : KeyedByOperators d) (h : r.resolveEntries [] d = .ok d')
    {e : Value × Value × Value} (he : e ∈ fieldEntries d') :
    ∃ a ∈ fieldEntries d, r.Stores a e := by
  obtain ⟨g', hg', he⟩ := List.mem_flatMap.mp he
  obtain ⟨⟨key, v⟩, hg, hstored⟩ := exists_mem_of_forall₂ (resolveEntries_keyed hd h).2 hg'
  obtain ⟨native, rfl, hnative⟩ := hd.operator _ hg
  rcases storedEntry_operator hnative hstored with ⟨fields, es, rfl, hes, rfl⟩ | ⟨-, hnone⟩
  · obtain ⟨b, hb, rfl⟩ := List.mem_map.mp he
    rcases Document.mem_insertAll_named Document.named_nil (named_of_stored hes) hb with hb | hb
    · exact nomatch hb
    · obtain ⟨a, ha, hab⟩ := exists_mem_of_forall₂ hes hb
      exact ⟨(.str native, a), List.mem_flatMap.mpr ⟨_, hg, List.mem_map_of_mem ha⟩, rfl, hab⟩
  · rw [hnone] at he
    exact nomatch he

/-- Each field of a document has its name in the stored document, under the same operator. -/
theorem fieldEntries_kept (hd : KeyedByOperators d) (h : r.resolveEntries [] d = .ok d')
    {a : Value × Value × Value} (ha : a ∈ fieldEntries d) :
    ∃ path v, a.2.1 = .str path ∧ (a.1, (r.storageName path).key, v) ∈ fieldEntries d' := by
  obtain ⟨⟨key, v⟩, hg, ha⟩ := List.mem_flatMap.mp ha
  obtain ⟨g', hg', hstored⟩ := exists_mem_of_forall₂ (resolveEntries_keyed hd h).2.flip hg
  obtain ⟨native, rfl, hnative⟩ := hd.operator _ hg
  rcases storedEntry_operator hnative hstored with ⟨fields, es, rfl, hes, rfl⟩ | ⟨hnone, -⟩
  · obtain ⟨field, hfield, rfl⟩ := List.mem_map.mp ha
    obtain ⟨b, hb, hab⟩ := exists_mem_of_forall₂ hes.flip hfield
    obtain ⟨path, hpath, hkey⟩ := storedEntry_named hab
    have hmem := (Document.mem_keys_insertAll Document.named_nil (named_of_stored hes)).mpr
      (.inr (List.mem_map_of_mem hb))
    obtain ⟨c, hc, hcb⟩ := List.mem_map.mp hmem
    refine ⟨path, c.2, hpath, List.mem_flatMap.mpr ⟨_, hg', List.mem_map.mpr ⟨c, hc, ?_⟩⟩⟩
    rw [← hkey, ← hcb]
  · rw [hnone] at ha
    exact nomatch ha

end Resolver

/-! ## Operands of actions -/

/-- What an action takes for a number is one. -/
def UpdateAction.IsNumeric : UpdateAction → Prop
  | .increment v | .multiply v | .pop v => v.IsNumber
  | _ => True

/-- The value that an action takes is no document of operators, and no condition in the
    store's own form. -/
def UpdateAction.IsPlain : UpdateAction → Prop
  | .set v | .min v | .max v => ∀ d, v = .doc d → Resolver.isOperatorDocument d = false
  | .pull v => UpdateCall.isNativeCondition v = false
  | _ => True

theorem UpdateCall.numeric_number {role : String} {v w : Value} (h : numeric role v = .ok w) :
    w.IsNumber := by
  unfold numeric at h
  split at h
  · obtain rfl := Except.ok.inj h
    trivial
  · obtain rfl := Except.ok.inj h
    trivial
  · exact nomatch h

theorem UpdateCall.negated_number {v : Value} (h : v.IsNumber) : (negated v).IsNumber := by
  cases v with
  | int _ | float _ => trivial
  | _ => exact h

theorem UpdateCall.position_number {v w : Value} (h : position v = .ok w) : w.IsNumber := by
  unfold position at h
  split at h
  case isTrue hsame =>
    obtain rfl := Except.ok.inj h
    cases v with
    | int _ | float _ | bool _ => trivial
    | _ => simp [Value.same, Value.sameNumber?] at hsame
  case isFalse => cases h

theorem UpdateCall.action_numeric {c : UpdateCall} {arguments : List Value} {a : UpdateAction}
    (h : c.action arguments = .ok a) : a.IsNumeric := by
  unfold action at h
  split at h
  case h_4 v =>
    obtain ⟨w, hw, h⟩ := bind_eq_ok_iff.mp h
    obtain rfl := Except.ok.inj h
    exact numeric_number hw
  case h_6 v =>
    obtain ⟨w, hw, h⟩ := bind_eq_ok_iff.mp h
    obtain rfl := Except.ok.inj h
    exact negated_number (numeric_number hw)
  case h_7 v =>
    obtain ⟨w, hw, h⟩ := bind_eq_ok_iff.mp h
    obtain rfl := Except.ok.inj h
    exact numeric_number hw
  case h_13 v =>
    obtain ⟨w, hw, h⟩ := bind_eq_ok_iff.mp h
    obtain rfl := Except.ok.inj h
    exact position_number hw
  case h_14 v =>
    obtain ⟨w, -, h⟩ := bind_eq_ok_iff.mp h
    obtain rfl := Except.ok.inj h
    trivial
  -- The other calls take no number, or the number that they come with.
  all_goals first
    | (obtain rfl := Except.ok.inj h; trivial)
    | exact nomatch h

/-- Values in stored form are taken where no numbers are. -/
theorem UpdateAction.prepared_numeric {a b : UpdateAction} (ha : a.IsNumeric)
    (h : a.prepared = .ok b) : b.IsNumeric := by
  cases a with
  | set _ | min _ | max _ | push _ =>
      obtain ⟨w, -, h⟩ := bind_eq_ok_iff.mp h
      obtain rfl := Except.ok.inj h
      exact ha
  | unset | increment _ | multiply _ | pop _ | pull _ =>
      obtain rfl := Except.ok.inj h
      exact ha

/-- A builder only records numbers where numbers are taken. -/
theorem Update.Built.numeric {u : Update} (h : u.Built) :
    ∀ op ∈ u.operations, op.action.IsNumeric := by
  induction h with
  | empty => exact fun op hop => nomatch hop
  | call _ hcall ih =>
      obtain ⟨op, hop, -, rfl⟩ := call_eq_ok_iff.mp hcall
      obtain ⟨a, haction, hprepared⟩ :=
        bind_eq_ok_iff.mp (UpdateCall.operation_eq_ok_iff.mp hop).1
      refine List.forall_mem_append.mpr ⟨ih, List.forall_mem_singleton.mpr ?_⟩
      exact UpdateAction.prepared_numeric (UpdateCall.action_numeric haction) hprepared

namespace Resolver

variable {r : Resolver} {name : String} {a : UpdateAction} {v w : Value}

/-- The codec of a field makes another value of a number. -/
def Scales (r : Resolver) (name : String) (v : Value) : Prop :=
  ∃ c, r.StoresBy name c ∧ c.scales v = true

/-- The codec of a field gets hold of the factor or the end that an action takes. -/
def Distorts (r : Resolver) (name : String) : UpdateAction → Prop
  | .multiply v | .pop v => r.Scales name v
  | _ => False

/-- What has to stand in an update document for an action on a field: its values in
    stored form, and what is no value of the field as it was recorded. -/
def Conveys (r : Resolver) (name : String) : UpdateAction → Value → Prop
  | .set v, w | .increment v, w | .min v, w | .max v, w | .pull v, w => r.storeValue name v = .ok w
  | .push items, w => ∃ stored, items.mapM (r.storeValue name) = .ok stored
      ∧ w = .ofFields [("$each", .list stored)]
  | .multiply v, w | .pop v, w => w = v
  | .unset, w => w = .str ""

theorem storeValue_number_iff (hstock : r.Stock) (hv : v.IsNumber)
    (h : r.storeValue name v = .ok w) : w = v ↔ ¬ r.Scales name v := by
  constructor
  · rintro hkept ⟨c, hc, hscales⟩
    rw [hc.storeValue] at h
    exact Bool.eq_false_iff.mp ((Codec.store_number_iff hv h).mp hkept) hscales
  · intro hn
    rcases hstock.cases name with ⟨c, hc⟩ | ⟨-, hplain⟩
    · rw [hc.storeValue] at h
      refine (Codec.store_number_iff hv h).mpr (Bool.eq_false_iff.mpr fun hscales => hn ?_)
      exact ⟨c, hc, hscales⟩
    · rw [hplain] at h
      exact (Except.ok.inj h).symm

theorem storeValue_blank (hstock : r.Stock) : r.storeValue name (.str "") = .ok (.str "") := by
  rcases hstock.cases name with ⟨c, hc⟩ | ⟨-, hplain⟩
  · rw [hc.storeValue]
    exact c.store_blank
  · exact hplain _

/-- A list next to `$each` is stored item by item. -/
theorem storeOperand_each (items : List Value) :
    r.storeOperand name (.str "$each") (.list items)
      = (items.mapM (r.storeValue name)).map .list := by
  have heach : (listOperators.map Value.str).any (Value.str "$each").same = true := by
    decide +kernel
  rw [storeOperand, if_pos heach]
  cases items.mapM (r.storeValue name) <;> rfl

/-- What is pushed is stored item by item. -/
theorem storeEntry_each (items : List Value) :
    r.storeEntry name (.ofFields [("$each", .list items)])
      = (items.mapM (r.storeValue name)).map fun stored =>
        .ofFields [("$each", .list stored)] := by
  have hoperator : isOperatorDocument [(.str "$each", .list items)] = true := by
    with_unfolding_all rfl
  show r.storeEntry name (.doc [(.str "$each", .list items)]) = _
  rw [storeEntry, if_pos hoperator, List.mapM_cons, List.mapM_nil]
  simp only [storeOperand_each]
  cases items.mapM (r.storeValue name) <;> rfl

theorem isOperatorDocument_of_plain {d : Document}
    (h : UpdateCall.isNativeCondition (.doc d) = false) : isOperatorDocument d = false := by
  cases d with
  | nil => rfl
  | cons e d =>
      have hfirst : e.1.plain.startsWith "$" = false :=
        Bool.eq_false_iff.mpr (List.any_eq_false.mp h e (List.mem_cons_self ..))
      rw [isOperatorDocument, List.all_cons, isMarked, hfirst]
      rfl

/-- The operand of an action becomes what it has to be, unless the codec of the field
    distorts it. -/
theorem storeEntry_conveys_iff (hstock : r.Stock) (hnumeric : a.IsNumeric) (hplain : a.IsPlain)
    (h : r.storeEntry name a.operand = .ok w) : r.Conveys name a w ↔ ¬ r.Distorts name a := by
  have hnumber {v : Value} (hv : v.IsNumber) : r.storeEntry name v = r.storeValue name v :=
    storeEntry_of_plain fun d hd => by
      subst hd
      exact hv.elim
  cases a with
  | set v | min v | max v =>
      replace h : r.storeEntry name v = .ok w := h
      rw [storeEntry_of_plain hplain] at h
      exact ⟨fun _ => nofun, fun _ => h⟩
  | increment v =>
      replace h : r.storeEntry name v = .ok w := h
      rw [hnumber hnumeric] at h
      exact ⟨fun _ => nofun, fun _ => h⟩
  | multiply v | pop v =>
      replace h : r.storeEntry name v = .ok w := h
      rw [hnumber hnumeric] at h
      exact storeValue_number_iff hstock hnumeric h
  | unset =>
      replace h : r.storeValue name (.str "") = .ok w := h
      rw [storeValue_blank hstock] at h
      exact ⟨fun _ => nofun, fun _ => (Except.ok.inj h).symm⟩
  | push items =>
      replace h : r.storeEntry name (.ofFields [("$each", .list items)]) = .ok w := h
      rw [storeEntry_each] at h
      obtain ⟨stored, hstored, rfl⟩ := map_eq_ok_iff.mp h
      exact ⟨fun _ => nofun, fun _ => ⟨stored, hstored, rfl⟩⟩
  | pull v =>
      replace h : r.storeEntry name v = .ok w := h
      rw [storeEntry_of_plain fun d hd => by
        subst hd
        exact isOperatorDocument_of_plain hplain] at h
      exact ⟨fun _ => nofun, fun _ => h⟩

/-- An entry of a document of operators on a field, and what it is stored as: what is
    listed next to `$each` is stored item by item, and a number is as it was recorded
    unless the codec of the field scales it. -/
structure Modifies (r : Resolver) (name : String) (m m' : Value × Value) : Prop where
  operator : m'.1 = m.1
  items : ∀ items, m = (.str "$each", .list items) →
    ∃ stored, items.mapM (r.storeValue name) = .ok stored ∧ m'.2 = .list stored
  number : m.2.IsNumber → (m'.2 = m.2 ↔ ¬ r.Scales name m.2)

/-- A document of operators on a field is stored operator by operator. -/
theorem storeEntry_modifies (hstock : r.Stock) {mods : Document}
    (hmods : isOperatorDocument mods = true) (h : r.storeEntry name (.doc mods) = .ok w) :
    ∃ mods', w = .doc mods' ∧ List.Forall₂ (r.Modifies name) mods mods' := by
  rw [storeEntry, if_pos hmods] at h
  obtain ⟨mods', hmods', h⟩ := bind_eq_ok_iff.mp h
  refine ⟨mods', (Except.ok.inj h).symm, (mapM_eq_ok_iff.mp hmods').imp ?_⟩
  rintro ⟨op, operand⟩ m' hm
  obtain ⟨stored, hstored, hm⟩ := bind_eq_ok_iff.mp hm
  obtain rfl := Except.ok.inj hm
  refine ⟨rfl, ?_, fun hnumber => storeValue_number_iff hstock hnumber ?_⟩
  · rintro items heq
    obtain ⟨rfl, rfl⟩ := Prod.mk.inj heq
    rw [storeOperand_each] at hstored
    obtain ⟨items', hitems, rfl⟩ := map_eq_ok_iff.mp hstored
    exact ⟨items', hitems, rfl⟩
  · cases operand with
    | int _ | float _ | bool _ => exact hstored
    | _ => exact hnumber.elim

/-! ## Operands of update documents -/

/-- An entry of an update document stands for an operation: under its operator and the
    storage name of its path. Its operand is what it has to be exactly if the codec of
    the field does not distort it, where the path is no operator and the value no
    document of operators. -/
structure StandsFor (r : Resolver) (op : UpdateOperation) (e : Value × Value × Value) : Prop where
  operator : e.1 = .str op.action.inStore.1
  field : e.2.1 = (r.storageName op.path).key
  operand : op.path.startsWith "$" = false → op.action.IsPlain →
    (r.Conveys op.path op.action e.2.2 ↔ ¬ r.Distorts op.path op.action)

/-- An entry of an update document stands for an entry that was handed in: under its
    operator and the storage name of its path. If that was a document of operators on a
    field, it is stored operator by operator. -/
structure StandsForEntry (r : Resolver) (a e : Value × Value × Value) : Prop where
  operator : e.1 = a.1
  field : ∃ path, a.2.1 = .str path ∧ e.2.1 = (r.storageName path).key
  modifiers : ∀ path mods, a.2 = (.str path, .doc mods) → path.startsWith "$" = false →
    isOperatorDocument mods = true →
      ∃ mods', e.2.2 = .doc mods' ∧ List.Forall₂ (r.Modifies path) mods mods'

theorem Stores.standsFor (hstock : r.Stock) {op : UpdateOperation} {e : Value × Value × Value}
    (hnumeric : op.action.IsNumeric) (h : r.Stores op.entry e) : r.StandsFor op e where
  operator := h.1
  field := storedEntry_key h.2
  operand hpath hplain := by
    have hstored : r.storedEntry (.str op.path, op.action.operand) = .ok e.2 := by
      rw [Stores, op.entry_eq] at h
      exact h.2
    rw [storedEntry_of_plain rfl (Bool.eq_false_iff.mp hpath)] at hstored
    obtain ⟨w, hw, hstored⟩ := map_eq_ok_iff.mp hstored
    rw [← hstored]
    exact storeEntry_conveys_iff hstock hnumeric hplain hw

theorem Stores.standsForEntry (hstock : r.Stock) {a e : Value × Value × Value}
    (h : r.Stores a e) : r.StandsForEntry a e where
  operator := h.1
  field := storedEntry_named h.2
  modifiers path mods ha hpath hmods := by
    have hstored : r.storedEntry a.2 = .ok e.2 := h.2
    rw [ha, storedEntry_of_plain rfl (Bool.eq_false_iff.mp hpath)] at hstored
    obtain ⟨w, hw, hstored⟩ := map_eq_ok_iff.mp hstored
    rw [← hstored]
    exact storeEntry_modifies hstock hmods hw

end Resolver

/-- **Operands come out as they have to be exactly if the codec of the field leaves
    their numbers alone**, under stock transformers. In the update document of a builder
    each operation has its name under its operator, and each entry stands for an operation:
    values of the field and markers are always right, and factors and ends are exactly if
    they are not scaled. In a document of operators that is handed in, the numbers next to
    `$each` are as they were exactly if they are not scaled. -/
theorem QueryFactory.operands_conveyed_iff (f : QueryFactory) (hstock : f.resolver.Stock) :
    (∀ u v, Update.Built u → f.buildUpdate (.builder u) = .ok v →
      ∃ d, v = .doc d ∧ ByOperator d
        ∧ (∀ op ∈ u.operations, ∃ w,
          (.str op.action.inStore.1, (f.resolver.storageName op.path).key, w) ∈ fieldEntries d)
        ∧ ∀ e ∈ fieldEntries d, ∃ op ∈ u.operations, f.resolver.StandsFor op e)
    ∧ (∀ d v, KeyedByOperators d → containsUpdateOperators (.doc d) = true →
      f.buildUpdate (.document (.doc d)) = .ok v →
      ∃ d', v = .doc d' ∧ KeyedByOperators d'
        ∧ (∀ a ∈ fieldEntries d, ∃ path w, a.2.1 = .str path
          ∧ (a.1, (f.resolver.storageName path).key, w) ∈ fieldEntries d')
        ∧ ∀ e ∈ fieldEntries d', ∃ a ∈ fieldEntries d, f.resolver.StandsForEntry a e) := by
  constructor
  · intro u v hbuilt h
    replace h : f.resolver.resolveObject (.doc u.toDocument) = .ok v := h
    rw [Resolver.resolveObject] at h
    obtain ⟨d, hd, h⟩ := bind_eq_ok_iff.mp h
    obtain ⟨hdoc, hperm⟩ := toDocument_entries (hbuilt.apart.imp fun happart heq =>
      happart (.inl heq))
    refine ⟨d, (Except.ok.inj h).symm, Resolver.resolveEntries_byOperator hdoc hd, ?_, ?_⟩
    · intro op hop
      obtain ⟨path, w, hpath, hmem⟩ := Resolver.fieldEntries_kept hdoc.keyed hd
        (hperm.mem_iff.mpr (List.mem_map_of_mem hop))
      obtain rfl := Value.str.inj hpath
      exact ⟨w, hmem⟩
    · intro e he
      obtain ⟨a, ha, hstores⟩ := Resolver.fieldEntries_stored hdoc.keyed hd he
      obtain ⟨op, hop, rfl⟩ := List.mem_map.mp (hperm.mem_iff.mp ha)
      exact ⟨op, hop, hstores.standsFor hstock (hbuilt.numeric op hop)⟩
  · intro d v hkeyed hoperators h
    have hdoc : (UpdateItem.document (.doc d)).toDocument = .ok (.doc d) :=
      congrArg Except.ok (if_pos hoperators)
    rw [buildUpdate, hdoc] at h
    replace h : f.resolver.resolveObject (.doc d) = .ok v := h
    rw [Resolver.resolveObject] at h
    obtain ⟨d', hd', h⟩ := bind_eq_ok_iff.mp h
    refine ⟨d', (Except.ok.inj h).symm, (Resolver.resolveEntries_keyed hkeyed hd').1,
      fun a ha => Resolver.fieldEntries_kept hkeyed hd' ha, fun e he => ?_⟩
    obtain ⟨a, ha, hstores⟩ := Resolver.fieldEntries_stored hkeyed hd' he
    exact ⟨a, ha, hstores.standsForEntry hstock⟩

/-- A factory that stores a price in cents. -/
def QueryFactory.inCents : QueryFactory :=
  ⟨.ofMappings [⟨"price", some "price", some (.ofCodec .cents)⟩], .standard⟩

theorem QueryFactory.operands_conveyed_iff_inCents :
    inCents.resolver.Stock
    ∧ (∃ d, inCents.buildUpdate
          (.builder ⟨[⟨"price", .increment (.int 2)⟩, ⟨"count", .multiply (.int 3)⟩]⟩)
          = .ok (.doc d)
        ∧ ∀ e ∈ fieldEntries d, ∃ op ∈
          [⟨"price", .increment (.int 2)⟩, ⟨"count", .multiply (.int 3)⟩],
          inCents.resolver.StandsFor op e)
    ∧ ∃ d', inCents.buildUpdate (.document (.ofFields [("$push", .ofFields [("scores",
          .ofFields [("$each", .list [.int 5]), ("$position", .int 1)])])])) = .ok (.doc d')
        ∧ ∀ e ∈ fieldEntries d', inCents.resolver.StandsForEntry (.str "$push", .str "scores",
          .ofFields [("$each", .list [.int 5]), ("$position", .int 1)]) e := by
  have hstock : inCents.resolver.Stock := Resolver.stock_ofMappings (by simp [Transformer.ofCodec])
  obtain ⟨hbuilders, hdocuments⟩ := operands_conveyed_iff inCents hstock
  refine ⟨hstock, ?_, ?_⟩
  · have hfirst : Update.empty.call .increment (.name "price") [.int 2]
        = (.ok (), ⟨[⟨"price", .increment (.int 2)⟩]⟩) := rfl
    have hsecond : Update.call ⟨[⟨"price", .increment (.int 2)⟩]⟩ .mul (.name "count") [.int 3]
        = (.ok (), ⟨[⟨"price", .increment (.int 2)⟩, ⟨"count", .multiply (.int 3)⟩]⟩) := rfl
    have hbuild : inCents.buildUpdate
        (.builder ⟨[⟨"price", .increment (.int 2)⟩, ⟨"count", .multiply (.int 3)⟩]⟩)
        = .ok (.ofFields [("$inc", .ofFields [("price", .int 200)]),
          ("$mul", .ofFields [("count", .int 3)])]) := by with_unfolding_all rfl
    obtain ⟨d, hd, -, -, hentries⟩ := hbuilders _ _ (.call (.call .empty hfirst) hsecond) hbuild
    exact ⟨d, hbuild.trans (congrArg _ hd), hentries⟩
  · have hbuild : inCents.buildUpdate (.document (.ofFields [("$push", .ofFields [("scores",
        .ofFields [("$each", .list [.int 5]), ("$position", .int 1)])])]))
        = .ok (.ofFields [("$push", .ofFields [("scores",
          .ofFields [("$each", .list [.int 5]), ("$position", .int 1)])])]) := by
      with_unfolding_all rfl
    obtain ⟨d', hd', -, -, hentries⟩ := hdocuments _ _
      ⟨List.forall_mem_singleton.mpr ⟨"$push", rfl, by decide +kernel⟩, List.pairwise_singleton _ _⟩
      (by decide +kernel) hbuild
    refine ⟨d', hbuild.trans (congrArg _ hd'), fun e he => ?_⟩
    obtain ⟨a, ha, hstands⟩ := hentries e he
    obtain rfl := List.mem_singleton.mp ha
    exact hstands

/-- Factors, ends and positions come out a hundred times as large where a field is
    stored in cents. -/
theorem QueryFactory.operands_distorted :
    (∃ u : Update, u.Built ∧ u.operations = [⟨"price", .multiply (.int 2)⟩]
      ∧ inCents.buildUpdate (.builder u)
        = .ok (.ofFields [("$mul", .ofFields [("price", .int 200)])]))
    ∧ (∃ u : Update, u.Built ∧ u.operations = [⟨"price", .pop (.int (-1))⟩]
      ∧ inCents.buildUpdate (.builder u)
        = .ok (.ofFields [("$pop", .ofFields [("price", .int (-100))])]))
    ∧ inCents.buildUpdate (.document (.ofFields [("$push", .ofFields [("price",
        .ofFields [("$each", .list [.int 5]), ("$position", .int 1)])])]))
      = .ok (.ofFields [("$push", .ofFields [("price",
        .ofFields [("$each", .list [.int 500]), ("$position", .int 100)])])]) := by
  have hmul : Update.empty.call .mul (.name "price") [.int 2]
      = (.ok (), ⟨[⟨"price", .multiply (.int 2)⟩]⟩) := rfl
  have hpop : Update.empty.call .pop (.name "price") [.int (-1)]
      = (.ok (), ⟨[⟨"price", .pop (.int (-1))⟩]⟩) := by with_unfolding_all rfl
  refine ⟨⟨_, .call .empty hmul, rfl, ?_⟩, ⟨_, .call .empty hpop, rfl, ?_⟩, ?_⟩ <;>
    with_unfolding_all rfl

end DocumentAccess
