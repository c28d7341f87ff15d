import DocumentAccess.Proofs.Mapping.Stock
import DocumentAccess.Proofs.Update.Placement

/-!
# What is written is what is searched for

An update writes a field's value in stored form, and a condition compares with
a stored form. **`QueryFactory.searched_as_written_iff`**: for a field that
holds no identifiers, both ways give the same path and the same operand, as one
value to compare with and as a member of a list alike, with one exception among
the stock transformers. A condition leaves every document as it is, also where the
field stores documents as texts: then one value is searched for in a form that is
never written.
-/

namespace DocumentAccess

/-! ## Stored values -/

/-- A codec leaves documents alone unless it turns them into texts. -/
theorem Codec.store_doc_iff {c : Codec} {d : Document} {w : Value}
    (h : c.store (.doc d) = .ok w) : w = .doc d ↔ c ≠ .objectToJson := by
  cases c with
  | objectToJson =>
      rw [store, storeBy] at h
      obtain ⟨text, -, h⟩ := bind_eq_ok_iff.mp h
      obtain rfl := Except.ok.inj h
      exact ⟨nofun, fun hn => absurd rfl hn⟩
  | objectId =>
      replace h : toIdentifierBy .hexadecimal (.doc d) = .ok w := h
      unfold toIdentifierBy at h
      split at h
      · exact ⟨nofun, fun _ => (Except.ok.inj h).symm⟩
      · exact nomatch h
  | _ => exact ⟨nofun, fun _ => (Except.ok.inj h).symm⟩

namespace Resolver

variable {r : Resolver} {name : String} {v w : Value}

/-- A value is a document, and its field stores documents as texts. -/
def StoresAsText (r : Resolver) (name : String) (v : Value) : Prop :=
  (∃ d, v = .doc d) ∧ r.StoresBy name .objectToJson

/-- A document is stored as it is, or as a text. -/
theorem storeValue_doc_iff (hstock : r.Stock) {d : Document}
    (h : r.storeValue name (.doc d) = .ok w) : w = .doc d ↔ ¬ r.StoresAsText name (.doc d) := by
  rcases hstock.cases name with ⟨c, hc⟩ | ⟨hnone, hplain⟩
  · constructor
    · rintro hkept ⟨-, htext⟩
      rw [htext.storeValue] at h
      exact (Codec.store_doc_iff h).mp hkept rfl
    · intro hn
      rw [hc.storeValue] at h
      refine (Codec.store_doc_iff h).mpr ?_
      rintro rfl
      exact hn ⟨⟨d, rfl⟩, hc⟩
  · rw [hplain] at h
    exact ⟨fun _ htext => hnone _ htext.2, fun _ => (Except.ok.inj h).symm⟩

/-- A comparison takes a value in stored form unless that is the text of a document. -/
theorem compared_eq_stored_iff (hstock : r.Stock) {stored : Value}
    (hstored : r.storeValue name v = .ok stored)
    (hw : r.resolveConditionValue name (.known .eq) v = .ok w) :
    w = stored ↔ ¬ r.StoresAsText name v := by
  cases v with
  | doc d =>
      obtain rfl := Except.ok.inj hw
      rw [eq_comm]
      exact storeValue_doc_iff hstock hstored
  | _ =>
      obtain rfl := Except.ok.inj (hw.symm.trans hstored)
      refine ⟨?_, fun _ => rfl⟩
      rintro - ⟨⟨d, hd⟩, -⟩
      exact nomatch hd

/-- A document is compared as it is. -/
theorem compared_of_storesAsText (h : r.StoresAsText name v)
    (hw : r.resolveConditionValue name (.known .eq) v = .ok w) : w = v := by
  obtain ⟨⟨d, rfl⟩, -⟩ := h
  exact (Except.ok.inj hw).symm

/-- A member of a list is compared in stored form. -/
theorem resolveConditionValue_isIn {stored : Value} (h : r.storeValue name v = .ok stored) :
    r.resolveConditionValue name (.known .isIn) (.list [v]) = .ok (.list [stored]) := by
  show (do return Value.list (← [v].mapM (r.storeValue name))) = _
  rw [List.mapM_cons, List.mapM_nil, h]
  rfl

/-- Setting a field to a value writes its stored form under its stored name. -/
theorem resolveObject_set (hname : name.startsWith "$" = false)
    (hplain : ∀ d, v = .doc d → isOperatorDocument d = false) :
    r.resolveObject (.ofFields [("$set", .ofFields [(name, v)])])
      = (r.storeValue name v).map fun stored =>
        .ofFields [("$set", .doc [((r.resolveField name).key, stored)])] := by
  have hfield : r.storedEntry (.str name, v)
      = (r.storeValue name v).map (Prod.mk (r.resolveField name).key) := by
    rw [storedEntry_of_plain rfl (Bool.eq_false_iff.mp hname), storeEntry_of_plain hplain]
  have hset : r.storedEntry (.str "$set", .ofFields [(name, v)])
      = ([(Value.str name, v)].mapM r.storedEntry).map fun es =>
        (.str "$set", .doc (Document.ofList es)) :=
    storedEntry_group (native_startsWith (.set v)) _
  show r.resolveObject (.doc [(.str "$set", .ofFields [(name, v)])]) = _
  rw [resolveObject, resolveEntries_eq, List.mapM_cons, List.mapM_nil, hset, List.mapM_cons,
    List.mapM_nil, hfield]
  cases r.storeValue name v <;> rfl

end Resolver

/-! ## Filters of one field -/

namespace FilterCompiler

variable {c : FilterCompiler} {field : FieldName} {path native : String} {v w : Value}

theorem single_inj : single field native v = single field native w ↔ v = w := by
  simp [single, Value.ofFields, Document.ofFields]

/-- A comparison with a field that holds no identifiers only compiles if its operator is
    known and the field has a name. -/
theorem compileLeaf_eq_ok {q : Value}
    (hid : ∀ path, field = some path → c.isIdField path = false)
    (h : c.compileLeaf field (.known .eq) v = .ok q) :
    ∃ path native, field = some path ∧ c.native? (.known .eq) = some native
      ∧ q = single field native v := by
  rw [compileLeaf] at h
  split at h
  case h_1 => cases h
  case h_2 native hnative =>
    obtain ⟨coerces, hcoerces, h⟩ := bind_eq_ok_iff.mp h
    cases field with
    | none => cases hcoerces
    | some path =>
        obtain rfl : c.isIdField path = coerces := Except.ok.inj hcoerces
        rw [hid path rfl] at h
        exact ⟨path, native, rfl, hnative, (Except.ok.inj h).symm⟩

/-- Membership in a list compiles if its operator is known. -/
theorem compileLeaf_isIn {items : List Value} (hid : c.isIdField path = false)
    (hnative : c.native? (.known .isIn) = some native) :
    c.compileLeaf (some path) (.known .isIn) (.list items)
      = .ok (single (some path) native (.list items)) := by
  rw [compileLeaf, hnative]
  show Except.ok (c.isIdField path) >>= _ = _
  rw [hid]
  rfl

end FilterCompiler

namespace QueryFactory

variable {f : QueryFactory} {name : String} {v u q : Value}

theorem buildUpdate_set :
    f.buildUpdate (.document (.ofFields [("$set", .ofFields [(name, v)])]))
      = f.resolver.resolveObject (.ofFields [("$set", .ofFields [(name, v)])]) := by
  have hoperators :
      containsUpdateOperators (.ofFields [("$set", .ofFields [(name, v)])]) = true := by
    with_unfolding_all rfl
  have hset : (UpdateItem.document (.ofFields [("$set", .ofFields [(name, v)])])).toDocument
      = .ok (.ofFields [("$set", .ofFields [(name, v)])]) := congrArg Except.ok (if_pos hoperators)
  rw [buildUpdate, hset]
  rfl

/-- A condition is built by storing its value and compiling a test of its stored name. -/
theorem buildFilter_leaf (op : Operator) :
    f.buildFilter (.leaf (some name) op v)
      = f.resolver.resolveConditionValue name op v
        >>= f.compiler.compileLeaf (f.resolver.resolveField name) op := by
  rw [buildFilter, Resolver.resolveCondition]
  cases f.resolver.resolveConditionValue name op v with
  | error e => rfl
  | ok w =>
      show f.compiler.compile (.leaf (f.resolver.resolveField name) op w) = _
      rw [FilterCompiler.compile]
      rfl

/-- **What is written is what is searched for, but for documents that are stored as
    texts.** Under stock transformers, take a field that holds no identifiers and a value that
    is no document of operators, and let the update that sets the field to the value and the
    comparison with it both build. The update writes a stored form under the field's stored name,
    and membership in a list of the value looks for that form under that name. So does
    the comparison, exactly if the value is no document that the field stores as a
    text; such a document is looked for as it is. -/
theorem searched_as_written_iff (hstock : f.resolver.Stock)
    (hname : name.startsWith "$" = false)
    (hplain : ∀ d, v = .doc d → Resolver.isOperatorDocument d = false)
    (hid : ∀ path, f.resolver.resolveField name = some path → f.compiler.isIdField path = false)
    (hupdate : f.buildUpdate (.document (.ofFields [("$set", .ofFields [(name, v)])])) = .ok u)
    (hfilter : Field.test ⟨name⟩ .eq [v] >>= f.buildFilter = .ok q) :
    ∃ path stored eqName,
      f.resolver.resolveField name = some path
        ∧ f.compiler.native? (.known .eq) = some eqName
        ∧ u = .ofFields [("$set", .ofFields [(path, stored)])]
        ∧ (∀ inName, f.compiler.native? (.known .isIn) = some inName →
          Field.test ⟨name⟩ .isIn [.list [v]] >>= f.buildFilter
            = .ok (FilterCompiler.single (some path) inName (.list [stored])))
        ∧ (q = FilterCompiler.single (some path) eqName stored
          ↔ ¬ f.resolver.StoresAsText name v)
        ∧ (f.resolver.StoresAsText name v →
          q = FilterCompiler.single (some path) eqName v) := by
  rw [buildUpdate_set, Resolver.resolveObject_set hname hplain] at hupdate
  obtain ⟨stored, hstored, rfl⟩ := map_eq_ok_iff.mp hupdate
  replace hfilter : f.buildFilter (.leaf (some name) (.known .eq) v) = .ok q := hfilter
  rw [buildFilter_leaf] at hfilter
  obtain ⟨w, hw, hleaf⟩ := bind_eq_ok_iff.mp hfilter
  obtain ⟨path, eqName, hpath, heqName, rfl⟩ := FilterCompiler.compileLeaf_eq_ok hid hleaf
  rw [hpath]
  refine ⟨path, stored, eqName, rfl, heqName, rfl, fun inName hinName => ?_, ?_, ?_⟩
  · show f.buildFilter (.leaf (some name) (.known .isIn) (.list [v])) = _
    rw [buildFilter_leaf, hpath, Resolver.resolveConditionValue_isIn hstored]
    exact FilterCompiler.compileLeaf_isIn (hid path hpath) hinName
  · rw [FilterCompiler.single_inj]
    exact Resolver.compared_eq_stored_iff hstock hstored hw
  · exact fun htext => by rw [Resolver.compared_of_storesAsText htext hw]

/-- A factory that stores a price in cents and a note as a text. -/
def priced : QueryFactory :=
  ⟨.ofMappings [⟨"price", some "price_cents", some (.ofCodec .cents)⟩,
    ⟨"note", some "note", some (.ofCodec .objectToJson)⟩], .standard⟩

/-- A price is written in cents and searched for in cents. -/
theorem searched_as_written_iff_priced :
    priced.resolver.Stock
      ∧ priced.buildUpdate (.document (.ofFields [("$set", .ofFields [("price", .int 2)])]))
        = .ok (.ofFields [("$set", .ofFields [("price_cents", .int 200)])])
      ∧ Field.test ⟨"price"⟩ .eq [.int 2] >>= priced.buildFilter
        = .ok (FilterCompiler.single (some "price_cents") "$eq" (.int 200))
      ∧ Field.test ⟨"price"⟩ .isIn [.list [.int 2]] >>= priced.buildFilter
        = .ok (FilterCompiler.single (some "price_cents") "$in" (.list [.int 200]))
      ∧ ¬ priced.resolver.StoresAsText "price" (.int 2) := by
  have hstock : priced.resolver.Stock := Resolver.stock_ofMappings (by simp [Transformer.ofCodec])
  have hupdate : priced.buildUpdate
        (.document (.ofFields [("$set", .ofFields [("price", .int 2)])]))
      = .ok (.ofFields [("$set", .ofFields [("price_cents", .int 200)])]) := by
    with_unfolding_all rfl
  have hfilter : Field.test ⟨"price"⟩ .eq [.int 2] >>= priced.buildFilter
      = .ok (FilterCompiler.single (some "price_cents") "$eq" (.int 200)) := rfl
  have hid (path : String) (hpath : priced.resolver.resolveField "price" = some path) :
      priced.compiler.isIdField path = false := by
    obtain rfl : "price_cents" = path := Option.some.inj hpath
    rfl
  obtain ⟨path, stored, eqName, hpath, heqName, hu, hin, hiff, -⟩ :=
    searched_as_written_iff (v := .int 2) hstock (by decide +kernel) (fun _ h => by cases h) hid
      hupdate hfilter
  obtain rfl : "price_cents" = path := Option.some.inj hpath
  obtain rfl : "$eq" = eqName := Option.some.inj heqName
  obtain rfl : .int 200 = stored := by
    simpa [Value.ofFields, Document.ofFields] using hu
  exact ⟨hstock, hupdate, hfilter, hin "$in" rfl, hiff.mp rfl⟩

/-- A note that is a document is written as a text and searched for as a document. -/
theorem searched_unlike_written :
    priced.buildUpdate
          (.document (.ofFields [("$set", .ofFields [("note", .ofFields [("a", .int 1)])])]))
        = .ok (.ofFields [("$set", .ofFields [("note", .str "\x7b\"a\": 1\x7d")])])
      ∧ Field.test ⟨"note"⟩ .isIn [.list [.ofFields [("a", .int 1)]]] >>= priced.buildFilter
        = .ok (FilterCompiler.single (some "note") "$in" (.list [.str "\x7b\"a\": 1\x7d"]))
      ∧ Field.test ⟨"note"⟩ .eq [.ofFields [("a", .int 1)]] >>= priced.buildFilter
        = .ok (FilterCompiler.single (some "note") "$eq" (.ofFields [("a", .int 1)])) := by
  exact ⟨by with_unfolding_all rfl, rfl, rfl⟩

end QueryFactory
end DocumentAccess
