import DocumentAccess.Proofs.Filter.Refusal
import DocumentAccess.Proofs.Query.Agreement

/-!
# Tests without a value

A test for true, false or null carries no value of its own. It stands for a
comparison with a literal (`Abbreviates`), and compiles as that comparison
whatever value was left in it (`compileLeaf_abbreviated`). Before that, the
resolver stores values, and there the two part: a comparison has its literal
stored by the codec of the field, a test without a value the value that was left.

**`QueryFactory.valueless_agrees_iff`**: a test without a value builds what its
comparison builds exactly if the value that was left can be stored and the
codec keeps the literal. Null is always kept; truth values are not where they
are numbers, and a field of identifiers refuses one of them.
-/

namespace DocumentAccess

/-! ## Literals -/

/-- A test without a value, and the comparison with a literal that it stands for. -/
inductive Abbreviates : KnownOperator → KnownOperator → Value → Prop
  | isTrue : Abbreviates .isTrue .eq (.bool true)
  | isFalse : Abbreviates .isFalse .eq (.bool false)
  | isNull : Abbreviates .isNull .eq .null
  | isNotNull : Abbreviates .isNotNull .ne .null

variable {op cmp : KnownOperator} {literal : Value}

/-- Whether a codec stores a literal as it is. Truth values are numbers for one codec, and
    for another one a truth value that counts as present would have to be an identifier. -/
def Codec.keeps : Codec → Value → Bool
  | booleanToNumber, .bool _ => false
  | objectId, .bool b => !b
  | _, _ => true

theorem Codec.store_literal_iff (h : Abbreviates op cmp literal) (c : Codec) :
    c.store literal = .ok literal ↔ c.keeps literal = true := by
  cases h with
  | isTrue =>
      cases c with
      | booleanToNumber => exact ⟨nofun, nofun⟩
      | objectId => exact ⟨nofun, nofun⟩
      | _ => exact ⟨fun _ => rfl, fun _ => rfl⟩
  | isFalse =>
      cases c with
      | booleanToNumber => exact ⟨nofun, nofun⟩
      | _ => exact ⟨fun _ => rfl, fun _ => rfl⟩
  | isNull | isNotNull => cases c <;> exact ⟨fun _ => rfl, fun _ => rfl⟩

namespace Resolver

variable {r : Resolver} {name : String}

/-- A literal that the codec of a field, if it has one, stores as it is. -/
def Keeps (r : Resolver) (name : String) (literal : Value) : Prop :=
  ∀ c, r.StoresBy name c → c.keeps literal = true

theorem storeValue_literal_iff (hstock : r.Stock) (h : Abbreviates op cmp literal) :
    r.storeValue name literal = .ok literal ↔ r.Keeps name literal := by
  constructor
  · intro hkept c hc
    rw [hc.storeValue] at hkept
    exact (Codec.store_literal_iff h c).mp hkept
  · intro hkeeps
    rcases hstock.cases name with ⟨c, hc⟩ | ⟨-, hplain⟩
    · rw [hc.storeValue]
      exact (Codec.store_literal_iff h c).mpr (hkeeps c hc)
    · exact hplain literal

/-- A literal is compared in stored form. -/
theorem resolveConditionValue_literal (h : Abbreviates op cmp literal) :
    r.resolveConditionValue name (.known cmp) literal = r.storeValue name literal := by
  cases h <;> rfl

end Resolver

/-! ## Filters -/

namespace FilterCompiler

variable {c : FilterCompiler} {path : String} {v : Value}

theorem native?_of_default (h : c.operators = defaultOperators) (op : KnownOperator) :
    c.native? (.known op) = some (nativeOperator op) := by
  rw [native?, h, QueryFactory.lookup_defaultOperators]

/-- Under the default table, a test without a value compiles as the comparison with its
    literal, on every field and whatever value is left in it. -/
theorem compileLeaf_abbreviated (htable : c.operators = defaultOperators)
    (h : Abbreviates op cmp literal) (field : FieldName) (v : Value) :
    c.compileLeaf field (.known op) v = c.compileLeaf field (.known cmp) literal := by
  have hop := native?_of_default htable op
  have hcmp := native?_of_default htable cmp
  cases field with
  | none =>
      have htest : (Operator.known op).takesPattern = false := by cases h <;> rfl
      have hcomparison : (Operator.known cmp).takesPattern = false := by cases h <;> rfl
      rw [compileLeaf_nameless hop htest, compileLeaf_nameless hcmp hcomparison]
  | some path =>
      have htest : op.takesPattern = false := by cases h <;> rfl
      have hcomparison : cmp.takesPattern = false := by cases h <;> rfl
      have hliteral : c.compared (some path) literal = literal := by
        cases h <;> exact ite_self _
      rw [compileLeaf_operand hop htest, compileLeaf_operand hcmp hcomparison, hliteral]
      cases h <;> rfl

/-- What a field of identifiers is compared with is a literal only if it was one. -/
theorem compared_eq_literal_iff (h : Abbreviates op cmp literal) :
    c.compared (some path) v = literal ↔ v = literal := by
  have hcoerced : coerceId v = literal ↔ v = literal := by
    cases v with
    | str s =>
        rw [coerceId]
        split <;> cases h <;> simp
    | list _ | tuple _ | doc _ =>
        rw [coerceId]
        cases h <;> simp
    | _ => exact Iff.rfl
  show (if c.isIdField path then coerceId v else v) = literal ↔ _
  split
  · exact hcoerced
  · exact Iff.rfl

/-- A comparison for equality, or for its opposite, is a filter of what it compares with. -/
theorem compileLeaf_comparison (htable : c.operators = defaultOperators)
    (h : Abbreviates op cmp literal) :
    c.compileLeaf (some path) (.known cmp) v
      = .ok (single (some path) (nativeOperator cmp) (c.compared (some path) v)) := by
  have hpattern : cmp.takesPattern = false := by cases h <;> rfl
  rw [compileLeaf_operand (native?_of_default htable cmp) hpattern]
  cases h <;> rfl

end FilterCompiler

/-! ## What is built -/

namespace QueryFactory

variable {f : QueryFactory} {name path : String} {v : Value}

/-- A test without a value builds the filter of its literal, once the value that was left
    in it is stored. -/
theorem buildFilter_abbreviated (htable : f.compiler.operators = FilterCompiler.defaultOperators)
    (h : Abbreviates op cmp literal) (name : String) (v : Value) :
    f.buildFilter (.leaf (some name) (.known op) v)
      = f.resolver.resolveConditionValue name (.known op) v >>= fun _ =>
        f.compiler.compileLeaf (f.resolver.resolveField name) (.known cmp) literal := by
  rw [buildFilter_leaf]
  cases f.resolver.resolveConditionValue name (.known op) v with
  | error e => rfl
  | ok w => exact FilterCompiler.compileLeaf_abbreviated htable h _ w

/-- The comparison that a test without a value stands for has its literal stored. -/
theorem buildFilter_literal (htable : f.compiler.operators = FilterCompiler.defaultOperators)
    (h : Abbreviates op cmp literal) (hpath : f.resolver.resolveField name = some path) :
    Field.test ⟨name⟩ cmp [literal] >>= f.buildFilter
      = (f.resolver.storeValue name literal).map fun stored =>
        FilterCompiler.single (some path) (FilterCompiler.nativeOperator cmp)
          (f.compiler.compared (some path) stored) := by
  have htest : Field.test ⟨name⟩ cmp [literal] = .ok (.leaf (some name) (.known cmp) literal) := by
    cases h <;> rfl
  rw [htest]
  show f.buildFilter (.leaf (some name) (.known cmp) literal) = _
  rw [buildFilter_leaf, Resolver.resolveConditionValue_literal h, hpath]
  cases f.resolver.storeValue name literal with
  | error e => rfl
  | ok stored => exact FilterCompiler.compileLeaf_comparison htable h

/-- **A test without a value agrees with its comparison where the codec keeps the literal.**
    Under stock transformers and the default table, a test for true, false or null on a field
    with a stored name builds the filter of its literal, whatever value was left in it, unless
    that value cannot be stored; then it fails as the value does. So it builds what the
    comparison with the literal builds exactly if the value can be stored and the codec of the
    field keeps the literal, or if both fail alike. -/
theorem valueless_agrees_iff (hstock : f.resolver.Stock)
    (htable : f.compiler.operators = FilterCompiler.defaultOperators)
    (h : Abbreviates op cmp literal) (hpath : f.resolver.resolveField name = some path) :
    f.buildFilter (.leaf (some name) (.known op) v)
        = (f.resolver.resolveConditionValue name (.known op) v).map
          (fun _ => FilterCompiler.single (some path) (FilterCompiler.nativeOperator cmp) literal)
      ∧ (f.buildFilter (.leaf (some name) (.known op) v)
          = Field.test ⟨name⟩ cmp [literal] >>= f.buildFilter
        ↔ ((∃ w, f.resolver.resolveConditionValue name (.known op) v = .ok w)
              ∧ f.resolver.Keeps name literal)
            ∨ ∃ e, f.resolver.resolveConditionValue name (.known op) v = .error e
              ∧ f.resolver.storeValue name literal = .error e) := by
  have hbuilt : f.buildFilter (.leaf (some name) (.known op) v)
      = (f.resolver.resolveConditionValue name (.known op) v).map
        (fun _ =>
          FilterCompiler.single (some path) (FilterCompiler.nativeOperator cmp) literal) := by
    have hliteral : f.compiler.compared (some path) literal = literal :=
      (FilterCompiler.compared_eq_literal_iff h).mpr rfl
    rw [buildFilter_abbreviated htable h, hpath, FilterCompiler.compileLeaf_comparison htable h,
      hliteral]
    cases f.resolver.resolveConditionValue name (.known op) v <;> rfl
  have hfilters (stored : Value) :
      FilterCompiler.single (some path) (FilterCompiler.nativeOperator cmp) literal
          = FilterCompiler.single (some path) (FilterCompiler.nativeOperator cmp)
            (f.compiler.compared (some path) stored)
        ↔ stored = literal := by
    rw [FilterCompiler.single_inj, eq_comm, FilterCompiler.compared_eq_literal_iff h]
  refine ⟨hbuilt, ?_⟩
  rw [hbuilt, buildFilter_literal htable h hpath, 
    ← Resolver.storeValue_literal_iff hstock h]
  -- Either side fails with the error of its own value, or builds a filter of its own.
  cases f.resolver.resolveConditionValue name (.known op) v with
  | error e =>
      cases f.resolver.storeValue name literal with
      | error e' => simp [Except.map, eq_comm]
      | ok stored => simp [Except.map]
  | ok w =>
      cases f.resolver.storeValue name literal with
      | error e' => simp [Except.map]
      | ok stored => simp [Except.map, hfilters]

/-- A factory that stores a flag as a number and an owner by identifier. -/
def flagged : QueryFactory :=
  ⟨.ofMappings [⟨"active", some "is_active", some (.ofCodec .booleanToNumber)⟩,
    ⟨"owner", some "owner_id", some (.ofCodec .objectId)⟩], .standard⟩

/-- A test for null agrees with its comparison, also over a value that was left in it. -/
theorem valueless_agrees_iff_owned :
    flagged.resolver.Stock
      ∧ flagged.buildFilter (.leaf (some "owner") (.known .isNull) (.str ""))
        = .ok (FilterCompiler.single (some "owner_id") "$eq" .null)
      ∧ flagged.buildFilter (.leaf (some "owner") (.known .isNull) (.str ""))
        = Field.test ⟨"owner"⟩ .eq [.null] >>= flagged.buildFilter := by
  have hstock : flagged.resolver.Stock := Resolver.stock_ofMappings (by simp [Transformer.ofCodec])
  have hpath : flagged.resolver.resolveField "owner" = some "owner_id" := rfl
  have hstored : flagged.resolver.resolveConditionValue "owner" (.known .isNull) (.str "")
      = .ok (.str "") := rfl
  obtain ⟨hbuilt, hagrees⟩ :=
    valueless_agrees_iff (f := flagged) (v := .str "") hstock rfl .isNull hpath
  have hkeeps : flagged.resolver.Keeps "owner" .null := fun c _ => by cases c <;> rfl
  refine ⟨hstock, ?_, hagrees.mpr (.inl ⟨⟨_, hstored⟩, hkeeps⟩)⟩
  rw [hbuilt, hstored]
  rfl

/-- A flag that is stored as a number is searched for as a truth value, and a test for null
    fails over a value that it does not use. -/
theorem valueless_disagrees :
    flagged.buildFilter (.leaf (some "active") (.known .isTrue) .null)
        = .ok (FilterCompiler.single (some "is_active") "$eq" (.bool true))
      ∧ Field.test ⟨"active"⟩ .eq [.bool true] >>= flagged.buildFilter
        = .ok (FilterCompiler.single (some "is_active") "$eq" (.int 1))
      ∧ flagged.buildFilter (.leaf (some "owner") (.known .isNull) (.str "nobody"))
        = .error (.mismatch (.identifierText (.str "nobody")))
      ∧ Field.test ⟨"owner"⟩ .eq [.null] >>= flagged.buildFilter
        = .ok (FilterCompiler.single (some "owner_id") "$eq" .null) :=
  ⟨rfl, rfl, rfl, rfl⟩

end QueryFactory

end DocumentAccess
