import DocumentAccess.Proofs.Condition.Tree
import DocumentAccess.Proofs.Filter.Meaning
import DocumentAccess.Proofs.Outcome

/-!
# What a compiler refuses

Some nodes of a condition are an offence, whatever stands around them: what is
no condition, an operator or a junction that the compiler does not know, and a
value that the operator cannot take (`FilterCompiler.Offends`).

**`FilterCompiler.compile_refuses_first`**: a condition compiles unless one of its
nodes offends, and otherwise fails as the first of them in reading order. The
leaves are settled operator by operator (`knownLeaf_eq_error_iff`); the tree is
one induction, which says that it fails as the first node that fails without its
members (`error?_compile`).
-/

namespace DocumentAccess

namespace FilterCompiler

/-! ## Offences -/

/-- A value that a known operator on a field cannot take, and the error that says so. -/
inductive Misfits (field : FieldName) : KnownOperator → Value → Error → Prop
  /-- The bounds of a range are a list or a tuple of two. -/
  | bounds {v : Value} : (∀ items, v = .list items ∨ v = .tuple items → items.length ≠ 2) →
      Misfits field .between v (.betweenShape field v)
  /-- A pattern is a text. -/
  | pattern {v : Value} : (∀ s, v ≠ .str s) → Misfits field .like v (.likePattern field)
  /-- Members stand in a list, a tuple or a set. -/
  | members {op : KnownOperator} {v : Value} : op = .isIn ∨ op = .notIn →
      (∀ items, v ≠ .list items ∧ v ≠ .tuple items ∧ v ≠ .set items) →
      Misfits field op v (.membershipList op field)
  /-- A part of a field is named by a document with a path. -/
  | part {v : Value} : (∀ d, v = .doc d → Document.field? d "path" = none) →
      Misfits field .jsonExtract v (.jsonExtractShape field)
  /-- A document to search by has the text to search for. -/
  | search {d : Document} : d.field? "search" = none →
      Misfits field .fullText (.doc d) (.mismatch (.missingKey (.str "search")))

/-- A node that a compiler refuses whatever its members and its surroundings are, and the
    error that says so. A value is judged as the field is compared with it; a pattern or a
    text to search for is judged as it is. -/
inductive Offends (c : FilterCompiler) : Condition → Error → Prop
  /-- A value in the place of a condition. -/
  | foreign {v : Value} : Offends c (.foreign v) (.unknownNode v.typeName)
  /-- A junction other than `and` and `or`. -/
  | junction {name : String} {items : List Condition} :
      Offends c (.group (.custom name) items) (.unsupportedOperator name)
  /-- An operator that is not in the table. -/
  | operator {field : FieldName} {op : Operator} {v : Value} : c.native? op = none →
      Offends c (.leaf field op v) (.unsupportedOperator op.name)
  /-- A pattern or a text to search for of the wrong kind. -/
  | pattern {field : FieldName} {op : KnownOperator} {v : Value} {e : Error} :
      c.native? (.known op) ≠ none → op.takesPattern = true → Misfits field op v e →
      Offends c (.leaf field (.known op) v) e
  /-- A value of the wrong kind, behind the coercion of identifiers. -/
  | operand {path : String} {op : KnownOperator} {v : Value} {e : Error} :
      c.native? (.known op) ≠ none → op.takesPattern = false →
      Misfits (some path) op (c.compared (some path) v) e →
      Offends c (.leaf (some path) (.known op) v) e
  /-- A field that its mapping has left without a name, so that it has no path to look at.
      A caller's own conditions name their fields. -/
  | nameless {op : Operator} {v : Value} : c.native? op ≠ none → op.takesPattern = false →
      Offends c (.leaf none op v) (.mismatch (.noMember "NoneType" "rsplit"))

/-- The first of some nodes that offends does so with an error. -/
def FirstOffence (c : FilterCompiler) (nodes : List Condition) (e : Error) : Prop :=
  ∃ before node after, nodes = before ++ node :: after
    ∧ (∀ n ∈ before, ∀ e', ¬ c.Offends n e') ∧ c.Offends node e

/-! ## Leaves -/

variable {c : FilterCompiler} {field : FieldName} {native path : String} {v : Value} {e : Error}

/-- **THE LEAVES**: a known operator refuses what does not fit it, and nothing else. -/
theorem knownLeaf_eq_error_iff {op : KnownOperator} :
    c.knownLeaf field op native v = .error e ↔ Misfits field op v e := by
  constructor
  · intro h
    unfold knownLeaf at h
    cases op with
    | between =>
        dsimp only at h
        split at h
        case h_3 hlist htuple =>
          obtain rfl := Except.error.inj h
          refine .bounds fun items hitems htwo => ?_
          obtain ⟨lower, upper, rfl⟩ := List.length_eq_two.mp htwo
          rcases hitems with hv | hv
          · exact hlist lower upper hv
          · exact htuple lower upper hv
        all_goals exact nomatch h
    | like =>
        dsimp only at h
        split at h
        case h_1 => exact nomatch h
        case h_2 hstr =>
          obtain rfl := Except.error.inj h
          exact .pattern hstr
    | fullText =>
        replace h : fullText v = .error e := h
        unfold fullText at h
        split at h
        case h_1 =>
          split at h
          case h_1 hsearch =>
            obtain rfl := Except.error.inj h
            exact .search hsearch
          case h_2 => exact nomatch h
        case h_2 => exact nomatch h
    | jsonExtract =>
        replace h : jsonExtract field v = .error e := h
        unfold jsonExtract at h
        split at h
        case h_1 =>
          split at h
          case h_1 hpath =>
            obtain rfl := Except.error.inj h
            refine .part fun d hd => ?_
            obtain rfl := Value.doc.inj hd
            exact hpath
          case h_2 => exact nomatch h
        case h_2 hdoc =>
          obtain rfl := Except.error.inj h
          exact .part fun d hd => absurd hd (hdoc d)
    | isIn | notIn =>
        dsimp only at h
        split at h
        case h_4 hlist htuple hset =>
          obtain rfl := Except.error.inj h
          exact .members (by simp) fun items => ⟨hlist items, htuple items, hset items⟩
        all_goals exact nomatch h
    | arrayContains =>
        dsimp only at h
        split at h
        all_goals exact nomatch h
    | _ => exact nomatch h
  · intro h
    unfold knownLeaf
    cases h with
    | bounds h =>
        dsimp only
        split
        case h_1 => exact absurd rfl (h _ (.inl rfl))
        case h_2 => exact absurd rfl (h _ (.inr rfl))
        case h_3 => rfl
    | pattern h =>
        dsimp only
        split
        case h_1 => exact absurd rfl (h _)
        case h_2 => rfl
    | members hop h =>
        obtain rfl | rfl := hop
        all_goals
          dsimp only
          split
          case h_1 => exact absurd rfl (h _).1
          case h_2 => exact absurd rfl (h _).2.1
          case h_3 => exact absurd rfl (h _).2.2
          case h_4 => rfl
    | part h =>
        show jsonExtract field v = _
        unfold jsonExtract
        split
        case h_1 d => rw [h d rfl]
        case h_2 => rfl
    | search h =>
        show fullText _ = _
        rw [fullText, h]

theorem compileLeaf_pattern {op : KnownOperator} (hnative : c.native? (.known op) = some native)
    (hpattern : op.takesPattern = true) :
    c.compileLeaf field (.known op) v = c.knownLeaf field op native v := by
  have htakes : (Operator.known op).takesPattern = true := hpattern
  rw [compileLeaf, hnative]
  simp only [htakes, if_true]
  rfl

theorem compileLeaf_operand {op : KnownOperator} (hnative : c.native? (.known op) = some native)
    (hpattern : op.takesPattern = false) :
    c.compileLeaf (some path) (.known op) v
      = c.knownLeaf (some path) op native (c.compared (some path) v) := by
  have htakes : (Operator.known op).takesPattern = false := hpattern
  rw [compileLeaf, hnative]
  simp only [htakes, Bool.false_eq_true, if_false]
  rfl

theorem compileLeaf_custom {name : String} (hnative : c.native? (.custom name) = some native) :
    c.compileLeaf (some path) (.custom name) v
      = .ok (single (some path) native (c.compared (some path) v)) := by
  rw [compileLeaf, hnative]
  rfl

theorem compileLeaf_nameless {op : Operator} (hnative : c.native? op = some native)
    (hpattern : op.takesPattern = false) :
    c.compileLeaf none op v = .error (.mismatch (.noMember "NoneType" "rsplit")) := by
  rw [compileLeaf, hnative]
  simp only [hpattern, Bool.false_eq_true, if_false]
  rfl

/-- A leaf fails to compile exactly if it offends. -/
theorem compileLeaf_eq_error_iff {op : Operator} :
    c.compileLeaf field op v = .error e ↔ c.Offends (.leaf field op v) e := by
  cases hnative : c.native? op with
  | none =>
      rw [compileLeaf, hnative]
      constructor
      · intro h
        obtain rfl := Except.error.inj h
        exact .operator hnative
      · intro h
        cases h with
        | operator => rfl
        | pattern hknown => exact absurd hnative hknown
        | operand hknown => exact absurd hnative hknown
        | nameless hknown => exact absurd hnative hknown
  | some native =>
      have hknown : c.native? op ≠ none := by
        rw [hnative]
        exact Option.some_ne_none native
      constructor
      · intro h
        cases hpattern : op.takesPattern with
        | true =>
            cases op with
            | known op =>
                rw [compileLeaf_pattern hnative hpattern, knownLeaf_eq_error_iff] at h
                exact .pattern hknown hpattern h
            | custom name => cases hpattern
        | false =>
            cases field with
            | none =>
                rw [compileLeaf_nameless hnative hpattern] at h
                obtain rfl := Except.error.inj h
                exact .nameless hknown hpattern
            | some path =>
                cases op with
                | known op =>
                    rw [compileLeaf_operand hnative hpattern, knownLeaf_eq_error_iff] at h
                    exact .operand hknown hpattern h
                | custom name =>
                    rw [compileLeaf_custom hnative] at h
                    cases h
      · intro h
        cases h with
        | operator hunknown => exact absurd hunknown hknown
        | pattern _ hpattern hmisfit =>
            rw [compileLeaf_pattern hnative hpattern]
            exact knownLeaf_eq_error_iff.mpr hmisfit
        | operand _ hpattern hmisfit =>
            rw [compileLeaf_operand hnative hpattern]
            exact knownLeaf_eq_error_iff.mpr hmisfit
        | nameless _ hpattern => exact compileLeaf_nameless hnative hpattern

/-! ## Trees -/

/-- A node offends exactly if it fails to compile on its own. -/
theorem compile_bare_eq_error_iff {n : Condition} :
    c.compile n.bare = .error e ↔ c.Offends n e := by
  cases n with
  | absent => exact ⟨nofun, nofun⟩
  | raw filter => exact ⟨nofun, nofun⟩
  | foreign v =>
      constructor
      · intro h
        obtain rfl := Except.error.inj h
        exact .foreign
      · rintro ⟨⟩
        rfl
  | leaf field op v => exact compileLeaf_eq_error_iff
  | group junction items =>
      cases junction with
      | all => exact ⟨nofun, nofun⟩
      | any => exact ⟨nofun, nofun⟩
      | custom name =>
          constructor
          · intro h
            obtain rfl := Except.error.inj h
            exact .junction
          · rintro ⟨⟩
            rfl

theorem compileAll_eq_mapM (items : List Condition) :
    c.compileAll items = items.mapM c.compile := by
  induction items with
  | nil => rw [compileAll, List.mapM_nil]; rfl
  | cons x xs ih => rw [compileAll, List.mapM_cons, ih]

/-- A group compiles to the filters of its members, under the name of its junction. -/
theorem compile_group_eq_ok_iff {junction : Junction} {items : List Condition} {filter : Value} :
    c.compile (.group junction items) = .ok filter
      ↔ ∃ native filters, junction.native? = some native ∧ items.mapM c.compile = .ok filters
        ∧ filter = .ofFields [(native, .list filters)] := by
  rw [compile, compileAll_eq_mapM]
  cases junction.native? with
  | none => exact ⟨nofun, fun ⟨_, _, hnative, _⟩ => nomatch hnative⟩
  | some native =>
      constructor
      · intro h
        obtain ⟨filters, hfilters, hfilter⟩ := bind_eq_ok_iff.mp h
        exact ⟨native, filters, rfl, hfilters, (Except.ok.inj hfilter).symm⟩
      · rintro ⟨native, filters, hnative, hfilters, rfl⟩
        obtain rfl := Option.some.inj hnative
        exact bind_eq_ok_iff.mpr ⟨filters, hfilters, rfl⟩

/-- A group of a known junction fails as its members do. -/
theorem error?_compile_group {junction : Junction} (hnative : junction.native? = some native)
    (items : List Condition) :
    error? (c.compile (.group junction items)) = error? (items.mapM c.compile) := by
  rw [compile, hnative, ← compileAll_eq_mapM]
  cases c.compileAll items <;> rfl

/-- Trees that each fail as the first of their nodes do so together, one tree after another. -/
theorem error?_mapM_compile {items : List Condition} {own : Condition → Option Error}
    (h : ∀ x ∈ items, error? (c.compile x) = x.nodes.findSome? own) :
    error? (items.mapM c.compile) = (items.flatMap Condition.nodes).findSome? own := by
  rw [error?_mapM]
  induction items with
  | nil => rfl
  | cons x xs ih =>
      have hrest := ih fun y hy => h y (List.mem_cons_of_mem x hy)
      rw [List.findSome?_cons, h x (List.mem_cons_self ..), hrest, List.flatMap_cons,
        List.findSome?_append]
      cases x.nodes.findSome? own <;> rfl

/-- A tree fails as the first of its nodes that fails on its own. -/
theorem error?_compile (t : Condition) :
    error? (c.compile t) = t.nodes.findSome? fun n => error? (c.compile n.bare) := by
  induction t using Condition.induction with
  | absent | raw | foreign | leaf =>
      rw [Condition.nodes, List.findSome?_singleton, Condition.bare]
      all_goals
        intro _ _ h
        cases h
  | group junction items ih =>
      rw [Condition.nodes_group, List.findSome?_cons]
      cases hnative : junction.native? with
      | none => rw [Condition.bare, compile, compile, hnative]; rfl
      | some native =>
          have hbare : error? (c.compile (Condition.bare (.group junction items))) = none := by
            rw [Condition.bare, error?_compile_group hnative]
            rfl
          rw [hbare, error?_compile_group hnative, error?_mapM_compile ih]

theorem compile_eq_error_iff (t : Condition) :
    c.compile t = .error e ↔ c.FirstOffence t.nodes e := by
  have hclear {n : Condition} :
      error? (c.compile n.bare) = none ↔ ∀ e', ¬ c.Offends n e' := by
    simp only [← compile_bare_eq_error_iff, ← error?_eq_some_iff, Option.eq_none_iff_forall_ne_some,
      ne_eq]
  rw [← error?_eq_some_iff, error?_compile, List.findSome?_eq_some_iff]
  simp only [error?_eq_some_iff, compile_bare_eq_error_iff, hclear, FirstOffence]
  constructor
  · rintro ⟨before, n, after, hnodes, hn, hbefore⟩
    exact ⟨before, n, after, hnodes, hbefore, hn⟩
  · rintro ⟨before, n, after, hnodes, hbefore, hn⟩
    exact ⟨before, n, after, hnodes, hn, hbefore⟩

/-- **A COMPILER FAILS AS THE FIRST NODE THAT OFFENDS**, in reading order and a group before
    its members; without such a node it gives a filter. A missing condition and a filter
    in the store's own form never offend. -/
theorem compile_refuses_first (c : FilterCompiler) (t : Condition) :
    (∀ e, c.compile t = .error e ↔ c.FirstOffence t.nodes e)
      ∧ ((∃ e, c.compile t = .error e) ↔ ∃ n ∈ t.nodes, ∃ e, c.Offends n e)
      ∧ ∀ e, ¬ c.Offends .absent e ∧ ∀ filter, ¬ c.Offends (.raw filter) e := by
  refine ⟨fun e => compile_eq_error_iff t, ⟨?_, ?_⟩, fun e => ⟨nofun, fun filter => nofun⟩⟩
  · rintro ⟨e, h⟩
    obtain ⟨before, n, after, hnodes, -, hn⟩ := (compile_eq_error_iff t).mp h
    refine ⟨n, ?_, e, hn⟩
    rw [hnodes]
    exact List.mem_append_right before (List.mem_cons_self ..)
  · rintro ⟨n, hmem, e, hn⟩
    cases h : c.compile t with
    | error e' => exact ⟨e', rfl⟩
    | ok filter =>
        have hnone := error?_compile (c := c) t
        rw [h, show error? (Except.ok (ε := Error) filter) = none from rfl, eq_comm,
          List.findSome?_eq_none_iff] at hnone
        have hclear := hnone n hmem
        rw [compile_bare_eq_error_iff.mpr hn] at hclear
        exact nomatch hclear

end FilterCompiler

end DocumentAccess
