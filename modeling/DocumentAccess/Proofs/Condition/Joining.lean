import DocumentAccess.Proofs.Filter.Refusal

/-!
# Chains of one junction stay flat

Two conditions are joined by `and` or `or`, and a group of the same junction is
opened first (`Condition.parts`). So it does not matter how a chain is bracketed,
and an expression of predicates becomes a tree in which no group is a member of a
group of its own junction.

**`Condition.combine_lawful`**: joining is associative on all conditions. What is
built from an expression is flat, has the predicates of the expression from left
to right, and compiles to a filter that says what the expression says. Flatness
is an invariant that each step keeps (`Flat.join`), and so is what a filter says
(`exists_compile_join`), since a group says the same as its members together.
-/

namespace DocumentAccess

namespace Condition

/-! ## Parts -/

/-- A condition that can be joined with another one: a predicate, a filter in the store's
    own form, or a group, which always has members. -/
def IsJoinable : Condition → Prop
  | .leaf _ _ _ => True
  | .raw _ => True
  | .group _ items => items ≠ []
  | .absent => False
  | .foreign _ => False

section Parts

variable {j : Junction} {a b c : Condition}

/-- A condition contributes its members to a junction, or itself. -/
theorem parts_cases (j : Junction) (a : Condition) :
    (∃ items, a = .group j items ∧ a.parts j = items)
      ∨ ((∀ items, a ≠ .group j items) ∧ a.parts j = [a]) := by
  cases a with
  | group k items =>
      by_cases hk : k = j
      · subst hk
        exact .inl ⟨items, rfl, by rw [parts, if_pos rfl]⟩
      · refine .inr ⟨fun items' h => ?_, by rw [parts, if_neg hk]⟩
        injection h with hjunction
        exact hk hjunction
  | _ => exact .inr ⟨nofun, rfl⟩

@[simp] theorem parts_group (j : Junction) (items : List Condition) :
    parts j (.group j items) = items := by
  rw [parts, if_pos rfl]

theorem IsJoinable.parts_ne_nil (h : a.IsJoinable) (j : Junction) : a.parts j ≠ [] := by
  rcases parts_cases j a with ⟨items, rfl, hparts⟩ | ⟨-, hparts⟩
  · rw [hparts]
    exact h
  · rw [hparts]
    exact List.cons_ne_nil a []

theorem IsJoinable.foreignKind? (h : a.IsJoinable) : a.foreignKind? = none := by
  cases a with
  | absent => exact h.elim
  | foreign v => exact h.elim
  | _ => rfl

/-- Two conditions are joined by putting their parts one behind the other. -/
theorem combine_eq (ha : a.IsJoinable) (hb : b.IsJoinable) :
    combine j a b = .ok (.group j (a.parts j ++ b.parts j)) := by
  have hne : a.parts j ++ b.parts j ≠ [] := fun h =>
    ha.parts_ne_nil j (List.append_eq_nil_iff.mp h).1
  unfold combine
  split
  case h_1 => exact ha.elim
  case h_2 =>
    rw [ha.foreignKind?, hb.foreignKind?]
    exact join_eq_ok_iff.mpr ⟨hne, rfl⟩

theorem isJoinable_join (ha : a.IsJoinable) (b : Condition) :
    (group j (a.parts j ++ b.parts j)).IsJoinable := fun h =>
  ha.parts_ne_nil j (List.append_eq_nil_iff.mp h).1

/-- However a chain of one junction is bracketed, it is the same condition. -/
theorem combine_assoc (ha : a.IsJoinable) (hb : b.IsJoinable) (hc : c.IsJoinable) :
    ∃ t, (combine j a b >>= fun ab => combine j ab c) = .ok t
      ∧ (combine j b c >>= fun bc => combine j a bc) = .ok t := by
  refine ⟨.group j (a.parts j ++ b.parts j ++ c.parts j), ?_, ?_⟩
  · rw [combine_eq ha hb]
    show combine j (.group j (a.parts j ++ b.parts j)) c = _
    rw [combine_eq (isJoinable_join ha b) hc, parts_group]
  · rw [combine_eq hb hc]
    show combine j a (.group j (b.parts j ++ c.parts j)) = _
    rw [combine_eq ha (isJoinable_join hb c), parts_group, List.append_assoc]

end Parts

/-! ## Flat trees -/

/-- Whether a condition is a group. -/
def isGroup : Condition → Bool
  | .group _ _ => true
  | _ => false

/-- The nodes of a condition that are no groups, from left to right. -/
def plainNodes (c : Condition) : List Condition := c.nodes.filter fun n => !n.isGroup

/-- No group of a condition is a member of a group of the same junction. -/
def Flat (c : Condition) : Prop :=
  ∀ j items, .group j items ∈ c.nodes → ∀ inner, .group j inner ∉ items

section Nodes

variable {j : Junction} {a b : Condition}

theorem plainNodes_group (j : Junction) (items : List Condition) :
    (group j items).plainNodes = items.flatMap plainNodes := by
  rw [plainNodes, nodes_group, List.filter_cons_of_neg (by simp [isGroup]), List.filter_flatMap]
  rfl

/-- Opening a group loses no node that is no group. -/
theorem plainNodes_parts (j : Junction) (a : Condition) :
    (a.parts j).flatMap plainNodes = a.plainNodes := by
  rcases parts_cases j a with ⟨items, rfl, hparts⟩ | ⟨-, hparts⟩
  · rw [hparts, plainNodes_group]
  · rw [hparts, List.flatMap_singleton]

theorem plainNodes_join (j : Junction) (a b : Condition) :
    (group j (a.parts j ++ b.parts j)).plainNodes = a.plainNodes ++ b.plainNodes := by
  rw [plainNodes_group, List.flatMap_append, plainNodes_parts, plainNodes_parts]

theorem nodes_parts_subset (j : Junction) (a : Condition) :
    (a.parts j).flatMap nodes ⊆ a.nodes := by
  rcases parts_cases j a with ⟨items, rfl, hparts⟩ | ⟨-, hparts⟩
  · rw [hparts, nodes_group]
    exact List.subset_cons_self ..
  · rw [hparts, List.flatMap_singleton]
    exact List.Subset.refl _

theorem Flat.not_mem_parts (h : a.Flat) (inner : List Condition) :
    .group j inner ∉ a.parts j := by
  rcases parts_cases j a with ⟨items, rfl, hparts⟩ | ⟨hother, hparts⟩
  · rw [hparts]
    refine h j items ?_ inner
    rw [nodes_group]
    exact List.mem_cons_self ..
  · rw [hparts, List.mem_singleton]
    exact fun hinner => hother inner hinner.symm

/-- Joining keeps trees flat. -/
theorem Flat.join (ha : a.Flat) (hb : b.Flat) (j : Junction) :
    (group j (a.parts j ++ b.parts j)).Flat := by
  intro k items hmem inner hinner
  rw [nodes_group, List.flatMap_append, List.mem_cons, List.mem_append] at hmem
  rcases hmem with htop | hmem | hmem
  · injection htop with hk hitems
    subst hk hitems
    rcases List.mem_append.mp hinner with hinner | hinner
    · exact ha.not_mem_parts inner hinner
    · exact hb.not_mem_parts inner hinner
  · exact ha k items (nodes_parts_subset j a hmem) inner hinner
  · exact hb k items (nodes_parts_subset j b hmem) inner hinner

end Nodes

/-! ## Expressions -/

/-- A condition without members: a predicate, or a filter in the store's own form. -/
inductive Atom where
  | leaf (field : FieldName) (op : Operator) (value : Value)
  | raw (filter : Value)

/-- An atom as a condition. -/
def Atom.condition : Atom → Condition
  | leaf field op value => .leaf field op value
  | raw filter => .raw filter

/-- An expression of atoms under `and` and `or`. -/
inductive Expression where
  | atom (a : Atom)
  | both (left right : Expression)
  | either (left right : Expression)

namespace Expression

/-- The condition that an expression builds, operator by operator. -/
def build : Expression → Except Error Condition
  | atom a => .ok a.condition
  | both left right => do combine .all (← left.build) (← right.build)
  | either left right => do combine .any (← left.build) (← right.build)

/-- The atoms of an expression, from left to right. -/
def atoms : Expression → List Atom
  | atom a => [a]
  | both left right => left.atoms ++ right.atoms
  | either left right => left.atoms ++ right.atoms

/-- What an expression says, by what its atoms say. -/
def value (truth : Atom → Bool) : Expression → Bool
  | atom a => truth a
  | both left right => left.value truth && right.value truth
  | either left right => left.value truth || right.value truth

end Expression

end Condition

/-! ## Readings of filters -/

/-- A truth valuation of filters under which `$and` is the conjunction of its list and `$or`
    the disjunction. -/
structure Reading where
  holds : Value → Bool
  holds_and : ∀ filters, holds (.ofFields [("$and", .list filters)]) = filters.all holds
  holds_or : ∀ filters, holds (.ofFields [("$or", .list filters)]) = filters.any holds

/-- Any truth assignment to tests and to foreign filters makes a reading. -/
def Assignment.reading (ρ : Assignment) : Reading := ⟨ρ.holds, ρ.holds_and, ρ.holds_or⟩

/-- What a junction makes of truth values. -/
def Junction.joined : Junction → List Bool → Bool
  | .all, bs => bs.all id
  | .any, bs => bs.any id
  | .custom _, _ => false

namespace Junction

variable {j : Junction}

theorem joined_singleton (hj : j.isKnown = true) (b : Bool) : j.joined [b] = b := by
  cases j with
  | all => exact Bool.and_true b
  | any => exact Bool.or_false b
  | custom name => exact nomatch hj

/-- A list is joined part by part. -/
theorem joined_append (hj : j.isKnown = true) (xs ys : List Bool) :
    j.joined (xs ++ ys) = j.joined [j.joined xs, j.joined ys] := by
  cases j with
  | all => simp [joined]
  | any => simp [joined]
  | custom name => exact nomatch hj

end Junction

namespace FilterCompiler

variable {c : FilterCompiler} {j : Junction} {a b : Condition} {A B : Value}

/-- A group compiles if its members do, and says what the junction makes of them. -/
theorem exists_compile_group (hj : j.isKnown = true) {items : List Condition}
    {filters : List Value} (h : items.mapM c.compile = .ok filters) :
    ∃ filter, c.compile (.group j items) = .ok filter
      ∧ ∀ R : Reading, R.holds filter = j.joined (filters.map R.holds) := by
  rw [← compileAll_eq_mapM] at h
  cases j with
  | all =>
      refine ⟨.ofFields [("$and", .list filters)], ?_, fun R => ?_⟩
      · rw [compile, h]
        rfl
      · rw [R.holds_and, Junction.joined, List.all_map]
        rfl
  | any =>
      refine ⟨.ofFields [("$or", .list filters)], ?_, fun R => ?_⟩
      · rw [compile, h]
        rfl
      · rw [R.holds_or, Junction.joined, List.any_map]
        rfl
  | custom name => exact nomatch hj

/-- The parts of a condition together say what it says. -/
theorem exists_compile_parts (hj : j.isKnown = true) (h : c.compile a = .ok A) :
    ∃ filters, (a.parts j).mapM c.compile = .ok filters
      ∧ ∀ R : Reading, j.joined (filters.map R.holds) = R.holds A := by
  rcases Condition.parts_cases j a with ⟨items, rfl, hparts⟩ | ⟨-, hparts⟩
  · obtain ⟨-, filters, -, hfilters, -⟩ := compile_group_eq_ok_iff.mp h
    obtain ⟨filter, hfilter, hmeaning⟩ := exists_compile_group hj hfilters
    obtain rfl := Except.ok.inj (hfilter.symm.trans h)
    exact ⟨filters, by rw [hparts, hfilters], fun R => (hmeaning R).symm⟩
  · refine ⟨[A], ?_, fun R => Junction.joined_singleton hj (R.holds A)⟩
    rw [hparts, mapM_eq_ok_iff]
    exact .cons h .nil

/-- Two conditions that are joined compile if each does, and their filter says what the
    junction makes of the two. -/
theorem exists_compile_join (hj : j.isKnown = true) (ha : c.compile a = .ok A)
    (hb : c.compile b = .ok B) :
    ∃ filter, c.compile (.group j (a.parts j ++ b.parts j)) = .ok filter
      ∧ ∀ R : Reading, R.holds filter = j.joined [R.holds A, R.holds B] := by
  obtain ⟨as, has, hmeaningA⟩ := exists_compile_parts hj ha
  obtain ⟨bs, hbs, hmeaningB⟩ := exists_compile_parts hj hb
  have hparts : (a.parts j ++ b.parts j).mapM c.compile = .ok (as ++ bs) := by
    rw [mapM_eq_ok_iff] at has hbs ⊢
    exact List.rel_append has hbs
  obtain ⟨filter, hfilter, hmeaning⟩ := exists_compile_group hj hparts
  refine ⟨filter, hfilter, fun R => ?_⟩
  rw [hmeaning, List.map_append, Junction.joined_append hj, hmeaningA, hmeaningB]

end FilterCompiler

/-! ## What is built from expressions -/

namespace Condition

/-- A condition is what an expression should build: flat, with the atoms of the expression
    from left to right, and saying what the expression says, if the atoms compile. -/
structure Renders (t : Condition) (e : Expression) : Prop where
  joinable : t.IsJoinable
  flat : t.Flat
  atoms : t.plainNodes = e.atoms.map Atom.condition
  means : ∀ (c : FilterCompiler) (leaf : Atom → Value),
    (∀ a ∈ e.atoms, c.compile a.condition = .ok (leaf a)) →
    ∃ filter, c.compile t = .ok filter
      ∧ ∀ R : Reading, R.holds filter = e.value fun a => R.holds (leaf a)

variable {left right e : Expression} {a b : Condition}

theorem renders_atom (a : Atom) : a.condition.Renders (.atom a) where
  joinable := by cases a <;> exact trivial
  flat := by
    intro j items hmem
    cases a <;> exact nomatch List.mem_singleton.mp hmem
  atoms := by cases a <;> rfl
  means := fun _ leaf h => ⟨leaf a, h a (List.mem_singleton_self a), fun _ => rfl⟩

/-- One step: joining what two expressions build. -/
theorem Renders.join (ha : a.Renders left) (hb : b.Renders right) {j : Junction}
    (hj : j.isKnown = true) (hatoms : e.atoms = left.atoms ++ right.atoms)
    (hvalue : ∀ truth, e.value truth = j.joined [left.value truth, right.value truth]) :
    combine j a b = .ok (.group j (a.parts j ++ b.parts j))
      ∧ (group j (a.parts j ++ b.parts j)).Renders e := by
  refine ⟨combine_eq ha.joinable hb.joinable, ?_⟩
  refine ⟨isJoinable_join ha.joinable b, ha.flat.join hb.flat j, ?_, fun c leaf hleaf => ?_⟩
  · rw [plainNodes_join, ha.atoms, hb.atoms, hatoms, List.map_append]
  · rw [hatoms, List.forall_mem_append] at hleaf
    obtain ⟨A, hA, hmeaningA⟩ := ha.means c leaf hleaf.1
    obtain ⟨B, hB, hmeaningB⟩ := hb.means c leaf hleaf.2
    obtain ⟨filter, hfilter, hmeaning⟩ := FilterCompiler.exists_compile_join hj hA hB
    refine ⟨filter, hfilter, fun R => ?_⟩
    rw [hmeaning, hmeaningA, hmeaningB, hvalue]

/-- Every expression builds a condition that renders it. -/
theorem Expression.exists_build (e : Expression) : ∃ t, e.build = .ok t ∧ t.Renders e := by
  induction e with
  | atom a => exact ⟨a.condition, rfl, renders_atom a⟩
  | both left right ihleft ihright =>
      obtain ⟨a, hleft, ha⟩ := ihleft
      obtain ⟨b, hright, hb⟩ := ihright
      obtain ⟨hcombine, ht⟩ := ha.join (e := .both left right) (j := .all) hb rfl rfl
        fun truth => by simp [Expression.value, Junction.joined]
      exact ⟨_, by rw [build, hleft, hright]; exact hcombine, ht⟩
  | either left right ihleft ihright =>
      obtain ⟨a, hleft, ha⟩ := ihleft
      obtain ⟨b, hright, hb⟩ := ihright
      obtain ⟨hcombine, ht⟩ := ha.join (e := .either left right) (j := .any) hb rfl rfl
        fun truth => by simp [Expression.value, Junction.joined]
      exact ⟨_, by rw [build, hleft, hright]; exact hcombine, ht⟩

/-- **JOINING IS ASSOCIATIVE, FLAT AND FAITHFUL.** However a chain of one junction is
    bracketed, it is one and the same condition. An expression of predicates and foreign
    filters under `and` and `or` builds a condition in which no group is a member of a
    group of its own junction, with the atoms of the expression from left to right; and if
    the atoms compile, the whole compiles, to a filter that is true exactly if the
    expression is, under every reading of filters. -/
theorem combine_lawful :
    (∀ (j : Junction) (a b c : Condition), a.IsJoinable → b.IsJoinable → c.IsJoinable →
      ∃ t, (combine j a b >>= fun ab => combine j ab c) = .ok t
        ∧ (combine j b c >>= fun bc => combine j a bc) = .ok t)
    ∧ ∀ e : Expression, ∃ t, e.build = .ok t ∧ t.Flat
      ∧ t.plainNodes = e.atoms.map Atom.condition
      ∧ ∀ (c : FilterCompiler) (leaf : Atom → Value),
        (∀ a ∈ e.atoms, c.compile a.condition = .ok (leaf a)) →
        ∃ filter, c.compile t = .ok filter
          ∧ ∀ R : Reading, R.holds filter = e.value fun a => R.holds (leaf a) := by
  refine ⟨fun j a b c ha hb hc => combine_assoc ha hb hc, fun e => ?_⟩
  obtain ⟨t, hbuild, ht⟩ := e.exists_build
  exact ⟨t, hbuild, ht.flat, ht.atoms, ht.means⟩

/-- A chain under `and` around a choice, with an atom that occurs twice and one whose own
    filter is a junction. -/
theorem combine_lawful_mixed :
    let young : Atom := .leaf (some "age") (.known .lt) (.int 30)
    let named : Atom := .leaf (some "name") (.known .isNotEmpty) .null
    let foreign : Atom := .raw (.ofFields [("$nor", .list [])])
    let e : Expression :=
      .both (.atom young) (.both (.either (.atom named) (.atom foreign)) (.atom young))
    let choice : Condition := .group .any [named.condition, foreign.condition]
    let leaf (a : Atom) : Value :=
      (FilterCompiler.standard.compile a.condition).toOption.getD .null
    (combine .all young.condition choice >>= fun ab => combine .all ab young.condition)
        = (combine .all choice young.condition >>= fun bc => combine .all young.condition bc)
      ∧ e.build = .ok (.group .all [young.condition, choice, young.condition])
      ∧ (group .all [young.condition, choice, young.condition]).Flat
      ∧ ∃ filter,
        FilterCompiler.standard.compile (.group .all [young.condition, choice, young.condition])
          = .ok filter
        ∧ ∀ ρ : Assignment, ρ.holds filter = (ρ.holds (leaf young)
          && ((ρ.holds (leaf named) || ρ.holds (leaf foreign)) && ρ.holds (leaf young))) := by
  intro young named foreign e choice leaf
  obtain ⟨hassoc, hexpression⟩ := combine_lawful
  have hchoice : choice.IsJoinable := List.cons_ne_nil _ _
  obtain ⟨t, hleft, hright⟩ := hassoc .all young.condition choice young.condition trivial hchoice
    trivial
  obtain ⟨t', hbuild, hflat, -, hmeans⟩ := hexpression e
  have ht' : e.build = .ok (.group .all [young.condition, choice, young.condition]) := rfl
  obtain rfl := Except.ok.inj (hbuild.symm.trans ht')
  have hyoung : FilterCompiler.standard.compile young.condition = .ok (leaf young) := rfl
  have hnamed : FilterCompiler.standard.compile named.condition = .ok (leaf named) := rfl
  have hforeign : FilterCompiler.standard.compile foreign.condition = .ok (leaf foreign) := rfl
  have hleaf : ∀ a ∈ e.atoms, FilterCompiler.standard.compile a.condition = .ok (leaf a) := by
    show ∀ a ∈ [young, named, foreign, young], _
    simp only [List.forall_mem_cons]
    exact ⟨hyoung, hnamed, hforeign, hyoung, List.forall_mem_nil _⟩
  obtain ⟨filter, hfilter, hholds⟩ := hmeans FilterCompiler.standard leaf hleaf
  exact ⟨hleft.trans hright.symm, hbuild, hflat, filter, hfilter, fun ρ => hholds ρ.reading⟩

end Condition

end DocumentAccess
