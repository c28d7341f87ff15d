import DocumentAccess.Proofs.Query.Renaming

/-!
# A bulk update is its single updates

Several updates come as three lists, and each place of the lists is an update that
could be asked for on its own (`UpdateParams.only`). On its own an update is refused
for its condition, else for what it changes, else for its method
(`QueryFactory.Refuses`). At another place it gives the same or is refused for the same
reason (`QueryFactory.entryAt_cases`). The error of a method that is not known names the
place; the error of a condition or of a change is whatever the resolver raises, and it
is passed on as it is, also if it looks like the other one (`Refusal.error`).

**`QueryFactory.update_bulk`**: several updates are built exactly if each is built on
its own. The outcome is then the ordered bulk of the single updates, and else the
refusal of the first that is refused, with its place.
-/

namespace DocumentAccess

/-! ## Documents as filters -/

/-- A computation that gives documents only. -/
def Documents (a : Except Error Value) : Prop := ∀ v, a = .ok v → ∃ d : Document, v = .doc d

theorem Documents.ok (d : Document) : Documents (.ok (.doc d)) := by
  intro v h
  exact ⟨d, (Except.ok.inj h).symm⟩

theorem Documents.error (e : Error) : Documents (.error e) := nofun

theorem Documents.bind {α : Type} {a : Except Error α} {k : α → Except Error Value}
    (h : ∀ x, Documents (k x)) : Documents (a >>= k) := by
  intro v hv
  obtain ⟨x, -, hx⟩ := bind_eq_ok_iff.mp hv
  exact h x v hx

namespace FilterCompiler

variable (c : FilterCompiler)

theorem fullText_documents (v : Value) : Documents (fullText v) := by
  unfold fullText
  split
  · split
    · exact .error _
    · exact .ok _
  · exact .ok _

theorem jsonExtract_documents (field : FieldName) (v : Value) :
    Documents (jsonExtract field v) := by
  unfold jsonExtract
  split
  · split
    · exact .error _
    · exact .ok _
  · exact .error _

theorem knownLeaf_documents (field : FieldName) (op : KnownOperator) (native : String)
    (v : Value) : Documents (c.knownLeaf field op native v) := by
  unfold knownLeaf
  split
  case h_1 =>
    split
    case h_3 => exact .error _
    all_goals exact .ok _
  case h_8 =>
    split
    · exact .ok _
    · exact .error _
  case h_9 => exact fullText_documents v
  case h_10 => exact jsonExtract_documents field v
  case h_11 => split <;> exact .ok _
  case h_12 | h_13 =>
    split
    case h_4 => exact .error _
    all_goals exact .ok _
  all_goals exact .ok _

theorem compileLeaf_documents (field : FieldName) (op : Operator) (v : Value) :
    Documents (c.compileLeaf field op v) := by
  unfold compileLeaf
  split
  · exact .error _
  · dsimp only
    split
    all_goals
      refine .bind fun coerces => ?_
      cases op with
      | known op => exact c.knownLeaf_documents field op _ _
      | custom name => exact .ok _

/-- A condition that is no filter already compiles to a document. -/
theorem compile_documents {x : Condition} (h : ∀ filter, x ≠ .raw filter) :
    Documents (c.compile x) := by
  cases x with
  | absent => exact .ok _
  | raw filter => exact absurd rfl (h filter)
  | foreign v => exact .error _
  | leaf field op v => exact c.compileLeaf_documents field op v
  | group junction items =>
      rw [compile]
      split
      · exact .error _
      · exact .bind fun filters => .ok _

end FilterCompiler

/-- The filter of a condition is a document, unless the condition is another filter. -/
theorem QueryFactory.buildFilter_documents (f : QueryFactory) {c : Condition}
    (hraw : ∀ v, c = .raw v → ∃ d : Document, v = .doc d) : Documents (f.buildFilter c) := by
  intro filter h
  obtain ⟨c', hc', hcompile⟩ := buildFilter_eq_ok_iff.mp h
  cases hc' with
  | raw =>
      obtain rfl := Except.ok.inj hcompile
      exact hraw _ rfl
  | absent | leaf _ | group _ _ =>
      refine f.compiler.compile_documents ?_ _ hcompile
      exact fun _ => nofun

/-! ## Entries -/

/-- One of several updates: what it changes, where, and by which method. -/
structure UpdateEntry where
  update : UpdateItem
  filter : Condition
  method : MethodTag

namespace UpdateParams

variable {p : UpdateParams}

/-- The updates that are asked for, place by place. -/
def entries (p : UpdateParams) : List UpdateEntry :=
  (p.updates.zip (p.filters.zip p.methods)).map fun x => ⟨x.1, x.2.1, x.2.2⟩

/-- One of the updates, asked for on its own. -/
def only (p : UpdateParams) (x : UpdateEntry) : UpdateParams :=
  ⟨[x.update], [x.filter], [x.method], p.upsert⟩

/-- There is a condition and a method for each update. -/
structure Even (p : UpdateParams) : Prop where
  filters : p.filters.length = p.updates.length
  methods : p.methods.length = p.updates.length

theorem Even.length_entries (h : p.Even) : p.entries.length = p.updates.length := by
  rw [entries, List.length_map, List.length_zip, List.length_zip, h.filters, h.methods,
    Nat.min_self, Nat.min_self]

theorem filter_mem_of_mem_entries {x : UpdateEntry} (h : x ∈ p.entries) :
    x.filter ∈ p.filters := by
  obtain ⟨y, hy, rfl⟩ := List.mem_map.mp h
  exact (List.of_mem_zip (List.of_mem_zip hy).2).1

end UpdateParams

/-- Why an update is refused. -/
inductive Refusal where
  /-- Its condition, or what it changes, cannot be built. -/
  | part (e : Error)
  /-- Its method is not known. -/
  | method (v : Value)

/-- The error of a refusal, for the place of the update among several. -/
def Refusal.error (place : Nat) : Refusal → Error
  | .part e => e
  | .method v => .unknownUpdateMethod place v

namespace QueryFactory

variable {f : QueryFactory} {p : UpdateParams} {x : UpdateEntry} {e : Error} {refusal : Refusal}

/-- How an update is refused: for its condition, else for what it changes, else for a method
    that is not known. -/
inductive Refuses (f : QueryFactory) (x : UpdateEntry) : Refusal → Prop
  | filter {e : Error} : f.buildFilter x.filter = .error e → Refuses f x (.part e)
  | update {filter : Value} {e : Error} : f.buildFilter x.filter = .ok filter →
      f.buildUpdate x.update = .error e → Refuses f x (.part e)
  | method {filter update v : Value} : f.buildFilter x.filter = .ok filter →
      f.buildUpdate x.update = .ok update → x.method = .value v →
      UpdateMethod.ofValue? v = none → Refuses f x (.method v)

/-- The descriptor of an entry at a place. -/
def entryAt (f : QueryFactory) (upsert : Bool) (place : Nat) (x : UpdateEntry) :
    Except Error UpdateQuery :=
  f.updateAt upsert place x.update x.filter x.method

/-- A refusal is the same at each place, apart from the place that it names. -/
theorem Refuses.entryAt {upsert : Bool} (h : f.Refuses x refusal) (place : Nat) :
    f.entryAt upsert place x = .error (refusal.error place) := by
  unfold QueryFactory.entryAt updateAt
  cases h with
  | filter hfilter =>
      rw [hfilter]
      rfl
  | update hfilter hupdate =>
      rw [hfilter, hupdate]
      rfl
  | method hfilter hupdate hmethod hv =>
      rw [hfilter, hupdate, hmethod]
      simp only [MethodTag.resolve, hv]
      rfl

/-- An entry gives the same descriptor at each place, or it is refused. -/
theorem entryAt_cases (f : QueryFactory) (upsert : Bool) (x : UpdateEntry) :
    (∃ q, ∀ place, f.entryAt upsert place x = .ok q) ∨ ∃ refusal, f.Refuses x refusal := by
  unfold entryAt updateAt
  cases hfilter : f.buildFilter x.filter with
  | error e => exact .inr ⟨_, .filter hfilter⟩
  | ok filter =>
      cases hupdate : f.buildUpdate x.update with
      | error e => exact .inr ⟨_, .update hfilter hupdate⟩
      | ok update =>
          cases hmethod : x.method with
          | method m => exact .inl ⟨_, fun _ => rfl⟩
          | value v =>
              simp only [MethodTag.resolve]
              cases hv : UpdateMethod.ofValue? v with
              | none => exact .inr ⟨_, .method hfilter hupdate hmethod hv⟩
              | some m => exact .inl ⟨_, fun _ => rfl⟩

theorem entryAt_eq_ok_iff {upsert : Bool} {place : Nat} {q : UpdateQuery} :
    f.entryAt upsert place x = .ok q ↔ f.entryAt upsert 0 x = .ok q := by
  rcases f.entryAt_cases upsert x with ⟨q', hq⟩ | ⟨refusal, he⟩
  · rw [hq, hq]
  · rw [he.entryAt, he.entryAt]
    exact ⟨nofun, nofun⟩

theorem entryAt_eq_error_iff {upsert : Bool} {place : Nat} :
    f.entryAt upsert place x = .error e
      ↔ ∃ refusal, f.Refuses x refusal ∧ e = refusal.error place := by
  constructor
  · intro h
    rcases f.entryAt_cases upsert x with ⟨q, hq⟩ | ⟨refusal, hrefusal⟩
    · exact nomatch (hq place).symm.trans h
    · exact ⟨refusal, hrefusal, Except.error.inj (h.symm.trans (hrefusal.entryAt place))⟩
  · rintro ⟨refusal, hrefusal, rfl⟩
    exact hrefusal.entryAt place

/-! ## The walk through the entries -/

theorem updatesFrom_eq_mapM (f : QueryFactory) (p : UpdateParams) (place : Nat) :
    f.updatesFrom p.upsert place p.updates p.filters p.methods
      = (p.entries.zipIdx place).mapM fun x => f.entryAt p.upsert x.2 x.1 := by
  obtain ⟨us, cs, ts, upsert⟩ := p
  induction us generalizing place cs ts with
  | nil => rfl
  | cons u us ih =>
      cases cs with
      | nil => rfl
      | cons c cs =>
          cases ts with
          | nil => rfl
          | cons t ts =>
              have hentries : UpdateParams.entries ⟨u :: us, c :: cs, t :: ts, upsert⟩
                  = ⟨u, c, t⟩ :: UpdateParams.entries ⟨us, cs, ts, upsert⟩ := rfl
              rw [hentries, List.zipIdx_cons, List.mapM_cons, ← ih]
              rfl

/-- The descriptors of the entries, built place by place. -/
def singles (f : QueryFactory) (p : UpdateParams) : Except Error (List UpdateQuery) :=
  p.entries.zipIdx.mapM fun x => f.entryAt p.upsert x.2 x.1

theorem singles_eq_ok_iff {qs : List UpdateQuery} :
    f.singles p = .ok qs
      ↔ List.Forall₂ (fun x q => f.entryAt p.upsert 0 x = .ok q) p.entries qs := by
  rw [singles, mapM_eq_ok_iff]
  have hplaces : List.Forall₂ (fun x q => f.entryAt p.upsert 0 x = .ok q)
      (p.entries.zipIdx.map Prod.fst) qs ↔ _ := List.forall₂_map_left_iff
  rw [List.zipIdx_map_fst] at hplaces
  simp only [entryAt_eq_ok_iff, hplaces]

theorem singles_eq_error_iff :
    f.singles p = .error e ↔ ∃ before x after refusal, p.entries = before ++ x :: after
      ∧ (∀ y ∈ before, ∃ q, f.entryAt p.upsert 0 y = .ok q) ∧ f.Refuses x refusal
      ∧ e = refusal.error before.length := by
  have hbuilt (before : List UpdateEntry) :
      (∀ y ∈ before.zipIdx, ∃ q, f.entryAt p.upsert y.2 y.1 = .ok q)
        ↔ ∀ y ∈ before, ∃ q, f.entryAt p.upsert 0 y = .ok q := by
    have hplaces : (∀ y ∈ before.zipIdx.map Prod.fst, ∃ q, f.entryAt p.upsert 0 y = .ok q) ↔ _ :=
      List.forall_mem_map
    rw [List.zipIdx_map_fst] at hplaces
    simp only [entryAt_eq_ok_iff, hplaces]
  rw [singles, mapM_zipIdx_eq_error_iff]
  simp only [hbuilt, entryAt_eq_error_iff, Nat.zero_add]
  constructor
  · rintro ⟨before, x, after, hentries, hbefore, refusal, hrefusal, rfl⟩
    exact ⟨before, x, after, refusal, hentries, hbefore, hrefusal, rfl⟩
  · rintro ⟨before, x, after, refusal, hentries, hbefore, hrefusal, rfl⟩
    exact ⟨before, x, after, hentries, hbefore, refusal, hrefusal, rfl⟩

/-! ## Updates on their own -/

theorem update_only (f : QueryFactory) (p : UpdateParams) (x : UpdateEntry) :
    f.update (p.only x) = (f.entryAt p.upsert 0 x).map .single := by
  have hsingles : f.updatesFrom p.upsert 0 [x.update] [x.filter] [x.method]
      = (do return [← f.entryAt p.upsert 0 x]) := updatesFrom_eq_mapM f (p.only x) 0
  show (f.updatesFrom p.upsert 0 [x.update] [x.filter] [x.method] >>= _) = _
  rw [hsingles]
  cases f.entryAt p.upsert 0 x <;> rfl

theorem update_only_eq_ok_iff {q : UpdateQuery} :
    f.update (p.only x) = .ok (.single q) ↔ f.entryAt p.upsert 0 x = .ok q := by
  rw [update_only, map_eq_ok_iff]
  constructor
  · rintro ⟨q', hq, ⟨⟩⟩
    exact hq
  · exact fun hq => ⟨q, hq, rfl⟩

theorem exists_update_only_iff :
    (∃ r, f.update (p.only x) = .ok r) ↔ ∃ q, f.entryAt p.upsert 0 x = .ok q := by
  simp only [update_only, map_eq_ok_iff]
  constructor
  · rintro ⟨r, q, hq, -⟩
    exact ⟨q, hq⟩
  · rintro ⟨q, hq⟩
    exact ⟨_, q, hq, rfl⟩

theorem update_only_eq_error_iff :
    f.update (p.only x) = .error e ↔ ∃ refusal, f.Refuses x refusal ∧ e = refusal.error 0 := by
  rw [update_only, map_eq_error_iff, entryAt_eq_error_iff]

/-! ## Several updates -/

theorem update_uneven (h : ¬ p.Even) :
    f.update p
      = .error (.unevenUpdates p.updates.length p.filters.length p.methods.length) := by
  have huneven : p.updates.length ≠ p.filters.length ∨ p.filters.length ≠ p.methods.length := by
    by_contra heven
    refine h ⟨?_, ?_⟩ <;> omega
  rw [update, if_pos huneven]

/-- The filter of an entry can be that of a write in a bulk. -/
theorem toWrite_of_entryAt {upsert : Bool} {q : UpdateQuery}
    (hraw : ∀ v, x.filter = .raw v → ∃ d, v = .doc d) (h : f.entryAt upsert 0 x = .ok q) :
    q.toWrite = .ok (.update q) := by
  obtain ⟨filter, hfilter, h⟩ := bind_eq_ok_iff.mp h
  obtain ⟨update, -, h⟩ := bind_eq_ok_iff.mp h
  obtain ⟨method, -, h⟩ := bind_eq_ok_iff.mp h
  obtain rfl := Except.ok.inj h
  obtain ⟨d, rfl⟩ := f.buildFilter_documents hraw _ hfilter
  rfl

theorem mapM_toWrite {qs : List UpdateQuery} (hraw : ∀ v, .raw v ∈ p.filters → ∃ d, v = .doc d)
    (h : f.singles p = .ok qs) : qs.mapM UpdateQuery.toWrite = .ok (qs.map .update) := by
  refine mapM_eq_map fun q hq => ?_
  obtain ⟨x, hx, hbuilt⟩ := exists_mem_of_forall₂ (singles_eq_ok_iff.mp h) hq
  refine toWrite_of_entryAt (fun v hv => hraw v ?_) hbuilt
  rw [← hv]
  exact UpdateParams.filter_mem_of_mem_entries hx

/-- Several updates are walked through, and the outcome is their bulk. -/
theorem update_several (heven : p.Even) (hseveral : 2 ≤ p.updates.length)
    (hraw : ∀ v, .raw v ∈ p.filters → ∃ d, v = .doc d) :
    f.update p = (f.singles p).map fun qs => .bulk ⟨qs.map .update, true⟩ := by
  have huneven : ¬ (p.updates.length ≠ p.filters.length
      ∨ p.filters.length ≠ p.methods.length) := by
    rw [heven.filters, heven.methods]
    simp
  have hsome : ¬ p.updates.isEmpty = true := by
    rw [List.isEmpty_iff, ← List.length_eq_zero_iff]
    omega
  rw [update, if_neg huneven, if_neg hsome, updatesFrom_eq_mapM]
  show (f.singles p >>= _) = _
  cases hqs : f.singles p with
  | error e => rfl
  | ok qs =>
      have hlength : qs.length = p.updates.length :=
        (singles_eq_ok_iff.mp hqs).length_eq.symm.trans heven.length_entries
      have hwrites := mapM_toWrite hraw hqs
      match qs, hlength with
      | [], h | [_], h => simp at h; omega
      | q :: q' :: qs, _ =>
          show (List.mapM UpdateQuery.toWrite (q :: q' :: qs) >>= _) = _
          rw [hwrites]
          rfl

/-- Several updates are their single updates: they are built exactly if each is built on its
    own, and then they are one ordered bulk of these; else they are refused as the first
    that is refused, for its place. -/
structure BuiltAsSingles (f : QueryFactory) (p : UpdateParams) : Prop where
  built : (∃ r, f.update p = .ok r) ↔ ∀ x ∈ p.entries, ∃ r, f.update (p.only x) = .ok r
  bulk : ∀ r, f.update p = .ok r ↔ ∃ qs, r = .bulk ⟨qs.map .update, true⟩
    ∧ List.Forall₂ (fun x q => f.update (p.only x) = .ok (.single q)) p.entries qs
  refused : ∀ e, f.update p = .error e ↔ ∃ before x after refusal,
    p.entries = before ++ x :: after ∧ (∀ y ∈ before, ∃ r, f.update (p.only y) = .ok r)
      ∧ f.Refuses x refusal ∧ e = refusal.error before.length

theorem builtAsSingles (heven : p.Even) (hseveral : 2 ≤ p.updates.length)
    (hraw : ∀ v, .raw v ∈ p.filters → ∃ d, v = .doc d) : f.BuiltAsSingles p where
  built := by
    simp only [update_several heven hseveral hraw, map_eq_ok_iff, singles_eq_ok_iff,
      exists_update_only_iff]
    constructor
    · rintro ⟨-, qs, hqs, -⟩ x hx
      obtain ⟨q, -, hq⟩ := exists_mem_of_forall₂ hqs.flip hx
      exact ⟨q, hq⟩
    · intro h
      obtain ⟨qs, hqs⟩ := exists_forall₂ h
      exact ⟨_, qs, hqs, rfl⟩
  bulk r := by
    simp only [update_several heven hseveral hraw, map_eq_ok_iff, singles_eq_ok_iff,
      update_only_eq_ok_iff]
    constructor
    · rintro ⟨qs, hqs, rfl⟩
      exact ⟨qs, rfl, hqs⟩
    · rintro ⟨qs, rfl, hqs⟩
      exact ⟨qs, hqs, rfl⟩
  refused e := by
    simp only [update_several heven hseveral hraw, map_eq_error_iff, singles_eq_error_iff,
      exists_update_only_iff]

/-- **A BULK UPDATE IS ITS SINGLE UPDATES.** Several updates with a condition and a method for
    each are built as on their own, and each of these is refused for its condition, else for
    what it changes, else for its method; among several it is refused for the same, and only
    the error of its method tells its place. Lists of different lengths are refused before
    anything else. -/
theorem update_bulk (f : QueryFactory) (p : UpdateParams) :
    (p.Even → 2 ≤ p.updates.length → (∀ v, .raw v ∈ p.filters → ∃ d, v = .doc d) →
        f.BuiltAsSingles p)
      ∧ (∀ x e, f.update (p.only x) = .error e
        ↔ ∃ refusal, f.Refuses x refusal ∧ e = refusal.error 0)
      ∧ (¬ p.Even → f.update p
        = .error (.unevenUpdates p.updates.length p.filters.length p.methods.length)) :=
  ⟨builtAsSingles, fun _ _ => update_only_eq_error_iff, update_uneven⟩

/-- Two people, of which the first is updated by a document and the others by a builder. -/
def twoUpdates : UpdateParams :=
  ⟨[.document (.ofFields [("age", .int 41)]), .builder ⟨[⟨"tags", .unset⟩]⟩],
    [.leaf (some "name") (.known .eq) (.str "Ann"), .absent],
    [.value (.str "update_one"), .value (.int 1)], false⟩

/-- The second has an unknown method, and the third is no document. -/
def threeUpdates : UpdateParams :=
  ⟨[.document (.ofFields [("age", .int 41)]), .document (.ofFields [("age", .int 42)]),
      .document .null],
    [.leaf (some "name") (.known .eq) (.str "Ann"), .raw (.doc []), .absent],
    [.method .one, .value (.str "upsert"), .method .many], true⟩

/-- Two updates are one bulk with the filters, the changes and the methods of both, and three are
    refused for the second. -/
theorem update_bulk_unknown :
    standard.update twoUpdates = .ok (.bulk
        ⟨[.update ⟨.ofFields [("name", .ofFields [("$eq", .str "Ann")])],
            .ofFields [("$set", .ofFields [("age", .int 41)])], .one, false⟩,
          .update ⟨.ofFields [], .ofFields [("$unset", .ofFields [("tags", .str "")])], .many,
            false⟩], true⟩)
      ∧ standard.update threeUpdates = .error (.unknownUpdateMethod 1 (.str "upsert")) := by
  constructor
  · obtain ⟨hbulk, -⟩ := update_bulk standard twoUpdates
    have hraw : ∀ v, .raw v ∈ twoUpdates.filters → ∃ d, v = .doc d := by
      intro v hv
      simp [twoUpdates] at hv
    have hfirst : standard.update (twoUpdates.only ⟨.document (.ofFields [("age", .int 41)]),
        .leaf (some "name") (.known .eq) (.str "Ann"), .value (.str "update_one")⟩)
        = .ok (.single ⟨.ofFields [("name", .ofFields [("$eq", .str "Ann")])],
          .ofFields [("$set", .ofFields [("age", .int 41)])], .one, false⟩) := by
      with_unfolding_all rfl
    have hsecond : standard.update (twoUpdates.only ⟨.builder ⟨[⟨"tags", .unset⟩]⟩, .absent,
        .value (.int 1)⟩)
        = .ok (.single ⟨.ofFields [], .ofFields [("$unset", .ofFields [("tags", .str "")])], .many,
          false⟩) := by with_unfolding_all rfl
    exact ((hbulk ⟨rfl, rfl⟩ (by decide) hraw).bulk _).mpr
      ⟨[_, _], rfl, .cons hfirst (.cons hsecond .nil)⟩
  · obtain ⟨hbulk, -⟩ := update_bulk standard threeUpdates
    have hraw : ∀ v, .raw v ∈ threeUpdates.filters → ∃ d, v = .doc d := by
      intro v hv
      simp only [threeUpdates, List.mem_cons, reduceCtorEq, Condition.raw.injEq, false_or,
        or_false, List.not_mem_nil] at hv
      exact ⟨[], hv⟩
    have hfirst : standard.update (threeUpdates.only ⟨.document (.ofFields [("age", .int 41)]),
        .leaf (some "name") (.known .eq) (.str "Ann"), .method .one⟩)
        = .ok (.single ⟨.ofFields [("name", .ofFields [("$eq", .str "Ann")])],
          .ofFields [("$set", .ofFields [("age", .int 41)])], .one, true⟩) := by
      with_unfolding_all rfl
    have hupdate : standard.buildUpdate (.document (.ofFields [("age", .int 42)]))
        = .ok (.ofFields [("$set", .ofFields [("age", .int 42)])]) := by with_unfolding_all rfl
    have hsecond : standard.Refuses ⟨.document (.ofFields [("age", .int 42)]), .raw (.doc []),
        .value (.str "upsert")⟩ (.method (.str "upsert")) :=
      .method rfl hupdate rfl rfl
    refine ((hbulk ⟨rfl, rfl⟩ (by decide) hraw).refused _).mpr
      ⟨[_], _, [_], _, rfl, ?_, hsecond, rfl⟩
    exact List.forall_mem_singleton.mpr ⟨_, hfirst⟩

end QueryFactory

end DocumentAccess
