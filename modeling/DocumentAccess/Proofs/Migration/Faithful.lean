import DocumentAccess.Proofs.Migration.History
import DocumentAccess.Proofs.Migration.Registry
import DocumentAccess.Proofs.Outcome

/-!
# Faithful backends

What a faithful backend keeps: reading answers everything in order of version,
saving merges fields into the record of an id, deleting removes it, and nothing
else changes anything (`Backend.Faithful`). On such a backend the documents
after some steps are computed from the steps alone (`Backend.Path.documents`),
and so a property of all states on the way is a property of lists of steps
(`Keeps`, `Backend.Path.kept`). The book in memory is faithful, whatever faults
are set up (`Book.faithful`); without faults it answers its status records in
ascending order (`Book.Answers`), and a run goes on from there
(`MigrationManager.migrate_answers`).
-/

namespace DocumentAccess

variable {σ : Type}

/-! ## Faithful backends -/

/-- What a step makes of the documents of a collection. -/
def Step.apply (name : String) : Step → List Document → List Document
  | .saved other id fields (.ok _), ds => if other = name then Book.upsert id fields ds else ds
  | .deleted other id (.ok _), ds => if other = name then Book.without id ds else ds
  | _, ds => ds

/-- What some steps make of the documents of a collection. -/
def replay (name : String) (steps : List Step) (ds : List Document) : List Document :=
  steps.foldl (fun ds step => step.apply name ds) ds

/-- A backend whose collections, named by `docs`, are what its calls say. -/
structure Backend.Faithful (b : Backend σ) (docs : String → σ → List Document) : Prop where
  /-- Reading answers all documents in order of version. -/
  reads : ∀ {name s ds}, (b.records name s).1 = .ok ds →
    Value.orderedBy Book.versionOf (docs name s) = .ok ds
  /-- A call changes what it says it changes; one that fails changes nothing. -/
  does : ∀ {s step t}, b.Does s step t → ∀ name, docs name t = step.apply name (docs name s)

/-- What is read among some steps is what is there. -/
def Honest (name : String) : List Step → List Document → Prop
  | [], _ => True
  | step :: steps, ds =>
    (∀ read, step = .read name (.ok read) → Value.orderedBy Book.versionOf ds = .ok read)
      ∧ Honest name steps (step.apply name ds)

/-- A property holds of the documents before, between and after some steps. -/
def Keeps (P : List Document → Prop) (name : String) : List Step → List Document → Prop
  | [], ds => P ds
  | step :: steps, ds => P ds ∧ Keeps P name steps (step.apply name ds)

section Steps

variable {name : String} {P : List Document → Prop}

theorem replay_append (before after : List Step) (ds : List Document) :
    replay name (before ++ after) ds = replay name after (replay name before ds) :=
  List.foldl_append

theorem Honest.append {before after : List Step} {ds : List Document} :
    Honest name (before ++ after) ds
      ↔ Honest name before ds ∧ Honest name after (replay name before ds) := by
  induction before generalizing ds with
  | nil => exact ⟨fun h => ⟨trivial, h⟩, fun h => h.2⟩
  | cons step before ih =>
      rw [List.cons_append, Honest, Honest, ih, and_assoc]
      rfl

theorem Keeps.first {steps : List Step} {ds : List Document} (h : Keeps P name steps ds) :
    P ds := by
  cases steps with
  | nil => exact h
  | cons step steps => exact h.1

theorem Keeps.append {before after : List Step} {ds : List Document} :
    Keeps P name (before ++ after) ds
      ↔ Keeps P name before ds ∧ Keeps P name after (replay name before ds) := by
  induction before generalizing ds with
  | nil => exact ⟨fun h => ⟨h.first, h⟩, fun h => h.2⟩
  | cons step before ih =>
      rw [List.cons_append, Keeps, Keeps, ih, and_assoc]
      rfl

theorem Keeps.last {steps : List Step} {ds : List Document} (h : Keeps P name steps ds) :
    P (replay name steps ds) := by
  have happ : Keeps P name (steps ++ []) ds := by rwa [List.append_nil]
  exact (Keeps.append.mp happ).2

/-- What each step keeps is kept. -/
theorem Keeps.of_forall {steps : List Step} {ds : List Document} (hds : P ds)
    (h : ∀ step ∈ steps, ∀ ds, P ds → P (step.apply name ds)) : Keeps P name steps ds := by
  induction steps generalizing ds with
  | nil => exact hds
  | cons step steps ih =>
      obtain ⟨hstep, hsteps⟩ := List.forall_mem_cons.mp h
      exact ⟨hds, ih (hstep ds hds) hsteps⟩

end Steps

namespace Backend

variable {b : Backend σ} {docs : String → σ → List Document} {s : σ} {x : Observed σ}

/-- The documents are what the steps make of them. -/
theorem Path.documents (h : b.Path s x) (hb : b.Faithful docs) (name : String) :
    docs name x.state = replay name x.steps (docs name s) := by
  induction h with
  | start => rfl
  | push _ hdoes ih =>
      rw [Observed.steps_push, replay_append, ← ih]
      exact hb.does hdoes name

/-- What is read on the way is what is there. -/
theorem Path.honest (h : b.Path s x) (hb : b.Faithful docs) (name : String) :
    Honest name x.steps (docs name s) := by
  induction h with
  | start => trivial
  | @push x step t hx hdoes ih =>
      rw [Observed.steps_push, Honest.append, ← hx.documents hb name]
      refine ⟨ih, fun read hread => ?_, trivial⟩
      cases hdoes with
      | read other =>
          injection hread with hname hanswer
          rw [hname] at hanswer
          exact hb.reads hanswer
      | _ => exact nomatch hread

/-- What the steps keep holds of every state on the way. -/
theorem Path.kept {P : List Document → Prop} (h : b.Path s x) (hb : b.Faithful docs)
    {name : String} (hkeeps : Keeps P name x.steps (docs name s)) :
    ∀ t ∈ s :: x.log.map (·.2), P (docs name t) := by
  induction h with
  | start => exact List.forall_mem_singleton.mpr hkeeps
  | @push x step t hx hdoes ih =>
      rw [Observed.steps_push, Keeps.append] at hkeeps
      obtain ⟨hkeeps, -, hlast⟩ := hkeeps
      rw [show (x.push step t).log = x.log ++ [(step, t)] from rfl, List.map_append,
        ← List.cons_append]
      refine List.forall_mem_append.mpr ⟨ih hkeeps, List.forall_mem_singleton.mpr ?_⟩
      show P (docs name t)
      rw [hb.does hdoes name, hx.documents hb name]
      exact hlast

end Backend

/-! ## Histories on a faithful backend -/

/-- A status that was written is in the collection. -/
theorem MigrationManager.apply_saving (m : MigrationManager) (status : MigrationStatus)
    (ds : List Document) :
    (m.saving status (.ok ())).apply m.settings.collection ds
      = Book.upsert status.id status.toDocument ds :=
  if_pos rfl

/-- What is read in order is what is sorted. -/
theorem Value.orderedBy_eq {α : Type} {key : α → Value} {items ordered : List α}
    (h : orderedBy key items = .ok ordered) :
    ordered = items.mergeSort fun a b => !(((key b).before (key a)).toOption.getD false) := by
  have hsorted {checked : Except Error (List Bool)} {sorted : List α}
      (h : (checked >>= fun _ => pure sorted) = .ok ordered) : ordered = sorted := by
    cases checked with
    | error e => cases h
    | ok _ => exact (Except.ok.inj h).symm
  exact hsorted h

/-- What is read in order of version is what is there. -/
theorem Value.orderedBy_perm {α : Type} {key : α → Value} {items ordered : List α}
    (h : orderedBy key items = .ok ordered) : ordered.Perm items :=
  orderedBy_eq h ▸ List.mergeSort_perm items _

/-- Status records can be read in order, and the order is that of their versions. -/
theorem MigrationStatus.orderedBy_records {ds : List Document} (hds : ∀ d ∈ ds, IsRecord d) :
    Value.orderedBy Book.versionOf ds
      = .ok (ds.mergeSort fun d e =>
        decide ((ofRecord d).versionNumber ≤ (ofRecord e).versionNumber)) := by
  have hbefore {d e : Document} (hd : d ∈ ds) (he : e ∈ ds) :
      (Book.versionOf d).before (Book.versionOf e)
        = .ok (decide ((ofRecord d).versionNumber < (ofRecord e).versionNumber)) := by
    rw [(hds d hd).versionOf_eq, (hds e he).versionOf_eq, Value.before_int]
  have hchecked : (ds.zip (ds.drop 1)).mapM
      (fun p => (Book.versionOf p.2).before (Book.versionOf p.1))
        = .ok ((ds.zip (ds.drop 1)).map fun p =>
          decide ((ofRecord p.2).versionNumber < (ofRecord p.1).versionNumber)) :=
    mapM_eq_map fun _ hp =>
      hbefore (List.mem_of_mem_drop (List.of_mem_zip hp).2) (List.of_mem_zip hp).1
  refine bind_eq_ok_iff.mpr ⟨_, hchecked, congrArg Except.ok ?_⟩
  refine mergeSort_congr fun d hd e he => ?_
  rw [hbefore he hd]
  show (!decide ((ofRecord e).versionNumber < (ofRecord d).versionNumber)) = _
  rw [← decide_not]
  exact decide_eq_decide.mpr Int.not_lt

namespace MigrationManager.Opening

variable {m : MigrationManager} {opening : List Step} {name : String} {ds : List Document}

/-- Opening a collection changes no documents. -/
theorem replay_eq (h : m.Opening opening) : replay name opening ds = ds := by
  cases h with
  | _ => rfl

theorem keeps {P : List Document → Prop} (h : m.Opening opening) (hds : P ds) :
    Keeps P name opening ds := by
  cases h with
  | found names => exact ⟨hds, hds⟩
  | made names => exact ⟨hds, hds, hds⟩

/-- What is read behind it is what is there. -/
theorem read_perm {read : List Document} {steps : List Step} (h : m.Opening opening)
    (hhonest : Honest m.settings.collection
      (opening ++ .read m.settings.collection (.ok read) :: steps) ds) : read.Perm ds := by
  rw [Honest.append, h.replay_eq] at hhonest
  exact Value.orderedBy_perm (hhonest.2.1 read rfl)

end MigrationManager.Opening

namespace MigrationManager.RunCourse

variable {m : MigrationManager} {steps : List Step} {result : MigrationResult}
  {P : List Document → Prop} {ds : List Document}

/-- A run over status records keeps what working off its migrations keeps. -/
theorem keeps (h : m.RunCourse steps result) (hrecords : ∀ d ∈ ds, MigrationStatus.IsRecord d)
    (hhonest : Honest m.settings.collection steps ds) (hds : P ds)
    (hcourse : ∀ read rest, read.Perm ds →
      (m.settings.validateBeforeRun = true → m.clashesAfter read = []) →
      m.Course (m.pendingAfter read) rest (m.skipping read) result →
      Keeps P m.settings.collection rest ds) :
    Keeps P m.settings.collection steps ds := by
  cases h with
  | unlisted e => exact ⟨hds, hds⟩
  | unmade names e => exact ⟨hds, hds, hds⟩
  | unread e hopening =>
      refine Keeps.append.mpr ⟨hopening.keeps hds, ?_⟩
      rw [hopening.replay_eq]
      exact ⟨hds, hds⟩
  | refused read e hopening _ _ =>
      refine Keeps.append.mpr ⟨hopening.keeps hds, ?_⟩
      rw [hopening.replay_eq]
      exact ⟨hds, hds⟩
  | strange read steps r hopening hread =>
      -- What is read is what is there, and these are status records.
      have hperm := hopening.read_perm hhonest
      exact absurd (fun d hd => hrecords d (hperm.mem_iff.mp hd)) hread
  | run read hopening hclash hrun =>
      have hperm := hopening.read_perm hhonest
      refine Keeps.append.mpr ⟨hopening.keeps hds, ?_⟩
      rw [hopening.replay_eq]
      exact ⟨hds, hcourse read _ hperm hclash hrun⟩

end MigrationManager.RunCourse

/-- Behind a path, what a run reads is what is there, and it leaves what its steps make of it. -/
theorem MigrationRun.execute_behind {b : Backend σ} {docs : String → σ → List Document}
    (hb : b.Faithful docs) (run : MigrationRun) {s : σ} {x : Observed σ} (hx : b.Path s x)
    {steps : List Step} (hsteps : (run.execute b.observed x).2.steps = x.steps ++ steps)
    (name : String) :
    Honest name steps (docs name x.state)
      ∧ docs name (run.execute b.observed x).2.state
        = replay name steps (docs name x.state) := by
  have hpath : b.Path s (run.execute b.observed x).2 := execute_kept .push run hx
  have hhonest := hpath.honest hb name
  rw [hsteps, Honest.append, ← hx.documents hb name] at hhonest
  refine ⟨hhonest.2, ?_⟩
  rw [hpath.documents hb name, hsteps, replay_append, ← hx.documents hb name]

/-- What a run reads and leaves on a faithful backend. -/
theorem MigrationRun.execute_faithful {b : Backend σ} {docs : String → σ → List Document}
    (hb : b.Faithful docs) (run : MigrationRun) (s : σ) (name : String) :
    Honest name (run.execute b.observed (.start s)).2.steps (docs name s)
      ∧ docs name (run.execute b s).2
        = replay name (run.execute b.observed (.start s)).2.steps (docs name s) := by
  obtain ⟨hhonest, hdocs⟩ := execute_behind hb run .start (List.nil_append _).symm name
  exact ⟨hhonest, (congrArg (docs name) (run.execute_observed (.start s)).2.symm).trans hdocs⟩

/-- The course of a run, and what it reads and leaves on a faithful backend. -/
theorem MigrationManager.migrate_faithful {b : Backend σ} {docs : String → σ → List Document}
    (hb : b.Faithful docs) (m : MigrationManager) (s : σ) (name : String) :
    m.RunCourse (m.migrate b.observed (.start s)).2.steps (m.migrate b s).1
      ∧ Honest name (m.migrate b.observed (.start s)).2.steps (docs name s)
      ∧ docs name (m.migrate b s).2
        = replay name (m.migrate b.observed (.start s)).2.steps (docs name s) := by
  refine ⟨?_, MigrationRun.execute_faithful hb (.migrate m) s name⟩
  obtain ⟨steps, hsteps, hcourse⟩ := m.migrate_course b (.start s)
  rw [← (m.migrate_observed b s).1, hsteps]
  exact hcourse

namespace MigrationRun

variable {b : Backend σ} {docs : String → σ → List Document} {name : String}
  {P : List Document → Prop}

/-- A property that removing records keeps is kept by every run backward. -/
theorem keeps_of_reverting (hwithout : ∀ id ds, P ds → P (Book.without id ds))
    {steps : List Step} (hsteps : ∀ step ∈ steps, step.reverting = true) {ds : List Document}
    (hds : P ds) : Keeps P name steps ds := by
  refine .of_forall hds fun step hstep es hes => ?_
  have hreverting := hsteps step hstep
  cases step with
  | deleted other id answer =>
      cases answer with
      | ok _ =>
          rw [Step.apply]
          split
          · exact hwithout id es hes
          · exact hes
      | error e => exact hes
  | read other answer => exact hes
  | undone u answer => exact hes
  | _ => exact nomatch hreverting

/-- What the courses of the runs keep, and removing records as well, holds of
    every state on the way. -/
theorem executeAll_keeps (hb : b.Faithful docs) (runs : List MigrationRun)
    (hmigrate : ∀ m, .migrate m ∈ runs → ∀ steps r ds, m.RunCourse steps r →
      Honest name steps ds → P ds → Keeps P name steps ds)
    (hwithout : ∀ id ds, P ds → P (Book.without id ds)) {s : σ} {x : Observed σ}
    (hx : b.Path s x) (hkeeps : Keeps P name x.steps (docs name s)) :
    Keeps P name (executeAll b.observed runs x).steps (docs name s) := by
  induction runs generalizing x with
  | nil => exact hkeeps
  | cons run runs ih =>
      -- One path goes through all runs, so each run starts where the steps so far lead.
      have hpath : b.Path s (run.execute b.observed x).2 := execute_kept .push run hx
      refine ih (fun m hm => hmigrate m (List.mem_cons_of_mem _ hm)) hpath ?_
      have hlast := hkeeps.last
      have hhonest := hpath.honest hb name
      cases run with
      | migrate m =>
          obtain ⟨steps, hsteps, hcourse⟩ := m.migrate_course b x
          replace hhonest : Honest name (m.migrate b.observed x).2.steps (docs name s) := hhonest
          show Keeps P name (m.migrate b.observed x).2.steps (docs name s)
          rw [hsteps] at hhonest ⊢
          exact Keeps.append.mpr ⟨hkeeps, hmigrate m (List.mem_cons_self ..) steps _ _ hcourse
            (Honest.append.mp hhonest).2 hlast⟩
      | rollback m =>
          obtain ⟨steps, hsteps, hreverting⟩ := m.rollback_reverting b x
          show Keeps P name (m.rollback b.observed x).2.steps (docs name s)
          rw [hsteps]
          exact Keeps.append.mpr ⟨hkeeps, keeps_of_reverting hwithout hreverting hlast⟩
      | rollbackTo m version =>
          obtain ⟨steps, hsteps, hreverting⟩ := m.rollbackTo_reverting b x version
          show Keeps P name (m.rollbackTo b.observed version x).2.steps (docs name s)
          rw [hsteps]
          exact Keeps.append.mpr ⟨hkeeps, keeps_of_reverting hwithout hreverting hlast⟩

/-- The same of the state that a history ends in. -/
theorem executeAll_holds (hb : b.Faithful docs) (runs : List MigrationRun)
    (hmigrate : ∀ m, .migrate m ∈ runs → ∀ steps r ds, m.RunCourse steps r →
      Honest name steps ds → P ds → Keeps P name steps ds)
    (hwithout : ∀ id ds, P ds → P (Book.without id ds)) {s : σ} (hs : P (docs name s)) :
    P (docs name (executeAll b runs s)) := by
  exact (executeAll_path b runs s).kept hb
    (executeAll_keeps hb runs hmigrate hwithout .start hs) _ (executeAll_mem_passes b runs s)

end MigrationRun

/-! ## The book -/

namespace Book

theorem documents_withDocuments (b : Book) (name other : String) (ds : List Document) :
    (b.withDocuments name ds).documents other
      = if other = name then ds else b.documents other := by
  rw [documents, withDocuments, Table.lookup_set]
  by_cases h : other = name
  · rw [if_pos h, if_pos (beq_iff_eq.mpr h)]
    rfl
  · rw [if_neg h, if_neg (fun hb => h (beq_iff_eq.mp hb))]
    rfl

/-- A call fails, or answers from the collections as they are. -/
theorem call_split {α : Type} (c : BookCall) (answer : Book → Except Error α × Book) (b : Book) :
    ∃ b' : Book, b'.collections = b.collections
      ∧ ((∃ e, call c answer b = (.error e, b')) ∨ call c answer b = answer b') := by
  rcases hf : takeFault c.name b.faults with ⟨f, faults⟩
  refine ⟨{ b with faults := faults, trace := b.trace ++ [c] }, rfl, ?_⟩
  rw [call, hf]
  cases f with
  | none => exact .inr rfl
  | some f => exact .inl ⟨_, rfl⟩

theorem documents_congr {b b' : Book} (h : b'.collections = b.collections) (name : String) :
    b'.documents name = b.documents name := by
  rw [documents, documents, h]

/-- A call whose answer changes no documents changes none. -/
theorem documents_call {α : Type} {answer : Book → Except Error α × Book} {name : String}
    (h : ∀ b, (answer b).2.documents name = b.documents name) (c : BookCall) (b : Book) :
    (call c answer b).2.documents name = b.documents name := by
  obtain ⟨b', hb', ⟨e, hcall⟩ | hcall⟩ := call_split c answer b
  · rw [hcall]
    exact documents_congr hb' name
  · rw [hcall, h b']
    exact documents_congr hb' name

/-- A call that changes the documents of a collection does so unless it fails. -/
theorem documents_change (c : BookCall) (change : List Document → List Document)
    (other name : String) (b : Book) :
    ((call c (fun b => (.ok (), b.withDocuments other (change (b.documents other)))) b).2.documents
        name)
      = match (call c (fun b =>
          (.ok (), b.withDocuments other (change (b.documents other)))) b).1 with
        | .ok _ => if other = name then change (b.documents name) else b.documents name
        | .error _ => b.documents name := by
  obtain ⟨b', hb', ⟨e, hcall⟩ | hcall⟩ := call_split c
    (fun b => (.ok (), b.withDocuments other (change (b.documents other)))) b
  · rw [hcall]
    exact documents_congr hb' name
  · rw [hcall]
    show (b'.withDocuments other (change (b'.documents other))).documents name = _
    rw [documents_withDocuments]
    by_cases h : name = other
    · subst h
      rw [if_pos rfl, documents_congr hb']
      exact (if_pos rfl).symm
    · rw [if_neg h, documents_congr hb']
      exact (if_neg fun h' => h h'.symm).symm

/-- Books are faithful, whatever faults are set up. -/
theorem faithful : Book.backend.Faithful fun name b => b.documents name := by
  constructor
  · intro name b ds h
    obtain ⟨b', hb', ⟨e, hcall⟩ | hcall⟩ := call_split .find
      (fun b : Book => (Value.orderedBy versionOf (b.documents name), b)) b
    · rw [show backend.records name b = (.error e, b') from hcall] at h
      exact nomatch h
    · rw [show backend.records name b = (Value.orderedBy versionOf (b'.documents name), b')
        from hcall, documents_congr hb'] at h
      exact h
  · intro b step b'' hdoes name
    cases hdoes with
    | listed other => exact documents_call (fun _ => rfl) _ b
    | created other =>
        refine documents_call (fun b => ?_) _ b
        rw [documents_withDocuments]
        split
        · rename_i h
          rw [h]
        · rfl
    | read other => exact documents_call (fun _ => rfl) _ b
    | saved other id fields =>
        refine (documents_change (.update id fields) (upsert id fields) other name b).trans ?_
        show (match (backend.save other id fields b).1 with | .ok _ => _ | .error _ => _) = _
        cases (backend.save other id fields b).1 with
        | ok _ => rfl
        | error e => rfl
    | deleted other id =>
        refine (documents_change (.delete id) (without id) other name b).trans ?_
        show (match (backend.delete other id b).1 with | .ok _ => _ | .error _ => _) = _
        cases (backend.delete other id b).1 with
        | ok _ => rfl
        | error e => rfl
    | ran u => rfl
    | undone u => rfl

/-! ## Books without faults -/

open MigrationStatus

/-- A book has no faults, and these are the status records in a collection of it, in strictly
    ascending order of version. -/
structure Answers (b : Book) (name : String) (read : List Document) : Prop where
  faults : b.faults = []
  records : ∀ d ∈ read, IsRecord d
  perm : (b.documents name).Perm read
  ascending : read.Pairwise fun d e => (ofRecord d).versionNumber < (ofRecord e).versionNumber

/-- A book that was asked for the records of a collection. -/
def asked (b : Book) : Book := { b with trace := b.trace ++ [.find] }

section

variable {m : MigrationManager} {name : String} {read : List Document} {x : Observed Book}

theorem call_eq {α : Type} {c : BookCall} {answer : Book → Except Error α × Book} {b : Book}
    (h : b.faults = []) : call c answer b = answer { b with trace := b.trace ++ [c] } := by
  rw [call, h]
  show answer { b with faults := [], trace := _ } = _
  rw [← h]

theorem Answers.records_eq {b : Book} (h : b.Answers name read) :
    backend.records name b = (.ok read, b.asked) := by
  have hordered : Value.orderedBy versionOf (b.documents name) = .ok read := by
    rw [orderedBy_records fun d hd => h.records d (h.perm.mem_iff.mp hd)]
    exact congrArg Except.ok (mergeSort_eq_of_key (fun d => (ofRecord d).versionNumber)
      (fun _ _ _ _ => rfl) h.perm h.ascending)
  refine (call_eq h.faults).trans ?_
  show (Value.orderedBy versionOf (b.documents name), b.asked) = _
  rw [hordered]

/-- The records are noted as they are answered. -/
theorem Answers.observed_records (h : x.state.Answers name read) :
    backend.observed.records name x = x.note (.read name) (.ok read, x.state.asked) :=
  congrArg (x.note (.read name)) h.records_eq

/-- Opening the collection changes nothing in what a book answers. -/
theorem Answers.ensureCollection (h : x.state.Answers m.settings.collection read) :
    ∃ opened, m.ensureCollection backend.observed x = (.ok (), opened)
      ∧ opened.state.Answers m.settings.collection read := by
  have hlisted : backend.observed.collectionsNamed m.settings.collection x
      = x.note (.listed m.settings.collection) _ :=
    congrArg (x.note (.listed m.settings.collection)) (call_eq h.faults)
  have hcreated (y : Observed Book) (hy : y.state.faults = []) :
      backend.observed.createCollection m.settings.collection y
        = y.note (.created m.settings.collection) (.ok (), withDocuments
          { y.state with trace := y.state.trace ++ [.createCollection m.settings.collection] }
          m.settings.collection (y.state.documents m.settings.collection)) := by
    show y.note _ (call (.createCollection _) _ y.state) = _
    rw [call_eq hy]
    rfl
  simp only [MigrationManager.ensureCollection, hlisted, Observed.note]
  split
  · exact ⟨_, rfl, h.faults, h.records, h.perm, h.ascending⟩
  · refine ⟨_, hcreated _ h.faults, h.faults, h.records, ?_, h.ascending⟩
    exact .trans (.of_eq ((documents_withDocuments ..).trans (if_pos rfl))) h.perm

end

end Book

namespace MigrationManager

/-- A run of migrations over a book that has answered some records. -/
def runAnswered (m : MigrationManager) (us : List MigrationUnit) (read : List Document)
    (x : Observed Book) : MigrationResult × Observed Book :=
  let opened := (m.ensureCollection Book.backend.observed x).2
  (m.runBatch Book.backend.observed us (m.skipping read)
    (opened.note (.read m.settings.collection) (.ok read, opened.state.asked)).2).2

/-- Over the records that a book answers what is still to be run is run, unless a version
    clashes. -/
theorem migrate_answers {m : MigrationManager} {x : Observed Book} {read : List Document}
    {us : List MigrationUnit} (h : x.state.Answers m.settings.collection read)
    (hpending : m.pendingAfter read = us)
    (hclash : (us.filter fun u => MigrationStatus.storesVersion read u.version) = []) :
    m.migrate Book.backend.observed x = m.runAnswered us read x := by
  subst hpending
  obtain ⟨opened, hopened, hanswers⟩ := h.ensureCollection
  rw [m.migrate_after_reading Book.backend hopened hanswers.observed_records h.records,
    runAnswered, hopened]
  split
  case isTrue hnone =>
    rw [hnone]
    rfl
  case isFalse => exact if_neg fun hc => hc.2 hclash

end MigrationManager

end DocumentAccess
