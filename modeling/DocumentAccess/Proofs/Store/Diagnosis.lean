import DocumentAccess.Proofs.Value.Access
import DocumentAccess.Store.Diagnosis

/-!
# What failures say of faults

A bulk fault carries the codes of its reports on writes and of its write
concern, and any other fault carries its own code (`Fault.Carries`). A failure
is of the kind that these codes tell (`Fault.Diagnosed`): a duplicate comes
before invalid data.

A fault whose details have the shape that drivers give them is always reported
as the failure that its codes tell (**`Fault.Shaped.toFailure`**). Reading other
details can fail, with what they lack and nothing else, and if it does not the
codes tell the failure as well (**`Fault.toFailure_diagnosed`**).
-/

namespace DocumentAccess

namespace Value

/-! ## Equality -/

/-- Equality with an integer does not depend on the side that it stands on. -/
theorem int_same (n : Int) (v : Value) : (int n).same v = v.same (int n) := by
  cases v <;> simp [same, sameNumber?, Bool.beq_comm]

theorem same_null {v : Value} : v.same .null = true ↔ v = .null := by
  cases v <;> simp [same, sameNumber?]

end Value

namespace Fault

/-! ## Codes -/

/-- A code that a fault carries. A bulk fault speaks for each report on a write that its
    details hold and for its write concern, any other fault for itself. -/
inductive Carries (f : Fault) (c : Value) : Prop where
  | own : f.kind ≠ .bulkWrite → f.code = some c → c ≠ .null → Carries f c
  | report {v : Value} {reports : List Value} {r : Document} : f.kind = .bulkWrite →
      Document.field? (f.details.getD []) "writeErrors" = some v →
      v.elements? = some reports → .doc r ∈ reports → r.field? "code" = some c → c ≠ .null →
      Carries f c
  | concern {d : Document} : f.kind = .bulkWrite →
      Document.field? (f.details.getD []) "writeConcernError" = some (.doc d) →
      d.field? "code" = some c → c ≠ .null → Carries f c

variable {f : Fault} {c v : Value} {cs : List Value}

theorem entryOrNull_eq_ok {name : String} :
    entryOrNull v name = .ok c ↔ ∃ d : Document, v = .doc d ∧ (d.field? name).getD .null = c := by
  cases v with
  | doc d => simp [entryOrNull, Value.entriesFor, bind_eq_ok_iff, pure, Except.pure]
  | _ => simp [entryOrNull, Value.entriesFor, bind, Except.bind]

/-- What is found under a name is no null, so it is what is there. -/
theorem field?_of_getD {d : Document} {name : String} (h : (d.field? name).getD .null = c)
    (hc : c ≠ .null) : d.field? name = some c := by
  cases hfound : d.field? name with
  | none =>
      rw [hfound] at h
      exact absurd h.symm hc
  | some v =>
      rw [hfound] at h
      exact congrArg some h

/-- The reports on writes are those that the details hold. -/
theorem mem_writeErrors {reports : List Value} (h : f.writeErrors = .ok reports) :
    v ∈ reports ↔ ∃ w items, Document.field? (f.details.getD []) "writeErrors" = some w
      ∧ w.elements? = some items ∧ v ∈ items := by
  unfold writeErrors at h
  split at h
  case h_1 w hw =>
    unfold Value.elements at h
    split at h
    case h_1 items hitems =>
      obtain rfl := Except.ok.inj h
      constructor
      · exact fun hv => ⟨w, items, hw, hitems, hv⟩
      · rintro ⟨w', items', hw', hitems', hv⟩
        obtain rfl := Option.some.inj (hw.symm.trans hw')
        obtain rfl := Option.some.inj (hitems.symm.trans hitems')
        exact hv
    case h_2 => exact nomatch h
  case h_2 hnone =>
    obtain rfl := Except.ok.inj h
    refine ⟨nofun, ?_⟩
    rintro ⟨w, items, hw, -⟩
    exact nomatch hnone.symm.trans hw

/-- The code of a bulk fault's write concern, if there is one. -/
def concernCodes (f : Fault) : Except Error (List Value) :=
  let concern := (Document.field? (f.details.getD []) "writeConcernError").getD .null
  if concern.truthy then (entryOrNull concern "code").map fun c => [c] else .ok []

theorem codes_bulk (h : f.kind = .bulkWrite) :
    f.codes = (do
      let items ← (← f.writeErrors).mapM (entryOrNull · "code")
      let last ← f.concernCodes
      return (items ++ last).filter fun c => !c.same .null) := by
  rw [codes, h]
  dsimp only
  cases f.writeErrors with
  | error e => rfl
  | ok reports =>
      show (reports.mapM (entryOrNull · "code") >>= _) = _
      cases hitems : reports.mapM (entryOrNull · "code") with
      | error e => simp [hitems, bind, Except.bind]
      | ok items =>
          simp only [hitems, bind, Except.bind, concernCodes]
          split
          · cases entryOrNull _ "code" <;> rfl
          · rfl

theorem codes_own (h : f.kind ≠ .bulkWrite) :
    f.codes = .ok (f.code.toList.filter fun c => !c.same .null) := by
  unfold codes
  split
  case h_1 hbulk => exact absurd hbulk h
  case h_2 => rfl

theorem mem_concernCodes (h : f.concernCodes = .ok cs) (hc : c ≠ .null) :
    c ∈ cs ↔ ∃ d : Document,
      Document.field? (f.details.getD []) "writeConcernError" = some (.doc d)
        ∧ d.field? "code" = some c := by
  unfold concernCodes at h
  dsimp only at h
  split at h
  case isTrue htruthy =>
    obtain ⟨code, hcode, rfl⟩ := map_eq_ok_iff.mp h
    obtain ⟨d, hd, rfl⟩ := entryOrNull_eq_ok.mp hcode
    have hconcern := field?_of_getD hd nofun
    rw [List.mem_singleton]
    constructor
    · intro hcode
      exact ⟨d, hconcern, field?_of_getD hcode.symm hc⟩
    · rintro ⟨d', hd', hcode⟩
      obtain rfl : d = d' := Value.doc.inj (Option.some.inj (hconcern.symm.trans hd'))
      rw [hcode]
      rfl
  case isFalse hfalse =>
    obtain rfl := Except.ok.inj h
    refine ⟨nofun, ?_⟩
    rintro ⟨d, hd, hcode⟩
    -- An empty document has no code.
    rw [hd] at hfalse
    cases d with
    | nil => exact nomatch hcode
    | cons e d => exact absurd rfl hfalse

/-- The codes that are read of a fault are those that it carries. -/
theorem mem_codes (h : f.codes = .ok cs) : c ∈ cs ↔ f.Carries c := by
  -- A report without a code is read as a null, which is dropped.
  have hkept : ∀ xs : List Value, c ∈ xs.filter (fun c => !c.same .null) ↔ c ∈ xs ∧ c ≠ .null := by
    intro xs
    rw [List.mem_filter, Bool.not_eq_true', Bool.eq_false_iff, Ne, Value.same_null]
  by_cases hkind : f.kind = .bulkWrite
  · rw [codes_bulk hkind] at h
    obtain ⟨reports, hreports, h⟩ := bind_eq_ok_iff.mp h
    obtain ⟨items, hitems, h⟩ := bind_eq_ok_iff.mp h
    obtain ⟨last, hlast, h⟩ := bind_eq_ok_iff.mp h
    obtain rfl := Except.ok.inj h
    have hitems := mapM_eq_ok_iff.mp hitems
    rw [hkept, List.mem_append]
    constructor
    · rintro ⟨hmem | hmem, hc⟩
      · obtain ⟨v, hv, hread⟩ := exists_mem_of_forall₂ hitems hmem
        obtain ⟨r, rfl, hcode⟩ := entryOrNull_eq_ok.mp hread
        obtain ⟨w, reports', hw, hreports', hr⟩ := (mem_writeErrors hreports).mp hv
        exact .report hkind hw hreports' hr (field?_of_getD hcode hc) hc
      · obtain ⟨d, hd, hcode⟩ := (mem_concernCodes hlast hc).mp hmem
        exact .concern hkind hd hcode hc
    · intro hcarries
      cases hcarries with
      | own hother => exact absurd hkind hother
      | report _ hw hreports' hr hcode hc =>
          have hr := (mem_writeErrors hreports).mpr ⟨_, _, hw, hreports', hr⟩
          refine ⟨.inl ?_, hc⟩
          obtain ⟨c', hc', hread⟩ := exists_mem_of_forall₂ hitems.flip hr
          obtain ⟨r', hr', hcode'⟩ := entryOrNull_eq_ok.mp hread
          obtain rfl := Value.doc.inj hr'
          rw [hcode] at hcode'
          obtain rfl : _ = c' := hcode'
          exact hc'
      | concern _ hd hcode hc => exact ⟨.inr ((mem_concernCodes hlast hc).mpr ⟨_, hd, hcode⟩), hc⟩
  · obtain rfl := Except.ok.inj ((codes_own hkind).symm.trans h)
    rw [hkept, Option.mem_toList]
    constructor
    · rintro ⟨hcode, hc⟩
      exact .own hkind hcode hc
    · intro hcarries
      cases hcarries with
      | own _ hcode hc => exact ⟨hcode, hc⟩
      | report hbulk => exact absurd hbulk hkind
      | concern hbulk => exact absurd hbulk hkind

/-! ## Kinds of failure -/

/-- The codes by which stores say that a unique index refused a write. -/
def IsDuplicateCode (c : Value) : Prop := ∃ n ∈ [11000, 11001, 12582], c.same (.int n) = true

/-- A fault carries the code of a duplicate. -/
def CarriesDuplicate (f : Fault) : Prop := ∃ c, f.Carries c ∧ IsDuplicateCode c

/-- A fault carries the code of an invalid document. -/
def CarriesInvalid (f : Fault) : Prop := ∃ c, f.Carries c ∧ c.same (.int 121) = true

/-- A failure says what its fault's codes tell, in the words of the fault. -/
structure Diagnosed (f : Fault) (x : Failure) : Prop where
  cause : x.cause = f
  text : (Error.failure x).text = f.text
  duplicate : x.kind = .duplicate ↔ f.CarriesDuplicate
  invalidData : x.kind = .invalidData ↔ ¬ f.CarriesDuplicate ∧ f.CarriesInvalid

variable {b : Bool} {x : Failure} {inserted failed : List Value}

theorem isIn_duplicateCodes : c.isIn duplicateCodes = true ↔ IsDuplicateCode c := by
  simp [Value.isIn, duplicateCodes, IsDuplicateCode]

theorem isKeyAmong_duplicateCodes (h : c.isKeyAmong duplicateCodes = .ok b) :
    b = true ↔ IsDuplicateCode c := by
  rw [← isIn_duplicateCodes]
  unfold Value.isKeyAmong at h
  split at h
  case h_1 items =>
    obtain rfl := Except.ok.inj h
    simp [Value.isIn, duplicateCodes, Value.same, Value.sameNumber?]
  case h_2 =>
    obtain ⟨key, hkey, h⟩ := bind_eq_ok_iff.mp h
    obtain rfl := Except.ok.inj h
    unfold Value.asKey at hkey
    split at hkey
    · cases hkey
    · rw [Except.ok.inj hkey]

theorem anyDuplicate_eq_ok (h : anyDuplicate cs = .ok b) :
    b = true ↔ ∃ c ∈ cs, IsDuplicateCode c := by
  induction cs with
  | nil =>
      obtain rfl := Except.ok.inj h
      simp
  | cons c cs ih =>
      rw [anyDuplicate] at h
      obtain ⟨found, hfound, h⟩ := bind_eq_ok_iff.mp h
      have hfirst := isKeyAmong_duplicateCodes hfound
      rw [List.exists_mem_cons_iff]
      cases found with
      | true =>
          obtain rfl := Except.ok.inj h
          exact ⟨fun _ => .inl (hfirst.mp rfl), fun _ => rfl⟩
      | false =>
          rw [ih h]
          exact ⟨.inr, fun h => h.resolve_left fun hc => nomatch hfirst.mpr hc⟩

theorem isDuplicate_eq_ok (h : f.isDuplicate = .ok b) : b = true ↔ f.CarriesDuplicate := by
  obtain ⟨cs, hcs, h⟩ := bind_eq_ok_iff.mp h
  rw [anyDuplicate_eq_ok h]
  exact exists_congr fun c => and_congr_left' (mem_codes hcs)

theorem isInvalidData_eq_ok (h : f.isInvalidData = .ok b) : b = true ↔ f.CarriesInvalid := by
  obtain ⟨cs, hcs, h⟩ := bind_eq_ok_iff.mp h
  obtain rfl := Except.ok.inj h
  rw [Value.isIn, List.any_eq_true]
  refine exists_congr fun c => and_congr (mem_codes hcs) ?_
  rw [invalidDataCode, Value.int_same]

/-- **A failure says what the codes of its fault tell.** -/
theorem toFailure_diagnosed (h : f.toFailure inserted failed = .ok x) :
    f.Diagnosed x ∧ x.inserted = inserted ∧ x.failed = failed := by
  obtain ⟨duplicate, hduplicate, h⟩ := bind_eq_ok_iff.mp h
  have hduplicate := isDuplicate_eq_ok hduplicate
  cases duplicate with
  | true =>
      obtain ⟨ids, -, h⟩ := bind_eq_ok_iff.mp h
      obtain rfl := Except.ok.inj h
      have hcarries := hduplicate.mp rfl
      exact ⟨⟨rfl, rfl, ⟨fun _ => hcarries, fun _ => rfl⟩, ⟨nofun, fun h => absurd hcarries h.1⟩⟩,
        rfl, rfl⟩
  | false =>
      have hcarries : ¬ f.CarriesDuplicate := fun h => nomatch hduplicate.mpr h
      obtain ⟨invalid, hinvalid, h⟩ := bind_eq_ok_iff.mp h
      have hinvalid := isInvalidData_eq_ok hinvalid
      cases invalid with
      | true =>
          obtain rfl := Except.ok.inj h
          exact ⟨⟨rfl, rfl, ⟨nofun, fun h => absurd h hcarries⟩,
            ⟨fun _ => ⟨hcarries, hinvalid.mp rfl⟩, fun _ => rfl⟩⟩, rfl, rfl⟩
      | false =>
          obtain rfl := Except.ok.inj h
          exact ⟨⟨rfl, rfl, ⟨nofun, fun h => absurd h hcarries⟩,
            ⟨nofun, fun h => nomatch hinvalid.mpr h.2⟩⟩, rfl, rfl⟩

/-! ## Reading details -/

theorem writeErrors_reads (f : Fault) : Reads f.writeErrors := by
  unfold writeErrors
  split
  · exact Value.elements_reads _
  · exact .ok _

theorem entryOrNull_reads (v : Value) (name : String) :
    Reads (entryOrNull v name) :=
  .bind (Value.entriesFor_reads _ v) fun _ _ => .ok _

theorem concernCodes_reads (f : Fault) : Reads f.concernCodes := by
  unfold concernCodes
  dsimp only
  split
  · exact .map (entryOrNull_reads _ _)
  · exact .ok _

theorem codes_reads (f : Fault) : Reads f.codes := by
  by_cases hkind : f.kind = .bulkWrite
  · rw [codes_bulk hkind]
    refine .bind f.writeErrors_reads fun reports _ => ?_
    refine .bind (.mapM fun v _ => entryOrNull_reads v _) fun items _ => ?_
    exact .bind f.concernCodes_reads fun last _ => .ok _
  · rw [codes_own hkind]
    exact .ok _

theorem anyDuplicate_reads (cs : List Value) : Reads (anyDuplicate cs) := by
  induction cs with
  | nil => exact .ok _
  | cons c cs ih =>
      rw [anyDuplicate]
      refine .bind (Value.isKeyAmong_reads c _) fun found _ => ?_
      cases found with
      | true => exact .ok _
      | false => exact ih

theorem searchText_reads (v : Value) : Reads (searchText v) := by
  unfold searchText
  split
  · exact .ok _
  · split
    · exact .mismatch _
    · exact .ok _
  · split
    · exact .mismatch _
    · exact .ok _

theorem valuesOfReport_reads (r : Document) :
    Reads (valuesOfReport r) := by
  unfold valuesOfReport
  dsimp only
  split
  · exact .bind (Value.entriesFor_reads _ _) fun _ _ => .ok _
  · refine .bind (searchText_reads _) fun text _ => ?_
    split
    · split
      · exact .ok _
      · exact .ok _
    · exact .ok _

theorem valuesOfReports_reads (reports : List Value) :
    Reads (valuesOfReports reports) := by
  induction reports with
  | nil => exact .ok _
  | cons v reports ih =>
      rw [valuesOfReports]
      refine .bind (Value.entriesFor_reads _ v) fun r _ => ?_
      refine .bind (Value.isKeyAmong_reads _ _) fun found _ => ?_
      cases found with
      | true => exact .bind (valuesOfReport_reads r) fun _ _ => .bind ih fun _ _ => .ok _
      | false => exact .bind (.ok _) fun _ _ => .bind ih fun _ _ => .ok _

theorem duplicatedIds_reads (f : Fault) : Reads f.duplicatedIds := by
  unfold duplicatedIds
  split
  · exact .bind f.writeErrors_reads fun _ _ => valuesOfReports_reads _
  · exact valuesOfReport_reads _

/-- If it is not told what a fault comes to, then its details lack something. -/
theorem toFailure_reads (f : Fault) (inserted failed : List Value) :
    Reads (f.toFailure inserted failed) := by
  refine .bind (.bind f.codes_reads fun _ _ => anyDuplicate_reads _) fun duplicate _ => ?_
  cases duplicate with
  | true => exact .bind f.duplicatedIds_reads fun _ _ => .ok _
  | false =>
      refine .bind (.bind f.codes_reads fun _ _ => .ok _) fun invalid _ => ?_
      cases invalid with
      | true => exact .ok _
      | false => exact .ok _

/-! ## Details of drivers -/

/-- What a report says of the keys of a refused write, as drivers write it: the key
    values are a document, or there are none, and the message is a text. -/
structure Readable (r : Document) : Prop where
  keyValue : ∀ v, r.field? "keyValue" = some v → v.truthy = true → ∃ d, v = .doc d
  message : ∀ v, r.field? "errmsg" = some v → v.truthy = true → ∃ text, v = .str text

/-- The report of a fault on itself: its details, with its text as their message
    if they have none. -/
def ownReport (f : Fault) : Document :=
  Document.insertAll [(.str "errmsg", .str f.text)] (f.details.getD [])

/-- The details of a fault have the shape that drivers give them: what is read of
    them are documents and texts, and its codes can be looked up. -/
structure Shaped (f : Fault) : Prop where
  own : f.kind ≠ .bulkWrite → Readable f.ownReport
  reports : f.kind = .bulkWrite → ∃ rs : List Document,
    f.writeErrors = .ok (rs.map .doc) ∧ ∀ r ∈ rs, Readable r
  concern : f.kind = .bulkWrite → ∀ v,
    Document.field? (f.details.getD []) "writeConcernError" = some v → v.truthy = true →
      ∃ d, v = .doc d
  codes : ∀ c, f.Carries c → c.unhashable? = none

/-- A bulk fault has its shape if its reports and its write concern have theirs. -/
theorem Shaped.of_bulk {rs : List Document} (hkind : f.kind = .bulkWrite)
    (hreports : f.writeErrors = .ok (rs.map .doc)) (hread : ∀ r ∈ rs, Readable r)
    (hcodes : ∀ r ∈ rs, ∀ c, r.field? "code" = some c → c.unhashable? = none)
    (hconcern : ∀ v, Document.field? (f.details.getD []) "writeConcernError" = some v →
      ∃ d : Document, v = .doc d ∧ ∀ c, d.field? "code" = some c → c.unhashable? = none) :
    f.Shaped where
  own hother := absurd hkind hother
  reports _ := ⟨rs, hreports, hread⟩
  concern _ v hv _ := (hconcern v hv).imp fun _ hd => hd.1
  codes c hc := by
    cases hc with
    | own hother => exact absurd hkind hother
    | report _ hw hrs hr hcode =>
        obtain ⟨r', hr', heq⟩ :=
          List.mem_map.mp ((mem_writeErrors hreports).mpr ⟨_, _, hw, hrs, hr⟩)
        obtain rfl := Value.doc.inj heq
        exact hcodes _ hr' c hcode
    | concern _ hd hcode =>
        obtain ⟨d, heq, hd⟩ := hconcern _ hd
        obtain rfl := Value.doc.inj heq
        exact hd c hcode

theorem isKeyAmong_ok (keys : List Value) (h : c.unhashable? = none) :
    ∃ b, c.isKeyAmong keys = .ok b := by
  unfold Value.isKeyAmong
  split
  · exact ⟨_, rfl⟩
  · rw [Value.asKey, h]
    exact ⟨_, rfl⟩

theorem anyDuplicate_ok (h : ∀ c ∈ cs, c.unhashable? = none) : ∃ b, anyDuplicate cs = .ok b := by
  induction cs with
  | nil => exact ⟨false, rfl⟩
  | cons c cs ih =>
      obtain ⟨found, hfound⟩ := isKeyAmong_ok duplicateCodes (h c (List.mem_cons_self ..))
      rw [anyDuplicate, hfound]
      cases found with
      | true => exact ⟨true, rfl⟩
      | false => exact ih fun c hc => h c (List.mem_cons_of_mem _ hc)

theorem mapM_entryOrNull (rs : List Document) (name : String) :
    (rs.map Value.doc).mapM (entryOrNull · name)
      = .ok (rs.map fun r => (r.field? name).getD .null) := by
  rw [List.mapM_map]
  exact mapM_eq_map fun r _ => rfl

theorem Readable.values {r : Document} (h : Readable r) : ∃ vs, valuesOfReport r = .ok vs := by
  unfold valuesOfReport
  dsimp only
  split
  case isTrue htruthy =>
    cases hkey : r.field? "keyValue" with
    | none =>
        rw [hkey] at htruthy
        cases htruthy
    | some v =>
        rw [hkey] at htruthy
        obtain ⟨d, rfl⟩ := h.keyValue v hkey htruthy
        exact ⟨_, rfl⟩
  case isFalse =>
    have htext : ∃ text, searchText ((r.field? "errmsg").getD .null) = .ok text := by
      cases hmessage : r.field? "errmsg" with
      | none => exact ⟨"", rfl⟩
      | some v =>
          rw [Option.getD_some]
          cases htruthy : v.truthy with
          | true =>
              obtain ⟨text, rfl⟩ := h.message v hmessage htruthy
              exact ⟨text, rfl⟩
          | false =>
              unfold searchText
              split
              · exact ⟨_, rfl⟩
              · rw [htruthy]
                exact ⟨"", rfl⟩
              · rw [htruthy]
                exact ⟨"", rfl⟩
    obtain ⟨text, htext⟩ := htext
    rw [htext]
    dsimp only [bind, Except.bind]
    split
    · split
      · exact ⟨_, rfl⟩
      · exact ⟨_, rfl⟩
    · exact ⟨_, rfl⟩

theorem valuesOfReports_ok {rs : List Document} (hread : ∀ r ∈ rs, Readable r)
    (hcodes : ∀ r ∈ rs, ((r.field? "code").getD .null).unhashable? = none) :
    ∃ vs, valuesOfReports (rs.map .doc) = .ok vs := by
  induction rs with
  | nil => exact ⟨[], rfl⟩
  | cons r rs ih =>
      obtain ⟨hr, hrest⟩ := List.forall_mem_cons.mp hread
      obtain ⟨hcode, hcodes⟩ := List.forall_mem_cons.mp hcodes
      obtain ⟨found, hfound⟩ := isKeyAmong_ok duplicateCodes hcode
      obtain ⟨more, hmore⟩ := ih hrest hcodes
      obtain ⟨vs, hvs⟩ := hr.values
      rw [List.map_cons, valuesOfReports]
      simp only [Value.entriesFor, bind, Except.bind, hfound]
      cases found with
      | true => exact ⟨vs ++ more, by simp [hvs, hmore, pure, Except.pure]⟩
      | false => exact ⟨more, by simp [hmore, pure, Except.pure]⟩

namespace Shaped

theorem codes_ok (h : f.Shaped) : ∃ cs, f.codes = .ok cs := by
  by_cases hkind : f.kind = .bulkWrite
  · obtain ⟨rs, hrs, -⟩ := h.reports hkind
    have hconcern : ∃ last, f.concernCodes = .ok last := by
      unfold concernCodes
      dsimp only
      split
      case isTrue htruthy =>
        cases hfound : Document.field? (f.details.getD []) "writeConcernError" with
        | none =>
            rw [hfound] at htruthy
            exact nomatch htruthy
        | some v =>
            rw [hfound] at htruthy
            obtain ⟨d, rfl⟩ := h.concern hkind v hfound htruthy
            exact ⟨_, rfl⟩
      case isFalse => exact ⟨[], rfl⟩
    obtain ⟨last, hlast⟩ := hconcern
    rw [codes_bulk hkind, hrs]
    exact ⟨_, bind_eq_ok_iff.mpr ⟨_, rfl, bind_eq_ok_iff.mpr ⟨_, mapM_entryOrNull rs _,
      bind_eq_ok_iff.mpr ⟨last, hlast, rfl⟩⟩⟩⟩
  · exact ⟨_, codes_own hkind⟩

theorem duplicatedIds_ok (h : f.Shaped) : ∃ vs, f.duplicatedIds = .ok vs := by
  unfold duplicatedIds
  split
  case h_1 hkind =>
    obtain ⟨rs, hrs, hread⟩ := h.reports hkind
    obtain ⟨vs, hvs⟩ := valuesOfReports_ok hread fun r hr => by
      cases hcode : r.field? "code" with
      | none => rfl
      | some c =>
          rw [Option.getD_some]
          by_cases hc : c = .null
          · rw [hc]
            rfl
          · obtain ⟨w, items, hw, hitems, hr⟩ :=
              (mem_writeErrors hrs).mp (List.mem_map_of_mem (f := Value.doc) hr)
            exact h.codes c (.report hkind hw hitems hr hcode hc)
    exact ⟨vs, bind_eq_ok_iff.mpr ⟨_, hrs, hvs⟩⟩
  case h_2 hother => exact (h.own hother).values

/-- **A fault with details as drivers write them is always reported as a failure.** -/
theorem toFailure (h : f.Shaped) (inserted failed : List Value) :
    ∃ x, f.toFailure inserted failed = .ok x := by
  obtain ⟨cs, hcs⟩ := h.codes_ok
  obtain ⟨duplicate, hduplicate⟩ := anyDuplicate_ok fun c hc => h.codes c ((mem_codes hcs).mp hc)
  obtain ⟨vs, hvs⟩ := h.duplicatedIds_ok
  have hfirst : f.isDuplicate = .ok duplicate := bind_eq_ok_iff.mpr ⟨cs, hcs, hduplicate⟩
  have hsecond : f.isInvalidData = .ok (invalidDataCode.isIn cs) :=
    bind_eq_ok_iff.mpr ⟨cs, hcs, rfl⟩
  unfold Fault.toFailure
  rw [hfirst, hsecond, hvs]
  cases duplicate with
  | true => exact ⟨_, rfl⟩
  | false =>
      show ∃ x, (if invalidDataCode.isIn cs then _ else _) = Except.ok x
      split
      · exact ⟨_, rfl⟩
      · exact ⟨_, rfl⟩

end Shaped

end Fault

end DocumentAccess
