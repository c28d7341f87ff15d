import DocumentAccess.Proofs.Filter.Refusal
import DocumentAccess.Proofs.Query.Agreement
import DocumentAccess.Proofs.Update.Operands
import DocumentAccess.Proofs.Value.Identifiers

/-!
# Elements of an array of identifiers

An array is written as a whole, by what sets the field, and element by element, by what
is pushed onto it; and it is searched for its elements. The codec of an array of
identifiers knows arrays only: it turns the texts in an array into identifiers, and
leaves a text on its own alone (`mapM_storeValue_texts`).

**`QueryFactory.elements_alike_iff`**: so an array that is set holds identifiers, while
texts are pushed onto it and texts are searched for in it. Both have one form only
under a name that starts with a dollar sign, where an update stores nothing.
-/

namespace DocumentAccess

/-! ## Stored forms -/

namespace Resolver

variable {r : Resolver} {name path : String} {texts : List String}

/-- On their own, texts are not stored as identifiers. -/
theorem mapM_storeValue_texts (h : r.StoresBy name .objectIdArray) :
    (texts.map Value.str).mapM (r.storeValue name) = .ok (texts.map Value.str) := by
  refine mapM_eq_ok_iff.mpr (List.forall₂_same.mpr fun v hv => ?_)
  obtain ⟨s, -, rfl⟩ := List.mem_map.mp hv
  exact h.storeValue (.str s)

/-- In an array, texts are stored as the identifiers that they name. -/
theorem storeValue_texts (h : r.StoresBy name .objectIdArray)
    (htexts : ∀ s ∈ texts, IsHexadecimal s) :
    r.storeValue name (.list (texts.map .str)) = .ok (.list (texts.map identifierOf)) := by
  rw [h.storeValue, Codec.store, Codec.storeBy,
    mapM_toIdentifierBy IdentifierNotation.documented_hexadecimal htexts]
  rfl

/-- Where nothing is stored, texts stay as they are. -/
theorem resolveObjects_texts (texts : List String) :
    r.resolveObjects (texts.map .str) = .ok (texts.map .str) := by
  induction texts with
  | nil => rfl
  | cons s texts ih =>
      rw [List.map_cons, resolveObjects, ih]
      rfl

/-- The form of an element of an array that a field is set to. A name that starts with a
    dollar sign is taken for an operator, and what stands under it is not stored. -/
def elementOf (name s : String) : Value := if name.startsWith "$" then .str s else identifierOf s

theorem elementOf_eq_iff {s : String} :
    elementOf name s = .str s ↔ name.startsWith "$" = true := by
  rw [elementOf]
  split
  case isTrue hmarked => exact ⟨fun _ => hmarked, fun _ => rfl⟩
  case isFalse hplain => exact ⟨nofun, fun h => absurd h hplain⟩

/-- The update document of one operator on one field. -/
def fieldUpdate (r : Resolver) (native name : String) (operand : Value) : Value :=
  .doc [(.str native, .doc [((r.storageName name).key, operand)])]

/-- Where a field is set to an array, each of its texts gets the form of an element. -/
theorem storedEntry_set (h : r.StoresBy name .objectIdArray)
    (htexts : ∀ s ∈ texts, IsHexadecimal s) :
    r.storedEntry (.str name, .list (texts.map .str))
      = .ok ((r.storageName name).key, .list (texts.map (elementOf name))) := by
  by_cases hname : name.startsWith "$" = true
  · have hform : elementOf name = Value.str := funext fun s => if_pos hname
    rw [storedEntry_of_marked rfl hname, resolveObject, resolveObjects_texts, storageName,
      if_pos hname, hform]
    rfl
  · have hform : elementOf name = identifierOf := funext fun s => if_neg hname
    have hwhole : r.storeEntry name (.list (texts.map .str))
        = r.storeValue name (.list (texts.map .str)) := rfl
    rw [storedEntry_of_plain rfl hname, hwhole, storeValue_texts h htexts, storageName,
      if_neg hname, hform]
    rfl

/-- What is pushed onto an array stays text. -/
theorem storedEntry_push (h : r.StoresBy name .objectIdArray) :
    r.storedEntry (.str name, .ofFields [("$each", .list (texts.map .str))])
      = .ok ((r.storageName name).key, .ofFields [("$each", .list (texts.map .str))]) := by
  by_cases hname : name.startsWith "$" = true
  · have heach : r.storedEntry (.str "$each", .list (texts.map .str))
        = .ok (.str "$each", .list (texts.map .str)) := by
      rw [storedEntry_of_marked rfl (by decide +kernel), resolveObject, resolveObjects_texts]
      rfl
    have hfields : r.resolveObject (.ofFields [("$each", .list (texts.map .str))])
        = .ok (.ofFields [("$each", .list (texts.map .str))]) := by
      show r.resolveObject (.doc [(.str "$each", .list (texts.map .str))]) = _
      rw [resolveObject, resolveEntries_eq, List.mapM_cons, List.mapM_nil, heach]
      rfl
    rw [storedEntry_of_marked rfl hname, hfields, storageName, if_pos hname]
    rfl
  · rw [storedEntry_of_plain rfl hname, storeEntry_each, mapM_storeValue_texts h, storageName,
      if_neg hname]
    rfl

end Resolver

/-! ## Updates and filters -/

/-- The operators that an array is searched for some elements by: all of them, or one. -/
def SearchesElements (op : KnownOperator) : Prop := op = .arrayContains ∨ op = .isIn

namespace QueryFactory

variable {f : QueryFactory} {name path : String} {texts xs ys : List String}

/-- What a builder with a single call on a field builds. -/
def buildCall (f : QueryFactory) (c : UpdateCall) (name : String) (arguments : List Value) :
    Except Error Value :=
  match Update.empty.call c (.name name) arguments with
  | (.ok _, u) => f.buildUpdate (.builder u)
  | (.error e, _) => .error e

/-- A single call builds one entry, under the operator of its action. -/
theorem buildCall_eq {c : UpdateCall} {arguments : List Value} {a : UpdateAction}
    (h : c.action arguments >>= UpdateAction.prepared = .ok a) :
    f.buildCall c name arguments
      = (f.resolver.storedEntry (.str name, a.operand)).map fun e =>
        .doc [(.str a.native, .doc [e])] := by
  have hcall : Update.empty.call c (.name name) arguments = (.ok (), ⟨[⟨name, a⟩]⟩) := by
    have hop : c.operation (.name name) arguments = .ok ⟨name, a⟩ :=
      UpdateCall.operation_eq_ok_iff.mpr ⟨h, rfl⟩
    exact Update.call_eq_ok_iff.mpr ⟨_, hop, List.forall_mem_nil _, rfl⟩
  rw [buildCall, hcall]
  show f.resolver.resolveObject (.doc [(.str a.native, .doc [(.str name, a.operand)])]) = _
  rw [Resolver.resolveObject, Resolver.resolveEntries_eq, List.mapM_cons, List.mapM_nil,
    Resolver.storedEntry_group (native_startsWith a), List.mapM_cons, List.mapM_nil]
  cases f.resolver.storedEntry (.str name, a.operand) <;> rfl

theorem mapM_prepare_texts (texts : List String) :
    (texts.map Value.str).mapM Value.prepare = .ok (texts.map .str) := by
  refine mapM_eq_ok_iff.mpr (List.forall₂_same.mpr fun v hv => ?_)
  obtain ⟨s, -, rfl⟩ := List.mem_map.mp hv
  exact Value.prepare_str s

theorem buildCall_set (h : f.resolver.StoresBy name .objectIdArray)
    (htexts : ∀ s ∈ texts, IsHexadecimal s) :
    f.buildCall .set name [.list (texts.map .str)]
      = .ok (f.resolver.fieldUpdate "$set" name
        (.list (texts.map (Resolver.elementOf name)))) := by
  have haction : UpdateCall.set.action [.list (texts.map .str)] >>= UpdateAction.prepared
      = .ok (.set (.list (texts.map .str))) := by
    show (do return UpdateAction.set (← Value.prepare (.list (texts.map .str)))) = _
    rw [Value.prepare_list, mapM_prepare_texts]
    rfl
  rw [buildCall_eq haction]
  show (f.resolver.storedEntry (.str name, .list (texts.map .str))).map _ = _
  rw [Resolver.storedEntry_set h htexts]
  rfl

theorem buildCall_push (h : f.resolver.StoresBy name .objectIdArray) (hne : texts ≠ []) :
    f.buildCall .push name (texts.map .str)
      = .ok (f.resolver.fieldUpdate "$push" name
        (.ofFields [("$each", .list (texts.map .str))])) := by
  have haction : UpdateCall.push.action (texts.map .str) >>= UpdateAction.prepared
      = .ok (.push (texts.map .str)) := by
    rw [UpdateCall.action]
    · show (do return UpdateAction.push (← (texts.map Value.str).mapM Value.prepare)) = _
      rw [mapM_prepare_texts]
      rfl
    · exact fun h => hne (List.map_eq_nil_iff.mp h)
  rw [buildCall_eq haction]
  show (f.resolver.storedEntry (.str name, .ofFields [("$each", .list (texts.map .str))])).map _ = _
  rw [Resolver.storedEntry_push h]
  rfl

/-- Texts that an array is searched for stay texts. -/
theorem buildFilter_elements {op : KnownOperator} {native : String} (hop : SearchesElements op)
    (h : f.resolver.StoresBy name .objectIdArray)
    (hpath : f.resolver.resolveField name = some path) (hid : f.compiler.isIdField path = false)
    (hnative : f.compiler.native? (.known op) = some native) :
    Field.test ⟨name⟩ op [.list (texts.map .str)] >>= f.buildFilter
      = .ok (FilterCompiler.single (some path) native (.list (texts.map .str))) := by
  have htest : Field.test ⟨name⟩ op [.list (texts.map .str)]
      = .ok (.leaf (some name) (.known op) (.list (texts.map .str))) := by
    rcases hop with rfl | rfl <;> rfl
  have hvalue : f.resolver.resolveConditionValue name (.known op) (.list (texts.map .str))
      = .ok (.list (texts.map .str)) := by
    have hitems : f.resolver.resolveConditionValue name (.known op) (.list (texts.map .str))
        = (do return .list (← (texts.map Value.str).mapM (f.resolver.storeValue name))) := by
      rcases hop with rfl | rfl <;> rfl
    rw [hitems, Resolver.mapM_storeValue_texts h]
    rfl
  have hpattern : op.takesPattern = false := by rcases hop with rfl | rfl <;> rfl
  have hcompared : f.compiler.compared (some path) (.list (texts.map .str))
      = .list (texts.map .str) := if_neg (Bool.eq_false_iff.mp hid)
  rw [htest]
  show f.buildFilter (.leaf (some name) (.known op) (.list (texts.map .str))) = _
  rw [buildFilter_leaf, hvalue, hpath]
  show f.compiler.compileLeaf (some path) (.known op) (.list (texts.map .str)) = _
  rw [FilterCompiler.compileLeaf_operand hnative hpattern, hcompared]
  rcases hop with rfl | rfl <;> rfl

/-- Elements are the texts that they are made of exactly under a name that is taken for an
    operator. -/
theorem map_elementOf_eq_iff (hne : texts ≠ []) :
    texts.map (Resolver.elementOf name) = texts.map .str ↔ name.startsWith "$" = true := by
  rw [List.map_inj_left]
  constructor
  · intro h
    obtain ⟨s, hs⟩ := List.exists_mem_of_ne_nil texts hne
    exact Resolver.elementOf_eq_iff.mp (h s hs)
  · exact fun hmarked s hs => Resolver.elementOf_eq_iff.mpr hmarked

/-- **Set arrays hold identifiers, and texts are pushed onto them and searched for.** Take a
    field that is stored by the codec of arrays of identifiers, under a name that is none of
    an identifier field, and lists of texts of 24 digits. What sets the field writes each
    text in the form of an element, and a longer list goes on behind a shorter one. What is
    pushed onto the array, and what the array is searched for, are the texts themselves. So
    an array that is pushed onto is the array of all texts, and the texts of a search are
    elements, exactly if the name of the field starts with a dollar sign. -/
theorem elements_alike_iff {allName inName : String}
    (hcodec : f.resolver.StoresBy name .objectIdArray)
    (hpath : f.resolver.resolveField name = some path) (hid : f.compiler.isIdField path = false)
    (hall : f.compiler.native? (.known .arrayContains) = some allName)
    (hin : f.compiler.native? (.known .isIn) = some inName)
    (hxs : ∀ s ∈ xs, IsHexadecimal s) (hys : ∀ s ∈ ys, IsHexadecimal s) (hne : ys ≠ []) :
    ∃ written whole elements pushed contained among : List Value,
      f.buildCall .set name [.list (xs.map .str)]
          = .ok (f.resolver.fieldUpdate "$set" name (.list written))
        ∧ f.buildCall .set name [.list ((xs ++ ys).map .str)]
          = .ok (f.resolver.fieldUpdate "$set" name (.list whole))
        ∧ f.buildCall .set name [.list (ys.map .str)]
          = .ok (f.resolver.fieldUpdate "$set" name (.list elements))
        ∧ f.buildCall .push name (ys.map .str)
          = .ok (f.resolver.fieldUpdate "$push" name (.ofFields [("$each", .list pushed)]))
        ∧ Field.test ⟨name⟩ .arrayContains [.list (ys.map .str)] >>= f.buildFilter
          = .ok (FilterCompiler.single (some path) allName (.list contained))
        ∧ Field.test ⟨name⟩ .isIn [.list (ys.map .str)] >>= f.buildFilter
          = .ok (FilterCompiler.single (some path) inName (.list among))
        ∧ (whole = written ++ elements ∧ elements = ys.map (Resolver.elementOf name)
          ∧ pushed = ys.map .str ∧ contained = ys.map .str ∧ among = ys.map .str)
        ∧ (whole = written ++ pushed ∧ contained = elements ∧ among = elements
          ↔ name.startsWith "$" = true) := by
  have hboth : ∀ s ∈ xs ++ ys, IsHexadecimal s := List.forall_mem_append.mpr ⟨hxs, hys⟩
  refine ⟨_, _, _, _, _, _, buildCall_set hcodec hxs, buildCall_set hcodec hboth,
    buildCall_set hcodec hys, buildCall_push hcodec hne,
    buildFilter_elements (.inl rfl) hcodec hpath hid hall,
    buildFilter_elements (.inr rfl) hcodec hpath hid hin,
    ⟨List.map_append, rfl, rfl, rfl, rfl⟩, ?_⟩
  rw [List.map_append, List.append_cancel_left_eq, ← map_elementOf_eq_iff hne]
  constructor
  · rintro ⟨h, -, -⟩
    exact h
  · exact fun h => ⟨h, h.symm, h.symm⟩

/-- A factory that stores labels as an array of identifiers. -/
def labelled : QueryFactory :=
  ⟨.ofMappings [⟨"labels", some "label_ids", some (.ofCodec .objectIdArray)⟩], .standard⟩

theorem storesBy_labelled : labelled.resolver.StoresBy "labels" .objectIdArray := ⟨_, rfl, rfl⟩

/-- An array that is set to two texts is not the array of one with the other pushed onto it. -/
theorem elements_alike_iff_labelled :
    labelled.resolver.StoresBy "labels" .objectIdArray
      ∧ IsHexadecimal "5f1d7f3b9c8b4a2d3e4f5a6b" ∧ IsHexadecimal "000000000000000000000C0F"
      ∧ ∃ written whole pushed : List Value,
        labelled.buildCall .set "labels" [.list [.str "5f1d7f3b9c8b4a2d3e4f5a6b"]]
            = .ok (labelled.resolver.fieldUpdate "$set" "labels" (.list written))
          ∧ labelled.buildCall .set "labels"
              [.list [.str "5f1d7f3b9c8b4a2d3e4f5a6b", .str "000000000000000000000C0F"]]
            = .ok (labelled.resolver.fieldUpdate "$set" "labels" (.list whole))
          ∧ labelled.buildCall .push "labels" [.str "000000000000000000000C0F"]
            = .ok (labelled.resolver.fieldUpdate "$push" "labels"
              (.ofFields [("$each", .list pushed)]))
          ∧ whole ≠ written ++ pushed := by
  have hfirst : IsHexadecimal "5f1d7f3b9c8b4a2d3e4f5a6b" := ⟨rfl, by simp [hexDigit?]⟩
  have hsecond : IsHexadecimal "000000000000000000000C0F" := ⟨rfl, by simp [hexDigit?]⟩
  have hpath : labelled.resolver.resolveField "labels" = some "label_ids" := rfl
  have hall : labelled.compiler.native? (.known .arrayContains) = some "$all" := rfl
  have hin : labelled.compiler.native? (.known .isIn) = some "$in" := rfl
  obtain ⟨written, whole, elements, pushed, contained, among, hwritten, hwhole, -, hpushed, -, -,
    ⟨hbehind, -, rfl, rfl, rfl⟩, halike⟩ :=
    elements_alike_iff storesBy_labelled hpath rfl hall hin
      (List.forall_mem_singleton.mpr hfirst) (List.forall_mem_singleton.mpr hsecond)
      (List.cons_ne_nil _ _)
  refine ⟨storesBy_labelled, hfirst, hsecond, written, whole, _, hwritten, hwhole, hpushed, ?_⟩
  intro heq
  have helements := (List.append_cancel_left (hbehind.symm.trans heq)).symm
  have hname : "labels".startsWith "$" = false := by decide +kernel
  exact absurd (halike.mp ⟨heq, helements, helements⟩) (Bool.eq_false_iff.mp hname)

/-- What sets an array writes an identifier where what is pushed, and what the array is searched
    for, is the text that names it. -/
theorem elements_differ :
    labelled.buildCall .set "labels" [.list [.str "000000000000000000000C0F"]]
        = .ok (labelled.resolver.fieldUpdate "$set" "labels"
          (.list [.objectId ⟨[0, 0, 0, 0, 0, 0, 0, 0, 0, 0, 12, 15]⟩]))
      ∧ labelled.buildCall .push "labels" [.str "000000000000000000000C0F"]
        = .ok (labelled.resolver.fieldUpdate "$push" "labels"
          (.ofFields [("$each", .list [.str "000000000000000000000C0F"])]))
      ∧ Field.test ⟨"labels"⟩ .arrayContains [.list [.str "000000000000000000000C0F"]]
          >>= labelled.buildFilter
        = .ok (FilterCompiler.single (some "label_ids") "$all"
          (.list [.str "000000000000000000000C0F"]))
      ∧ Field.test ⟨"labels"⟩ .isIn [.list [.str "000000000000000000000C0F"]]
          >>= labelled.buildFilter
        = .ok (FilterCompiler.single (some "label_ids") "$in"
          (.list [.str "000000000000000000000C0F"])) := by
  have hdigits : ∀ s ∈ ["000000000000000000000C0F"], IsHexadecimal s :=
    List.forall_mem_singleton.mpr ⟨rfl, by simp [hexDigit?]⟩
  have helement : Resolver.elementOf "labels" "000000000000000000000C0F"
      = .objectId ⟨[0, 0, 0, 0, 0, 0, 0, 0, 0, 0, 12, 15]⟩ := by with_unfolding_all rfl
  have hpath : labelled.resolver.resolveField "labels" = some "label_ids" := rfl
  have hid : labelled.compiler.isIdField "label_ids" = false := rfl
  have hset := buildCall_set storesBy_labelled hdigits
  have hpush := buildCall_push storesBy_labelled (List.cons_ne_nil "000000000000000000000C0F" [])
  have hsearch {op : KnownOperator} {native : String} (hop : SearchesElements op)
      (hnative : labelled.compiler.native? (.known op) = some native) :=
    @buildFilter_elements _ _ _ ["000000000000000000000C0F"] _ _ hop storesBy_labelled hpath hid
      hnative
  rw [List.map_singleton, List.map_singleton, helement] at hset
  exact ⟨hset, hpush, hsearch (.inl rfl) rfl, hsearch (.inr rfl) rfl⟩

end QueryFactory

end DocumentAccess
