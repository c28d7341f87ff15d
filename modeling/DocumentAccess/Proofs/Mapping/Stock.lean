import DocumentAccess.Proofs.Mapping.Tables
import DocumentAccess.Proofs.Value.Access

/-!
# Resolvers of stock transformers

Callers bring transformers of their own, and of those nothing is known. What holds of the
stock codecs alone is said of the fields that are stored by one of them
(`Resolver.StoresBy`), or of a resolver that has no other transformers (`Resolver.Stock`).
In such a resolver the values of a field go through one codec or stay as they are
(`Stock.cases`).

A codec that refuses a value does so by itself (`Codec.store_own`), and so does a resolver
of codecs (`Stock.refusesOwn`). Transformers of a caller's own may raise whatever they
like, the fault of a store included.
-/

namespace DocumentAccess

/-! ## What codecs refuse -/

namespace Json

theorem keyText_own (key : Value) : Own (keyText key) := by
  unfold keyText
  split
  case h_6 => exact .error nofun
  all_goals exact .ok _

mutual

theorem print_own : ∀ v : Value, Own (print v)
  | .null => .ok _
  | .bool b => .ok _
  | .int n => .ok _
  | .float x => .ok _
  | .str s => .ok _
  | .list items => by
      rw [print]
      exact .bind (printItems_own items) fun _ _ => .ok _
  | .tuple items => by
      rw [print]
      exact .bind (printItems_own items) fun _ _ => .ok _
  | .doc entries => by
      rw [print]
      exact .bind (printEntries_own entries) fun _ _ => .ok _
  | .set _ | .bytes _ | .objectId _ | .moment _ | .record .. | .url _ | .session _ => .error nofun

theorem printItems_own : ∀ items : List Value, Own (printItems items)
  | [] => .ok _
  | x :: xs => by
      rw [printItems]
      exact .bind (print_own x) fun _ _ => .bind (printItems_own xs) fun _ _ => .ok _

theorem printEntries_own : ∀ entries : List (Value × Value), Own (printEntries entries)
  | [] => .ok _
  | (k, v) :: es => by
      rw [printEntries]
      exact .bind (keyText_own k) fun _ _ => .bind (print_own v) fun _ _ =>
        .bind (printEntries_own es) fun _ _ => .ok _

end

end Json

namespace Codec

theorem toIdentifierBy_own (n : IdentifierNotation) (v : Value) : Own (toIdentifierBy n v) := by
  unfold toIdentifierBy
  split
  · exact .ok _
  · split
    · exact .ok _
    · split
      · exact .ok _
      · exact .error nofun
    · split
      · exact .ok _
      · exact .error nofun
    · exact .error nofun

theorem wholeNumber_own (x : Binary64) : Own (wholeNumber x) := by
  unfold wholeNumber
  split
  · exact .ok _
  · exact .error nofun

theorem store_own (c : Codec) (v : Value) : Own (c.store v) := by
  unfold store storeBy
  split
  case h_1 => exact toIdentifierBy_own _ _
  case h_2 items => exact .bind (.mapM fun x _ => toIdentifierBy_own _ x) fun _ _ => .ok _
  case h_3 items => exact .bind (.mapM fun x _ => toIdentifierBy_own _ x) fun _ _ => .ok _
  case h_5 m => exact wholeNumber_own _
  case h_8 => exact .bind (.bind (Json.print_own _) fun _ _ => .ok _) fun _ _ => .ok _
  case h_9 => exact .bind (.bind (Json.print_own _) fun _ _ => .ok _) fun _ _ => .ok _
  case h_14 => exact wholeNumber_own _
  all_goals exact .ok _

end Codec

/-! ## Resolvers -/

namespace Resolver

/-- The values of a field are stored by a codec. -/
def StoresBy (r : Resolver) (name : String) (c : Codec) : Prop :=
  ∃ t, (r.mapping? name).bind (·.transformer) = some t ∧ t.store = c.store

/-- Each transformer of a resolver is a pair of stock codecs. -/
def Stock (r : Resolver) : Prop :=
  ∀ name t, (r.mapping? name).bind (·.transformer) = some t →
    ∃ storing loading, t = .ofCodecs storing loading

/-- The transformers of a resolver raise no fault of a store. -/
def RefusesOwn (r : Resolver) : Prop := ∀ name v, Own (r.storeValue name v)

variable {r : Resolver} {name : String} {c : Codec}

theorem StoresBy.storeValue (h : r.StoresBy name c) (v : Value) :
    r.storeValue name v = c.store v := by
  obtain ⟨t, ht, hstore⟩ := h
  rw [Resolver.storeValue, ht]
  exact congrFun hstore v

/-- The values of a field go through one codec, or stay as they are. -/
theorem Stock.cases (h : r.Stock) (name : String) :
    (∃ c, r.StoresBy name c)
      ∨ (∀ c, ¬ r.StoresBy name c) ∧ ∀ v, r.storeValue name v = .ok v := by
  cases ht : (r.mapping? name).bind (·.transformer) with
  | some t =>
      obtain ⟨storing, loading, rfl⟩ := h name t ht
      exact .inl ⟨storing, _, ht, rfl⟩
  | none =>
      refine .inr ⟨fun c hc => ?_, fun v => ?_⟩
      · obtain ⟨t, ht', -⟩ := hc
        exact nomatch ht.symm.trans ht'
      · rw [Resolver.storeValue, ht]

/-- Stock transformers fail with errors of their own only, and with no fault of a driver. -/
theorem Stock.refusesOwn (h : r.Stock) : r.RefusesOwn := by
  intro name v
  rcases h.cases name with ⟨c, hc⟩ | ⟨-, hplain⟩
  · rw [hc.storeValue]
    exact c.store_own v
  · rw [hplain]
    exact .ok v

/-- A resolver is of the stock if the mappings that it is made of are. -/
theorem stock_ofMappings {ms : List FieldMapping}
    (h : ∀ m ∈ ms, ∀ t ∈ m.transformer, ∃ storing loading, t = .ofCodecs storing loading) :
    (ofMappings ms).Stock := by
  intro name t ht
  obtain ⟨m, hm, ht⟩ := Option.bind_eq_some_iff.mp ht
  exact h m (mem_of_mapping? hm) t ht

end Resolver

end DocumentAccess
