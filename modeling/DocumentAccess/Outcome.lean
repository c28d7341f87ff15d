/-!
# Steps that can fail

Two steps in turn succeed if the first one does and then the second one.
-/

namespace DocumentAccess

variable {α β ε : Type}

theorem bind_eq_ok_iff {a : Except ε α} {f : α → Except ε β} {y : β} :
    a >>= f = .ok y ↔ ∃ x, a = .ok x ∧ f x = .ok y := by
  cases a with
  | error e =>
      constructor
      · intro h
        exact nomatch h
      · rintro ⟨x, hx, -⟩
        exact nomatch hx
  | ok x =>
      constructor
      · intro h
        exact ⟨x, rfl, h⟩
      · rintro ⟨x', hx, h⟩
        obtain rfl := Except.ok.inj hx
        exact h

end DocumentAccess
