import Mathlib.Data.List.Basic

namespace GoIost

-- Lemmas that take apart a computation in the `Except` monad, in which the model writes Go's
-- early returns of an error.
variable {ε ε' α β : Type}

theorem pure_eq_ok (a : α) : (pure a : Except ε α) = .ok a := rfl
theorem throw_eq_error (e : ε) : (throw e : Except ε α) = .error e := rfl

theorem bind_eq_ok_iff {x : Except ε β} {f : β → Except ε α} {b : α} :
    x >>= f = .ok b ↔ ∃ a, x = .ok a ∧ f a = .ok b := by
  cases x <;> simp [bind, Except.bind]

theorem bind_unit_eq_ok_iff {x : Except ε Unit} {f : Unit → Except ε α} {b : α} :
    x >>= f = .ok b ↔ x = .ok () ∧ f () = .ok b :=
  bind_eq_ok_iff.trans ⟨fun ⟨(), h⟩ => h, fun h => ⟨(), h⟩⟩

theorem mapError_eq_ok_iff {x : Except ε α} {g : ε → ε'} {a : α} :
    x.mapError g = .ok a ↔ x = .ok a := by
  cases x <;> simp [Except.mapError]

-- A loop of checks passes exactly when every check does.
theorem forM_eq_ok_iff {f : α → Except ε Unit} {l : List α} :
    l.forM f = .ok () ↔ ∀ x ∈ l, f x = .ok () := by
  induction l with
  | nil => simp [pure_eq_ok]
  | cons x l ih => simp [bind_unit_eq_ok_iff, ih]

end GoIost
