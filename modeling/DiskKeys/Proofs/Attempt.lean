/-! # Attempts

    An attempt either yields a value or gives the reason why there is
    none.  The laws say which steps of an attempt that succeeded must have
    succeeded, so that a proof can take it to pieces in the order in which
    it ran. -/

namespace Except

variable {ε δ α β : Type}

/-- A sequence succeeds exactly when both of its parts do. -/
theorem bind_eq_ok {x : Except ε α} {f : α → Except ε β} {b : β} :
    (x >>= f) = .ok b ↔ ∃ a, x = .ok a ∧ f a = .ok b := by
  cases x with
  | error e =>
      constructor
      · intro h
        exact nomatch h
      · rintro ⟨a, ha, -⟩
        exact nomatch ha
  | ok a =>
      constructor
      · intro h
        exact ⟨a, rfl, h⟩
      · rintro ⟨a', ha, h⟩
        cases ha
        exact h

/-- Nothing comes after a failure. -/
@[simp] theorem throw_bind (e : ε) (f : α → Except ε β) :
    ((throw e : Except ε α) >>= f) = .error e := rfl

@[simp] theorem pure_eq_ok (a : α) : (pure a : Except ε α) = .ok a := rfl

@[simp] theorem ok_bind (a : α) (f : α → Except ε β) :
    ((.ok a : Except ε α) >>= f) = f a := rfl

/-- A guard lets an attempt go on exactly when its condition fails. -/
theorem guard_eq_ok {c : Prop} [Decidable c] {e : ε} {x : Except ε α} {a : α} :
    (if c then .error e else x) = .ok a ↔ ¬ c ∧ x = .ok a := by
  by_cases hc : c
  · simp [hc]
  · simp [hc]

/-- Wording a failure anew does not touch a success. -/
theorem mapError_eq_ok {reword : ε → δ} {x : Except ε α} {a : α} :
    x.mapError reword = .ok a ↔ x = .ok a := by
  cases x with
  | error e => exact ⟨nofun, nofun⟩
  | ok a' =>
      constructor
      · intro h
        cases h
        rfl
      · intro h
        cases h
        rfl

/-- Changing the value does not touch a failure, and succeeds when there is
    a value to change. -/
theorem map_eq_ok {f : α → β} {x : Except ε α} {b : β} :
    x.map f = .ok b ↔ ∃ a, x = .ok a ∧ f a = b := by
  cases x with
  | error e =>
      constructor
      · intro h
        exact nomatch h
      · rintro ⟨a, ha, -⟩
        exact nomatch ha
  | ok a =>
      constructor
      · intro h
        exact ⟨a, rfl, Except.ok.inj h⟩
      · rintro ⟨a', ha, rfl⟩
        cases ha
        rfl

@[simp] theorem mapError_ok (a : α) (f : ε → δ) :
    (.ok a : Except ε α).mapError f = .ok a := rfl

@[simp] theorem mapError_error (e : ε) (f : ε → δ) :
    (.error e : Except ε α).mapError f = .error (f e) := rfl

@[simp] theorem toOption_ok (a : α) : (.ok a : Except ε α).toOption = some a := rfl

@[simp] theorem toOption_error (e : ε) : (.error e : Except ε α).toOption = none := rfl

/-- Attempts in a row yield the values that each of them yields. -/
theorem mapM_eq_ok {f : α → Except ε β} {xs : List α} {ys : List β} :
    xs.mapM f = .ok ys ↔ xs.map f = ys.map .ok := by
  induction xs generalizing ys with
  | nil =>
      cases ys with
      | nil => exact ⟨fun _ => rfl, fun _ => rfl⟩
      | cons y ys => exact ⟨nofun, nofun⟩
  | cons x xs ih =>
      rw [List.mapM_cons, bind_eq_ok, List.map_cons]
      cases ys with
      | nil =>
          refine ⟨?_, nofun⟩
          rintro ⟨y, -, h⟩
          obtain ⟨ys, -, h⟩ := bind_eq_ok.mp h
          exact nomatch h
      | cons y ys =>
          rw [List.map_cons, List.cons.injEq, ← ih]
          constructor
          · rintro ⟨y', hy, h⟩
            obtain ⟨ys', hys, h⟩ := bind_eq_ok.mp h
            cases h
            exact ⟨hy, hys⟩
          · rintro ⟨hy, hys⟩
            exact ⟨y, hy, bind_eq_ok.mpr ⟨ys, hys, rfl⟩⟩

/-! ## Two attempts -/

/-- Attempts that fail for the same reason, or yield values of which one
    stands for the other. -/
inductive Alike (r : α → β → Prop) : Except ε α → Except ε β → Prop where
  | error (e : ε) : Alike r (.error e) (.error e)
  | ok {a : α} {b : β} (h : r a b) : Alike r (.ok a) (.ok b)

namespace Alike

variable {α' β' : Type} {r : α → β → Prop} {s : α' → β' → Prop} {x : Except ε α} {y : Except ε β}

theorem of_eq {x y : Except ε α} (h : x = y) : Alike Eq x y := by
  subst h
  cases x with
  | error e => exact .error e
  | ok a => exact .ok rfl

protected theorem eq {x y : Except ε α} (h : Alike Eq x y) : x = y := by
  cases h with
  | error e => rfl
  | ok hab => rw [hab]

/-- Both fail, or both yield a value. -/
theorem outcomes (h : Alike r x y) :
    (∃ e, x = .error e ∧ y = .error e) ∨ ∃ a b, x = .ok a ∧ y = .ok b ∧ r a b := by
  cases h with
  | error e => exact Or.inl ⟨e, rfl, rfl⟩
  | ok hab => exact Or.inr ⟨_, _, rfl, rfl, hab⟩

theorem mono {r' : α → β → Prop} (h : Alike r x y) (hr : ∀ a b, r a b → r' a b) :
    Alike r' x y := by
  cases h with
  | error e => exact .error e
  | ok hab => exact .ok (hr _ _ hab)

theorem bind {f : α → Except ε α'} {g : β → Except ε β'} (h : Alike r x y)
    (hfg : ∀ a b, r a b → Alike s (f a) (g b)) : Alike s (x >>= f) (y >>= g) := by
  cases h with
  | error e => exact .error e
  | ok hab => exact hfg _ _ hab

theorem mapError (h : Alike r x y) (reword : ε → δ) :
    Alike r (x.mapError reword) (y.mapError reword) := by
  cases h with
  | error e => exact .error (reword e)
  | ok hab => exact .ok hab

end Alike

end Except
