/-
  MessageCatalog.Proofs.Steps
  ────────────────────────────────
  **COMPUTATIONS THAT GO STEP BY STEP.**

  Readers and writers are sequences of steps each of which may fail.  The laws
  here take a sequence apart into its steps, so that no proof about a reader has
  to open a bind.
-/

namespace MessageCatalog

/-- A sequence succeeds exactly when both of its steps do. -/
theorem bind_eq_ok_iff {ε α β : Type} {x : Except ε α} {f : α → Except ε β} {b : β} :
    x >>= f = .ok b ↔ ∃ a, x = .ok a ∧ f a = .ok b := by
  cases x with
  | error fault =>
      constructor
      · intro h
        cases h
      · intro h
        obtain ⟨a, h, -⟩ := h
        cases h
  | ok a =>
      constructor
      · intro h
        exact ⟨a, rfl, h⟩
      · intro h
        obtain ⟨a', h, hf⟩ := h
        cases h
        exact hf

/-- A sequence fails exactly when one of its steps does, the second one after the first succeeded. -/
theorem bind_eq_error_iff {ε α β : Type} {x : Except ε α} {f : α → Except ε β} {e : ε} :
    x >>= f = .error e ↔ x = .error e ∨ ∃ a, x = .ok a ∧ f a = .error e := by
  cases x with
  | error fault =>
      constructor
      · intro h
        cases h
        exact Or.inl rfl
      · rintro (h | ⟨a, h, -⟩)
        · cases h
          rfl
        · cases h
  | ok a =>
      constructor
      · intro h
        exact Or.inr ⟨a, rfl, h⟩
      · rintro (h | ⟨a', h, hf⟩)
        · cases h
        · cases h
          exact hf

/-- A sequence goes on with the result of its first step. -/
theorem ok_bind {ε α β : Type} (a : α) (f : α → Except ε β) :
    (Except.ok a : Except ε α) >>= f = f a := rfl

/-- A result comes out exactly when there is success. -/
theorem toOption_eq_some_iff {ε α : Type} {x : Except ε α} {a : α} :
    x.toOption = some a ↔ x = .ok a := by
  cases x with
  | error fault => simp [Except.toOption]
  | ok a' => simp [Except.toOption]

/-- Another name for the error leaves success as it is. -/
theorem mapError_eq_ok_iff {ε ε' α : Type} {f : ε → ε'} {x : Except ε α} {a : α} :
    x.mapError f = .ok a ↔ x = .ok a := by
  cases x with
  | error fault =>
      constructor
      · intro h
        cases h
      · intro h
        cases h
  | ok a' =>
      constructor
      · intro h
        cases h
        rfl
      · intro h
        cases h
        rfl

/-- A walk along a list succeeds with what its steps give. -/
theorem mapM_map_eq_some {α β γ : Type} {write : α → β} {read : β → Option γ} {value : α → γ}
    {list : List α} (h : ∀ a ∈ list, read (write a) = some (value a)) :
    (list.map write).mapM read = some (list.map value) := by
  induction list with
  | nil => rfl
  | cons a list ih =>
      rw [List.forall_mem_cons] at h
      rw [List.map_cons, List.mapM_cons, h.1, ih h.2]
      rfl

/-- Walks along a list succeed alike when each of their steps does. -/
theorem foldlM_eq_ok_iff_of_forall {ε ε' α σ : Type} {f : σ → α → Except ε σ}
    {g : σ → α → Except ε' σ} (h : ∀ s a s', f s a = .ok s' ↔ g s a = .ok s') {list : List α}
    {s s' : σ} : list.foldlM f s = .ok s' ↔ list.foldlM g s = .ok s' := by
  induction list generalizing s with
  | nil =>
      rw [List.foldlM_nil, List.foldlM_nil]
      constructor
      · intro hs
        cases hs
        rfl
      · intro hs
        cases hs
        rfl
  | cons a list ih =>
      rw [List.foldlM_cons, List.foldlM_cons, bind_eq_ok_iff, bind_eq_ok_iff]
      simp only [h, ih]

end MessageCatalog
