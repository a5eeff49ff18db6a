import Mathlib.Data.List.Forall2
/-!
Steps that may be refused. What a run returns comes from what each of its steps has returned.
-/
namespace ModuleAtlas

section
variable {ε α β : Type} {x : Except ε α} {b : β}

theorem bind_eq_ok {f : α → Except ε β} : x.bind f = .ok b ↔ ∃ a, x = .ok a ∧ f a = .ok b := by
  cases x <;> simp [Except.bind]

theorem map_eq_ok {f : α → β} : x.map f = .ok b ↔ ∃ a, x = .ok a ∧ f a = b := by
  cases x <;> simp [Except.map]

theorem map_eq_error {f : α → β} {fault : ε} : x.map f = .error fault ↔ x = .error fault := by
  cases x <;> simp [Except.map]

/-- A step for each of several things returns what it returns for each of them. -/
theorem forall₂_of_mapM {f : α → Except ε β} {xs : List α} {ys : List β}
    (run : xs.mapM f = .ok ys) : List.Forall₂ (fun x y => f x = .ok y) xs ys := by
  induction xs generalizing ys with
  | nil =>
    cases run
    exact .nil
  | cons x xs ih =>
    rw [List.mapM_cons] at run
    obtain ⟨y, here, run⟩ := bind_eq_ok.1 run
    obtain ⟨others, later, run⟩ := bind_eq_ok.1 run
    cases run
    exact .cons here (ih later)

/-- A step for each of several things is refused only as one of them is. -/
theorem mapM_eq_error {f : α → Except ε β} {xs : List α} {fault : ε}
    (run : xs.mapM f = .error fault) : ∃ x ∈ xs, f x = .error fault := by
  induction xs with
  | nil => cases run
  | cons x xs ih =>
    rw [List.mapM_cons] at run
    cases here : f x with
    | error first =>
      rw [here] at run
      cases run
      exact ⟨x, by simp, here⟩
    | ok y =>
      cases later : xs.mapM f with
      | error other =>
        rw [here, later] at run
        cases run
        obtain ⟨x, inside, refused⟩ := ih later
        exact ⟨x, by simp [inside], refused⟩
      | ok ys =>
        rw [here, later] at run
        cases run

/-- If one step is refused, so is the row of steps. -/
theorem exists_mapM_eq_error {f : α → Except ε β} {xs : List α} {x : α} (inside : x ∈ xs)
    {fault : ε} (refused : f x = .error fault) : ∃ other, xs.mapM f = .error other := by
  cases run : xs.mapM f with
  | error other => exact ⟨other, rfl⟩
  | ok ys =>
    have each : List.Forall₂ (fun x y => (∃ y, f x = .ok y) ∧ f x = .ok y) xs ys :=
      (forall₂_of_mapM run).imp fun x y here => ⟨⟨y, here⟩, here⟩
    obtain ⟨y, here⟩ := ((List.forall₂_and_left xs ys).1 each).1 x inside
    rw [here] at refused
    cases refused

end
end ModuleAtlas
