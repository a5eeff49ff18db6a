import ModuleAtlas.Proofs.Text.Occurrence
/-!
The sites of a pattern: all positions of a text at which it recognises something, whether or not what
it recognises there overlaps. Sites are a matter of each position with what follows it, so those of a
text put together from parts are those of its parts (`sitesFrom_append`), and they get no fewer when
the text goes on (`sitesFrom_length_le`). For a pattern that begins nowhere inside what it recognises
they are its occurrences (`occurrencesFrom_eq_sitesFrom`).
-/
namespace ModuleAtlas.Text
variable {α : Type} {pattern : Pattern α}

/-- What the pattern recognises at the positions of a text that another one follows. -/
def sitesFrom (pattern : Pattern α) (rest : Text) : (boundary : Bool) → Text → List α
  | _, [] => []
  | boundary, c :: t =>
    ((pattern boundary (c :: (t ++ rest))).map Prod.fst).toList ++
      sitesFrom pattern rest (!isWord c) t

theorem sitesFrom_append (rest s t : Text) (boundary : Bool) :
    sitesFrom pattern rest boundary (s ++ t) =
      sitesFrom pattern (t ++ rest) boundary s ++ sitesFrom pattern rest (edge boundary s) t := by
  induction s generalizing boundary with
  | nil => rfl
  | cons c s ih => simp [sitesFrom, edge, ih]

theorem sitesFrom_barren {rest t : Text} (barren : Barren pattern rest t) (boundary : Bool) :
    sitesFrom pattern rest boundary t = [] := by
  induction t generalizing boundary with
  | nil => rfl
  | cons c t ih =>
    obtain ⟨none, later⟩ := barren
    have here := none boundary
    rw [List.cons_append] at here
    simp [sitesFrom, here, ih later]

/-! ## Patterns that keep apart -/

/-- The pattern begins nowhere inside what it recognises. -/
def KeepsApart (pattern : Pattern α) : Prop :=
  ∀ ⦃boundary c t found rest⦄, pattern boundary (c :: t) = some (found, rest) →
    ∃ covered, t = covered ++ rest ∧ Barren pattern rest covered

/-- Where no two sites overlap, each of them is an occurrence. -/
theorem occurrencesFrom_eq_sitesFrom (apart : KeepsApart pattern) (boundary : Bool) (t : Text) :
    occurrencesFrom pattern boundary 0 t = sitesFrom pattern [] boundary t := by
  cases t with
  | nil => rfl
  | cons c t =>
    cases read : pattern boundary (c :: t) with
    | none =>
      rw [occurrencesFrom, read, occurrencesFrom_eq_sitesFrom apart]
      simp [sitesFrom, read]
    | some site =>
      obtain ⟨found, rest⟩ := site
      obtain ⟨covered, same, barren⟩ := apart read
      have shorter : rest.length ≤ t.length := by simp [same]
      have whole : occurrencesFrom pattern boundary 0 (c :: covered ++ rest) =
          found :: occurrencesFrom pattern (edge boundary (c :: covered)) 0 rest :=
        occurrencesFrom_found (List.cons_ne_nil c covered) (by rwa [same] at read)
      rw [same] at read ⊢
      rw [← List.cons_append, whole, occurrencesFrom_eq_sitesFrom apart, sitesFrom_append, sitesFrom,
        List.append_nil, sitesFrom_barren barren, read]
      rfl
termination_by t.length
decreasing_by
  all_goals
    simp only [List.length_cons]
    omega

theorem firstFrom?_eq_head? (boundary : Bool) (t : Text) :
    firstFrom? pattern boundary t = (sitesFrom pattern [] boundary t).head? := by
  induction t generalizing boundary with
  | nil => rfl
  | cons c t ih =>
    rw [firstFrom?, sitesFrom, List.append_nil, ih]
    cases pattern boundary (c :: t) with
    | none => rfl
    | some site => rfl

/-! ## Texts that go on -/

/-- Where a text goes on, what is good stays: what the pattern recognises somewhere and is good, it
recognises there still, perhaps as something else that is good. -/
def Outlasts (pattern : Pattern α) (good : α → Bool) (rest : Text) : Prop :=
  ∀ ⦃boundary t found left⦄, pattern boundary t = some (found, left) → good found →
    ∃ other behind, pattern boundary (t ++ rest) = some (other, behind) ∧ good other

/-- Behind more text and in front of some, there are as many good sites as without. -/
theorem sitesFrom_length_le {good : α → Bool} {rest : Text} (outlasts : Outlasts pattern good rest)
    (boundary : Bool) (t : Text) :
    ((sitesFrom pattern [] boundary t).filter good).length ≤
      ((sitesFrom pattern rest boundary t).filter good).length := by
  induction t generalizing boundary with
  | nil => exact Nat.le_refl _
  | cons c t ih =>
    have later := ih (!isWord c)
    simp only [sitesFrom, List.append_nil, List.filter_append, List.length_append]
    suffices here : (((pattern boundary (c :: t)).map Prod.fst).toList.filter good).length ≤
        (((pattern boundary (c :: (t ++ rest))).map Prod.fst).toList.filter good).length by omega
    cases read : pattern boundary (c :: t) with
    | none => simp
    | some site =>
      obtain ⟨found, left⟩ := site
      by_cases isGood : good found
      · obtain ⟨other, behind, still, stays⟩ := outlasts read isGood
        rw [List.cons_append] at still
        simp [still, isGood, stays]
      · simp [isGood]

end ModuleAtlas.Text
