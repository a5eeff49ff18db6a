import ModuleAtlas.FileTree.Basic
import ModuleAtlas.Proofs.Path.Directory
/-!
Places and their paths. A place is a list of names, and its path writes them with slashes; the
segments of the path are the names again (`segments_path`). So the path of a place is normalised,
and relative to a place above it is the names that are left, written with slashes
(`relative_path`).
-/
namespace ModuleAtlas

/-! ## Cutting at a separator -/

namespace Text
variable {sep : CodePoint}

theorem splitOn_ne_nil (sep : CodePoint) (t : Text) : splitOn sep t ≠ [] := by
  cases t with
  | nil => simp [splitOn]
  | cons c cs =>
    rw [splitOn]
    split
    · simp
    · split <;> simp

theorem splitOn_of_not_mem {t : Text} (none : sep ∉ t) : splitOn sep t = [t] := by
  induction t with
  | nil => rfl
  | cons c cs ih =>
    rw [List.mem_cons, not_or] at none
    rw [splitOn, if_neg (Ne.symm none.1), ih none.2]

theorem splitOn_append {t : Text} (none : sep ∉ t) (rest : Text) :
    splitOn sep (t ++ sep :: rest) = t :: splitOn sep rest := by
  induction t with
  | nil => simp [splitOn]
  | cons c cs ih =>
    rw [List.mem_cons, not_or] at none
    rw [List.cons_append, splitOn, if_neg (Ne.symm none.1), ih none.2]

theorem not_mem_of_mem_splitOn {t piece : Text} (inside : piece ∈ splitOn sep t) : sep ∉ piece := by
  induction t generalizing piece with
  | nil =>
    rw [splitOn, List.mem_singleton] at inside
    simp [inside]
  | cons c cs ih =>
    rw [splitOn] at inside
    split at inside
    · rcases List.mem_cons.1 inside with rfl | later
      · simp
      · exact ih later
    · rename_i apart
      split at inside
      · rename_i nothing
        exact absurd nothing (splitOn_ne_nil sep cs)
      · rename_i first others cut
        rcases List.mem_cons.1 inside with rfl | later
        · rw [List.mem_cons, not_or]
          exact ⟨Ne.symm apart, ih (by simp [cut])⟩
        · exact ih (by simp [cut, later])

/-- The characters of the pieces are those of the text. -/
theorem mem_of_mem_splitOn {t piece : Text} {c : CodePoint} (inside : piece ∈ splitOn sep t)
    (held : c ∈ piece) : c ∈ t := by
  induction t generalizing piece with
  | nil =>
    rw [splitOn, List.mem_singleton] at inside
    simp [inside] at held
  | cons d ds ih =>
    rw [splitOn] at inside
    split at inside
    · rcases List.mem_cons.1 inside with rfl | later
      · cases held
      · exact List.mem_cons_of_mem _ (ih later held)
    · split at inside
      · rename_i nothing
        exact absurd nothing (splitOn_ne_nil sep ds)
      · rename_i first others cut
        rcases List.mem_cons.1 inside with rfl | later
        · exact (List.mem_cons.1 held).elim (fun same => by simp [same])
            fun held => List.mem_cons_of_mem _ (ih (by simp [cut]) held)
        · exact List.mem_cons_of_mem _ (ih (by simp [cut, later]) held)

theorem exists_mem_splitOn {t : Text} {c : CodePoint} (other : c ≠ sep) (inside : c ∈ t) :
    ∃ piece ∈ splitOn sep t, c ∈ piece := by
  induction t with
  | nil => cases inside
  | cons d ds ih =>
    rw [splitOn]
    split
    · rename_i same
      obtain ⟨piece, cut, held⟩ := ih ((List.mem_cons.1 inside).resolve_left (same ▸ other))
      exact ⟨piece, List.mem_cons_of_mem _ cut, held⟩
    · split
      · rename_i nothing
        exact absurd nothing (splitOn_ne_nil sep ds)
      · rename_i first others cut
        rcases List.mem_cons.1 inside with rfl | later
        · exact ⟨_, List.mem_cons_self, List.mem_cons_self⟩
        · obtain ⟨piece, among, held⟩ := ih later
          rw [cut] at among
          rcases List.mem_cons.1 among with rfl | among
          · exact ⟨_, List.mem_cons_self, List.mem_cons_of_mem _ held⟩
          · exact ⟨piece, List.mem_cons_of_mem _ among, held⟩

theorem joinWith_cons {first : Text} {rest : List Text} (more : rest ≠ []) :
    joinWith [sep] (first :: rest) = first ++ sep :: joinWith [sep] rest := by
  cases rest with
  | nil => exact absurd rfl more
  | cons second rest => simp [joinWith]

theorem mem_joinWith_iff {c : CodePoint} (other : c ≠ sep) {pieces : List Text} :
    c ∈ joinWith [sep] pieces ↔ ∃ piece ∈ pieces, c ∈ piece := by
  induction pieces with
  | nil => simp [joinWith]
  | cons first rest ih =>
    by_cases last : rest = []
    · simp [last, joinWith]
    · rw [joinWith_cons last]
      simp [ih, other]

/-- What is joined with a separator that no piece has is cut there again. -/
theorem splitOn_joinWith {pieces : List Text} (some : pieces ≠ [])
    (none : ∀ piece ∈ pieces, sep ∉ piece) : splitOn sep (joinWith [sep] pieces) = pieces := by
  induction pieces with
  | nil => exact absurd rfl some
  | cons first rest ih =>
    by_cases more : rest = []
    · rw [more, joinWith]
      exact splitOn_of_not_mem (none first (by simp))
    · rw [joinWith_cons more, splitOn_append (none first (by simp)),
        ih more fun piece inside => none piece (by simp [inside])]

theorem joinWith_append_singleton {pieces : List Text} (some : pieces ≠ []) (last : Text) :
    joinWith [sep] (pieces ++ [last]) = joinWith [sep] pieces ++ sep :: last := by
  induction pieces with
  | nil => exact absurd rfl some
  | cons first rest ih =>
    by_cases more : rest = []
    · simp [more, joinWith]
    · rw [List.cons_append, joinWith_cons (by simp), joinWith_cons more, ih more]
      simp

end Text

namespace Path

/-- The text names an entry of a directory and is no step. -/
def IsName (name : Text) : Prop :=
  name ≠ [] ∧ .scalar '/' ∉ name ∧ name ≠ [.scalar '.'] ∧ name ≠ (['.', '.'] : Text)

/-- Every name of the place is a name. -/
def AreNames (place : Place) : Prop := ∀ name ∈ place, IsName name

/-- The text is a segment of a path: a name or a step upwards. -/
def IsSegment (segment : Text) : Prop := segment ≠ [] ∧ .scalar '/' ∉ segment ∧ segment ≠ [.scalar '.']

/-- Every one of the texts is a segment. -/
def AreSegments (segments : List Text) : Prop := ∀ segment ∈ segments, IsSegment segment

theorem AreNames.areSegments {place : Place} (proper : AreNames place) : AreSegments place :=
  fun name inside =>
    have ⟨nonempty, noSlash, noDot, _⟩ := proper name inside
    ⟨nonempty, noSlash, noDot⟩

theorem isEntryName_iff {name : Text} : isEntryName name ↔
    name ≠ [] ∧ .scalar '/' ∉ name ∧ name.IsLegal ∧ name ≠ [.scalar '.'] ∧
      name ≠ (['.', '.'] : Text) := by
  simp [isEntryName, Text.IsLegal, and_assoc]

theorem isName_of_isEntryName {name : Text} (proper : isEntryName name) : IsName name :=
  have ⟨nonempty, noSlash, _, noDot, noUp⟩ := isEntryName_iff.1 proper
  ⟨nonempty, noSlash, noDot, noUp⟩

/-- The path with the names of a place, from wherever it starts. -/
def ofNames (names : List Text) : Text := Text.joinWith ['/'] names

/-! ## Segments with slashes between them -/

section
variable {names : List Text} (proper : AreSegments names)
include proper

theorem segments_ofNames : segments (ofNames names) = names := by
  by_cases some : names = []
  · rw [some]
    rfl
  · have cut : Text.splitOn '/' (ofNames names) = names :=
      Text.splitOn_joinWith some fun name inside => (proper name inside).2.1
    rw [segments, cut, List.filter_eq_self]
    intro name inside
    obtain ⟨nonempty, _, noDot⟩ := proper name inside
    simp [isProper, nonempty, noDot]

theorem ofNames_ne_nil (some : names ≠ []) : ofNames names ≠ [] := by
  intro nothing
  have same := segments_ofNames proper
  rw [nothing] at same
  exact some same.symm

theorem isAbsolute_ofNames : ¬ isAbsolute (ofNames names) := by
  cases names with
  | nil => simp [ofNames, Text.joinWith, isAbsolute]
  | cons first rest =>
    obtain ⟨nonempty, noSlash, _⟩ := proper first (by simp)
    have opens : first <+: ofNames (first :: rest) := by
      by_cases more : rest = []
      · simp [ofNames, more, Text.joinWith]
      · rw [ofNames, Text.joinWith_cons more]
        exact List.prefix_append _ _
    rw [← isAbsolute_of_opens opens nonempty]
    cases first with
    | nil => simp [isAbsolute]
    | cons c rest =>
      rw [List.mem_cons, not_or] at noSlash
      simp [isAbsolute, Ne.symm noSlash.1]

end

theorem ofNames_injective {left right : List Text} (properLeft : AreSegments left)
    (properRight : AreSegments right) (same : ofNames left = ofNames right) : left = right := by
  rw [← segments_ofNames properLeft, ← segments_ofNames properRight, same]

theorem areSegments_append {left right : List Text} :
    AreSegments (left ++ right) ↔ AreSegments left ∧ AreSegments right := List.forall_mem_append

theorem areNames_append {left right : List Text} :
    AreNames (left ++ right) ↔ AreNames left ∧ AreNames right := List.forall_mem_append

/-- The last character of segments with slashes between them is no slash. -/
theorem getLast_ofNames {names : List Text} (proper : AreSegments names) (some : ofNames names ≠ []) :
    (ofNames names).getLast some ≠ '/' := by
  induction names using List.reverseRecOn with
  | nil => exact absurd rfl some
  | append_singleton names last _ =>
    obtain ⟨nonempty, noSlash, _⟩ := (areSegments_append.1 proper).2 last (by simp)
    intro slash
    apply noSlash
    have ending : ∃ before, ofNames (names ++ [last]) = before ++ last := by
      by_cases more : names = []
      · exact ⟨[], by simp [more, ofNames, Text.joinWith]⟩
      · exact ⟨ofNames names ++ [.scalar '/'], by
          rw [ofNames, Text.joinWith_append_singleton more]
          simp [ofNames]⟩
    obtain ⟨before, ending⟩ := ending
    have final : (ofNames (names ++ [last])).getLast some = last.getLast nonempty := by
      simp only [ending]
      exact List.getLast_append_of_right_ne_nil _ _ nonempty
    rw [final] at slash
    rw [← slash]
    exact List.getLast_mem nonempty

/-- The directory of segments with slashes between them is that of all of them but the last. -/
theorem dirname_ofNames {names : List Text} {last : Text} (proper : AreSegments (names ++ [last])) :
    dirname (ofNames (names ++ [last])) = ofNames names ∧
      basename (ofNames (names ++ [last])) = last := by
  obtain ⟨properNames, properLast⟩ := areSegments_append.1 proper
  have noSlash := (properLast last (by simp)).2.1
  by_cases more : names = []
  · rw [more]
    exact dirname_of_no_slash noSlash
  · have joined : ofNames (names ++ [last]) =
        ofNames names ++ List.replicate (0 + 1) (CodePoint.scalar '/') ++ last := by
      rw [ofNames, Text.joinWith_append_singleton more]
      simp [ofNames]
    rw [joined]
    exact dirname_append 0 noSlash (ofNames_ne_nil properNames more)
      (getLast_ofNames properNames _)

/-! ## Paths of places -/

section
variable {place : Place} (proper : AreNames place)
include proper

theorem segments_path : segments place.path = place := by
  have cut : segments place.path = segments (ofNames place) := by
    simp [segments, Place.path, Text.splitOn, ofNames, isProper]
  rw [cut, segments_ofNames proper.areSegments]

/-- The path of a place below the root does not end with a slash. -/
theorem getLast?_path (below : place ≠ []) : place.path.getLast? ≠ some (.scalar '/') := by
  have text := ofNames_ne_nil proper.areSegments below
  have last : place.path.getLast? = (ofNames place).getLast? :=
    List.getLast?_cons_of_ne_nil text
  rw [last, List.getLast?_eq_some_getLast text]
  exact fun slash => getLast_ofNames proper.areSegments text (Option.some.inj slash)

theorem root_path : root place.path = [.scalar '/'] := by
  have relative := isAbsolute_ofNames proper.areSegments
  rw [Place.path]
  rw [ofNames] at relative
  cases names : Text.joinWith ['/'] place with
  | nil => rfl
  | cons c rest =>
    have other : c ≠ '/' := by simpa [names, isAbsolute] using relative
    simp [root, other]

theorem foldl_step_of_names (absolute : Bool) (walked : List Text) :
    place.foldl (step absolute) walked = place.reverse ++ walked := by
  induction place generalizing walked with
  | nil => rfl
  | cons name place ih =>
    have noStep := (proper name (by simp)).2.2.2
    have walks : step absolute walked name = name :: walked := by simp [step, noStep]
    rw [List.foldl_cons, walks, ih fun name inside => proper name (by simp [inside])]
    simp

theorem normalize_path : normalize place.path = place.path := by
  rw [normalize, root_path proper, segments_path proper, foldl_step_of_names proper]
  simp [ofSegments, Place.path]

theorem clean_path : clean place.path = place.path := by
  rw [clean, root_path proper, segments_path proper]
  simp [ofSegments, Place.path]

theorem absolute_path (current : Text) : absolute current place.path = place.path := by
  have opens : isAbsolute place.path := rfl
  rw [absolute, if_pos opens, normalize_path proper]

end

theorem between_append (start target : List Text) : between start (start ++ target) = target := by
  induction start with
  | nil => simp [between]
  | cons s start ih => simp [between, ih]

/-- Relative to a place, the path of a place below it is the names that are left. -/
theorem relative_path (current : Text) {base below : Place} (proper : AreNames (base ++ below))
    (some : below ≠ []) : relative current (Place.path (base ++ below)) (Place.path base) =
      ofNames below := by
  obtain ⟨properBase, properBelow⟩ := areNames_append.1 proper
  rw [relative, absolute_path proper, absolute_path properBase, segments_path proper,
    segments_path properBase, between_append]
  have text := ofNames_ne_nil properBelow.areSegments some
  rw [ofNames] at text
  simp [Place.path, ofSegments, ofNames, text]

end Path
end ModuleAtlas
