import ModuleAtlas.FileTree.Walk
import ModuleAtlas.Proofs.Path.Joined
/-!
Legal paths: texts of code points that have bytes, none of which is zero. Other texts are no paths
(`FileCause.ofText?_eq_none_iff`). The parts of a path are legal if and only if it is itself, and so
is the path without its empty segments and dots (`Path.isLegal_clean_iff`).
-/
namespace ModuleAtlas

namespace Text

@[simp] theorem isLegal_cons {c : CodePoint} {t : Text} :
    IsLegal (c :: t) ↔ isLegal c = true ∧ IsLegal t := List.forall_mem_cons

theorem isLegal_iff {t : Text} : t.IsLegal ↔ (∀ c ∈ t, isEncodable c) ∧ .scalar '\x00' ∉ t := by
  simp only [IsLegal, isLegal, Bool.and_eq_true, bne_iff_ne, forall_and]
  exact and_congr_right fun _ => ⟨fun apart null => apart _ null rfl, fun none c inside same =>
    none (same ▸ inside)⟩

end Text

namespace FileCause

/-- No text is refused as a path but one that is not legal. -/
theorem ofText?_eq_none_iff {p : Text} : ofText? p = none ↔ p.IsLegal := by
  rw [Text.isLegal_iff, ← List.all_eq_true, ofText?]
  cases p.all Text.isEncodable <;> simp

theorem exists_of_not_isLegal {p : Text} (illegal : ¬ p.IsLegal) : ∃ cause, ofText? p = some cause :=
  Option.ne_none_iff_exists'.1 fun none => illegal (ofText?_eq_none_iff.1 none)

/-- What a text is refused for stands in it. -/
theorem ofText?_eq_some {p : Text} {cause : FileCause} (refused : ofText? p = some cause) :
    cause = .unencodable ∧ (∃ c ∈ p, Text.isEncodable c = false) ∨
      cause = .nullCharacter ∧ .scalar '\x00' ∈ p := by
  rw [ofText?] at refused
  split at refused
  · rename_i some
    cases refused
    exact .inl ⟨rfl, by simpa using some⟩
  · split at refused
    · rename_i null
      cases refused
      exact .inr ⟨rfl, List.contains_iff_mem.1 null⟩
    · cases refused

theorem isIllegal_of_ofText? {p : Text} {cause : FileCause} (refused : ofText? p = some cause) :
    cause.isIllegal := by
  rcases ofText?_eq_some refused with ⟨rfl, -⟩ | ⟨rfl, -⟩ <;> rfl

end FileCause

namespace Path

/-! ## The parts of a path -/

theorem mem_ofSegments_iff (p : Text) {c : CodePoint} (noSlash : c ≠ '/') (noDot : c ≠ '.')
    (segments : List Text) :
    c ∈ ofSegments (root p) segments ↔ ∃ segment ∈ segments, c ∈ segment := by
  have opening : c ∉ root p := by
    rcases root_cases p with same | same | same <;> simp [same, noSlash]
  rw [ofSegments, ← Text.mem_joinWith_iff noSlash]
  split
  · rename_i nothing
    have none := List.append_eq_nil_iff.1 (List.isEmpty_iff.1 nothing)
    simp [none.2, noDot]
  · simp [opening]

variable {p : Text}

/-- The characters of the segments of a path are those of the path, but for slashes and dots. -/
theorem mem_segments_iff {c : CodePoint} (noSlash : c ≠ '/') (noDot : c ≠ '.') :
    (∃ segment ∈ segments p, c ∈ segment) ↔ c ∈ p := by
  constructor
  · rintro ⟨segment, inside, held⟩
    exact Text.mem_of_mem_splitOn (List.mem_filter.1 inside).1 held
  · intro inside
    obtain ⟨piece, cut, held⟩ := Text.exists_mem_splitOn noSlash inside
    refine ⟨piece, List.mem_filter.2 ⟨cut, ?_⟩, held⟩
    have some : piece ≠ [] := List.ne_nil_of_mem held
    have apart : piece ≠ [.scalar '.'] := fun same => noDot (List.mem_singleton.1 (same ▸ held))
    simp [isProper, some, apart]

/-- What cannot stand in a path is neither a slash nor a dot. -/
theorem ne_of_not_isLegal {c : CodePoint} (illegal : ¬ Text.isLegal c) : c ≠ '/' ∧ c ≠ '.' := by
  constructor <;>
  · rintro rfl
    exact illegal (by decide)

/-- A text is legal if legal ones have all of it but slashes and dots. -/
theorem isLegal_of_parts {parts : List Text} (legal : ∀ part ∈ parts, part.IsLegal)
    (among : ∀ c ∈ p, c ≠ '/' → c ≠ '.' → ∃ part ∈ parts, c ∈ part) : p.IsLegal := by
  intro c held
  by_contra illegal
  obtain ⟨noSlash, noDot⟩ := ne_of_not_isLegal illegal
  obtain ⟨part, inside, here⟩ := among c held noSlash noDot
  exact illegal (legal part inside c here)

theorem isLegal_ofSegments_iff {segments : List Text} :
    (ofSegments (root p) segments).IsLegal ↔ ∀ segment ∈ segments, segment.IsLegal := by
  constructor
  · intro legal segment inside
    refine isLegal_of_parts (List.forall_mem_singleton.2 legal) fun c held noSlash noDot => ?_
    exact ⟨_, List.mem_singleton_self _,
      (mem_ofSegments_iff p noSlash noDot segments).2 ⟨segment, inside, held⟩⟩
  · exact fun legal => isLegal_of_parts legal fun c held noSlash noDot =>
      (mem_ofSegments_iff p noSlash noDot segments).1 held

theorem isLegal_segments_iff : (∀ segment ∈ segments p, segment.IsLegal) ↔ p.IsLegal := by
  constructor
  · exact fun legal => isLegal_of_parts legal fun c held noSlash noDot =>
      (mem_segments_iff noSlash noDot).2 held
  · exact fun legal segment inside c held =>
      legal c (Text.mem_of_mem_splitOn (List.mem_filter.1 inside).1 held)

@[simp] theorem isLegal_clean_iff : (clean p).IsLegal ↔ p.IsLegal := by
  rw [clean, isLegal_ofSegments_iff, isLegal_segments_iff]

theorem isLegal_parent (legal : p.IsLegal) : (parent p).IsLegal :=
  isLegal_ofSegments_iff.2 fun _ inside =>
    isLegal_segments_iff.2 legal _ (List.dropLast_subset _ inside)

end Path

namespace FileTree
variable {p step : Text}

/-- The steps of a path are legal if and only if it is itself. -/
theorem isLegal_steps_iff : (∀ step ∈ steps p, step.IsLegal) ↔ p.IsLegal := by
  constructor
  · refine fun legal => Path.isLegal_of_parts legal fun c held noSlash _ => ?_
    obtain ⟨piece, cut, here⟩ := Text.exists_mem_splitOn noSlash held
    exact ⟨piece, List.mem_append_left _
      (List.mem_filter.2 ⟨cut, by simp [List.ne_nil_of_mem here]⟩), here⟩
  · intro legal step inside
    rw [steps, List.mem_append] at inside
    rcases inside with piece | last
    · exact fun c held => legal c (Text.mem_of_mem_splitOn (List.mem_filter.1 piece).1 held)
    · split at last
      · rw [List.mem_singleton.1 last]
        decide
      · cases last

theorem isLegal_step (legal : p.IsLegal) (inside : step ∈ steps p) : step.IsLegal :=
  isLegal_steps_iff.2 legal step inside

end FileTree

namespace FileSystem
open FileTree
variable {files : FileSystem} {p : Text}

theorem isAbsence_of_isIllegal {cause : FileCause} (illegal : cause.isIllegal) : isAbsence cause := by
  cases cause <;> first | rfl | cases illegal

theorem locate_of_isLegal (legal : p.IsLegal) (followLast : Bool) : files.locate followLast p =
    if pathLimit < Text.utf8Length p then .error .nameTooLong
    else files.tree.walk followLast linkLimit (startOf files.current p) (steps p) := by
  rw [locate, FileCause.ofText?_eq_none_iff.2 legal]

variable (files) in
theorem locate_of_not_isLegal (illegal : ¬ p.IsLegal) (followLast : Bool) :
    ∃ cause, FileCause.isIllegal cause ∧ files.locate followLast p = .error cause := by
  obtain ⟨cause, refused⟩ := FileCause.exists_of_not_isLegal illegal
  exact ⟨cause, FileCause.isIllegal_of_ofText? refused, by rw [locate, refused]⟩

theorem isLegal_of_locate {followLast : Bool} {destination : Destination}
    (located : files.locate followLast p = .ok destination) : p.IsLegal := by
  by_contra illegal
  obtain ⟨cause, -, failed⟩ := locate_of_not_isLegal files illegal followLast
  rw [failed] at located
  cases located

/-- There is nothing at a text that is no path. -/
theorem target?_of_not_isLegal (illegal : ¬ p.IsLegal) : files.target? p = .ok none := by
  obtain ⟨cause, absent, failed⟩ := locate_of_not_isLegal files illegal true
  simp only [target?, failed, isAbsence_of_isIllegal absent, if_true]

end FileSystem
end ModuleAtlas
