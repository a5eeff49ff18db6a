import ModuleAtlas.Configuration.Document
import Mathlib.Data.List.Basic
/-!
A text seen as a row of spans: signs of code, string literals and comments (`spans`). Removing
comments removes the spans that are comments and moves the others together, and where they meet
nothing new begins: scanned again, what is left of a text has the very same other spans
(`spans_withoutComments`). So comments are removed once and for all, and no literal is lost, cut or
added (`literals_outlast_comments`).
-/
namespace ModuleAtlas.Configuration
open Text

/-! ## Spans -/

/-- The rest of a literal up to its closing quote, and what follows it. A backslash takes the next
character along; a literal that is not closed goes on up to the end of the text. -/
def cutLiteral (quote : CodePoint) : Text → Text × Text
  | [] => ([], [])
  | '\\' :: c :: t => (.scalar '\\' :: c :: (cutLiteral quote t).1, (cutLiteral quote t).2)
  | c :: t =>
    if c = quote then ([c], t) else (c :: (cutLiteral quote t).1, (cutLiteral quote t).2)

/-- The rest of a comment up to the first star with a slash behind it, and what follows it. -/
def cutBlock : Text → Text × Text
  | [] => ([], [])
  | '*' :: '/' :: t => (['*', '/'], t)
  | c :: t => (c :: (cutBlock t).1, (cutBlock t).2)

/-- The rest of a comment up to the end of its line, and what follows it. -/
def cutLine (t : Text) : Text × Text :=
  (t.takeWhile (· != .scalar '\n'), t.dropWhile (· != .scalar '\n'))

/-- A part of a text. -/
inductive Span
  | sign (c : CodePoint)
  | literal (t : Text)
  | comment (t : Text)
deriving DecidableEq, Repr

namespace Span

/-- What is written in the text. -/
def text : Span → Text
  | sign c => [c]
  | literal t | comment t => t

/-- The span is a comment. -/
def isComment : Span → Bool
  | comment _ => true
  | sign _ | literal _ => false

/-- The literal that the span is. -/
def literal? : Span → Option Text
  | literal t => some t
  | sign _ | comment _ => none

end Span

theorem cutLiteral_append (quote : CodePoint) (t : Text) :
    (cutLiteral quote t).1 ++ (cutLiteral quote t).2 = t := by
  fun_induction cutLiteral quote t <;> simp_all

theorem cutBlock_append (t : Text) : (cutBlock t).1 ++ (cutBlock t).2 = t := by
  fun_induction cutBlock t <;> simp_all

theorem cutLine_append (t : Text) : (cutLine t).1 ++ (cutLine t).2 = t :=
  List.takeWhile_append_dropWhile

/-- What follows a part of a text is no longer than the text. -/
theorem length_le_of_append {t front back : Text} (whole : front ++ back = t) :
    back.length ≤ t.length := by
  rw [← whole, List.length_append]
  omega

/-- The spans of a text, from left to right. -/
def spans : Text → List Span
  | [] => []
  | '/' :: '/' :: t => .comment (.scalar '/' :: .scalar '/' :: (cutLine t).1) :: spans (cutLine t).2
  | '/' :: '*' :: t => .comment (.scalar '/' :: .scalar '*' :: (cutBlock t).1) :: spans (cutBlock t).2
  | c :: t =>
    if isQuote c then .literal (c :: (cutLiteral c t).1) :: spans (cutLiteral c t).2
    else .sign c :: spans t
termination_by t => t.length
decreasing_by
  · have shorter := length_le_of_append (cutLine_append t)
    simp only [List.length_cons]
    omega
  · have shorter := length_le_of_append (cutBlock_append t)
    simp only [List.length_cons]
    omega
  · have shorter := length_le_of_append (cutLiteral_append c t)
    simp only [List.length_cons]
    omega
  · simp

/-- The comments of a text. -/
def comments (t : Text) : List Span := (spans t).filter Span.isComment

/-- The literals of a text that stand outside its comments. -/
def literals (t : Text) : List Text := (spans t).filterMap Span.literal?

/-- Spans lose nothing of a text. -/
theorem text_spans (t : Text) : (spans t).flatMap Span.text = t := by
  fun_induction spans t with
  | case1 => rfl
  | case2 t ih => simp [Span.text, ih, cutLine_append]
  | case3 t ih => simp [Span.text, ih, cutBlock_append]
  | case4 c t _ _ _ ih => simp [Span.text, ih, cutLiteral_append]
  | case5 c t _ _ _ ih => simp [Span.text, ih]

/-! ## What is removed -/

theorem withoutCommentsFrom_cutLine (t : Text) :
    withoutCommentsFrom .lineComment t = withoutComments (cutLine t).2 := by
  induction t with
  | nil => rfl
  | cons c t ih =>
    by_cases ends : c = '\n'
    · subst ends
      rfl
    · rw [withoutCommentsFrom.eq_def]
      simp_all [cutLine]

theorem withoutCommentsFrom_cutBlock (t : Text) :
    withoutCommentsFrom .blockComment t = withoutComments (cutBlock t).2 := by
  fun_induction cutBlock t with
  | case1 => rfl
  | case2 t => rfl
  | case3 c t open' ih =>
    rw [withoutCommentsFrom.eq_def]
    split <;> simp_all

theorem withoutCommentsFrom_cutLiteral (quote : CodePoint) (t : Text) :
    withoutCommentsFrom (.literal quote) t =
      (cutLiteral quote t).1 ++ withoutComments (cutLiteral quote t).2 := by
  fun_induction cutLiteral quote t with
  | case1 => rfl
  | case2 c t ih => simp [withoutCommentsFrom, ih]
  | case3 t plain =>
    rw [withoutCommentsFrom.eq_def]
    split <;> simp_all [withoutComments]
  | case4 c t plain other ih =>
    rw [withoutCommentsFrom.eq_def]
    split <;> simp_all

/-- No comment opens where the character stands in front of the text. -/
def OpensNone (c : CodePoint) (t : Text) : Prop :=
  c = '/' → t.head? ≠ some (.scalar '/') ∧ t.head? ≠ some (.scalar '*')

section
variable {c : CodePoint} {t : Text}

theorem opensNone_of_quote (quote : isQuote c = true) : OpensNone c t := by
  rintro rfl
  cases quote

theorem opensNone_of_apart (line : ∀ rest, c = '/' → t = .scalar '/' :: rest → False)
    (block : ∀ rest, c = '/' → t = .scalar '*' :: rest → False) : OpensNone c t := by
  intro slash
  cases t with
  | nil => simp
  | cons d rest =>
    refine ⟨?_, ?_⟩ <;> rintro ⟨⟩
    · exact line rest slash rfl
    · exact block rest slash rfl

theorem withoutCommentsFrom_of_opensNone (none : OpensNone c t) :
    withoutComments (c :: t) =
      c :: withoutCommentsFrom (if isQuote c then .literal c else .code) t := by
  rw [withoutComments, withoutCommentsFrom.eq_def]
  split <;> simp_all [OpensNone]

theorem spans_of_opensNone (none : OpensNone c t) : spans (c :: t) =
    if isQuote c then .literal (c :: (cutLiteral c t).1) :: spans (cutLiteral c t).2
    else .sign c :: spans t := by
  rw [spans.eq_def]
  split <;> simp_all [OpensNone]

/-- A literal stays, and what follows it is what is left of the rest. -/
theorem withoutComments_quote (quote : isQuote c = true) :
    withoutComments (c :: t) = c :: ((cutLiteral c t).1 ++ withoutComments (cutLiteral c t).2) := by
  rw [withoutCommentsFrom_of_opensNone (opensNone_of_quote quote), if_pos quote,
    withoutCommentsFrom_cutLiteral]

/-- A sign stays. -/
theorem withoutComments_sign (none : OpensNone c t) (sign : ¬ isQuote c = true) :
    withoutComments (c :: t) = c :: withoutComments t := by
  rw [withoutCommentsFrom_of_opensNone none, if_neg sign]
  rfl

end

/-! ## What is left -/

/-- A backslash takes nothing along only at the end of a text. -/
theorem cutLiteral_cons {quote c : CodePoint} {t : Text} (last : c = '\\' → t = []) :
    cutLiteral quote (c :: t) =
      if c = quote then ([c], t) else (c :: (cutLiteral quote t).1, (cutLiteral quote t).2) := by
  rw [cutLiteral.eq_def]
  split <;> simp_all

/-- A literal is cut off in the same way whatever follows it; only one that is not closed must not
be followed by anything. -/
theorem cutLiteral_append_of_ends (quote : CodePoint) {t s : Text}
    (ends : (cutLiteral quote t).2 = [] → s = []) :
    cutLiteral quote ((cutLiteral quote t).1 ++ s) = ((cutLiteral quote t).1, s) := by
  have nothing : ∀ {c : CodePoint} {t : Text},
      (∀ d rest, c = '\\' → t = d :: rest → False) → c = '\\' → t = [] := by
    intro c t plain backslash
    cases t with
    | nil => rfl
    | cons d rest => exact (plain d rest backslash rfl).elim
  fun_induction cutLiteral quote t with
  | case1 => simp [ends, cutLiteral]
  | case2 c t ih => simp [cutLiteral, ih ends]
  | case3 t plain =>
    have last : quote = '\\' → s = [] := fun backslash => ends (nothing plain backslash)
    rw [List.singleton_append, cutLiteral_cons last, if_pos rfl]
  | case4 c t plain other ih =>
    have last : c = '\\' → (cutLiteral quote t).1 ++ s = [] := by
      intro backslash
      obtain rfl := nothing plain backslash
      simpa [cutLiteral] using ends
    rw [List.cons_append, cutLiteral_cons last, if_neg other, ih ends]

/-- Where no comment opens, none does after the comments behind have been removed: what stands
behind a slash then stood there before, since no comment begins there. -/
theorem OpensNone.withoutComments {c : CodePoint} {t : Text} (none : OpensNone c t) :
    OpensNone c (withoutComments t) := by
  intro slash
  obtain ⟨line, block⟩ := none slash
  cases t with
  | nil => exact ⟨line, block⟩
  | cons d rest =>
    have noSlash : d ≠ '/' := by simpa using line
    rw [withoutCommentsFrom_of_opensNone fun same => absurd same noSlash]
    exact ⟨line, block⟩

/-- What is left of a text has the spans of the text that are no comments. -/
theorem spans_withoutComments (t : Text) :
    spans (withoutComments t) = (spans t).filter (!·.isComment) := by
  fun_induction spans t with
  | case1 => rw [List.filter_nil, withoutComments, withoutCommentsFrom, spans]
  | case2 t ih =>
    rw [List.filter_cons_of_neg (by simp [Span.isComment]), ← ih, ← withoutCommentsFrom_cutLine]
    rfl
  | case3 t ih =>
    rw [List.filter_cons_of_neg (by simp [Span.isComment]), ← ih, ← withoutCommentsFrom_cutBlock]
    rfl
  | case4 c t _ _ quote ih =>
    have ends : (cutLiteral c t).2 = [] → withoutComments (cutLiteral c t).2 = [] := by
      intro none
      rw [none]
      rfl
    rw [List.filter_cons_of_pos (by simp [Span.isComment]), ← ih, withoutComments_quote quote,
      spans_of_opensNone (opensNone_of_quote quote), if_pos quote, cutLiteral_append_of_ends c ends]
  | case5 c t line block sign ih =>
    have none := opensNone_of_apart line block
    rw [List.filter_cons_of_pos (by simp [Span.isComment]), ← ih, withoutComments_sign none sign,
      spans_of_opensNone none.withoutComments, if_neg sign]

/-- Without comments a text is made up of its other spans. -/
theorem withoutComments_eq (t : Text) :
    withoutComments t = ((spans t).filter (!·.isComment)).flatMap Span.text := by
  rw [← spans_withoutComments, text_spans]

/-- Comments are removed once and for all. Without its comments a text is the same when they are
removed again: scanned anew it has no comment, and it has the literals that stood outside comments,
each with the characters it had, one that is not closed included. That is so for the text as a whole,
of which the spans lose nothing and of which the spans that are no comments stay, all in order. -/
theorem literals_outlast_comments (t : Text) :
    withoutComments (withoutComments t) = withoutComments t ∧
    comments (withoutComments t) = [] ∧
    literals (withoutComments t) = literals t ∧
    (spans t).flatMap Span.text = t ∧
    withoutComments t = ((spans t).filter (!·.isComment)).flatMap Span.text ∧
    spans (withoutComments t) = (spans t).filter (!·.isComment) := by
  have left := spans_withoutComments t
  refine ⟨?_, ?_, ?_, text_spans t, withoutComments_eq t, left⟩
  · rw [withoutComments_eq (withoutComments t), left, List.filter_filter, withoutComments_eq t]
    simp
  · rw [comments, left, List.filter_filter]
    simp
  · rw [literals, left, literals, List.filterMap_filter]
    refine List.filterMap_congr fun span _ => ?_
    cases span <;> rfl

/-- A literal in a comment, one with the signs of a comment in it, and one that is not closed. -/
example : literals "/* 'a' */ 'b/*' // \"c\n\"d\\\" //" = ["'b/*'", "\"d\\\" //"] := by cbv

end ModuleAtlas.Configuration
