import ModuleAtlas.Configuration.Document
import ModuleAtlas.Proofs.Json.Reader
import ModuleAtlas.Proofs.Json.Written
import ModuleAtlas.Text.Class
/-!
What removing comments leaves of a text (`Leaves`), put together from what it leaves of its parts. Of
a JSON text it leaves all (`keeps_text`), since slashes stand in strings only, where they start no
comment; and surrounding blanks are removed (`trim_blanks`).
-/
namespace ModuleAtlas.Configuration
open Json (Piece Key Written Elements Members)

/-- The text has no comments, and what follows it is no part of a string or comment in it. -/
def Keeps (t : Text) : Prop :=
  ∀ rest, withoutCommentsFrom .code (t ++ rest) = t ++ withoutCommentsFrom .code rest

/-- Without comments the second text is left of the first, and what follows is no part of a string
or comment in it. -/
def Leaves (t left : Text) : Prop :=
  ∀ rest, withoutCommentsFrom .code (t ++ rest) = left ++ withoutCommentsFrom .code rest

theorem Keeps.leaves {t : Text} (keeps : Keeps t) : Leaves t t := keeps

theorem Keeps.nil : Keeps [] := fun _ => rfl

theorem Leaves.append {s t left more : Text} (first : Leaves s left) (second : Leaves t more) :
    Leaves (s ++ t) (left ++ more) := by
  intro rest
  rw [List.append_assoc, first, second, List.append_assoc]

theorem Keeps.append {s t : Text} (first : Keeps s) (second : Keeps t) : Keeps (s ++ t) :=
  first.leaves.append second.leaves

theorem Keeps.singleton {c : CodePoint} (slash : c ≠ '/') (quote : Text.isQuote c = false) :
    Keeps [c] := by
  intro rest
  rw [List.singleton_append, withoutCommentsFrom.eq_def]
  split
  · simp_all
  · simp_all
  · simp_all
  · rename_i here same
    cases same
    simp [quote]
  all_goals simp_all

theorem Leaves.cons {t left : Text} (later : Leaves t left) {c : CodePoint} (slash : c ≠ '/')
    (quote : Text.isQuote c = false) : Leaves (c :: t) (c :: left) :=
  (Keeps.singleton slash quote).leaves.append later

theorem Keeps.cons {c : CodePoint} {t : Text} (later : Keeps t) (slash : c ≠ '/')
    (quote : Text.isQuote c = false) : Keeps (c :: t) :=
  later.leaves.cons slash quote

/-- What stands between brackets, in brackets. -/
theorem Leaves.enclosed {gap t left more : Text} (before : Leaves gap left) (inside : Leaves t more)
    {opening closing : CodePoint} (slashes : opening ≠ '/' ∧ closing ≠ '/')
    (quotes : Text.isQuote opening = false ∧ Text.isQuote closing = false) :
    Leaves (opening :: (gap ++ (t ++ [closing]))) (opening :: (left ++ (more ++ [closing]))) :=
  (before.append (inside.append (Keeps.singleton slashes.2 quotes.2).leaves)).cons
    slashes.1 quotes.1

theorem Keeps.of_forall {t : Text} (each : ∀ c ∈ t, c ≠ '/' ∧ Text.isQuote c = false) : Keeps t := by
  induction t with
  | nil => exact .nil
  | cons c t ih =>
    have here := each c (by simp)
    exact (ih fun c inside => each c (by simp [inside])).cons here.1 here.2

/-! ## Strings -/

theorem withoutCommentsFrom_literal {quote c : CodePoint} (other : c ≠ quote) (escape : c ≠ '\\')
    (t : Text) : withoutCommentsFrom (.literal quote) (c :: t) =
      c :: withoutCommentsFrom (.literal quote) t := by
  rw [withoutCommentsFrom.eq_def]
  split
  all_goals simp_all

/-- A hexadecimal digit is neither a quote nor a backslash. -/
theorem ne_of_hexDigit? {c : CodePoint} {n : Nat} (digit : Text.hexDigit? c = some n) :
    c ≠ '"' ∧ c ≠ '\\' := by
  constructor <;>
  · rintro rfl
    simp [Text.hexDigit?] at digit

theorem withoutCommentsFrom_piece (piece : Piece) (t : Text) :
    withoutCommentsFrom (.literal '"') (piece.text ++ t) =
      piece.text ++ withoutCommentsFrom (.literal '"') t := by
  cases piece with
  | plain c printable noQuote noEscape => exact withoutCommentsFrom_literal noQuote noEscape t
  | short letter c known => rfl
  | code a b c d n digits =>
    have apart : ∀ e ∈ [a, b, c, d], e ≠ '"' ∧ e ≠ '\\' := fun e inside =>
      (Json.hexDigit?_of_hex4? digits e inside).elim fun _ => ne_of_hexDigit?
    simp only [List.forall_mem_cons] at apart
    obtain ⟨first, second, third, last, -⟩ := apart
    simp only [Piece.text, List.cons_append, List.nil_append, withoutCommentsFrom,
      withoutCommentsFrom_literal, first, second, third, last, ne_eq, not_false_eq_true]

theorem Keeps.quoted (pieces : List Piece) : Keeps (Piece.quoted pieces) := by
  have body : ∀ rest, withoutCommentsFrom (.literal '"') (Piece.allText pieces ++ .scalar '"' :: rest) =
      Piece.allText pieces ++ .scalar '"' :: withoutCommentsFrom .code rest := by
    intro rest
    induction pieces with
    | nil => rfl
    | cons piece pieces ih =>
      rw [Piece.allText, List.flatMap_cons, List.append_assoc, withoutCommentsFrom_piece,
        ← Piece.allText, ih, List.append_assoc]
  intro rest
  have opened := body rest
  simpa [Piece.quoted, withoutCommentsFrom, Text.isQuote] using opened

/-! ## Documents -/

theorem Keeps.blank (blank : Json.Blank) : Keeps blank.1 := by
  refine .of_forall fun c inside => ?_
  have space := blank.2 c inside
  simp only [Json.isSpace, Bool.or_eq_true, beq_iff_eq] at space
  rcases space with ((rfl | rfl) | rfl) | rfl <;> decide

theorem Keeps.key (key : Key) : Keeps key.text :=
  ((Keeps.quoted key.name).append (.blank key.before)).append
    ((Keeps.blank key.after).cons (by decide) (by decide))

theorem Keeps.digits {digits : Text} (all : ∀ c ∈ digits, c.isDigit) : Keeps digits := by
  refine .of_forall fun c inside => ?_
  have apart : ∀ d : CodePoint, d.isDigit = false → c ≠ d := fun d => Json.ne_of_isDigit (all c inside)
  simp [Text.isQuote, apart '/' (by decide), apart '\'' (by decide), apart '"' (by decide)]

/-- What stands between elements, or members. -/
theorem Keeps.comma (behind next : Json.Blank) : Keeps (Json.commaText behind next) :=
  (Keeps.blank behind).append ((Keeps.blank next).cons (by decide) (by decide))

theorem Keeps.enclosed {blank : Json.Blank} {t : Text} (inside : Keeps t) {opening closing : CodePoint}
    (slashes : opening ≠ '/' ∧ closing ≠ '/')
    (quotes : Text.isQuote opening = false ∧ Text.isQuote closing = false) :
    Keeps (opening :: (blank.1 ++ (t ++ [closing]))) :=
  (Keeps.blank blank).leaves.enclosed inside.leaves slashes quotes

mutual

/-- No comment is removed from a JSON text. -/
theorem keeps_text (x : Written) : Keeps x.text := by
  cases x with
  | null => exact .of_forall (by simp [Written.text, Text.isQuote])
  | bool b => cases b <;> exact .of_forall (by simp [Written.text, Json.boolText, Text.isQuote])
  | number negative digits numeral short =>
    cases negative with
    | false => exact .digits numeral.digits
    | true => exact (Keeps.digits numeral.digits).cons (by decide) (by decide)
  | string pieces => exact .quoted pieces
  | array blank xs => exact (keeps_elements xs).enclosed (by decide) (by decide)
  | object blank ms => exact (keeps_members ms).enclosed (by decide) (by decide)

theorem keeps_elements (xs : Elements) : Keeps xs.text := by
  cases xs with
  | none => exact .nil
  | last x behind => exact (keeps_text x).append (.blank behind)
  | more x behind next rest =>
    exact (keeps_text x).append ((Keeps.comma behind next).append (keeps_elements rest))

theorem keeps_members (ms : Members) : Keeps ms.text := by
  cases ms with
  | none => exact .nil
  | last key x behind => exact (Keeps.key key).append ((keeps_text x).append (.blank behind))
  | more key x behind next rest =>
    exact (Keeps.key key).append
      ((keeps_text x).append ((Keeps.comma behind next).append (keeps_members rest)))

end

theorem isBlank_of_isSpace {c : CodePoint} (space : Json.isSpace c = true) : Text.isBlank c = true := by
  simp only [Json.isSpace, Bool.or_eq_true, beq_iff_eq] at space
  rcases space with ((rfl | rfl) | rfl) | rfl <;> decide

/-- Of blanks around a text only the text is left. -/
theorem trim_blanks (before after : Json.Blank) {c d : CodePoint} {t : Text}
    (opening : Text.isBlank c = false) (closing : Text.isBlank d = false) :
    Text.trim (before.1 ++ (c :: (t ++ [d]) ++ after.1)) = c :: (t ++ [d]) := by
  have front : (before.1 ++ (c :: (t ++ [d]) ++ after.1)).dropWhile Text.isBlank =
      c :: (t ++ [d]) ++ after.1 := by
    rw [List.dropWhile_append_of_pos fun c inside => isBlank_of_isSpace (before.2 c inside)]
    exact List.dropWhile_cons_of_neg (by simp [opening])
  have back : ∀ c ∈ after.1.reverse, Text.isBlank c = true := fun c inside =>
    isBlank_of_isSpace (after.2 c (List.mem_reverse.1 inside))
  rw [Text.trim, Text.trimWhile, front, Text.trimEndWhile, List.reverse_append,
    List.dropWhile_append_of_pos back]
  simp [closing]

end ModuleAtlas.Configuration
