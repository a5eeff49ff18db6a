import ModuleAtlas.Proofs.Configuration.Document
import ModuleAtlas.Proofs.Json.Admitted
/-!
Configuration files that are JSON objects with comments at any place between tokens. Of a gap
between tokens only spaces are left (`Commented.cleaned`), and the reader of JSON does not care
which. So the entries of such a file are those of the same object without comments, and a text
without comments is left as it is (`comments_ignored`).
-/
namespace ModuleAtlas.Configuration
open Json (Blank Document Exponent Fields Items Name Numeral Piece Term)

/-! ## Comments -/

/-- What stands in a gap between tokens: a space, a comment up to the end of a line, or a comment
that is closed. Any words may stand in a comment but those that end it. -/
inductive Filler
  | space (c : CodePoint) (isSpace : Json.isSpace c)
  | line (words : Text) (single : .scalar '\n' ∉ words)
  | block (words : Text) (unclosed : ¬ (['*', '/'] : Text) <:+: words)

namespace Filler

/-- What is written. -/
def text : Filler → Text
  | space c _ => [c]
  | line words _ => .scalar '/' :: .scalar '/' :: (words ++ [.scalar '\n'])
  | block words _ => .scalar '/' :: .scalar '*' :: (words ++ (['*', '/'] : Text))

/-- The spaces that are left without the comment. -/
def spaces : Filler → Text
  | space c _ => [c]
  | line .. => [.scalar '\n']
  | block .. => []

/-- What is written in a gap. -/
def allText (gap : List Filler) : Text := gap.flatMap text

/-- The spaces of a gap that are left without its comments. -/
def allSpaces (gap : List Filler) : Text := gap.flatMap spaces

theorem isSpace_of_mem (gap : List Filler) : ∀ c ∈ allSpaces gap, Json.isSpace c := by
  intro c inside
  obtain ⟨filler, -, here⟩ := List.mem_flatMap.1 inside
  cases filler with
  | space d isSpace => exact List.mem_singleton.1 here ▸ isSpace
  | line words single => exact List.mem_singleton.1 here ▸ rfl
  | block words unclosed => cases here

end Filler

/-- A JSON text with comments in its gaps, and perhaps one more at the end of the text, without a
line end. -/
structure Commented where
  document : Document (List Filler)
  last : Option Text
  single : ∀ words ∈ last, .scalar '\n' ∉ words

/-- The text of a last comment. -/
def lastText (last : Option Text) : Text := last.elim [] (.scalar '/' :: .scalar '/' :: ·)

/-- The whole text. -/
def Commented.text (x : Commented) : Text := x.document.text Filler.allText ++ lastText x.last

/-! ## What is left -/

theorem withoutCommentsFrom_line {words : Text} (single : .scalar '\n' ∉ words) (t : Text) :
    withoutCommentsFrom .lineComment (words ++ t) = withoutCommentsFrom .lineComment t := by
  induction words with
  | nil => rfl
  | cons c words ih =>
    rw [List.mem_cons, not_or] at single
    rw [List.cons_append, withoutCommentsFrom.eq_def]
    split
    all_goals simp_all

/-- A comment goes on up to the first star with a slash behind it, also if its words end with a
star. -/
theorem withoutCommentsFrom_block {words : Text} (unclosed : ¬ (['*', '/'] : Text) <:+: words)
    (t : Text) :
    withoutCommentsFrom .blockComment (words ++ .scalar '*' :: .scalar '/' :: t) =
      withoutCommentsFrom .code t := by
  induction words with
  | nil => rfl
  | cons c words ih =>
    have later := ih fun inside => unclosed (inside.trans (List.suffix_cons c words).isInfix)
    have apart : ∀ rest, c = '*' → words ++ .scalar '*' :: .scalar '/' :: t ≠ .scalar '/' :: rest := by
      rintro rest rfl slash
      cases words with
      | nil => simp at slash
      | cons d words =>
        obtain ⟨rfl, -⟩ := List.cons.inj slash
        exact unclosed (List.prefix_append (['*', '/'] : Text) words).isInfix
    rw [List.cons_append, withoutCommentsFrom.eq_def]
    split
    all_goals simp_all

theorem Filler.leaves (filler : Filler) : Leaves filler.text filler.spaces := by
  cases filler with
  | space c isSpace => exact (Keeps.blank ⟨[c], by simpa using isSpace⟩).leaves
  | line words single =>
    intro rest
    simp [text, spaces, withoutCommentsFrom, withoutCommentsFrom_line single]
  | block words unclosed =>
    intro rest
    simp [text, spaces, withoutCommentsFrom, withoutCommentsFrom_block unclosed]

theorem Filler.leaves_all (gap : List Filler) : Leaves (allText gap) (allSpaces gap) := by
  induction gap with
  | nil => exact Keeps.nil.leaves
  | cons filler gap ih => exact filler.leaves.append ih

theorem Keeps.numeral (x : Numeral) : Keeps x.text := by
  have sign : ∀ c : CodePoint, c = '+' ∨ c = '-' → c ≠ '/' ∧ Text.isQuote c = false := by
    rintro c (rfl | rfl) <;> decide
  have power : Keeps (Numeral.powerText x.power) := by
    cases x.power with
    | none => exact .nil
    | some power =>
      have signed : Keeps power.sign.toList := .of_forall fun c inside =>
        sign c (power.signed c (Option.mem_toList.1 inside))
      have letter : power.letter ≠ '/' ∧ Text.isQuote power.letter = false := by
        rcases power.known with known | known <;> rw [known] <;> decide
      exact (signed.append (.digits power.decimal.digits)).cons letter.1 letter.2
  have part : Keeps (Numeral.partText x.part) := by
    cases same : x.part with
    | none => exact .nil
    | some digits =>
      exact (Keeps.digits (x.decimal digits same).digits).cons (by decide) (by decide)
  have unsigned := (Keeps.digits x.numeral.digits).append (part.append power)
  rw [Numeral.text, Json.numberText]
  cases x.negative with
  | false => exact unsigned
  | true => exact unsigned.cons (by decide) (by decide)

section
variable {G : Type} {write left : G → Text} (gaps : ∀ gap, Leaves (write gap) (left gap))
include gaps

theorem Leaves.name (name : Name G) : Leaves (name.text write) (name.text left) :=
  (Keeps.quoted name.pieces).leaves.append
    ((gaps name.before).append ((gaps name.after).cons (by decide) (by decide)))

/-- What stands between elements, or members. -/
theorem Leaves.comma {t more : Text} (later : Leaves t more) (behind next : G) :
    Leaves (write behind ++ .scalar ',' :: (write next ++ t))
      (left behind ++ .scalar ',' :: (left next ++ more)) :=
  (gaps behind).append (((gaps next).append later).cons (by decide) (by decide))

mutual

/-- From a JSON text what is removed from its gaps is removed, and nothing else. -/
theorem Leaves.term (x : Term G) : Leaves (x.text write) (x.text left) := by
  cases x with
  | null => exact (Keeps.of_forall (by simp [Term.text, Text.isQuote])).leaves
  | bool b =>
    exact (Keeps.of_forall (by cases b <;> simp [Term.text, Json.boolText, Text.isQuote])).leaves
  | number x => exact (Keeps.numeral x).leaves
  | string pieces => exact (Keeps.quoted pieces).leaves
  | emptyArray gap => exact (gaps gap).enclosed Keeps.nil.leaves (by decide) (by decide)
  | array gap items => exact (gaps gap).enclosed (Leaves.items items) (by decide) (by decide)
  | emptyObject gap => exact (gaps gap).enclosed Keeps.nil.leaves (by decide) (by decide)
  | object gap fields => exact (gaps gap).enclosed (Leaves.fields fields) (by decide) (by decide)

theorem Leaves.items (xs : Items G) : Leaves (xs.text write) (xs.text left) := by
  cases xs with
  | last x behind => exact (Leaves.term x).append (gaps behind)
  | more x behind next rest =>
    exact (Leaves.term x).append (Leaves.comma gaps (Leaves.items rest) behind next)

theorem Leaves.fields (ms : Fields G) : Leaves (ms.text write) (ms.text left) := by
  cases ms with
  | last name x behind =>
    exact (Leaves.name gaps name).append ((Leaves.term x).append (gaps behind))
  | more name x behind next rest =>
    exact (Leaves.name gaps name).append
      ((Leaves.term x).append (Leaves.comma gaps (Leaves.fields rest) behind next))

end

theorem Leaves.document (x : Document G) : Leaves (x.text write) (x.text left) :=
  (gaps x.before).append ((Leaves.term gaps x.term).append (gaps x.after))

end

theorem withoutCommentsFrom_last {last : Option Text} (single : ∀ words ∈ last, .scalar '\n' ∉ words) :
    withoutCommentsFrom .code (lastText last) = [] := by
  cases last with
  | none => rfl
  | some words =>
    have line := withoutCommentsFrom_line (single words rfl) []
    rw [List.append_nil] at line
    simpa [lastText, withoutCommentsFrom] using line

/-- Of a text with comments the text with the remaining spaces is left. -/
theorem Commented.cleaned (x : Commented) :
    withoutComments x.text = x.document.text Filler.allSpaces := by
  rw [withoutComments, text, Leaves.document Filler.leaves_all, withoutCommentsFrom_last x.single,
    List.append_nil]

/-- Of a text without comments all is left. -/
theorem withoutComments_strict (x : Document Blank) :
    withoutComments (x.text Subtype.val) = x.text Subtype.val := by
  have kept := Leaves.document (fun blank : Blank => (Keeps.blank blank).leaves) x []
  simpa [withoutComments, withoutCommentsFrom] using kept

/-! ## Documents -/

section
variable {G : Type} {write : G → Text} (spaces : ∀ gap, ∀ c ∈ write gap, Json.isSpace c)
include spaces

/-- What is read from a text of which an object between spaces is left. -/
theorem readDocument_cleaned {content : Text} {x : Document G}
    (cleaned : withoutComments content = x.text write) (object : x.term.isObject = true)
    {members : List (Text × Json)} (value : x.term.value = .object members) :
    readDocument content =
      match x.term.overlong? with
      | none => .ok (some (Value.ofMembers members))
      | some digits => .error (.integerTooLong digits) := by
  obtain ⟨inside, braces⟩ := x.term.text_of_isObject object write
  have trimmed : Text.trim (withoutComments content) = x.term.text write := by
    have around := @trim_blanks ⟨write x.before, spaces x.before⟩ ⟨write x.after, spaces x.after⟩
      '\x7b' '\x7d' inside (by decide) (by decide)
    rw [cleaned, Document.text, braces, ← List.append_assoc]
    simpa using around
  have some : (x.term.text write).isEmpty = false := by rw [braces]; rfl
  have read := x.term.read_text spaces
  cases long : x.term.overlong? with
  | none =>
    rw [long, Json.outcome, value] at read
    simp [readDocument, trimmed, some, readData, read, Value.ofJson]
  | some digits =>
    rw [long, Json.outcome] at read
    simp [readDocument, trimmed, some, readData, read]

end

theorem document?_of_text {files : FileSystem} {p content : Text}
    (here : files.text? p = .ok (some content)) :
    document? files p = (readDocument content).mapError .data := by
  rw [document?, content?, here]

/-- Comments do not matter. A file with an object and comments, wherever they stand and whatever
they say, has the entries of the object, as has any file with the same tokens and no comments; and
from a text without comments nothing is removed. -/
theorem comments_ignored :
    (∀ (files others : FileSystem) (p q : Text) (x : Commented) (y : Document Blank),
      y.term.isObject = true → x.document.term.bare = y.term.bare →
      files.text? p = .ok (some x.text) → others.text? q = .ok (some (y.text Subtype.val)) →
        document? files p = document? others q ∧
        ∀ members, y.term.value = .object members → y.term.overlong? = none →
          document? files p = .ok (some (Value.ofMembers members))) ∧
    ∀ z : Document Blank, withoutComments (z.text Subtype.val) = z.text Subtype.val := by
  refine ⟨?_, withoutComments_strict⟩
  intro files others p q x y object tokens commented plain
  obtain ⟨sameValue, sameDigits, sameKind⟩ := Json.Term.value_eq_of_bare tokens
  obtain ⟨members, value⟩ := y.term.value_of_isObject object
  have here := readDocument_cleaned Filler.isSpace_of_mem x.cleaned (sameKind.trans object)
    (sameValue.trans value)
  have there := readDocument_cleaned (fun blank : Blank => blank.2) (withoutComments_strict y)
    object value
  rw [sameDigits, ← there] at here
  have same : document? files p = document? others q := by
    rw [document?_of_text commented, document?_of_text plain, here]
  refine ⟨same, ?_⟩
  intro members' value' short
  cases Json.object.inj (value.symm.trans value')
  rw [same, document?_of_text plain, there, short]
  rfl

/-- A key with the signs of comments in it. -/
def slashes : List Piece :=
  let slash : Piece := .plain '/' (by decide) (by decide) (by decide)
  [slash, .short '"' '"' (by decide), slash, .plain '*' (by decide) (by decide) (by decide)]

/-- A number that is no integer. -/
def tenth : Numeral where
  negative := true
  whole := [.scalar '0']
  part := some [.scalar '1']
  power := none
  numeral := Text.isNumeral_ofNat 0
  decimal := by
    rintro digits ⟨⟩
    exact ⟨by simp, (Text.isNumeral_ofNat 1).digits⟩

/-- An object with comments in front of it, behind its brace, in front of a colon, behind a comma
and at the end of the text. -/
def remarked : Commented where
  document :=
    { before := [.block " it's \"\x7b " (by decide +kernel), .space '\n' rfl]
      term :=
        .object [.line " don't \"quote\"" (by decide +kernel), .space ' ' rfl]
          (.last ⟨slashes, [.block "[ *" (by decide +kernel)], []⟩
            (.array []
              (.more (.number tenth) [] [.block " , ] //" (by decide +kernel)]
                (.last (.bool true) [.space ' ' rfl])))
            [.space '\n' rfl])
      after := [.space ' ' rfl] }
  last := some " \"\x7b the end"
  single := by decide +kernel

/-- The same object without comments. -/
def unremarked : Document Blank where
  before := .none
  term :=
    .object .none
      (.last ⟨slashes, .none, .none⟩
        (.array .none (.more (.number tenth) .none .none (.last (.bool true) .none))) .none)
  after := .none

/-- A project with both objects. -/
def remarks : FileSystem where
  tree :=
    { entries :=
        [(["new.json"], .file (Text.utf8 ("/* it's \"\x7b */\n\x7b// don't \"quote\"\n " ++
            "\"/\\\"/*\"/*[ **/:[-0.1,/* , ] //*/true ]\n\x7d // \"\x7b the end"))),
          (["old.json"], .file (Text.utf8 "\x7b\"/\\\"/*\":[-0.1,true]\x7d"))]
      distinct := by decide
      named := by decide
      housed := by decide }

theorem remarks_ignored :
    (remarks.text? "/new.json" = .ok (some remarked.text) ∧
      remarks.text? "/old.json" = .ok (some (unremarked.text Subtype.val)) ∧
      remarked.document.term.bare = unremarked.term.bare) ∧
    document? remarks "/new.json" = document? remarks "/old.json" ∧
      document? remarks "/new.json" =
        .ok (some
          [(.text "/\"/*", .list [.double (Double.ofDecimal true 1 (-1)), .bool true])]) := by
  have new : remarks.text? "/new.json" = .ok (some remarked.text) :=
    text?_of_bytes rfl (by decide +kernel) (by decide +kernel)
  have old : remarks.text? "/old.json" = .ok (some (unremarked.text Subtype.val)) :=
    text?_of_bytes rfl (by decide +kernel) (by decide +kernel)
  have all := comments_ignored.1 remarks remarks "/new.json" "/old.json" remarked unremarked rfl rfl
    new old
  exact ⟨⟨new, old, rfl⟩, all.1, all.2 _ rfl rfl⟩

end ModuleAtlas.Configuration
