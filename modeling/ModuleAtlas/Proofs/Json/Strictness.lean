import ModuleAtlas.Proofs.Json.Reader
import ModuleAtlas.Proofs.Json.Written
/-!
The strict reader of JSON on texts as they are written. Without trailing commas a text is read as
the value it is written for (`Written.read_text`); with one it is refused, wherever the comma stands
(`Written.read_text_of_trails`).
-/
namespace ModuleAtlas.Json
open Number (digitLimit)

/-! ## Reading -/

theorem stringUnits?_pieces (pieces : List Piece) (rest : Text) :
    stringUnits? (Piece.allText pieces ++ .scalar '"' :: rest) = some (pieces.map Piece.unit, rest) := by
  induction pieces with
  | nil => rfl
  | cons piece pieces ih =>
    rw [Piece.allText, List.flatMap_cons, List.append_assoc, ← Piece.allText]
    cases piece with
    | plain c printable noQuote noEscape =>
      rw [Piece.text, List.singleton_append, stringUnits?_plain printable noQuote noEscape, ih]
      rfl
    | short letter c known =>
      rw [Piece.text, List.cons_append, List.singleton_append, stringUnits?_short known, ih]
      rfl
    | code a b c d n digits =>
      simp only [Piece.text, List.cons_append, List.nil_append, stringUnits?_code digits, ih]
      rfl

theorem stringBody?_pieces (pieces : List Piece) (rest : Text) :
    stringBody? (Piece.allText pieces ++ .scalar '"' :: rest) = some (Piece.body pieces, rest) := by
  rw [stringBody?, stringUnits?_pieces]
  rfl

/-- Behind blanks the next sign is found. -/
theorem Blank.skipSpace_sign (blank : Blank) {c : CodePoint} (sign : isSpace c = false) (t : Text) :
    skipSpace (blank.1 ++ c :: t) = c :: t := by
  rw [skipSpace_append blank.2, skipSpace_cons sign]

theorem reads_number {negative : Bool} {digits rest : Text} (numeral : Text.IsNumeral digits)
    (short : digits.length ≤ digitLimit) (ends : EndsNumber rest) :
    Reads (numberText negative digits ++ rest) (.int (signedValue negative digits)) rest := by
  cases negative with
  | false => exact reads_unsigned numeral short ends
  | true => exact reads_negative numeral short ends

/-- A value opens with neither a blank nor a closing bracket. -/
theorem Written.opens (x : Written) :
    ∃ c t, x.text = c :: t ∧ isSpace c = false ∧ c ≠ ']' := by
  cases x with
  | null => exact ⟨_, _, rfl, by decide⟩
  | bool b => cases b <;> exact ⟨_, _, rfl, by decide⟩
  | number negative digits numeral short =>
    cases negative with
    | true => exact ⟨_, _, rfl, by decide⟩
    | false =>
      cases digits with
      | nil => exact absurd rfl numeral.nonempty
      | cons c digits =>
        have digit : c.isDigit := numeral.digits c (by simp)
        have apart : ∀ d : CodePoint, d.isDigit = false → c ≠ d := fun d => ne_of_isDigit digit
        refine ⟨c, digits, rfl, ?_, apart ']' (by decide)⟩
        simp [isSpace, apart ' ' (by decide), apart '\t' (by decide), apart '\n' (by decide),
          apart '\r' (by decide)]
  | string pieces => exact ⟨_, _, rfl, by decide⟩
  | array blank xs => exact ⟨_, _, rfl, by decide⟩
  | object blank ms => exact ⟨_, _, rfl, by decide⟩

theorem Elements.opens {xs : Elements} (some : xs.isNone = false) :
    ∃ c t, xs.text = c :: t ∧ isSpace c = false ∧ c ≠ ']' := by
  cases xs with
  | none => simp at some
  | last x behind =>
    obtain ⟨c, t, opens, kind⟩ := x.opens
    exact ⟨c, t ++ behind.1, by rw [text, opens, List.cons_append], kind⟩
  | more x behind next rest =>
    obtain ⟨c, t, opens, kind⟩ := x.opens
    exact ⟨c, t ++ (commaText behind next ++ rest.text),
      by rw [text, opens, List.cons_append], kind⟩

theorem Members.opens {ms : Members} (some : ms.isNone = false) : ∃ t, ms.text = .scalar '"' :: t := by
  cases ms with
  | none => simp at some
  | last key x behind => exact ⟨_, rfl⟩
  | more key x behind next rest => exact ⟨_, rfl⟩

/-- Blanks in front of elements, or of the bracket behind them, are skipped. -/
theorem Elements.skipSpace_text (blank : Blank) (xs : Elements) (rest : Text) :
    skipSpace (blank.1 ++ (xs.text ++ .scalar ']' :: rest)) = xs.text ++ .scalar ']' :: rest := by
  cases none : xs.isNone with
  | true =>
    obtain rfl := Elements.eq_none none
    exact blank.skipSpace_sign (by decide) rest
  | false =>
    obtain ⟨c, t, opens, other, -⟩ := Elements.opens none
    rw [opens, List.cons_append, blank.skipSpace_sign other]

theorem Members.skipSpace_text (blank : Blank) (ms : Members) (rest : Text) :
    skipSpace (blank.1 ++ (ms.text ++ .scalar '\x7d' :: rest)) = ms.text ++ .scalar '\x7d' :: rest := by
  cases none : ms.isNone with
  | true =>
    obtain rfl := Members.eq_none none
    exact blank.skipSpace_sign (by decide) rest
  | false =>
    obtain ⟨t, opens⟩ := Members.opens none
    rw [opens, List.cons_append, blank.skipSpace_sign (by decide)]

/-- What is written for a key stands in front of a value as the reader of members wants it. -/
theorem Key.named (key : Key) (x : Written) (rest : Text) :
    ∃ s, stringBody? (Piece.allText key.name ++ .scalar '"' :: (key.before.1 ++ .scalar ':' :: s)) =
        some (Piece.body key.name, key.before.1 ++ .scalar ':' :: s) ∧
      skipSpace (key.before.1 ++ .scalar ':' :: s) = .scalar ':' :: s ∧ skipSpace s = x.text ++ rest ∧
        s = key.after.1 ++ (x.text ++ rest) := by
  obtain ⟨c, t, opens, other, -⟩ := x.opens
  refine ⟨key.after.1 ++ (x.text ++ rest), stringBody?_pieces _ _,
    key.before.skipSpace_sign (by decide) _, ?_, rfl⟩
  rw [opens, List.cons_append, key.after.skipSpace_sign other]

mutual

/-- A value without trailing commas is read, whatever follows that does not belong to it. -/
theorem Written.reads (x : Written) (strict : x.trails = false) {rest : Text}
    (ends : EndsNumber rest) : Reads (x.text ++ rest) x.value rest := by
  cases x with
  | null => exact reads_null rest
  | bool b =>
    cases b with
    | true => exact reads_true rest
    | false => exact reads_false rest
  | number negative digits numeral short => exact reads_number numeral short ends
  | string pieces =>
    simpa [Written.text, Written.value, Piece.quoted] using
      reads_string (stringBody?_pieces pieces rest)
  | array blank xs =>
    cases none : xs.isNone with
    | true =>
      obtain rfl := Elements.eq_none none
      simpa [Written.text, Written.value, Elements.text, Elements.values] using
        reads_emptyArray (blank.skipSpace_sign (by decide) rest)
    | false =>
      simp only [Written.trails, none, Bool.not_false, Bool.true_and] at strict
      have read := xs.reads none strict rest
      rw [← xs.skipSpace_text blank rest] at read
      simpa [Written.text, Written.value] using reads_array read
  | object blank ms =>
    cases none : ms.isNone with
    | true =>
      obtain rfl := Members.eq_none none
      simpa [Written.text, Written.value, Members.text, Members.values, Table.ofList,
        Table.insertAll] using reads_emptyObject (blank.skipSpace_sign (by decide) rest)
    | false =>
      simp only [Written.trails, none, Bool.not_false, Bool.true_and] at strict
      have read := ms.reads none strict rest
      rw [← ms.skipSpace_text blank rest] at read
      simpa [Written.text, Written.value] using reads_object read

theorem Elements.reads (xs : Elements) (some : xs.isNone = false) (strict : xs.trails = false)
    (rest : Text) : ReadsElements (xs.text ++ .scalar ']' :: rest) xs.values rest := by
  cases xs with
  | none => simp at some
  | last x behind =>
    have ends : EndsNumber (.scalar ']' :: rest) := endsNumber_cons (by decide)
    have read := x.reads strict (endsNumber_append behind.2 ends)
    simpa [Elements.text, Elements.values] using
      readsElements_last read (behind.skipSpace_sign (by decide) rest)
  | more x behind next xs =>
    simp only [Elements.trails, Bool.or_eq_false_iff] at strict
    have later := xs.reads (Elements.isNone_of_trails strict.2) strict.2 rest
    rw [← xs.skipSpace_text next rest] at later
    have ends : EndsNumber (.scalar ',' :: (next.1 ++ (xs.text ++ .scalar ']' :: rest))) :=
      endsNumber_cons (by decide)
    have read := x.reads strict.1 (endsNumber_append behind.2 ends)
    simpa [Elements.text, Elements.values, commaText] using
      readsElements_more read (behind.skipSpace_sign (by decide) _) later

theorem Members.reads (ms : Members) (some : ms.isNone = false) (strict : ms.trails = false)
    (rest : Text) : ReadsMembers (ms.text ++ .scalar '\x7d' :: rest) ms.values rest := by
  cases ms with
  | none => simp at some
  | last key x behind =>
    have ends : EndsNumber (.scalar '\x7d' :: rest) := endsNumber_cons (by decide)
    obtain ⟨s, name, colon, value, rfl⟩ := key.named x (behind.1 ++ .scalar '\x7d' :: rest)
    have read := x.reads strict (endsNumber_append behind.2 ends)
    rw [← value] at read
    simpa [Members.text, Members.values, Key.text, Piece.quoted] using
      readsMembers_last name colon read (behind.skipSpace_sign (by decide) rest)
  | more key x behind next ms =>
    simp only [Members.trails, Bool.or_eq_false_iff] at strict
    have later := ms.reads (Members.isNone_of_trails strict.2) strict.2 rest
    rw [← ms.skipSpace_text next rest] at later
    have ends : EndsNumber (.scalar ',' :: (next.1 ++ (ms.text ++ .scalar '\x7d' :: rest))) :=
      endsNumber_cons (by decide)
    obtain ⟨s, name, colon, value, rfl⟩ :=
      key.named x (behind.1 ++ .scalar ',' :: (next.1 ++ (ms.text ++ .scalar '\x7d' :: rest)))
    have read := x.reads strict.1 (endsNumber_append behind.2 ends)
    rw [← value] at read
    simpa [Members.text, Members.values, Key.text, Piece.quoted, commaText] using
      readsMembers_more name colon read (behind.skipSpace_sign (by decide) _) later

end

/-! ## Refusing -/

/-- The reader finds no value at the beginning of the text. -/
def Refuses (t : Text) : Prop := value t = .error .malformed

/-- The reader finds no elements at the beginning of the text. -/
def RefusesElements (t : Text) : Prop := elements t = .error .malformed

/-- The reader finds no members at the beginning of the text. -/
def RefusesMembers (t : Text) : Prop := members t = .error .malformed

section
variable {t s next : Text} {x : Json}

theorem Refuses.elements (refused : Refuses t) : RefusesElements t := Fails.elements refused

theorem RefusesElements.more (refused : RefusesElements (skipSpace next)) (read : Reads t x s)
    (comma : skipSpace s = .scalar ',' :: next) : RefusesElements t :=
  FailsElements.more refused read comma

theorem RefusesElements.array (refused : RefusesElements (skipSpace s))
    (opens : (skipSpace s).head? ≠ some (.scalar ']')) : Refuses (.scalar '[' :: s) :=
  FailsElements.array refused opens

theorem RefusesMembers.object (refused : RefusesMembers (skipSpace s))
    (opens : (skipSpace s).head? ≠ some (.scalar '\x7d')) : Refuses (.scalar '\x7b' :: s) :=
  FailsMembers.object refused opens

variable {afterKey name : Text} (named : stringBody? t = some (name, afterKey))
  (colon : skipSpace afterKey = .scalar ':' :: s)
include named colon

theorem Refuses.members (refused : Refuses (skipSpace s)) : RefusesMembers (.scalar '"' :: t) :=
  Fails.members named colon refused

theorem RefusesMembers.more {behind : Text} (refused : RefusesMembers (skipSpace next))
    (read : Reads (skipSpace s) x behind) (comma : skipSpace behind = .scalar ',' :: next) :
    RefusesMembers (.scalar '"' :: t) :=
  FailsMembers.more named colon refused read comma

end

mutual

/-- A value with a trailing comma somewhere in it is refused. -/
theorem Written.refused (x : Written) (trails : x.trails = true) (rest : Text) :
    Refuses (x.text ++ rest) := by
  cases x with
  | null | bool | number | string => cases trails
  | array blank xs =>
    simp only [Written.trails, Bool.and_eq_true, Bool.not_eq_true'] at trails
    have refused := xs.refused trails.2 rest
    rw [← xs.skipSpace_text blank rest] at refused
    obtain ⟨c, t, opens, -, apart⟩ := Elements.opens trails.1
    have all := refused.array (by rw [xs.skipSpace_text, opens]; simpa using apart)
    simpa [Written.text] using all
  | object blank ms =>
    simp only [Written.trails, Bool.and_eq_true, Bool.not_eq_true'] at trails
    have refused := ms.refused trails.2 rest
    rw [← ms.skipSpace_text blank rest] at refused
    obtain ⟨t, opens⟩ := Members.opens trails.1
    have all := refused.object (by rw [ms.skipSpace_text, opens]; simp)
    simpa [Written.text] using all

theorem Elements.refused (xs : Elements) (trails : xs.trails = true) (rest : Text) :
    RefusesElements (xs.text ++ .scalar ']' :: rest) := by
  cases xs with
  | none =>
    have refused : Refuses (.scalar ']' :: rest) := value_eq_error (by simp) (by simp) (by simp) rfl
    exact refused.elements
  | last x behind =>
    simpa [Elements.text] using (x.refused trails (behind.1 ++ .scalar ']' :: rest)).elements
  | more x behind next xs =>
    have text : (Elements.more x behind next xs).text ++ .scalar ']' :: rest =
        x.text ++ (behind.1 ++ .scalar ',' :: (next.1 ++ (xs.text ++ .scalar ']' :: rest))) := by
      simp [Elements.text, commaText]
    rw [text]
    cases here : x.trails with
    | true => exact (x.refused here _).elements
    | false =>
      simp only [Elements.trails, here, Bool.false_or] at trails
      have later := xs.refused trails rest
      rw [← xs.skipSpace_text next rest] at later
      have ends : EndsNumber (.scalar ',' :: (next.1 ++ (xs.text ++ .scalar ']' :: rest))) :=
        endsNumber_cons (by decide)
      exact later.more (x.reads here (endsNumber_append behind.2 ends))
        (behind.skipSpace_sign (by decide) _)

theorem Members.refused (ms : Members) (trails : ms.trails = true) (rest : Text) :
    RefusesMembers (ms.text ++ .scalar '\x7d' :: rest) := by
  cases ms with
  | none =>
    rw [RefusesMembers, members.eq_def]
    rfl
  | last key x behind =>
    obtain ⟨s, name, colon, value, rfl⟩ := key.named x (behind.1 ++ .scalar '\x7d' :: rest)
    have refused := x.refused trails (behind.1 ++ .scalar '\x7d' :: rest)
    rw [← value] at refused
    simpa [Members.text, Key.text, Piece.quoted] using refused.members name colon
  | more key x behind next ms =>
    have text : (Members.more key x behind next ms).text ++ .scalar '\x7d' :: rest = .scalar '"' ::
        (Piece.allText key.name ++ .scalar '"' ::
          (key.before.1 ++ .scalar ':' :: (key.after.1 ++ (x.text ++
          (behind.1 ++ .scalar ',' :: (next.1 ++ (ms.text ++ .scalar '\x7d' :: rest))))))) := by
      simp [Members.text, Key.text, Piece.quoted, commaText]
    obtain ⟨s, name, colon, value, rfl⟩ :=
      key.named x (behind.1 ++ .scalar ',' :: (next.1 ++ (ms.text ++ .scalar '\x7d' :: rest)))
    rw [text]
    cases here : x.trails with
    | true =>
      have refused := x.refused here
        (behind.1 ++ .scalar ',' :: (next.1 ++ (ms.text ++ .scalar '\x7d' :: rest)))
      rw [← value] at refused
      exact refused.members name colon
    | false =>
      simp only [Members.trails, here, Bool.false_or] at trails
      have later := ms.refused trails rest
      rw [← ms.skipSpace_text next rest] at later
      have ends : EndsNumber (.scalar ',' :: (next.1 ++ (ms.text ++ .scalar '\x7d' :: rest))) :=
        endsNumber_cons (by decide)
      have read := x.reads here (endsNumber_append behind.2 ends)
      rw [← value] at read
      exact later.more name colon read (behind.skipSpace_sign (by decide) _)

end

/-! ## Documents -/

theorem Refuses.read {t : Text} (refused : Refuses (skipSpace t)) :
    read t = .error .malformed :=
  Fails.read refused

theorem Written.read_text {x : Written} (strict : x.trails = false) : read x.text = .ok x.value := by
  have found := x.reads strict endsNumber_nil
  rw [List.append_nil] at found
  exact read_eq_ok (by rw [found.opening]; exact found) (by simp)

theorem Written.read_text_of_trails {x : Written} (trails : x.trails = true) :
    read x.text = .error .malformed := by
  have refused := x.refused trails []
  rw [List.append_nil] at refused
  obtain ⟨c, t, opens, other, -⟩ := x.opens
  have skipped : skipSpace x.text = x.text := by rw [opens, skipSpace_cons other]
  exact Refuses.read (by rwa [skipped])

end ModuleAtlas.Json
