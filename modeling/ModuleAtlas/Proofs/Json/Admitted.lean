import ModuleAtlas.Proofs.Json.Grammar
import ModuleAtlas.Proofs.Json.Strictness
/-!
The reader of JSON on the texts that the grammar admits, with spaces in the gaps. A text is read as
the value it means, or it is refused for the first integer in it that is too long
(`Term.read_text`). Where spaces stand does not matter.
-/
namespace ModuleAtlas.Json
open Number (IntegerFault)

/-! ## Numbers -/

theorem IsDigits.opens {digits : Text} (decimal : IsDigits digits) :
    ∃ c rest, digits = c :: rest ∧ c.isDigit = true := by
  cases digits with
  | nil => exact absurd rfl decimal.nonempty
  | cons c rest => exact ⟨c, rest, rfl, decimal.digits c (by simp)⟩

theorem fraction_some {digits rest : Text} (decimal : IsDigits digits)
    (ends : ∀ c, rest.head? = some c → c.isDigit = false) :
    fraction (.scalar '.' :: (digits ++ rest)) = (some digits, rest) := by
  obtain ⟨taken, left⟩ := takeWhile_digits decimal.digits ends
  simp [fraction, spanDigits, taken, left, decimal.nonempty]

/-- The sign in front of the digits of an exponent. -/
theorem splitSign_append {sign : Option CodePoint} (signed : ∀ c ∈ sign, c = '+' ∨ c = '-')
    {c : CodePoint} (digit : c.isDigit) (t : Text) :
    Number.splitSign (sign.toList ++ c :: t) = (sign == some (.scalar '-'), c :: t) := by
  cases sign with
  | none =>
    have minus : c ≠ '-' := ne_of_isDigit digit (by decide)
    have plus : c ≠ '+' := ne_of_isDigit digit (by decide)
    simp [Number.splitSign, minus, plus]
  | some sign =>
    rcases signed sign rfl with rfl | rfl <;> rfl

theorem Exponent.read (power : Exponent) {rest : Text} (ends : EndsNumber rest) :
    exponent (power.text ++ rest) = (some power.value, rest) := by
  obtain ⟨letter, sign, digits, known, signed, decimal⟩ := power
  obtain ⟨taken, left⟩ := takeWhile_digits decimal.digits ends.not_isDigit
  obtain ⟨c, more, rfl, digit⟩ := decimal.opens
  have split := splitSign_append signed digit (more ++ rest)
  have letters : (letter == 'e' || letter == 'E') = true := by simpa using known
  rw [List.cons_append] at taken left
  simp [text, exponent, split, letters, digit, spanDigits, taken, left, value]

theorem Exponent.opens (power : Exponent) :
    ∃ c t, power.text = c :: t ∧ c.isDigit = false ∧ c ≠ '.' := by
  refine ⟨power.letter, _, rfl, ?_⟩
  rcases power.known with letter | letter <;> rw [letter] <;> decide

namespace Numeral

/-- What stands behind the digits of a number is no digit and no point. -/
theorem powerText_head (power : Option Exponent) {rest : Text} (ends : EndsNumber rest) :
    ∀ c, (powerText power ++ rest).head? = some c → c.isDigit = false ∧ c ≠ '.' := by
  intro c first
  cases power with
  | none => exact ⟨(ends c first).1, (ends c first).2.1⟩
  | some power =>
    obtain ⟨d, t, opens, kind⟩ := power.opens
    rw [powerText, Option.elim_some, opens, List.cons_append, List.head?_cons,
      Option.some.injEq] at first
    exact first ▸ kind

theorem exponent_powerText (power : Option Exponent) {rest : Text} (ends : EndsNumber rest) :
    exponent (powerText power ++ rest) = (power.map Exponent.value, rest) := by
  cases power with
  | none => exact ends.exponent
  | some power => exact power.read ends

theorem fraction_partText {part : Option Text} (decimal : ∀ digits ∈ part, IsDigits digits)
    (power : Option Exponent) {rest : Text} (ends : EndsNumber rest) :
    fraction (partText part ++ (powerText power ++ rest)) = (part, powerText power ++ rest) := by
  have head := powerText_head power ends
  cases part with
  | none => exact fraction_none fun point => (head '.' point).2 rfl
  | some digits => exact fraction_some (decimal digits rfl) fun c first => (head c first).1

/-- What stands behind the whole part of a number is no digit. -/
theorem partText_head (part : Option Text) (power : Option Exponent) {rest : Text}
    (ends : EndsNumber rest) :
    ∀ c, (partText part ++ (powerText power ++ rest)).head? = some c → c.isDigit = false := by
  intro c first
  cases part with
  | none => exact (powerText_head power ends c first).1
  | some digits =>
    rw [partText, Option.elim_some, List.cons_append, List.head?_cons, Option.some.injEq] at first
    exact first ▸ rfl

/-- A number without its sign is read up to its end. -/
theorem unsigned_eq (x : Numeral) {rest : Text} (ends : EndsNumber rest) :
    unsigned x.negative (x.whole ++ (partText x.part ++ (powerText x.power ++ rest))) =
      (outcome x.overlong? x.value).map (·, rest) := by
  simp only [unsigned, wholePart?_digits x.numeral (partText_head x.part x.power ends),
    fraction_partText x.decimal x.power ends, exponent_powerText x.power ends, x.numberOf_eq]
  cases outcome x.overlong? x.value <;> rfl

theorem whole_opens (x : Numeral) : ∃ c t, x.whole = c :: t ∧ c.isDigit = true := by
  cases same : x.whole with
  | nil => exact absurd same x.numeral.nonempty
  | cons c t => exact ⟨c, t, rfl, x.numeral.digits c (by simp [same])⟩

/-- A number opens with a minus sign or a digit. -/
theorem opens (x : Numeral) : ∃ c t, x.text = c :: t ∧ (c = '-' ∨ c.isDigit = true) := by
  obtain ⟨c, t, same, digit⟩ := x.whole_opens
  cases sign : x.negative with
  | false =>
    exact ⟨c, t ++ (partText x.part ++ powerText x.power), by simp [text, numberText, sign, same],
      .inr digit⟩
  | true =>
    exact ⟨'-', x.whole ++ (partText x.part ++ powerText x.power),
      by simp [text, numberText, sign], .inl rfl⟩

theorem atom_text (x : Numeral) {rest : Text} (ends : EndsNumber rest) :
    atom (x.text ++ rest) = (outcome x.overlong? x.value).map (·, rest) := by
  obtain ⟨c, t, same, digit⟩ := x.whole_opens
  have read := x.unsigned_eq ends
  rw [same, List.cons_append] at read
  cases sign : x.negative with
  | false =>
    rw [sign, ← atom_of_isDigit digit] at read
    simpa [text, numberText, sign, same] using read
  | true =>
    rw [sign, ← atom_minus digit] at read
    simpa [text, numberText, sign, same] using read

/-- A character that neither is a digit nor a minus sign does not open a number. -/
theorem head_ne (x : Numeral) (rest : Text) {d : CodePoint} (other : d.isDigit = false)
    (minus : d ≠ '-') : (x.text ++ rest).head? ≠ some d := by
  obtain ⟨c, t, opens, kind⟩ := x.opens
  rw [opens, List.cons_append, List.head?_cons, ne_eq, Option.some.injEq]
  rintro rfl
  rcases kind with sign | digit
  · exact minus sign
  · exact absurd digit (by simp [other])

theorem reads (x : Numeral) (short : x.overlong? = none) {rest : Text} (ends : EndsNumber rest) :
    Reads (x.text ++ rest) x.value rest := by
  have read := x.atom_text ends
  rw [short] at read
  exact reads_atom (x.head_ne rest (by decide) (by decide)) (x.head_ne rest (by decide) (by decide))
    (x.head_ne rest (by decide) (by decide)) read

theorem fails (x : Numeral) {digits : Nat} (long : x.overlong? = some digits) {rest : Text}
    (ends : EndsNumber rest) : Fails (.tooLong digits) (x.text ++ rest) := by
  have read := x.atom_text ends
  rw [long] at read
  exact value_eq_error (x.head_ne rest (by decide) (by decide))
    (x.head_ne rest (by decide) (by decide)) (x.head_ne rest (by decide) (by decide)) read

end Numeral

/-! ## Openings -/

section
variable {G : Type} (write : G → Text)

/-- A value opens with neither a space nor a closing bracket. -/
theorem Term.opens (x : Term G) :
    ∃ c t, x.text write = c :: t ∧ isSpace c = false ∧ c ≠ ']' := by
  cases x with
  | null | string | emptyArray | array | emptyObject | object => exact ⟨_, _, rfl, by decide⟩
  | bool b => cases b <;> exact ⟨_, _, rfl, by decide⟩
  | number x =>
    obtain ⟨c, t, opens, kind⟩ := x.opens
    refine ⟨c, t, opens, ?_⟩
    rcases kind with rfl | digit
    · decide
    · have apart : ∀ d : CodePoint, d.isDigit = false → c ≠ d := fun d => ne_of_isDigit digit
      refine ⟨?_, apart ']' (by decide)⟩
      simp [isSpace, apart ' ' (by decide), apart '\t' (by decide), apart '\n' (by decide),
        apart '\r' (by decide)]

theorem Items.opens (xs : Items G) :
    ∃ c t, xs.text write = c :: t ∧ isSpace c = false ∧ c ≠ ']' := by
  cases xs with
  | last x behind | more x behind next rest =>
    obtain ⟨c, t, opens, kind⟩ := x.opens write
    exact ⟨c, _, by rw [text, opens, List.cons_append], kind⟩

theorem Fields.opens (ms : Fields G) : ∃ t, ms.text write = .scalar '"' :: t := by
  cases ms with
  | last name x behind | more name x behind next rest => exact ⟨_, rfl⟩

end

/-! ## Values -/

section
variable {G : Type} {write : G → Text} (spaces : ∀ gap, ∀ c ∈ write gap, isSpace c)
include spaces

/-- Behind a gap the next sign is found. -/
theorem skipSpace_sign (gap : G) {c : CodePoint} (sign : isSpace c = false) (t : Text) :
    skipSpace (write gap ++ c :: t) = c :: t := by
  rw [skipSpace_append (spaces gap), skipSpace_cons sign]

theorem Term.skipSpace_text (gap : G) (x : Term G) (rest : Text) :
    skipSpace (write gap ++ (x.text write ++ rest)) = x.text write ++ rest := by
  obtain ⟨c, t, opens, other, -⟩ := x.opens write
  rw [opens, List.cons_append, skipSpace_sign spaces gap other]

theorem Items.skipSpace_text (gap : G) (xs : Items G) (rest : Text) :
    skipSpace (write gap ++ (xs.text write ++ rest)) = xs.text write ++ rest := by
  obtain ⟨c, t, opens, other, -⟩ := xs.opens write
  rw [opens, List.cons_append, skipSpace_sign spaces gap other]

theorem Fields.skipSpace_text (gap : G) (ms : Fields G) (rest : Text) :
    skipSpace (write gap ++ (ms.text write ++ rest)) = ms.text write ++ rest := by
  obtain ⟨t, opens⟩ := ms.opens write
  rw [opens, List.cons_append, skipSpace_sign spaces gap (by decide)]

theorem endsNumber_gap (gap : G) {c : CodePoint} {rest : Text}
    (other : c.isDigit = false ∧ c ≠ '.' ∧ c ≠ 'e' ∧ c ≠ 'E') :
    EndsNumber (write gap ++ c :: rest) :=
  endsNumber_append (spaces gap) (endsNumber_cons other)

/-- What is written for a key stands in front of a value as the reader of members wants it. -/
theorem Name.named (name : Name G) (x : Term G) (rest : Text) :
    ∃ t afterKey s, name.text write ++ (x.text write ++ rest) = .scalar '"' :: t ∧
      stringBody? t = some (Piece.body name.pieces, afterKey) ∧ skipSpace afterKey = .scalar ':' :: s ∧
        skipSpace s = x.text write ++ rest := by
  refine ⟨_, _, write name.after ++ (x.text write ++ rest), ?_, stringBody?_pieces name.pieces _,
    skipSpace_sign spaces name.before (by decide) _, x.skipSpace_text spaces name.after rest⟩
  simp [text, Piece.quoted]

mutual

/-- A value without too long integers is read, whatever follows that does not belong to it. -/
theorem Term.reads (x : Term G) (short : x.overlong? = none) {rest : Text}
    (ends : EndsNumber rest) : Reads (x.text write ++ rest) x.value rest := by
  cases x with
  | null => exact reads_null rest
  | bool b =>
    cases b with
    | true => exact reads_true rest
    | false => exact reads_false rest
  | number x => exact x.reads short ends
  | string pieces =>
    simpa [Term.text, Term.value, Piece.quoted] using reads_string (stringBody?_pieces pieces rest)
  | emptyArray gap =>
    simpa [Term.text, Term.value] using
      reads_emptyArray (skipSpace_sign spaces gap (by decide) rest)
  | array gap items =>
    have read := items.reads short rest
    rw [← items.skipSpace_text spaces gap] at read
    simpa [Term.text, Term.value] using reads_array read
  | emptyObject gap =>
    simpa [Term.text, Term.value] using
      reads_emptyObject (skipSpace_sign spaces gap (by decide) rest)
  | object gap fields =>
    have read := fields.reads short rest
    rw [← fields.skipSpace_text spaces gap] at read
    simpa [Term.text, Term.value] using reads_object read

theorem Items.reads (xs : Items G) (short : xs.overlong? = none) (rest : Text) :
    ReadsElements (xs.text write ++ .scalar ']' :: rest) xs.values rest := by
  cases xs with
  | last x behind =>
    have ends : EndsNumber (write behind ++ .scalar ']' :: rest) :=
      endsNumber_gap spaces behind (by decide)
    have read := x.reads short ends
    simpa [Items.text, Items.values] using
      readsElements_last read (skipSpace_sign spaces behind (by decide) rest)
  | more x behind next xs =>
    rw [Items.overlong?, Option.or_eq_none_iff] at short
    have later := xs.reads short.2 rest
    rw [← xs.skipSpace_text spaces next] at later
    have ends : EndsNumber
        (write behind ++ .scalar ',' :: (write next ++ (xs.text write ++ .scalar ']' :: rest))) :=
      endsNumber_gap spaces behind (by decide)
    have read := x.reads short.1 ends
    simpa [Items.text, Items.values] using
      readsElements_more read (skipSpace_sign spaces behind (by decide) _) later

theorem Fields.reads (ms : Fields G) (short : ms.overlong? = none) (rest : Text) :
    ReadsMembers (ms.text write ++ .scalar '\x7d' :: rest) ms.values rest := by
  cases ms with
  | last name x behind =>
    have ends : EndsNumber (write behind ++ .scalar '\x7d' :: rest) :=
      endsNumber_gap spaces behind (by decide)
    have read := x.reads short ends
    obtain ⟨t, afterKey, s, opens, key, colon, value⟩ :=
      name.named spaces x (write behind ++ .scalar '\x7d' :: rest)
    rw [← value] at read
    have all := readsMembers_last key colon read (skipSpace_sign spaces behind (by decide) rest)
    rw [← opens] at all
    simpa [Fields.text, Fields.values] using all
  | more name x behind next ms =>
    rw [Fields.overlong?, Option.or_eq_none_iff] at short
    have later := ms.reads short.2 rest
    rw [← ms.skipSpace_text spaces next] at later
    have ends : EndsNumber
        (write behind ++ .scalar ',' :: (write next ++ (ms.text write ++ .scalar '\x7d' :: rest))) :=
      endsNumber_gap spaces behind (by decide)
    have read := x.reads short.1 ends
    obtain ⟨t, afterKey, s, opens, key, colon, value⟩ :=
      name.named spaces x
        (write behind ++ .scalar ',' :: (write next ++ (ms.text write ++ .scalar '\x7d' :: rest)))
    rw [← value] at read
    have all := readsMembers_more key colon read (skipSpace_sign spaces behind (by decide) _) later
    rw [← opens] at all
    simpa [Fields.text, Fields.values] using all

end

mutual

/-- A value is refused for the first integer in it that is too long. -/
theorem Term.fails (x : Term G) {digits : Nat} (long : x.overlong? = some digits) {rest : Text}
    (ends : EndsNumber rest) : Fails (.tooLong digits) (x.text write ++ rest) := by
  cases x with
  | null | bool | string | emptyArray | emptyObject => cases long
  | number x => exact x.fails long ends
  | array gap items =>
    obtain ⟨c, t, opens, -, apart⟩ := items.opens write
    have failed := items.fails long rest
    rw [← items.skipSpace_text spaces gap] at failed
    have all := failed.array (by
      rw [items.skipSpace_text spaces gap, opens]
      simpa using apart)
    simpa [Term.text] using all
  | object gap fields =>
    obtain ⟨t, opens⟩ := fields.opens write
    have failed := fields.fails long rest
    rw [← fields.skipSpace_text spaces gap] at failed
    have all := failed.object (by
      rw [fields.skipSpace_text spaces gap, opens]
      simp)
    simpa [Term.text] using all

theorem Items.fails (xs : Items G) {digits : Nat} (long : xs.overlong? = some digits)
    (rest : Text) : FailsElements (.tooLong digits) (xs.text write ++ .scalar ']' :: rest) := by
  cases xs with
  | last x behind =>
    have ends : EndsNumber (write behind ++ .scalar ']' :: rest) :=
      endsNumber_gap spaces behind (by decide)
    have failed := x.fails long ends
    simpa [Items.text] using failed.elements
  | more x behind next xs =>
    have ends : EndsNumber
        (write behind ++ .scalar ',' :: (write next ++ (xs.text write ++ .scalar ']' :: rest))) :=
      endsNumber_gap spaces behind (by decide)
    rw [Items.overlong?, Option.or_eq_some_iff] at long
    -- A later element is met only if the ones in front of it have been read.
    rcases long with here | ⟨short, later⟩
    · simpa [Items.text] using (x.fails here ends).elements
    · have failed := xs.fails later rest
      rw [← xs.skipSpace_text spaces next] at failed
      simpa [Items.text] using
        failed.more (x.reads spaces short ends) (skipSpace_sign spaces behind (by decide) _)

theorem Fields.fails (ms : Fields G) {digits : Nat} (long : ms.overlong? = some digits)
    (rest : Text) : FailsMembers (.tooLong digits) (ms.text write ++ .scalar '\x7d' :: rest) := by
  cases ms with
  | last name x behind =>
    have ends : EndsNumber (write behind ++ .scalar '\x7d' :: rest) :=
      endsNumber_gap spaces behind (by decide)
    have failed := x.fails long ends
    obtain ⟨t, afterKey, s, opens, key, colon, value⟩ :=
      name.named spaces x (write behind ++ .scalar '\x7d' :: rest)
    rw [← value] at failed
    have all := failed.members key colon
    rw [← opens] at all
    simpa [Fields.text] using all
  | more name x behind next ms =>
    have ends : EndsNumber
        (write behind ++ .scalar ',' :: (write next ++ (ms.text write ++ .scalar '\x7d' :: rest))) :=
      endsNumber_gap spaces behind (by decide)
    obtain ⟨t, afterKey, s, opens, key, colon, value⟩ :=
      name.named spaces x
        (write behind ++ .scalar ',' :: (write next ++ (ms.text write ++ .scalar '\x7d' :: rest)))
    have failed : FailsMembers (.tooLong digits) (.scalar '"' :: t) := by
      rw [Fields.overlong?, Option.or_eq_some_iff] at long
      rcases long with here | ⟨short, later⟩
      · have failed := x.fails here ends
        rw [← value] at failed
        exact failed.members key colon
      · have failed := ms.fails later rest
        rw [← ms.skipSpace_text spaces next] at failed
        have read := x.reads spaces short ends
        rw [← value] at read
        exact failed.more key colon read (skipSpace_sign spaces behind (by decide) _)
    rw [← opens] at failed
    simpa [Fields.text] using failed

end

/-! ## Whole texts -/

/-- A text that the grammar admits is read as the value it means, unless an integer in it is too
long. -/
theorem Term.read_text (x : Term G) : read (x.text write) = outcome x.overlong? x.value := by
  obtain ⟨c, t, opens, other, -⟩ := x.opens write
  have opening : skipSpace (x.text write) = x.text write ++ [] := by
    rw [List.append_nil, opens, skipSpace_cons other]
  cases long : x.overlong? with
  | none =>
    have read := x.reads spaces long endsNumber_nil
    rw [← opening] at read
    exact read_eq_ok read (by simp)
  | some digits =>
    have failed := x.fails spaces long endsNumber_nil
    rw [← opening] at failed
    exact failed.read

end

end ModuleAtlas.Json
