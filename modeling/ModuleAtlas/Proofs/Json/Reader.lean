import ModuleAtlas.Json.Reader
import ModuleAtlas.Proofs.Text.Digit
/-!
What the reader of JSON does, one lemma for each form of value. A value is read up to its end
whatever follows it (`Reads`), as long as a number is not followed by what would belong to it
(`EndsNumber`), and a fault inside a value is the fault of the whole (`Fails`). So a proof about
documents goes along their structure and never along the reader.
-/
namespace ModuleAtlas.Json
open Number (IntegerFault digitLimit)

/-- The reader takes a value off the text and leaves a rest. -/
def Reads (t : Text) (x : Json) (rest : Text) : Prop :=
  ∃ shorter, value t = .ok (x, ⟨rest, shorter⟩)

/-- The reader takes elements and the bracket behind them off the text. -/
def ReadsElements (t : Text) (xs : List Json) (rest : Text) : Prop :=
  ∃ shorter, elements t = .ok (xs, ⟨rest, shorter⟩)

/-- The reader takes members and the brace behind them off the text. -/
def ReadsMembers (t : Text) (ms : List (Text × Json)) (rest : Text) : Prop :=
  ∃ shorter, members t = .ok (ms, ⟨rest, shorter⟩)

/-! ## Space -/

theorem skipSpace_append {blank : Text} (spaces : ∀ c ∈ blank, isSpace c) (t : Text) :
    skipSpace (blank ++ t) = skipSpace t := by
  rw [skipSpace, List.dropWhile_append_of_pos spaces]
  rfl

theorem skipSpace_cons {c : CodePoint} (other : isSpace c = false) (t : Text) :
    skipSpace (c :: t) = c :: t := by
  rw [skipSpace, List.dropWhile_cons_of_neg (by simp [other])]

theorem skipSpace_eq_nil {t : Text} (spaces : ∀ c ∈ t, isSpace c) : skipSpace t = [] := by
  have skipped := skipSpace_append spaces []
  rwa [List.append_nil] at skipped

/-! ## Strings -/

theorem stringUnits?_plain {c : CodePoint} (printable : 32 ≤ c.toNat) (noQuote : c ≠ '"')
    (noEscape : c ≠ '\\') (t : Text) :
    stringUnits? (c :: t) = (stringUnits? t).map fun (units, rest) => (.point c :: units, rest) := by
  rw [stringUnits?.eq_def]
  split
  · simp_all
  · simp_all
  · simp_all
  · simp_all
  · rename_i same
    cases same
    simp [noEscape, Nat.not_lt.2 printable]

theorem stringUnits?_short {letter c : CodePoint} (known : shortEscape? letter = some c) (t : Text) :
    stringUnits? (.scalar '\\' :: letter :: t) =
      (stringUnits? t).map fun (units, rest) => (.point c :: units, rest) := by
  have other : letter ≠ 'u' := by
    rintro rfl
    simp [shortEscape?] at known
  rw [stringUnits?.eq_def]
  split
  · simp_all
  · simp_all
  · rename_i same
    cases same
    exact absurd rfl other
  · rename_i same
    cases same
    rw [known]
    rfl
  · rename_i apart same
    cases same
    exact absurd rfl (apart letter t rfl)

theorem hexDigit?_of_hex4? {a b c d : CodePoint} {n : Nat} (digits : hex4? a b c d = some n) :
    ∀ e ∈ [a, b, c, d], ∃ m, Text.hexDigit? e = some m := by
  simp only [hex4?, Option.bind_eq_some_iff, Option.map_eq_some_iff] at digits
  obtain ⟨i, first, j, second, k, third, l, last, -⟩ := digits
  simp [first, second, third, last]

theorem stringUnits?_code {a b c d : CodePoint} {n : Nat} (digits : hex4? a b c d = some n) (t : Text) :
    stringUnits? (.scalar '\\' :: .scalar 'u' :: a :: b :: c :: d :: t) =
      (stringUnits? t).map fun (units, rest) => (.ofCode n :: units, rest) := by
  rw [stringUnits?, digits]
  rfl

theorem reads_string {s body rest : Text} (read : stringBody? s = some (body, rest)) :
    Reads (.scalar '"' :: s) (.string body) rest := by
  have less := stringBody?_length read
  refine ⟨by simp only [List.length_cons]; omega, ?_⟩
  rw [value]
  split
  · rename_i found
    rw [read] at found
    cases found
    rfl
  · rename_i found
    rw [read] at found
    cases found

/-! ## Words and numbers -/

/-- Nothing that follows belongs to a number before it. -/
def EndsNumber (rest : Text) : Prop :=
  ∀ c, rest.head? = some c → c.isDigit = false ∧ c ≠ '.' ∧ c ≠ 'e' ∧ c ≠ 'E'

theorem endsNumber_nil : EndsNumber [] := by
  intro c first
  simp at first

theorem endsNumber_cons {c : CodePoint} {rest : Text}
    (other : c.isDigit = false ∧ c ≠ '.' ∧ c ≠ 'e' ∧ c ≠ 'E') : EndsNumber (c :: rest) := by
  intro d first
  rw [List.head?_cons, Option.some.injEq] at first
  exact first ▸ other

theorem EndsNumber.not_isDigit {rest : Text} (ends : EndsNumber rest) :
    ∀ c, rest.head? = some c → c.isDigit = false :=
  fun c first => (ends c first).1

theorem endsNumber_append {blank rest : Text} (spaces : ∀ c ∈ blank, isSpace c)
    (ends : EndsNumber rest) : EndsNumber (blank ++ rest) := by
  cases blank with
  | nil => exact ends
  | cons c blank =>
    have space := spaces c (by simp)
    simp only [isSpace, Bool.or_eq_true, beq_iff_eq] at space
    apply endsNumber_cons
    rcases space with ((rfl | rfl) | rfl) | rfl <;> decide

theorem reads_atom {t rest : Text} {x : Json} (quote : t.head? ≠ some (.scalar '"'))
    (bracket : t.head? ≠ some (.scalar '[')) (brace : t.head? ≠ some (.scalar '\x7b'))
    (read : atom t = .ok (x, rest)) : Reads t x rest := by
  refine ⟨atom_length read, ?_⟩
  rw [value.eq_def]
  split
  · simp at quote
  · simp at bracket
  · simp at brace
  · split
    · rename_i found
      rw [read] at found
      cases found
      rfl
    · rename_i found
      rw [read] at found
      cases found

theorem value_eq_error {t : Text} {fault : IntegerFault} (quote : t.head? ≠ some (.scalar '"'))
    (bracket : t.head? ≠ some (.scalar '[')) (brace : t.head? ≠ some (.scalar '\x7b'))
    (refused : atom t = .error fault) : value t = .error fault := by
  rw [value.eq_def]
  split
  · simp at quote
  · simp at bracket
  · simp at brace
  · split
    · rename_i found
      rw [refused] at found
      cases found
    · rename_i found
      rw [refused] at found
      cases found
      rfl

theorem reads_null (rest : Text) : Reads (("null" : Text) ++ rest) .null rest :=
  reads_atom (by simp) (by simp) (by simp) (by simp [atom, Text.dropHead?])

theorem reads_true (rest : Text) : Reads (("true" : Text) ++ rest) (.bool true) rest :=
  reads_atom (by simp) (by simp) (by simp) (by simp [atom, Text.dropHead?])

theorem reads_false (rest : Text) : Reads (("false" : Text) ++ rest) (.bool false) rest :=
  reads_atom (by simp) (by simp) (by simp) (by simp [atom, Text.dropHead?])

theorem takeWhile_digits {digits rest : Text} (all : ∀ c ∈ digits, c.isDigit)
    (ends : ∀ c, rest.head? = some c → c.isDigit = false) :
    (digits ++ rest).takeWhile CodePoint.isDigit = digits ∧
      (digits ++ rest).dropWhile CodePoint.isDigit = rest := by
  have stop : rest.takeWhile CodePoint.isDigit = [] ∧ rest.dropWhile CodePoint.isDigit = rest := by
    cases rest with
    | nil => exact ⟨rfl, rfl⟩
    | cons c rest => simp [ends c rfl]
  constructor
  · rw [List.takeWhile_append_of_pos all, stop.1, List.append_nil]
  · rw [List.dropWhile_append_of_pos all, stop.2]

theorem wholePart?_digits {digits rest : Text} (numeral : Text.IsNumeral digits)
    (ends : ∀ c, rest.head? = some c → c.isDigit = false) :
    wholePart? (digits ++ rest) = some (digits, rest) := by
  obtain ⟨taken, left⟩ := takeWhile_digits numeral.digits ends
  rcases numeral.cases with rfl | ⟨c, more, rfl, nonzero⟩
  · rfl
  · rw [List.cons_append] at taken left ⊢
    rw [wholePart?.eq_def]
    split
    · rename_i opens
      exact absurd (List.cons.inj opens).1 nonzero
    · simp [taken, spanDigits, left]

theorem fraction_none {rest : Text} (noPoint : rest.head? ≠ some (.scalar '.')) :
    fraction rest = (none, rest) := by
  rw [fraction.eq_def]
  split
  · exact absurd rfl noPoint
  · rfl

theorem EndsNumber.exponent {rest : Text} (ends : EndsNumber rest) :
    exponent rest = (none, rest) := by
  cases rest with
  | nil => rfl
  | cons c rest =>
    obtain ⟨_, _, small, large⟩ := ends c rfl
    simp [Json.exponent, small, large]

theorem unsigned_digits {digits rest : Text} (numeral : Text.IsNumeral digits)
    (short : digits.length ≤ digitLimit) (ends : EndsNumber rest) (negative : Bool) :
    unsigned negative (digits ++ rest) = .ok (.int (signedValue negative digits), rest) := by
  have noFraction : fraction rest = (none, rest) :=
    fraction_none fun point => (ends '.' point).2.1 rfl
  simp [unsigned, wholePart?_digits numeral ends.not_isDigit, noFraction, ends.exponent, numberOf,
    Nat.not_lt.2 short]

/-- A digit opens no word. -/
theorem ne_of_isDigit {c d : CodePoint} (digit : c.isDigit) (other : d.isDigit = false) : c ≠ d := by
  rintro rfl
  rw [digit] at other
  exact absurd other (by decide)

theorem atom_of_isDigit {c : CodePoint} (digit : c.isDigit) (t : Text) :
    atom (c :: t) = unsigned false (c :: t) := by
  have apart : ∀ d : CodePoint, d.isDigit = false → d ≠ c := fun d other =>
    (ne_of_isDigit digit other).symm
  simp [atom, Text.dropHead?, apart 'n' (by decide), apart 't' (by decide), apart 'f' (by decide),
    apart 'N' (by decide), apart 'I' (by decide), apart '-' (by decide)]
  split
  · rename_i same
    exact absurd (List.cons.inj same).1.symm (apart '-' (by decide))
  · rfl

theorem atom_minus {c : CodePoint} (digit : c.isDigit) (t : Text) :
    atom (.scalar '-' :: c :: t) = unsigned true (c :: t) := by
  have apart : 'I' ≠ c := (ne_of_isDigit digit (by decide)).symm
  simp [atom, Text.dropHead?, apart]

theorem reads_unsigned {digits rest : Text} (numeral : Text.IsNumeral digits)
    (short : digits.length ≤ digitLimit) (ends : EndsNumber rest) :
    Reads (digits ++ rest) (.int (signedValue false digits)) rest := by
  have read := unsigned_digits numeral short ends false
  cases same : digits with
  | nil => exact absurd same numeral.nonempty
  | cons c more =>
    have digit : c.isDigit := numeral.digits c (by simp [same])
    have apart : ∀ d : CodePoint, d.isDigit = false → c ≠ d := fun d => ne_of_isDigit digit
    rw [same, List.cons_append, ← atom_of_isDigit digit] at read
    exact reads_atom (by simpa using apart '"' (by decide)) (by simpa using apart '[' (by decide))
      (by simpa using apart '\x7b' (by decide)) read

theorem reads_negative {digits rest : Text} (numeral : Text.IsNumeral digits)
    (short : digits.length ≤ digitLimit) (ends : EndsNumber rest) :
    Reads (.scalar '-' :: (digits ++ rest)) (.int (signedValue true digits)) rest := by
  have read := unsigned_digits numeral short ends true
  cases same : digits with
  | nil => exact absurd same numeral.nonempty
  | cons c more =>
    have digit : c.isDigit := numeral.digits c (by simp [same])
    rw [same, List.cons_append, ← atom_minus digit] at read
    exact reads_atom (by simp) (by simp) (by simp) read

/-! ## Containers -/

theorem reads_emptyArray {s rest : Text} (closed : skipSpace s = .scalar ']' :: rest) :
    Reads (.scalar '[' :: s) (.array []) rest := by
  have less := skipSpace_length s
  rw [closed, List.length_cons] at less
  refine ⟨by simp only [List.length_cons]; omega, ?_⟩
  rw [value]
  split
  · rename_i found
    rw [closed] at found
    cases found
    rfl
  · rename_i other
    exact absurd closed (other rest)

/-- No value opens with a closing bracket. -/
theorem not_readsElements_of_closed {t : Text} {xs : List Json} {rest : Text} :
    ¬ ReadsElements (.scalar ']' :: t) xs rest := by
  rintro ⟨_, found⟩
  have none : value (.scalar ']' :: t) = .error .malformed :=
    value_eq_error (by simp) (by simp) (by simp) rfl
  rw [elements, none] at found
  cases found

theorem reads_array {s rest : Text} {xs : List Json} (read : ReadsElements (skipSpace s) xs rest) :
    Reads (.scalar '[' :: s) (.array xs) rest := by
  have ⟨shorter, found⟩ := read
  have less := skipSpace_length s
  refine ⟨by simp only [List.length_cons]; omega, ?_⟩
  rw [value]
  split
  · rename_i closed
    rw [closed] at read
    exact absurd read not_readsElements_of_closed
  · rw [found]

theorem readsElements_last {t s rest : Text} {x : Json} (read : Reads t x s)
    (closed : skipSpace s = .scalar ']' :: rest) : ReadsElements t [x] rest := by
  obtain ⟨shorter, found⟩ := read
  have less := skipSpace_length s
  rw [closed, List.length_cons] at less
  refine ⟨by omega, ?_⟩
  rw [elements, found]
  simp only
  split
  · rename_i here
    rw [closed] at here
    cases here
    rfl
  · rename_i here
    rw [closed] at here
    cases here
  · rename_i other _
    exact absurd closed (other rest)

theorem readsElements_more {t s next rest : Text} {x : Json} {xs : List Json} (read : Reads t x s)
    (comma : skipSpace s = .scalar ',' :: next) (later : ReadsElements (skipSpace next) xs rest) :
    ReadsElements t (x :: xs) rest := by
  obtain ⟨shorter, found⟩ := read
  obtain ⟨shorter', more⟩ := later
  have less := skipSpace_length s
  have less' := skipSpace_length next
  rw [comma, List.length_cons] at less
  refine ⟨by omega, ?_⟩
  rw [elements, found]
  simp only
  split
  · rename_i here
    rw [comma] at here
    cases here
  · rename_i here
    rw [comma] at here
    cases here
    rw [more]
  · rename_i other
    exact absurd comma (other next)

theorem reads_emptyObject {s rest : Text} (closed : skipSpace s = .scalar '\x7d' :: rest) :
    Reads (.scalar '\x7b' :: s) (.object []) rest := by
  have less := skipSpace_length s
  rw [closed, List.length_cons] at less
  refine ⟨by simp only [List.length_cons]; omega, ?_⟩
  rw [value]
  split
  · rename_i found
    rw [closed] at found
    cases found
    rfl
  · rename_i other
    exact absurd closed (other rest)

/-- No member opens with a closing brace. -/
theorem not_readsMembers_of_closed {t : Text} {ms : List (Text × Json)} {rest : Text} :
    ¬ ReadsMembers (.scalar '\x7d' :: t) ms rest := by
  rintro ⟨_, found⟩
  rw [members.eq_def] at found
  cases found

theorem reads_object {s rest : Text} {ms : List (Text × Json)}
    (read : ReadsMembers (skipSpace s) ms rest) :
    Reads (.scalar '\x7b' :: s) (.object (Table.ofList ms).entries) rest := by
  have ⟨shorter, found⟩ := read
  have less := skipSpace_length s
  refine ⟨by simp only [List.length_cons]; omega, ?_⟩
  rw [value]
  split
  · rename_i closed
    rw [closed] at read
    exact absurd read not_readsMembers_of_closed
  · rw [found]

section
variable {t afterKey s next : Text} {key : Text} {x : Json}
  (name : stringBody? t = some (key, afterKey)) (colon : skipSpace afterKey = .scalar ':' :: s)
  (read : Reads (skipSpace s) x next)
include name colon read

theorem readsMembers_last {rest : Text} (closed : skipSpace next = .scalar '\x7d' :: rest) :
    ReadsMembers (.scalar '"' :: t) [(key, x)] rest := by
  obtain ⟨shorter, found⟩ := read
  have lessKey := stringBody?_length name
  have lessColon := skipSpace_length afterKey
  have lessValue := skipSpace_length s
  have less := skipSpace_length next
  rw [colon, List.length_cons] at lessColon
  rw [closed, List.length_cons] at less
  refine ⟨by rw [List.length_cons]; omega, ?_⟩
  rw [members]
  split
  · rename_i none
    rw [name] at none
    cases none
  · rename_i named
    rw [name] at named
    cases named
    split
    · rename_i here
      rw [colon] at here
      cases here
      simp only [found]
      split
      · rename_i here
        rw [closed] at here
        cases here
        rfl
      · rename_i here
        rw [closed] at here
        cases here
      · rename_i other _
        exact absurd closed (other rest)
    · rename_i other
      exact absurd colon (other s)

theorem readsMembers_more {later rest : Text} {ms : List (Text × Json)}
    (comma : skipSpace next = .scalar ',' :: later) (more : ReadsMembers (skipSpace later) ms rest) :
    ReadsMembers (.scalar '"' :: t) ((key, x) :: ms) rest := by
  obtain ⟨shorter, found⟩ := read
  obtain ⟨shorter', others⟩ := more
  have lessKey := stringBody?_length name
  have lessColon := skipSpace_length afterKey
  have lessValue := skipSpace_length s
  have less := skipSpace_length next
  have lessLater := skipSpace_length later
  rw [colon, List.length_cons] at lessColon
  rw [comma, List.length_cons] at less
  refine ⟨by rw [List.length_cons]; omega, ?_⟩
  rw [members]
  split
  · rename_i none
    rw [name] at none
    cases none
  · rename_i named
    rw [name] at named
    cases named
    split
    · rename_i here
      rw [colon] at here
      cases here
      simp only [found]
      split
      · rename_i here
        rw [comma] at here
        cases here
      · rename_i here
        rw [comma] at here
        cases here
        rw [others]
      · rename_i other
        exact absurd comma (other later)
    · rename_i other
      exact absurd colon (other s)

end

/-! ## Faults -/

/-- The reader stops with a fault before it has read a value. -/
def Fails (fault : IntegerFault) (t : Text) : Prop := value t = .error fault

/-- The reader stops with a fault before it has read elements. -/
def FailsElements (fault : IntegerFault) (t : Text) : Prop := elements t = .error fault

/-- The reader stops with a fault before it has read members. -/
def FailsMembers (fault : IntegerFault) (t : Text) : Prop := members t = .error fault

section
variable {fault : IntegerFault} {t s next : Text} {x : Json}

theorem Fails.elements (failed : Fails fault t) : FailsElements fault t := by
  rw [FailsElements, Json.elements, failed]

theorem FailsElements.more (failed : FailsElements fault (skipSpace next)) (read : Reads t x s)
    (comma : skipSpace s = .scalar ',' :: next) : FailsElements fault t := by
  obtain ⟨shorter, found⟩ := read
  rw [FailsElements, Json.elements, found]
  simp only
  split
  · rename_i here
    rw [comma] at here
    cases here
  · rename_i here
    rw [comma] at here
    cases here
    rw [failed]
  · rename_i other
    exact absurd comma (other next)

theorem FailsElements.array (failed : FailsElements fault (skipSpace s))
    (opens : (skipSpace s).head? ≠ some (.scalar ']')) : Fails fault (.scalar '[' :: s) := by
  rw [Fails, value]
  split
  · rename_i closed
    simp [closed] at opens
  · rw [failed]

theorem FailsMembers.object (failed : FailsMembers fault (skipSpace s))
    (opens : (skipSpace s).head? ≠ some (.scalar '\x7d')) : Fails fault (.scalar '\x7b' :: s) := by
  rw [Fails, value]
  split
  · rename_i closed
    simp [closed] at opens
  · rw [failed]

variable {afterKey name : Text} (named : stringBody? t = some (name, afterKey))
  (colon : skipSpace afterKey = .scalar ':' :: s)
include named colon

theorem Fails.members (failed : Fails fault (skipSpace s)) : FailsMembers fault (.scalar '"' :: t) := by
  rw [FailsMembers, Json.members]
  split
  · rename_i none
    rw [named] at none
    cases none
  · rename_i found
    rw [named] at found
    cases found
    split
    · rename_i here
      rw [colon] at here
      cases here
      rw [failed]
    · rename_i other
      exact absurd colon (other s)

theorem FailsMembers.more {behind : Text} (failed : FailsMembers fault (skipSpace next))
    (read : Reads (skipSpace s) x behind) (comma : skipSpace behind = .scalar ',' :: next) :
    FailsMembers fault (.scalar '"' :: t) := by
  obtain ⟨shorter, value⟩ := read
  rw [FailsMembers, Json.members]
  split
  · rename_i none
    rw [named] at none
    cases none
  · rename_i found
    rw [named] at found
    cases found
    split
    · rename_i here
      rw [colon] at here
      cases here
      simp only [value]
      split
      · rename_i here
        rw [comma] at here
        cases here
      · rename_i here
        rw [comma] at here
        cases here
        rw [failed]
      · rename_i other
        exact absurd comma (other next)
    · rename_i other
      exact absurd colon (other s)

end

/-! ## Openings -/

/-- No value opens with a space. -/
theorem Reads.opening {t rest : Text} {x : Json} (read : Reads t x rest) : skipSpace t = t := by
  cases t with
  | nil => rfl
  | cons c t =>
    cases space : isSpace c with
    | false => exact skipSpace_cons space t
    | true =>
      obtain ⟨_, found⟩ := read
      simp only [isSpace, Bool.or_eq_true, beq_iff_eq] at space
      have refused : value (c :: t) = .error .malformed := by
        rcases space with ((rfl | rfl) | rfl) | rfl <;>
          exact value_eq_error (by simp) (by simp) (by simp) rfl
      rw [refused] at found
      cases found

/-- No elements open with a space. -/
theorem ReadsElements.opening {t rest : Text} {xs : List Json} (read : ReadsElements t xs rest) :
    skipSpace t = t := by
  obtain ⟨_, found⟩ := read
  rw [elements] at found
  split at found
  · cases found
  · rename_i x s shorter first
    exact Reads.opening ⟨shorter, first⟩

/-- No members open with a space. -/
theorem ReadsMembers.opening {t rest : Text} {ms : List (Text × Json)}
    (read : ReadsMembers t ms rest) : skipSpace t = t := by
  obtain ⟨_, found⟩ := read
  rw [members.eq_def] at found
  split at found
  · exact skipSpace_cons (by decide) _
  · cases found

/-! ## Documents -/

theorem Fails.read {fault : IntegerFault} {t : Text} (failed : Fails fault (skipSpace t)) :
    read t = .error fault := by
  rw [Json.read, failed]

theorem read_eq_ok {t rest : Text} {x : Json} (found : Reads (skipSpace t) x rest)
    (spaces : ∀ c ∈ rest, isSpace c) : read t = .ok x := by
  obtain ⟨_, found⟩ := found
  rw [read, found]
  simp [skipSpace_eq_nil spaces]

end ModuleAtlas.Json
