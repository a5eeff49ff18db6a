import ModuleAtlas.Json.Printer
import ModuleAtlas.Proofs.Json.Integral
import ModuleAtlas.Proofs.Json.Reader
import ModuleAtlas.Proofs.Table
/-!
Printed documents. Whatever the layout, what is printed for a value whose numbers are integers is
read as this value again (`read_text`), and has characters of the basic alphabet only (`isBasic_text`).
-/
namespace ModuleAtlas.Json
open Number (digitLimit)

/-! ## Strings -/

theorem hex4?_paddedHex {n : Nat} (small : n < 0x10000) :
    ∃ a b c d, Text.paddedHex 4 n = [a, b, c, d] ∧ hex4? a b c d = some n := by
  refine ⟨_, _, _, _, Text.paddedHex_four small, ?_⟩
  have first : n / 4096 < 16 := by omega
  have second : n / 256 % 16 < 16 := Nat.mod_lt _ (by decide)
  have third : n / 16 % 16 < 16 := Nat.mod_lt _ (by decide)
  have last : n % 16 < 16 := Nat.mod_lt _ (by decide)
  simp only [hex4?, Text.hexDigit?_digitChar, first, second, third, last, Option.bind_some,
    Option.map_some, Option.some.injEq]
  omega

theorem stringUnits?_unitEscape {n : Nat} (small : n < 0x10000) (t : Text) :
    stringUnits? (unitEscape n ++ t) =
      (stringUnits? t).map fun (units, rest) => (.ofCode n :: units, rest) := by
  obtain ⟨a, b, c, d, written, digits⟩ := hex4?_paddedHex small
  rw [unitEscape, written]
  exact stringUnits?_code digits t

/-- The units in which a character is written. -/
def unitsOf (c : CodePoint) : List StringUnit :=
  if c.toNat < 0x10000 then [.point c]
  else [.ofCode (0xD800 + (c.toNat - 0x10000) / 0x400), .ofCode (0xDC00 + (c.toNat - 0x10000) % 0x400)]

theorem ofCode_toNat {c : CodePoint} (scalar : c.isSurrogate = false) :
    StringUnit.ofCode c.toNat = .point c := by
  rw [StringUnit.ofCode, CodePoint.ofNat_toNat]
  cases c with
  | scalar => rfl
  | surrogate => cases scalar

theorem ofCode_surrogate (index : Fin 0x800) : StringUnit.ofCode (0xD800 + index) = .half index := by
  have same : CodePoint.ofNat (0xD800 + index) = .surrogate index :=
    CodePoint.ofNat_toNat (.surrogate index)
  rw [StringUnit.ofCode, same]

/-- What is written for a character is read as its units. -/
theorem stringUnits?_escape {c : CodePoint} (scalar : c.isSurrogate = false) (t : Text) :
    stringUnits? (escape c ++ t) =
      (stringUnits? t).map fun (units, rest) => (unitsOf c ++ units, rest) := by
  have short : ∀ letter, shortEscape? letter = some c → c.toNat < 0x10000 →
      stringUnits? ([.scalar '\\', letter] ++ t) =
        (stringUnits? t).map fun (units, rest) => (unitsOf c ++ units, rest) := by
    intro letter known small
    rw [unitsOf, if_pos small]
    exact stringUnits?_short known t
  rw [escape]
  split
  · subst_vars
    exact short '"' rfl (by decide)
  split
  · subst_vars
    exact short '\\' rfl (by decide)
  split
  · subst_vars
    exact short 'n' rfl (by decide)
  split
  · subst_vars
    exact short 'r' rfl (by decide)
  split
  · subst_vars
    exact short 't' rfl (by decide)
  split
  · rename_i backspace
    have same : CodePoint.ofNat 8 = c := by rw [← backspace, CodePoint.ofNat_toNat]
    exact short 'b' (by rw [← same]; rfl) (by omega)
  split
  · rename_i feed
    have same : CodePoint.ofNat 12 = c := by rw [← feed, CodePoint.ofNat_toNat]
    exact short 'f' (by rw [← same]; rfl) (by omega)
  split
  · rename_i noQuote noEscape _ _ _ _ _ printable
    rw [unitsOf, if_pos (by omega)]
    exact stringUnits?_plain printable.1 noQuote noEscape t
  split
  · rename_i small
    rw [unitsOf, if_pos small, stringUnits?_unitEscape small, ofCode_toNat scalar]
    rfl
  · rename_i beyond
    have bound := c.toNat_lt
    rw [unitsOf, if_neg beyond, List.append_assoc, stringUnits?_unitEscape (by omega),
      stringUnits?_unitEscape (by omega), Option.map_map]
    rfl

/-- The two halves of a character beyond the first 65536 are this character. -/
theorem joined_unitsOf_append (c : CodePoint) (units : List StringUnit) :
    StringUnit.joined (unitsOf c ++ units) = c :: StringUnit.joined units := by
  rw [unitsOf]
  split
  · rfl
  · rename_i beyond
    have bound := c.toNat_lt
    have high := ofCode_surrogate ⟨(c.toNat - 0x10000) / 0x400, by omega⟩
    have low := ofCode_surrogate ⟨0x400 + (c.toNat - 0x10000) % 0x400, by omega⟩
    rw [← Nat.add_assoc] at low
    rw [high, low, List.cons_append, List.cons_append, List.nil_append, StringUnit.joined,
      if_pos ⟨by simp [Fin.lt_def]; omega, by simp [Fin.le_def]⟩]
    have whole : 0x10000 + (c.toNat - 0x10000) / 0x400 * 0x400 +
        (0x400 + (c.toNat - 0x10000) % 0x400 - 0x400)
      = c.toNat := by omega
    simp only [whole, CodePoint.ofNat_toNat]

theorem joined_unitsOf (t : Text) : StringUnit.joined (t.flatMap unitsOf) = t := by
  induction t with
  | nil => rfl
  | cons c t ih => rw [List.flatMap_cons, joined_unitsOf_append, ih]

/-- A printed string without surrogates is read as the text it has been printed for. -/
theorem stringBody?_stringText {t : Text} (scalar : t.IsScalar) (rest : Text) :
    stringBody? (t.flatMap escape ++ .scalar '"' :: rest) = some (t, rest) := by
  have units : stringUnits? (t.flatMap escape ++ .scalar '"' :: rest) =
      some (t.flatMap unitsOf, rest) := by
    induction t with
    | nil => rfl
    | cons c t ih =>
      obtain ⟨here, later⟩ := List.forall_mem_cons.1 scalar
      rw [List.flatMap_cons, List.append_assoc, stringUnits?_escape here, ih later, List.flatMap_cons]
      rfl
  simp only [stringBody?, units, Option.map_some, joined_unitsOf]

/-! ## Layouts -/

theorem lead_spaces (layout : Layout) (depth : Nat) : ∀ c ∈ layout.lead depth, isSpace c := by
  intro c inside
  cases layout with
  | line => simp [Layout.lead] at inside
  | indented width =>
    rcases List.mem_cons.1 inside with rfl | blank
    · rfl
    · rw [List.eq_of_mem_replicate blank]
      rfl

/-- A comma is followed by nothing but spaces. -/
theorem comma_eq (layout : Layout) (depth : Nat) :
    ∃ blank, layout.comma depth = .scalar ',' :: blank ∧ ∀ c ∈ blank, isSpace c := by
  cases layout with
  | line => exact ⟨[' '], rfl, by simp [isSpace]⟩
  | indented width => exact ⟨_, rfl, lead_spaces (.indented width) depth⟩

/-! ## Values -/

section
variable {layout : Layout} {depth : Nat}

theorem reads_int {n : Int} (short : (Text.ofNat n.natAbs).length ≤ digitLimit) {rest : Text}
    (ends : EndsNumber rest) : Reads (Text.ofInt n ++ rest) (.int n) rest := by
  have numeral := Text.isNumeral_ofNat n.natAbs
  cases n with
  | ofNat n =>
    have read := reads_unsigned numeral short ends
    rw [signedValue, Double.signed, if_neg (by decide), Number.decimalValue_ofNat] at read
    exact read
  | negSucc n =>
    have read := reads_negative numeral short ends
    rw [signedValue, Double.signed, if_pos rfl, Number.decimalValue_ofNat] at read
    exact read

/-- What follows a printed element does not belong to a number in it. -/
theorem endsNumber_renderElements (layout : Layout) (depth : Nat) (xs : List Json) {tail : Text}
    (ends : EndsNumber tail) : EndsNumber (renderElements layout depth xs ++ tail) := by
  cases xs with
  | nil => exact ends
  | cons x xs =>
    obtain ⟨blank, comma, -⟩ := comma_eq layout depth
    rw [renderElements, comma]
    exact endsNumber_cons (by decide)

theorem endsNumber_renderMembers (layout : Layout) (depth : Nat) (ms : List (Text × Json))
    {tail : Text} (ends : EndsNumber tail) : EndsNumber (renderMembers layout depth ms ++ tail) := by
  cases ms with
  | nil => exact ends
  | cons m ms =>
    obtain ⟨blank, comma, -⟩ := comma_eq layout depth
    rw [renderMembers, comma]
    exact endsNumber_cons (by decide)

/-- Elements are read if each of them is. -/
theorem readsElements_render {xs : List Json} {tail rest : Text}
    (each : ∀ x ∈ xs, ∀ rest, EndsNumber rest → Reads (render layout depth x ++ rest) x rest)
    (ends : EndsNumber tail) (closed : skipSpace tail = .scalar ']' :: rest) {x : Json} {t : Text}
    (read : Reads t x (renderElements layout depth xs ++ tail)) :
    ReadsElements t (x :: xs) rest := by
  induction xs generalizing x t with
  | nil => exact readsElements_last read closed
  | cons y xs ih =>
    obtain ⟨blank, comma, spaces⟩ := comma_eq layout depth
    have next := each y (by simp) _ (endsNumber_renderElements layout depth xs ends)
    have later := ih (fun x inside => each x (by simp [inside])) next
    simp only [renderElements, comma, List.append_assoc, List.cons_append] at read
    refine readsElements_more read (skipSpace_cons (by decide) _) ?_
    rwa [skipSpace_append spaces, later.opening]

/-- A key is read off its member, and the blank before the value. -/
theorem reads_key {key : Text} (scalar : key.IsScalar) {t : Text} {x : Json} {rest : Text}
    (read : Reads t x rest) :
    ∃ s, stringBody? (key.flatMap escape ++ .scalar '"' :: .scalar ':' :: .scalar ' ' :: t) =
      some (key, .scalar ':' :: .scalar ' ' :: t) ∧
      skipSpace (.scalar ':' :: .scalar ' ' :: t) = .scalar ':' :: s ∧ Reads (skipSpace s) x rest := by
  refine ⟨.scalar ' ' :: t, stringBody?_stringText scalar _, skipSpace_cons (by decide) _, ?_⟩
  have blank : skipSpace ([.scalar ' '] ++ t) = skipSpace t :=
    skipSpace_append (by simp [isSpace]) t
  rwa [← List.singleton_append, blank, read.opening]

/-- Members are read if the value of each of them is. -/
theorem readsMembers_render {ms : List (Text × Json)} {tail rest : Text}
    (each : ∀ m ∈ ms, m.1.IsScalar ∧
      ∀ rest, EndsNumber rest → Reads (render layout depth m.2 ++ rest) m.2 rest)
    (ends : EndsNumber tail) (closed : skipSpace tail = .scalar '\x7d' :: rest) {key : Text}
    (scalar : key.IsScalar) {x : Json} {t : Text}
    (read : Reads t x (renderMembers layout depth ms ++ tail)) :
    ReadsMembers (stringText key ++ .scalar ':' :: .scalar ' ' :: t) ((key, x) :: ms) rest := by
  induction ms generalizing key x t with
  | nil =>
    obtain ⟨s, name, colon, body⟩ := reads_key scalar read
    simpa [stringText] using readsMembers_last name colon body closed
  | cons m ms ih =>
    obtain ⟨other, y⟩ := m
    obtain ⟨blank, comma, spaces⟩ := comma_eq layout depth
    obtain ⟨named, here⟩ := each (other, y) (by simp)
    have next := here _ (endsNumber_renderMembers layout depth ms ends)
    have later := ih (fun m inside => each m (by simp [inside])) named next
    simp only [renderMembers, comma, List.append_assoc, List.cons_append, List.nil_append] at read
    obtain ⟨s, name, colon, body⟩ := reads_key scalar read
    have all := readsMembers_more name colon body (skipSpace_cons (by decide) _)
      (by rwa [skipSpace_append spaces, later.opening])
    simpa [stringText] using all

/-- The blank in front of a closing bracket is passed over. -/
theorem skipSpace_lead (layout : Layout) (depth : Nat) {c : CodePoint} (noSpace : isSpace c = false)
    (rest : Text) : skipSpace (layout.lead depth ++ c :: rest) = c :: rest := by
  rw [skipSpace_append (lead_spaces layout depth), skipSpace_cons noSpace]

theorem endsNumber_lead (layout : Layout) (depth : Nat) {c : CodePoint} {rest : Text}
    (other : c.isDigit = false ∧ c ≠ '.' ∧ c ≠ 'e' ∧ c ≠ 'E') :
    EndsNumber (layout.lead depth ++ c :: rest) :=
  endsNumber_append (lead_spaces layout depth) (endsNumber_cons other)

/-- A printed array is read if each of its elements is. -/
theorem reads_array_render {xs : List Json} (each : ∀ x ∈ xs, ∀ rest, EndsNumber rest →
      Reads (render layout (depth + 1) x ++ rest) x rest) (rest : Text) :
    Reads (render layout depth (.array xs) ++ rest) (.array xs) rest := by
  cases xs with
  | nil => exact reads_emptyArray (skipSpace_cons (by decide) rest)
  | cons x xs =>
    obtain ⟨here, later⟩ := List.forall_mem_cons.1 each
    have tail : EndsNumber (layout.lead depth ++ .scalar ']' :: rest) := endsNumber_lead _ _ (by decide)
    have closed := skipSpace_lead layout depth (show isSpace ']' = false by decide) rest
    have first := here _ (endsNumber_renderElements layout (depth + 1) xs tail)
    have all := readsElements_render later tail closed first
    rw [← all.opening, ← skipSpace_append (lead_spaces layout (depth + 1))] at all
    simpa [render] using reads_array all

/-- A printed object is read if each of its values is and no key is that of two members. -/
theorem reads_object_render {ms : List (Text × Json)} (distinct : (ms.map Prod.fst).Nodup)
    (each : ∀ m ∈ ms, m.1.IsScalar ∧ ∀ rest, EndsNumber rest →
      Reads (render layout (depth + 1) m.2 ++ rest) m.2 rest) (rest : Text) :
    Reads (render layout depth (.object ms) ++ rest) (.object ms) rest := by
  cases ms with
  | nil => exact reads_emptyObject (skipSpace_cons (by decide) rest)
  | cons m ms =>
    obtain ⟨key, x⟩ := m
    obtain ⟨⟨named, here⟩, later⟩ := List.forall_mem_cons.1 each
    have tail : EndsNumber (layout.lead depth ++ .scalar '\x7d' :: rest) :=
      endsNumber_lead _ _ (by decide)
    have closed := skipSpace_lead layout depth (show isSpace '\x7d' = false by decide) rest
    have first := here _ (endsNumber_renderMembers layout (depth + 1) ms tail)
    have all := readsMembers_render later tail closed named first
    rw [← all.opening, ← skipSpace_append (lead_spaces layout (depth + 1))] at all
    have read := reads_object all
    rw [Table.entries_ofList distinct] at read
    simpa [render] using read

end

/-- A printed value is read as this value, whatever the layout and wherever it stands. -/
theorem reads_render (layout : Layout) {x : Json} (integral : IsIntegral x) :
    ∀ depth rest, EndsNumber rest → Reads (render layout depth x ++ rest) x rest := by
  induction x using induction_on with
  | null => exact fun _ rest _ => reads_null rest
  | bool b =>
    cases b with
    | true => exact fun _ rest _ => reads_true rest
    | false => exact fun _ rest _ => reads_false rest
  | int n => exact fun _ rest ends => reads_int integral ends
  | double d => exact absurd integral (by simp [IsIntegral])
  | string t =>
    intro depth rest _
    simpa [render, stringText] using reads_string (stringBody?_stringText integral rest)
  | array xs ih =>
    rw [isIntegral_array] at integral
    intro depth rest _
    exact reads_array_render (fun x inside => ih x inside (integral x inside) (depth + 1)) rest
  | object ms ih =>
    obtain ⟨distinct, integral⟩ := isIntegral_object.1 integral
    intro depth rest _
    exact reads_object_render distinct (fun m inside =>
      ⟨(integral m inside).1, ih m inside (integral m inside).2 (depth + 1)⟩) rest

/-- What is printed for a value whose numbers are integers is read as this value. -/
theorem read_text {x : Json} (integral : IsIntegral x) (layout : Layout) :
    read (x.text layout) = .ok x := by
  have found := reads_render layout integral 0 [] endsNumber_nil
  rw [List.append_nil] at found
  exact read_eq_ok (by rw [text, found.opening]; exact found) (by simp)

/-! ## Characters -/

/-- All characters are of the basic alphabet. -/
def IsBasic (t : Text) : Prop := ∀ c ∈ t, c.toNat < 128

theorem IsBasic.isScalar {t : Text} (basic : IsBasic t) : t.IsScalar := by
  intro c inside
  have low := basic c inside
  cases c with
  | scalar c => rfl
  | surrogate index => simp only [CodePoint.toNat] at low; omega

@[simp] theorem isBasic_append {s t : Text} : IsBasic (s ++ t) ↔ IsBasic s ∧ IsBasic t := by
  simp only [IsBasic, List.forall_mem_append]

@[simp] theorem isBasic_cons {c : CodePoint} {t : Text} :
    IsBasic (c :: t) ↔ c.toNat < 128 ∧ IsBasic t := by
  simp only [IsBasic, List.forall_mem_cons]

@[simp] theorem isBasic_nil : IsBasic [] := by simp [IsBasic]

theorem isBasic_of_spaces {t : Text} (spaces : ∀ c ∈ t, isSpace c) : IsBasic t := by
  intro c inside
  have space := spaces c inside
  simp only [isSpace, Bool.or_eq_true, beq_iff_eq] at space
  rcases space with ((rfl | rfl) | rfl) | rfl <;> decide

theorem isBasic_unitEscape {n : Nat} (small : n < 0x10000) : IsBasic (unitEscape n) := by
  have digit : ∀ n < 16, (Nat.digitChar n).toNat < 128 := by decide
  rw [unitEscape, Text.paddedHex_four small]
  simp only [isBasic_cons, isBasic_nil, and_true]
  exact ⟨by decide, by decide, digit _ (by omega), digit _ (by omega), digit _ (by omega),
    digit _ (by omega)⟩

theorem isBasic_escape (c : CodePoint) : IsBasic (escape c) := by
  have bound := c.toNat_lt
  unfold escape
  repeat' split
  · simp
  · simp
  · simp
  · simp
  · simp
  · simp
  · simp
  · simp only [isBasic_cons, isBasic_nil, and_true]
    omega
  · rename_i small
    exact isBasic_unitEscape small
  · exact isBasic_append.2 ⟨isBasic_unitEscape (by omega), isBasic_unitEscape (by omega)⟩

theorem isBasic_stringText (t : Text) : IsBasic (stringText t) := by
  have body : IsBasic (t.flatMap escape) := by
    intro c inside
    obtain ⟨d, -, here⟩ := List.mem_flatMap.1 inside
    exact isBasic_escape d c here
  simp [stringText, body]

theorem isBasic_ofNat (n : Nat) : IsBasic (Text.ofNat n) := by
  intro c inside
  have bounds := Text.isDigit_iff.1 ((Text.isNumeral_ofNat n).digits c inside)
  omega

theorem isBasic_ofInt (n : Int) : IsBasic (Text.ofInt n) := by
  cases n with
  | ofNat n => exact isBasic_ofNat n
  | negSucc n => exact isBasic_cons.2 ⟨by decide, isBasic_ofNat (n + 1)⟩

theorem isBasic_take (n : Nat) {t : Text} (basic : IsBasic t) : IsBasic (t.take n) :=
  fun c inside => basic c (List.mem_of_mem_take inside)

theorem isBasic_drop (n : Nat) {t : Text} (basic : IsBasic t) : IsBasic (t.drop n) :=
  fun c inside => basic c (List.mem_of_mem_drop inside)

theorem isBasic_replicate (n : Nat) {c : CodePoint} (basic : c.toNat < 128) :
    IsBasic (List.replicate n c) := fun _ inside => List.eq_of_mem_replicate inside ▸ basic

theorem isBasic_withoutZeros (n : Nat) : IsBasic (Double.withoutZeros (Text.ofNat n)).1 := by
  intro c inside
  rw [Double.withoutZeros, Text.trimEndWhile, List.mem_reverse] at inside
  exact isBasic_ofNat n c (List.mem_reverse.1 ((List.dropWhile_sublist _).subset inside))

theorem isBasic_positiveText (mantissa : Nat) (exponent : Int) :
    IsBasic (Double.positiveText mantissa exponent) := by
  have zeros (n : Nat) : IsBasic (List.replicate n (CodePoint.scalar '0')) :=
    isBasic_replicate n (by decide)
  have shown (n : Nat) : IsBasic (Text.padded 2 n) := isBasic_append.2 ⟨zeros _, isBasic_ofNat n⟩
  have digits := isBasic_withoutZeros (Double.shortestDigits mantissa exponent).1
  have front (n : Nat) := isBasic_take n digits
  have rest (n : Nat) := isBasic_drop n digits
  simp only [Double.positiveText]
  split
  · split
    · simp [zeros, digits]
    split
    · simp [zeros, digits]
    · simp [front, rest]
  · refine isBasic_append.2 ⟨?_, isBasic_cons.2 ⟨by decide, isBasic_cons.2 ⟨?_, shown _⟩⟩⟩
    · split
      · exact digits
      · exact isBasic_append.2 ⟨front 1, isBasic_cons.2 ⟨by decide, rest 1⟩⟩
    · split <;> decide

theorem isBasic_double (d : Double) {nanWord infiniteWord : Text} (nan : IsBasic nanWord)
    (infinite : IsBasic infiniteWord) : IsBasic (d.text nanWord infiniteWord) := by
  cases d with
  | nan => exact nan
  | infinite negative => cases negative <;> simp [Double.text, infinite]
  | finite negative mantissa exponent =>
    rw [Double.text, Double.finiteText, isBasic_append]
    refine ⟨by cases negative <;> simp, ?_⟩
    split
    · simp
    · exact isBasic_positiveText mantissa exponent

theorem isBasic_comma (layout : Layout) (depth : Nat) : IsBasic (layout.comma depth) := by
  obtain ⟨blank, comma, spaces⟩ := comma_eq layout depth
  rw [comma, isBasic_cons]
  exact ⟨by decide, isBasic_of_spaces spaces⟩

/-- A printed value has characters of the basic alphabet only, whatever it is. -/
theorem isBasic_render (layout : Layout) (x : Json) (depth : Nat) :
    IsBasic (render layout depth x) := by
  have leads : ∀ depth, IsBasic (layout.lead depth) := fun depth =>
    isBasic_of_spaces (lead_spaces layout depth)
  induction x using induction_on generalizing depth with
  | null => simp [render]
  | bool b => cases b <;> simp [render]
  | int n => exact isBasic_ofInt n
  | double d => exact isBasic_double d (by simp) (by simp)
  | string t => exact isBasic_stringText t
  | array xs ih =>
    have all : ∀ ys ⊆ xs, IsBasic (renderElements layout (depth + 1) ys) := by
      intro ys among
      induction ys with
      | nil => simp [renderElements]
      | cons y ys more =>
        obtain ⟨here, later⟩ := List.cons_subset.1 among
        simp [renderElements, isBasic_comma, ih y here, more later]
    cases xs with
    | nil => simp [render]
    | cons x xs =>
      simp [render, leads, ih x (by simp), all xs (List.subset_cons_self x xs)]
  | object ms ih =>
    have all : ∀ ns ⊆ ms, IsBasic (renderMembers layout (depth + 1) ns) := by
      intro ns among
      induction ns with
      | nil => simp [renderMembers]
      | cons n ns more =>
        obtain ⟨here, later⟩ := List.cons_subset.1 among
        have value := ih n here (depth + 1)
        simp [renderMembers, isBasic_comma, isBasic_stringText, value, more later]
    cases ms with
    | nil => simp [render]
    | cons m ms =>
      have value := ih m (by simp) (depth + 1)
      simp [render, leads, isBasic_stringText, value, all ms (List.subset_cons_self m ms)]

theorem isBasic_text (x : Json) (layout : Layout) : IsBasic (x.text layout) :=
  isBasic_render layout x 0

end ModuleAtlas.Json
