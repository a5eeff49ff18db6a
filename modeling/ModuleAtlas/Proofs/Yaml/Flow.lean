import ModuleAtlas.Proofs.Yaml.Scalar
import ModuleAtlas.Yaml.Token
/-!
The scanner of YAML inside flow collections. It passes over a text from one state to another
(`Passes`), a sign or a scalar at a time, and what it knows there stays of one kind (`Inside`): in a
flow collection no possible key has to be one, and indentation counts for nothing.
-/
namespace ModuleAtlas.Yaml
open Json (Piece)

/-- The scanner is so many flow collections deep in a document that began with one, and has found
the tokens, of which the last is the first here. -/
structure Inside (s : Scan) (depth : Nat) (tokens : List Token) : Prop where
  tokens : s.tokens = tokens
  depth : s.outerKeys.length = depth
  free : ∀ k, some k ∈ s.keyStart :: s.outerKeys → k.required = false
  flat : s.indents = []

/-- From one state the scanner goes over the text, in front of the rest, to another state. -/
structure Passes (s : Scan) (p : Place) (t rest : Text) (s' : Scan) : Prop where
  allowed : ∀ c ∈ t, isAllowed c = true
  runs : ∃ count ≤ t.length, ∀ fuel,
    tokensFrom (fuel + count) s (p.spots (t ++ rest)) = tokensFrom fuel s' ((p.behind t).spots rest)

theorem Passes.nil (s : Scan) (p : Place) (rest : Text) : Passes s p [] rest s :=
  ⟨by simp, 0, Nat.le_refl _, fun _ => rfl⟩

theorem Passes.append {s s' s'' : Scan} {p : Place} {t t' rest : Text}
    (first : Passes s p t (t' ++ rest) s') (second : Passes s' (p.behind t) t' rest s'') :
    Passes s p (t ++ t') rest s'' := by
  obtain ⟨allowed, m, few, passed⟩ := first
  obtain ⟨admitted, n, fewer, passes⟩ := second
  refine ⟨List.forall_mem_append.2 ⟨allowed, admitted⟩, n + m, ?_, fun fuel => ?_⟩
  · rw [List.length_append]
    omega
  · rw [List.append_assoc, ← Nat.add_assoc, passed, passes, Place.behind_append]

theorem Passes.cons {s s' s'' : Scan} {p : Place} {c : CodePoint} {t rest : Text}
    (first : Passes s p [c] (t ++ rest) s') (second : Passes s' (p.next c) t rest s'') :
    Passes s p (c :: t) rest s'' :=
  first.append second

section
variable {s : Scan} {depth : Nat} {tokens : List Token}

theorem Inside.inFlow (inside : Inside s (depth + 1) tokens) : s.inFlow = true := by
  have length := inside.depth
  cases keys : s.outerKeys with
  | nil => simp [keys] at length
  | cons k ks => simp [Scan.inFlow, keys]

theorem Inside.unwind (inside : Inside s (depth + 1) tokens) (column : Int) :
    s.unwind column = s := by
  rw [Scan.unwind, if_pos inside.inFlow]

/-! ## Possible keys -/

/-- Without the possible keys that are stale at a place. -/
def Scan.fresh (here : Spot) (s : Scan) : Scan :=
  { s with
    keyStart := s.keyStart.filter (!Scan.isStale here ·)
    outerKeys := s.outerKeys.map (·.filter (!Scan.isStale here ·)) }

theorem refresh_eq {k : Option KeyStart} (free : ∀ start, k = some start → start.required = false)
    (here : Spot) : Scan.refresh here k = .ok (k.filter (!Scan.isStale here ·)) := by
  cases k with
  | none => rfl
  | some start =>
    cases stale : Scan.isStale here start <;>
      simp [Scan.refresh, Option.filter, stale, free start rfl]

theorem mapM_refresh_eq {ks : List (Option KeyStart)}
    (free : ∀ start, some start ∈ ks → start.required = false) (here : Spot) :
    ks.mapM (Scan.refresh here) = .ok (ks.map (·.filter (!Scan.isStale here ·))) := by
  induction ks with
  | nil => rfl
  | cons k ks ih =>
    rw [List.mapM_cons, refresh_eq fun start same => free start (by simp [same]),
      ih fun start later => free start (by simp [later])]
    rfl

theorem Inside.dropStale (inside : Inside s depth tokens) (here : Spot) :
    s.dropStale here = .ok (s.fresh here) := by
  rw [Scan.dropStale, refresh_eq fun start same => inside.free start (by simp [same]),
    mapM_refresh_eq fun start later => inside.free start (by simp [later])]
  rfl

theorem Inside.fresh (inside : Inside s depth tokens) (here : Spot) :
    Inside (s.fresh here) depth tokens := by
  refine ⟨inside.tokens, by simp [Scan.fresh, inside.depth], ?_, inside.flat⟩
  intro k among
  refine inside.free k ?_
  simp only [Scan.fresh, List.mem_cons, List.mem_map] at among ⊢
  rcases among with first | ⟨other, there, same⟩
  · exact .inl (Option.filter_eq_some_iff.1 first.symm).1.symm
  · exact .inr ((Option.filter_eq_some_iff.1 same).1 ▸ there)

theorem Inside.dropKey (inside : Inside s depth tokens) :
    s.dropKey = .ok { s with keyStart := none } := by
  cases key : s.keyStart with
  | none =>
    rw [Scan.dropKey, key]
    simp [← key]
  | some k => simp [Scan.dropKey, key, inside.free k (by simp [key])]

/-! ## One token -/

/-- The character neither stands between tokens nor begins a comment. -/
def IsVisible (c : CodePoint) : Prop := isBreak c = false ∧ c ≠ ' ' ∧ c ≠ '#'

instance (c : CodePoint) : Decidable (IsVisible c) := inferInstanceAs (Decidable (_ ∧ _))

theorem skipToToken_visible {c : CodePoint} (visible : IsVisible c) (p : Place) (t : Text) :
    skipToToken false (p.spots (c :: t)) = (false, p.spots (c :: t)) := by
  simp [skipToToken, visible.1, visible.2.1, visible.2.2]

/-- Blanks between the tokens of a flow collection do not matter. -/
theorem tokensFrom_gap {blank : Text} (gap : IsGap blank) (flow : s.inFlow = true) (p : Place)
    (rest : Text) (fuel : Nat) : tokensFrom fuel s (p.spots (blank ++ rest)) =
      tokensFrom fuel s ((p.behind blank).spots rest) := by
  have skipped : ∀ p : Place, (skipToToken false (p.spots (blank ++ rest))).2 =
      (skipToToken false ((p.behind blank).spots rest)).2 := by
    induction blank with
    | nil => exact fun _ => rfl
    | cons c blank ih =>
      intro p
      have later := ih (fun d among => gap d (by simp [among])) (p.next c)
      rcases gap c (by simp) with rfl | rfl <;>
        simpa [skipToToken, isBreak] using later
  cases fuel with
  | zero => rfl
  | succ fuel =>
    simp only [tokensFrom, flow, Bool.not_true, Bool.and_false, skipped p]

theorem passes_gap {blank : Text} (gap : IsGap blank) (flow : s.inFlow = true) (p : Place)
    (rest : Text) : Passes s p blank rest s := by
  refine ⟨fun c among => ?_, 0, Nat.zero_le _, tokensFrom_gap gap flow p rest⟩
  rcases gap c among with rfl | rfl <;> decide

theorem Inside.tokensFrom (inside : Inside s (depth + 1) tokens) {c : CodePoint} (visible : IsVisible c)
    {p : Place} {t : Text} {s' : Scan} {rest : Spots}
    (token : tokenAt (s.fresh (p.spot c)) (p.spot c) ((p.next c).spots t) = .ok (s', rest))
    (fuel : Nat) : Yaml.tokensFrom (fuel + 1) s (p.spots (c :: t)) = Yaml.tokensFrom fuel s' rest := by
  have still := (inside.fresh (p.spot c)).unwind p.column
  rw [Yaml.tokensFrom, skipToToken_visible visible]
  simp [inside.dropStale, still, token]

/-- A token that begins with a character and goes on with the text behind it. -/
theorem Inside.passes (inside : Inside s (depth + 1) tokens) {c : CodePoint} (visible : IsVisible c)
    {p : Place} {t rest : Text} {s' : Scan} (allowed : ∀ d ∈ c :: t, isAllowed d = true)
    (token : tokenAt (s.fresh (p.spot c)) (p.spot c) ((p.next c).spots (t ++ rest)) =
      .ok (s', ((p.next c).behind t).spots rest)) : Passes s p (c :: t) rest s' :=
  ⟨allowed, 1, by simp, inside.tokensFrom visible token⟩

/-- A token of one character. -/
theorem Inside.passes_sign (inside : Inside s (depth + 1) tokens) {c : CodePoint} {p : Place}
    {rest : Text}
    {s' : Scan} (visible : IsVisible c ∧ isAllowed c = true)
    (token : tokenAt (s.fresh (p.spot c)) (p.spot c) ((p.next c).spots rest) =
      .ok (s', (p.next c).spots rest)) : Passes s p [c] rest s' :=
  inside.passes visible.1 (by simpa using visible.2) token

/-- Where a key may begin, one does; in a flow collection it need not be one. -/
theorem Inside.markKey (inside : Inside s (depth + 1) tokens) (here : Spot) :
    ∃ s', s.markKey here = .ok s' ∧ Inside s' (depth + 1) tokens ∧
      (s.mayBeKey = true → s'.keyStart = some ⟨tokens.length, false, here⟩) := by
  cases may : s.mayBeKey with
  | false => exact ⟨s, by simp [Scan.markKey, may], inside, by simp⟩
  | true =>
    have flow := inside.inFlow
    refine ⟨{ s with keyStart := some ⟨tokens.length, false, here⟩ }, ?_, ?_, fun _ => rfl⟩
    · have around : s.outerKeys ≠ [] := by simpa [Scan.inFlow] using flow
      simp [Scan.markKey, Scan.inFlow, may, inside.dropKey, Except.map, around, inside.tokens]
    · refine ⟨inside.tokens, inside.depth, ?_, inside.flat⟩
      intro k among
      rcases List.mem_cons.1 among with first | later
      · cases first
        rfl
      · exact inside.free k (by simp [later])

variable (inside : Inside s (depth + 1) tokens) (p : Place) (rest : Text)
include inside

/-- The opening bracket of a flow collection, behind which a key may begin. -/
theorem Inside.opens {c : CodePoint} {token : Token}
    (bracket : (c = '[' ∧ token = .flowSequenceStart) ∨ (c = '\x7b' ∧ token = .flowMappingStart)) :
    ∃ s', Inside s' (depth + 2) (token :: tokens) ∧ s'.mayBeKey = true ∧ Passes s p [c] rest s' := by
  obtain ⟨marked, mark, now, -⟩ := (inside.fresh (p.spot c)).markKey (p.spot c)
  let opened : Scan :=
    { marked with keyStart := none, outerKeys := marked.keyStart :: marked.outerKeys, mayBeKey := true }
  have taken : openFlow token (p.spot c) (s.fresh (p.spot c)) ((p.next c).spots rest) =
      .ok (opened.add token, (p.next c).spots rest) := by
    rw [openFlow, mark]
    rfl
  refine ⟨opened.add token, ⟨?_, ?_, ?_, now.flat⟩, rfl, ?_⟩
  · simp [Scan.add, opened, now.tokens]
  · simp [Scan.add, opened, now.depth]
  · intro k among
    refine now.free k ?_
    simpa [Scan.add, opened] using among
  · refine inside.passes_sign ?_ ?_
    · rcases bracket with ⟨rfl, -⟩ | ⟨rfl, -⟩ <;> decide
    · rw [← taken]
      rcases bracket with ⟨rfl, rfl⟩ | ⟨rfl, rfl⟩ <;> simp [tokenAt, isMark_of_ne]

/-- The closing bracket of a flow collection. -/
theorem Inside.closes {c : CodePoint} {token : Token}
    (bracket : (c = ']' ∧ token = .flowSequenceEnd) ∨ (c = '\x7d' ∧ token = .flowMappingEnd)) :
    ∃ s', Inside s' depth (token :: tokens) ∧ Passes s p [c] rest s' := by
  have now := inside.fresh (p.spot c)
  cases keys : (s.fresh (p.spot c)).outerKeys with
  | nil =>
    have length := now.depth
    simp [keys] at length
  | cons k ks =>
    let closed : Scan := { s.fresh (p.spot c) with keyStart := k, outerKeys := ks, mayBeKey := false }
    have taken : closeFlow token (s.fresh (p.spot c)) ((p.next c).spots rest) =
        .ok (closed.add token, (p.next c).spots rest) := by
      rw [closeFlow, now.dropKey]
      simp [keys, closed]
    refine ⟨closed.add token, ⟨?_, ?_, ?_, now.flat⟩, ?_⟩
    · simp [Scan.add, closed, now.tokens]
    · have length := now.depth
      rw [keys, List.length_cons] at length
      exact Nat.succ.inj length
    · intro j among
      refine now.free j ?_
      rw [keys]
      exact List.mem_cons_of_mem _ among
    · refine inside.passes_sign ?_ ?_
      · rcases bracket with ⟨rfl, -⟩ | ⟨rfl, -⟩ <;> decide
      · rw [← taken]
        rcases bracket with ⟨rfl, rfl⟩ | ⟨rfl, rfl⟩ <;> simp [tokenAt, isMark_of_ne]

/-- The comma in a flow collection, behind which a key may begin. -/
theorem Inside.separates : ∃ s', Inside s' (depth + 1) (.flowEntry :: tokens) ∧
    s'.mayBeKey = true ∧ Passes s p [','] rest s' := by
  have now := inside.fresh (p.spot ',')
  let ready : Scan := { s.fresh (p.spot ',') with mayBeKey := true }
  have begun : Inside ready (depth + 1) tokens := ⟨now.tokens, now.depth, now.free, now.flat⟩
  refine ⟨({ ready with keyStart := none } : Scan).add .flowEntry, ⟨?_, now.depth, ?_, now.flat⟩,
    rfl, ?_⟩
  · simp [Scan.add, ready, now.tokens]
  · intro k among
    exact now.free k (by simpa [Scan.add, ready] using Or.inr (by simpa [Scan.add, ready] using among))
  · refine inside.passes_sign (by decide) ?_
    have taken : flowEntry (s.fresh (p.spot ',')) ((p.next ',').spots rest) =
        .ok (({ ready with keyStart := none } : Scan).add .flowEntry, (p.next ',').spots rest) := by
      rw [flowEntry, begun.dropKey]
      rfl
    rw [← taken]
    simp [tokenAt, isMark_of_ne]

/-- A string in quotes, which is a possible key where one may begin. -/
theorem Inside.quotes {pieces : List Piece} (tame : ∀ piece ∈ pieces, IsTamePiece piece) :
    ∃ s', Inside s' (depth + 1) (.scalar (Piece.body pieces) false :: tokens) ∧
      (s.mayBeKey = true → s'.keyStart = some ⟨tokens.length, false, p.spot '"'⟩) ∧
        Passes s p (Piece.quoted pieces) rest s' := by
  obtain ⟨marked, mark, now, key⟩ := (inside.fresh (p.spot '"')).markKey (p.spot '"')
  let token : Token := .scalar (Piece.body pieces) false
  refine ⟨({ marked with mayBeKey := false } : Scan).add token,
    ⟨?_, now.depth, now.free, now.flat⟩, key, ?_⟩
  · simp [Scan.add, token, now.tokens]
  · have read := quoted_pieces tame (p.next '"') rest
    have taken : simple (p.spot '"') (s.fresh (p.spot '"'))
        ((quoted true ((p.next '"').spots (Piece.allText pieces ++ .scalar '"' :: rest))).map
          fun read => (.scalar read.1 false, read.2)) =
        .ok (({ marked with mayBeKey := false } : Scan).add token,
          ((p.next '"').behind (Piece.allText pieces ++ [.scalar '"'])).spots rest) := by
      simp [simple, mark, read, Except.map, token]
    refine inside.passes (by decide)
      (fun c among => isAllowed_of_isInLine (isInLine_quoted tame c among)) ?_
    rw [← taken, List.append_assoc, List.singleton_append]
    simp [tokenAt, isMark_of_ne]

omit inside in
/-- The colon behind a possible key, in front of which the key is marked. -/
theorem Inside.pairs {token : Token} (inside : Inside s (depth + 1) (token :: tokens)) {start : KeyStart}
    (key : s.keyStart = some start) (count : start.tokens = tokens.length)
    (near : Scan.isStale (p.spot ':') start = false) :
    ∃ s', Inside s' (depth + 1) (.value :: token :: .key :: tokens) ∧ Passes s p [':'] rest s' := by
  have now := inside.fresh (p.spot ':')
  have kept : (s.fresh (p.spot ':')).keyStart = some start := by
    simp [Scan.fresh, key, Option.filter, near]
  let valued : Scan := { s.fresh (p.spot ':') with
    keyStart := none, mayBeKey := false, tokens := .value :: token :: .key :: tokens }
  refine ⟨valued, ⟨rfl, now.depth, ?_, now.flat⟩, ?_⟩
  · intro k among
    exact now.free k (by simpa [valued] using Or.inr (by simpa [valued] using among))
  · have flow : (s.fresh (p.spot ':')).outerKeys ≠ [] := by simpa [Scan.inFlow] using now.inFlow
    have taken : valueIndicator (p.spot ':') (s.fresh (p.spot ':')) ((p.next ':').spots rest) =
        .ok (valued, (p.next ':').spots rest) := by
      simp [valueIndicator, kept, Scan.insertAt, Scan.inFlow, flow, now.tokens, count, Scan.add, valued]
    refine inside.passes_sign (by decide) ?_
    rw [← taken]
    simp [tokenAt, isMark_of_ne, now.inFlow]

omit inside in
theorem visible_of_isWord {c : CodePoint} (letter : isWord c = true) : IsVisible c := by
  have apart : ∀ d : CodePoint, isWord d = false → c ≠ d := fun d => ne_of_isWord letter
  simp [IsVisible, isBreak, apart ' ' (by decide), apart '#' (by decide), apart '\n' (by decide),
    apart '\x85' (by decide), apart '\u2028' (by decide), apart '\u2029' (by decide)]

omit inside in
/-- The token that begins with a character of a word; behind a minus sign follows a digit. -/
theorem tokenAt_word {c : CodePoint} {t : Text} (flow : s.inFlow = true) (letter : isWord c = true)
    (minus : c = '-' → ∃ d u, t = d :: u ∧ isWord d = true ∧ d ≠ '-') :
    tokenAt s (p.spot c) ((p.next c).spots t) = plainToken (p.spot c) s (p.spots (c :: t)) := by
  have apart : ∀ d : CodePoint, isWord d = false → c ≠ d := fun d => ne_of_isWord letter
  by_cases sign : c = '-'
  · subst sign
    obtain ⟨d, u, rfl, digit, other⟩ := minus rfl
    have noMark : ∀ t, isMark '-' (p.spot (.scalar '-') :: (p.next '-').spot d :: t) = false := by
      simp [isMark, textOf, other]
    simp [tokenAt, isMark_of_ne, noMark, endsToken_word digit, opensPlain, flow]
  · simp [tokenAt, isMark_of_ne, endsToken_word letter, opensPlain, flow, sign, apart '%' (by decide),
      apart '.' (by decide), apart '[' (by decide), apart ']' (by decide), apart '\x7b' (by decide),
      apart '\x7d' (by decide), apart ',' (by decide), apart '?' (by decide), apart ':' (by decide),
      apart '*' (by decide), apart '&' (by decide), apart '!' (by decide), apart '|' (by decide),
      apart '>' (by decide), apart '\'' (by decide), apart '"' (by decide), apart '#' (by decide),
      apart '@' (by decide), apart '\x60' (by decide)]

/-- A word in front of what ends a part of the collection. -/
theorem Inside.words {c : CodePoint} {word : Text} (letters : ∀ d ∈ c :: word, isWord d = true)
    (minus : c = '-' → ∃ d u, word = d :: u ∧ d ≠ '-') (ends : EndsPart rest) :
    ∃ s', Inside s' (depth + 1) (.scalar (c :: word) true :: tokens) ∧
      Passes s p (c :: word) rest s' := by
  obtain ⟨blank, d, t, gap, sign, rfl⟩ := ends
  obtain ⟨marked, mark, now, -⟩ := (inside.fresh (p.spot c)).markKey (p.spot c)
  obtain ⟨crossed, read⟩ := plainFrom_word letters gap sign t (marked.indent + 1) p
  let worded : Scan := ({ marked with mayBeKey := crossed } : Scan).add (.scalar (c :: word) true)
  have found : Inside worded (depth + 1) (.scalar (c :: word) true :: tokens) :=
    ⟨by simp [worded, Scan.add, now.tokens], now.depth, now.free, now.flat⟩
  refine ⟨worded, found, fun e among => isAllowed_of_isInLine (isInLine_word (letters e among)), 1,
    by simp, fun fuel => ?_⟩
  have letter := letters c (by simp)
  have token : tokenAt (s.fresh (p.spot c)) (p.spot c) ((p.next c).spots (word ++ (blank ++ d :: t))) =
      .ok (worded, ((p.behind (c :: word)).behind blank).spots (d :: t)) := by
    rw [tokenAt_word p (inside.fresh _).inFlow letter, plainToken, mark, ← List.cons_append]
    · simp only [Except.map, now.inFlow, read]
      rfl
    · intro sign
      obtain ⟨e, u, rfl, other⟩ := minus sign
      exact ⟨e, _, rfl, letters e (by simp), other⟩
  rw [List.cons_append, inside.tokensFrom (visible_of_isWord letter) token,
    tokensFrom_gap gap found.inFlow]

end

end ModuleAtlas.Yaml
