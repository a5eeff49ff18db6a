import ModuleAtlas.Configuration.Load
import ModuleAtlas.Proofs.Configuration.Comments
import ModuleAtlas.Proofs.Json.Strictness
import ModuleAtlas.Proofs.Text.Encoding
import ModuleAtlas.Proofs.Yaml.Meaning
/-!
Configuration files that are JSON objects, perhaps with commas behind last elements and members. A
single comma of this kind makes the whole file YAML, and yet the entries are those of the file without
these commas (`document?_strict`) if the text is tame.
-/
namespace ModuleAtlas.Configuration
open Json (Blank Key Piece Written Elements Members)

/-- The entries of an object, as it is written. -/
def entriesOf (ms : Members) : List (Value × Value) :=
  Value.ofMembers (Table.ofList ms.values).entries

/-- The data of an object is what is written if commas trail in tame texts only. -/
theorem readData_object {blank : Blank} {ms : Members}
    (tame : (Written.object blank ms).trails = true → Yaml.IsTame (.object blank ms)) :
    readData (Written.object blank ms).text = .ok (.map (entriesOf ms)) := by
  cases trails : (Written.object blank ms).trails with
  | false => rw [readData, Written.read_text trails]; rfl
  | true => rw [readData, Written.read_text_of_trails trails, Yaml.read_object (tame trails)]; rfl

/-- Blanks around an object do not matter, and there are no comments in it. -/
theorem cleaned_object (before after blank : Blank) (ms : Members) :
    Text.trim (withoutComments (before.1 ++ ((Written.object blank ms).text ++ after.1))) =
      (Written.object blank ms).text := by
  have kept : withoutComments (before.1 ++ ((Written.object blank ms).text ++ after.1)) =
      before.1 ++ ((Written.object blank ms).text ++ after.1) := by
    have all := (Keeps.blank before).append ((keeps_text (.object blank ms)).append (.blank after))
    simpa [withoutComments, withoutCommentsFrom] using all []
  have inside := @trim_blanks before after '\x7b' '\x7d' (blank.1 ++ ms.text) (by decide) (by decide)
  rw [kept]
  simpa [Written.text] using inside

theorem isEmpty_object (blank : Blank) (ms : Members) :
    (Written.object blank ms).text.isEmpty = false :=
  rfl

theorem readDocument_object {blank : Blank} {ms : Members}
    (tame : (Written.object blank ms).trails = true → Yaml.IsTame (.object blank ms))
    (before after : Blank) :
    readDocument (before.1 ++ ((Written.object blank ms).text ++ after.1)) =
      .ok (some (entriesOf ms)) := by
  simp only [readDocument, cleaned_object, isEmpty_object, readData_object tame,
    Bool.false_eq_true, if_false]

/-- A tab behind the first brace makes an object with a trailing comma no data. -/
theorem readDocument_tabbed {blank : Blank} {ms : Members}
    (trails : (Written.object blank ms).trails = true) {gap rest : Text} (spaces : Yaml.IsGap gap)
    (tab : blank.1 = gap ++ .scalar '\t' :: rest) (before after : Blank) :
    readDocument (before.1 ++ ((Written.object blank ms).text ++ after.1)) = .ok none := by
  have text : (Written.object blank ms).text =
      .scalar '\x7b' :: (gap ++ .scalar '\t' :: (rest ++ (ms.text ++ [.scalar '\x7d']))) := by
    simp [Written.text, tab]
  have data : readData (Written.object blank ms).text = .error .malformed := by
    rw [readData, Written.read_text_of_trails trails, text]
    exact Yaml.read_tabbed spaces _
  simp only [readDocument, cleaned_object, isEmpty_object, data, Bool.false_eq_true, if_false]

/-- A file with a JSON object whose commas behind last elements and members make it YAML has the
entries of the object, which are those of the file without these commas. -/
theorem document?_strict {files others : FileSystem} {p q : Text} {blank before after : Blank}
    {ms : Members} (tame : (Written.object blank ms).trails = true → Yaml.IsTame (.object blank ms))
    (written : files.text? p =
      .ok (some (before.1 ++ ((Written.object blank ms).text ++ after.1))))
    (strict : others.text? q =
      .ok (some (before.1 ++ ((Written.object blank ms).strict.text ++ after.1)))) :
    document? files p = .ok (some (entriesOf ms)) ∧ document? files p = document? others q := by
  have plain : (Written.object blank ms.strict).trails = true →
      Yaml.IsTame (.object blank ms.strict) := by
    intro trails
    have none := (Written.object blank ms).trails_strict
    rw [Written.strict, trails] at none
    cases none
  have here := readDocument_object tame before after
  have there := readDocument_object plain before after
  have same : entriesOf ms.strict = entriesOf ms := by
    rw [entriesOf, ms.values_strict, entriesOf]
  rw [Written.strict] at strict
  simp [document?, content?, written, strict, here, there, same, Except.mapError]

/-- The text of a file of the basic alphabet without carriage returns. -/
theorem text?_of_bytes {files : FileSystem} {p t : Text} (bytes : files.bytes p = .ok (Text.utf8 t))
    (basic : t.all fun c => c.toNat < 128) (lines : .scalar '\r' ∉ t) :
    files.text? p = .ok (some t) := by
  have small : ∀ c ∈ t, c.toNat < 128 := by simpa using basic
  rw [FileSystem.text?, bytes, Except.map, Text.decode?_utf8 small, Option.map_some,
    Text.unifyNewlines_eq lines]

/-- Two members with trailing commas, of which one is behind an element. -/
def twoMembers : Members :=
  let space : Blank := ⟨[' '], by simp [Json.isSpace]⟩
  let line : Blank := ⟨['\n'], by simp [Json.isSpace]⟩
  .more ⟨[.plain 'a' (by decide) (by decide) (by decide)], .none, space⟩
    (.array .none
      (.more (.number false ['1'] (Text.isNumeral_ofNat 1) (by decide)) .none space
        (.more (.number true ['2', '0'] (Text.isNumeral_ofNat 20) (by decide)) .none .none .none)))
    .none (line.append space)
    (.more ⟨[.plain 'b' (by decide) (by decide) (by decide)], space, space⟩
      (.string [.code '0' '0' '4' '1' 65 (by decide), .short 'n' '\n' (by decide)])
      .none line .none)

/-- A project with these members and with the same members without trailing commas. -/
def twoFiles : FileSystem where
  tree :=
    { entries :=
        [(["new.json"], .file (Text.utf8 "\x7b\"a\": [1, -20,],\n \"b\" : \"\\u0041\\n\",\n\x7d\n")),
          (["old.json"], .file (Text.utf8 "\x7b\"a\": [1, -20],\n \"b\" : \"\\u0041\\n\"\n\x7d\n"))]
      distinct := by decide
      named := by decide
      housed := by decide }

/-- A member with a trailing comma. -/
def oneMember : Members :=
  .more ⟨[.plain 'a' (by decide) (by decide) (by decide)], .none, ⟨[' '], by simp [Json.isSpace]⟩⟩
    (.number false ['1'] (Text.isNumeral_ofNat 1) (by decide)) .none ⟨['\n'], by simp [Json.isSpace]⟩
    .none

/-- A project with this member behind a tab, and without the comma. -/
def tabbed : FileSystem where
  tree :=
    { entries :=
        [(["new.json"], .file (Text.utf8 "\x7b\n\t\"a\": 1,\n\x7d")),
          (["old.json"], .file (Text.utf8 "\x7b\n\t\"a\": 1\n\x7d"))]
      distinct := by decide
      named := by decide
      housed := by decide }

/-- The commas behind the last element and the last member make no difference, but behind a tab the
comma makes the file no data. -/
theorem twoFiles_documents :
    twoFiles.text? "/new.json" =
      .ok (some "\x7b\"a\": [1, -20,],\n \"b\" : \"\\u0041\\n\",\n\x7d\n") ∧
    twoFiles.text? "/old.json" =
      .ok (some "\x7b\"a\": [1, -20],\n \"b\" : \"\\u0041\\n\"\n\x7d\n") ∧
    document? twoFiles "/new.json" =
      .ok (some [(.text ['a'], .list [.int 1, .int (-20)]), (.text ['b'], .text ['A', '\n'])]) ∧
    document? twoFiles "/new.json" = document? twoFiles "/old.json" ∧
    document? tabbed "/new.json" = .ok none ∧
    document? tabbed "/old.json" = .ok (some [(.text ['a'], .int 1)]) := by
  have new : twoFiles.text? "/new.json" =
      .ok (some "\x7b\"a\": [1, -20,],\n \"b\" : \"\\u0041\\n\",\n\x7d\n") :=
    text?_of_bytes rfl (by decide) (by decide)
  have old : twoFiles.text? "/old.json" =
      .ok (some "\x7b\"a\": [1, -20],\n \"b\" : \"\\u0041\\n\"\n\x7d\n") :=
    text?_of_bytes rfl (by decide) (by decide)
  have tame : Yaml.IsTame (.object .none twoMembers) := by decide
  have all := @document?_strict twoFiles twoFiles "/new.json" "/old.json" .none .none
    ⟨['\n'], by simp [Json.isSpace]⟩
    twoMembers (fun _ => tame) new old
  have first : tabbed.text? "/new.json" = .ok (some "\x7b\n\t\"a\": 1,\n\x7d") :=
    text?_of_bytes rfl (by decide) (by decide)
  have second : tabbed.text? "/old.json" = .ok (some "\x7b\n\t\"a\": 1\n\x7d") :=
    text?_of_bytes rfl (by decide) (by decide)
  have strict := (@document?_strict tabbed tabbed "/old.json" "/old.json"
    ⟨['\n', '\t'], by simp [Json.isSpace]⟩ .none .none oneMember.strict (fun trails => by cases trails)
    second second).1
  have none : document? tabbed "/new.json" = .ok none := by
    have refused := @readDocument_tabbed ⟨['\n', '\t'], by simp [Json.isSpace]⟩ oneMember rfl ['\n']
      [] (by decide) rfl .none .none
    rw [document?, content?, first]
    exact congrArg (Except.mapError SettingsFault.data) refused
  exact ⟨new, old, all.1, all.2, none, strict⟩

end ModuleAtlas.Configuration
