import ModuleAtlas.Configuration.Document
import ModuleAtlas.Resolution
import ModuleAtlas.Text.Class
/-!
Settings in configuration files that are scripts. Scripts are not run; what counts is what
their text shows: the first base directory that is a string literal, and in the first block of
aliases every pair of a key and a literal, which may also be an argument of a path function.
-/
namespace ModuleAtlas.Configuration
open Text

/-- A word, blanks, a colon and blanks. -/
def label? (word t : Text) : Option Text :=
  (dropHead? word t).bind fun t => (dropHead? [':'] (skipBlank t)).map skipBlank

/-- The setting of a base directory. -/
def baseSetting? (t : Text) : Option (Text × Text) := (label? "baseUrl" t).bind literal?

/-- A block in braces: what stands before the first closing brace. -/
def block? (t : Text) : Option (Text × Text) :=
  (dropHead? ['{'] t).bind (cutAt? ['}'])

/-- A block of aliases. -/
def aliasBlock? (t : Text) : Option (Text × Text) := (label? "alias" t).bind block?

/-- A block of aliases that opens a block of resolution settings. -/
def resolveBlock? (t : Text) : Option (Text × Text) :=
  (label? "resolve" t).bind fun t =>
    (dropHead? ['{'] t).bind fun t => aliasBlock? (skipBlank t)

/-- The character can open the key of an alias. -/
def opensKey (c : CodePoint) : Bool := isWord c || c == '@' || c == '~' || c == '$'

/-- The character can continue the key of an alias. -/
def continuesKey (c : CodePoint) : Bool := opensKey c || c == '.' || c == '/' || c == '-'

/-- The text without a quote in front. -/
def dropQuote : Text → Text
  | c :: t => if isQuote c then t else c :: t
  | [] => []

/-- The text behind the opening of a call of a path function with the current directory as its
first argument. -/
def pathCall? (t : Text) : Option Text :=
  (dropHead? "path." t).bind fun t =>
    (match dropHead? "resolve(" t with
      | some t => some t
      | none => dropHead? "join(" t).bind fun t =>
        (dropHead? "__dirname" (skipBlank t)).bind fun t =>
          (dropHead? [','] (skipBlank t)).map skipBlank

/-- The key of an alias, perhaps in quotes, and the colon behind it. -/
def aliasKey? (t : Text) : Option (Text × Text) :=
  match dropQuote t with
  | c :: t =>
    if opensKey c then
      (dropHead? [':'] (skipBlank (dropQuote (t.dropWhile continuesKey)))).map fun rest =>
        (c :: t.takeWhile continuesKey, skipBlank rest)
    else none
  | [] => none

/-- The key and target of an alias. -/
def aliasPair? (t : Text) : Option ((Text × Text) × Text) :=
  (aliasKey? t).bind fun (key, t) =>
    (fullLiteral? ((pathCall? t).getD t)).map fun (target, rest) => ((key, target), rest)

/-- The block of aliases that counts: the first one of resolution settings, or else the first
one anywhere. -/
def aliasBlockOf? (content : Text) : Option Text :=
  match first? (anywhere resolveBlock?) content with
  | some block => some block
  | none => first? (anywhere aliasBlock?) content

/-- The pairs of aliases and targets that a script shows. -/
def scriptAliases (content : Text) : List (Text × Text) :=
  match aliasBlockOf? content with
  | some block => occurrences (anywhere aliasPair?) block
  | none => []

/-- The settings after a script has been read. -/
def readScript (content : Text) (settings : Settings) : Settings :=
  let content := withoutComments content
  { settings with
    baseUrl := (first? (anywhere baseSetting?) content).getD settings.baseUrl
    aliases := settings.aliases.insertAll (scriptAliases content) }

end ModuleAtlas.Configuration
