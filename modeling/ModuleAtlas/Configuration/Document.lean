import ModuleAtlas.Json.Reader
import ModuleAtlas.Text.Occurrence
import ModuleAtlas.Yaml.Meaning
/-!
Reading the text of a configuration file: without comments and surrounding blanks it is tried
as JSON, and then as YAML, which admits what people add to JSON.
-/
namespace ModuleAtlas.Configuration
open Text

/-! ## Comments

Two slashes start a comment that ends before the next line feed; a slash and a star start one that
ends with a star and a slash. Inside a string literal neither starts anything, and a backslash takes
the next character along. What is left of a text has no comments and the same literals. -/

/-- Where in a text a character stands. -/
inductive Place
  | code
  | literal (quote : CodePoint)
  | lineComment
  | blockComment
deriving DecidableEq, Repr

/-- The text from a place on without its comments. -/
def withoutCommentsFrom : Place → Text → Text
  | _, [] => []
  | .code, '/' :: '/' :: t => withoutCommentsFrom .lineComment t
  | .code, '/' :: '*' :: t => withoutCommentsFrom .blockComment t
  | .code, c :: t => c :: withoutCommentsFrom (if isQuote c then .literal c else .code) t
  | .literal quote, '\\' :: c :: t => .scalar '\\' :: c :: withoutCommentsFrom (.literal quote) t
  | .literal quote, c :: t =>
    c :: withoutCommentsFrom (if c = quote then .code else .literal quote) t
  | .lineComment, '\n' :: t => .scalar '\n' :: withoutCommentsFrom .code t
  | .lineComment, _ :: t => withoutCommentsFrom .lineComment t
  | .blockComment, '*' :: '/' :: t => withoutCommentsFrom .code t
  | .blockComment, _ :: t => withoutCommentsFrom .blockComment t

/-- The text without its comments. -/
def withoutComments (t : Text) : Text := withoutCommentsFrom .code t

/-! ## Data -/

/-- The data of a text without comments. -/
def readData (t : Text) : Except DataFault Value :=
  match Json.read t with
  | .ok value => .ok (.ofJson value)
  | .error (.tooLong digits) => .error (.integerTooLong digits)
  | .error .malformed => Yaml.read t

/-- The entries of the mapping that the text of a configuration file is, if it is one. Text that
is neither JSON nor YAML is none; other faults are passed on. -/
def readDocument (content : Text) : Except DataFault (Option (List (Value × Value))) :=
  let cleaned := Text.trim (withoutComments content)
  if cleaned.isEmpty then .ok none
  else match readData cleaned with
    | .ok (.map entries) => .ok (some entries)
    | .ok _ => .ok none
    | .error .malformed => .ok none
    | .error fault => .error fault

end ModuleAtlas.Configuration
