import ModuleAtlas.Text.Class
import ModuleAtlas.Text.Occurrence
/-!
Import statements in source text: the word `import`, perhaps the word `type`, a binding, the
word `from`, and the specifier in quotes. A binding is a name, a list of names in braces, or
a namespace; a name may be joined with either of the other two by a comma. Imports without a
binding, dynamic imports and re-exports are no import statements.
-/
namespace ModuleAtlas.Source
open Text

/-- The specifier that follows the word `from`. -/
def source? (t : Text) : Option (Text × Text) :=
  (dropHead? "from" (skipBlank t)).bind fun t => fullLiteral? (skipBlank t)

/-- A name and then its source. The word `from` may also be the end of the name itself. -/
def nameAndSource? (t : Text) : Option (Text × Text) :=
  let name := t.takeWhile isIdentifier
  let rest := t.dropWhile isIdentifier
  if name.isEmpty then none
  else match source? rest with
    | some found => some found
    | none =>
      if endsWith name "from" && 4 < name.length then fullLiteral? (skipBlank rest) else none

/-- A list of names in braces and then its source. -/
def bracesAndSource? (t : Text) : Option (Text × Text) :=
  match t with
  | '{' :: t => (after? ['}'] t).bind source?
  | _ => none

/-- A namespace and then its source. -/
def namespaceAndSource? (t : Text) : Option (Text × Text) :=
  match t with
  | '*' :: t =>
    (dropHead? "as" (skipBlank t)).bind fun t => (skipBlank? t).bind nameAndSource?
  | _ => none

/-- A binding and then its source. -/
def bindingAndSource? (t : Text) : Option (Text × Text) :=
  match t with
  | '{' :: _ => bracesAndSource? t
  | '*' :: _ => namespaceAndSource? t
  | _ =>
    if (t.takeWhile isIdentifier).isEmpty then none
    else match skipBlank (t.dropWhile isIdentifier) with
      | ',' :: t =>
        match skipBlank t with
        | '{' :: t => bracesAndSource? (.scalar '{' :: t)
        | '*' :: t => namespaceAndSource? (.scalar '*' :: t)
        | _ => none
      | _ => nameAndSource? t

/-- An import statement; its result is the specifier. -/
def importStatement? (t : Text) : Option (Text × Text) :=
  (dropHead? "import" t).bind fun t => (skipBlank? t).bind fun t =>
    match ((dropHead? "type" t).bind skipBlank?).bind bindingAndSource? with
    | some found => some found
    | none => bindingAndSource? t

/-- The specifiers of the import statements of a source text, in order. -/
def specifiers (content : Text) : List Text := occurrences (atBoundary importStatement?) content

end ModuleAtlas.Source
