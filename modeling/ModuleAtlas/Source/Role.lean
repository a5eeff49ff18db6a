import ModuleAtlas.Path.Basic
import ModuleAtlas.Text.Case
import ModuleAtlas.Text.Class
import ModuleAtlas.Text.Occurrence
/-!
The role of a source file: state management, user interface component, or neither. State wins
over component; both are told by marks in the text, the path and the name of the file, and by the
declarations in the text.
-/
namespace ModuleAtlas

/-- The roles of source files. -/
inductive Role
  | component | state | utility
deriving DecidableEq, Repr

namespace Role

/-- The word for a role in a graph document. -/
def word : Role → Text
  | component => "component"
  | state => "state"
  | utility => "util"

end Role

namespace Source
open Text

/-! ## Declarations

A declaration is a keyword, a name and an opening bracket; a component declaration has a name with a
capital initial and may also be followed by a value, type parameters, a type or the word `extends`. A
name in capitals only is that of a constant, unless it is as short as an acronym. -/

/-- One of the keywords, with at least one blank behind it. -/
def keyword? (keywords : List Text) (t : Text) : Option Text :=
  keywords.findSome? fun word => (dropHead? word t).bind skipBlank?

/-- The keywords of declarations. -/
def declarationKeywords : List Text := ["function", "const", "class"]

/-- The keywords of component declarations. -/
def componentKeywords : List Text := ["function", "const", "let", "class"]

/-- A declaration: keyword, name and opening parenthesis or brace. -/
def declaration? (t : Text) : Option (Text × Text) :=
  (keyword? declarationKeywords t).bind fun t =>
    let name := t.takeWhile isIdentifier
    match skipBlank (t.dropWhile isIdentifier) with
    | c :: rest => if !name.isEmpty && (c == '(' || c == '{') then some (name, rest) else none
    | [] => none

/-- The word `extends`. -/
def extendsWord? (t : Text) : Option Text :=
  (dropHead? "extends" t).bind fun rest =>
    if (rest.head?.map isWord).getD false then none else some rest

/-- What can follow the name of a component. -/
def componentOpening? (t : Text) : Option Text :=
  match t with
  | c :: rest => if (['(', '{', '=', '<', ':'] : Text).contains c then some rest else extendsWord? t
  | [] => none

/-- A component name and what follows it. The word `extends` may also stand at the end of the
name itself, or before a dollar sign in it; the longest name before such a word counts. -/
def componentName? (t : Text) : Option (Text × Text) :=
  let name := t.takeWhile isIdentifier
  match componentOpening? (skipBlank (t.dropWhile isIdentifier)) with
  | some rest => some (name, rest)
  | none => (List.range name.length).reverse.findSome? fun k =>
      if k = 0 then none else (extendsWord? (t.drop k)).map (t.take k, ·)

/-- The character is a capital letter of the basic alphabet. -/
def isCapital (c : CodePoint) : Bool := 'A' ≤ c && c ≤ 'Z'

/-- A component declaration; its result is the name. -/
def componentDeclaration? (t : Text) : Option (Text × Text) :=
  (keyword? componentKeywords t).bind fun t =>
    match t with
    | c :: _ => if isCapital c then componentName? t else none
    | [] => none

/-- The name is that of a constant: all its letters are capitals, and it has an underscore or
three characters at least. -/
def isConstantName (name : Text) : Bool :=
  isAllUpper name && (name.contains '_' || 3 ≤ name.length)

/-- The names of the component declarations of a source text, in order, constants left out. -/
def componentNames (content : Text) : List Text :=
  (occurrences (atBoundary componentDeclaration?) content).filter (!isConstantName ·)

/-- The number of component declarations of a source text. -/
def componentCount (content : Text) : Nat := (componentNames content).length

/-- The source text declares more than one component. -/
def hasSeveralComponents (content : Text) : Bool := 1 < componentCount content

/-- The source text has a declaration. -/
def hasDeclaration (content : Text) : Bool := (first? (atBoundary declaration?) content).isSome

/-! ## Roles -/

/-- Marks of state management in source text. -/
def stateMarks : List Text :=
  ["createStore", "combineReducers", "createSlice", "configureStore", "useContext",
   "createContext", "Provider", "zustand", "recoil", "jotai", "mobx"]

/-- Marks of state management in paths. -/
def statePathMarks : List Text := ["redux", "store", "state", "reducer", "action"]

/-- Imports of user interface frameworks. -/
def uiImportMarks : List Text :=
  ["import React", "from 'react'", "from \"react\"", "from 'preact'", "from \"preact\"",
   "from 'react-native'", "from \"react-native\""]

/-- The file manages state: its text or its path has a mark of it. -/
def isState (content path : Text) : Bool :=
  stateMarks.any (has content) || statePathMarks.any (has path)

/-- The text imports a user interface framework. -/
def hasUiImport (content : Text) : Bool := uiImportMarks.any (has content)

/-- A returned parenthesis is followed by an opening angle bracket and later by the end of an
empty element. -/
def hasElementReturn (content : Text) : Bool :=
  (((after? "return (" content).bind (after? "<")).bind (after? "/>")).isSome

/-- The text declares something, and renders or returns. -/
def hasDefinition (content : Text) : Bool :=
  hasDeclaration content && (has content "render" || has content "return")

/-- The file is a component: its name has a capital initial, or its text imports a user
interface framework and returns elements or defines something. -/
def isComponent (content fileName : Text) : Bool :=
  (fileName.head?.map isCapital).getD false ||
    (hasUiImport content && (hasElementReturn content || hasDefinition content))

/-- The role of a file, and whether it is a component file with several components. -/
def classify (content fileName path : Text) : Role × Bool :=
  if isState content path then (.state, false)
  else if isComponent content fileName then (.component, hasSeveralComponents content)
  else (.utility, false)

/-- The name a file is shown by: its name without extension. An index file at the top goes by
the project's name, any other by its directory's. -/
def displayName (path project : Text) : Text :=
  let stem := Path.stem (Path.basename path)
  if stem = "index" then
    let parent := Path.dirname path
    if parent.isEmpty then project else Path.basename parent ++ "/index"
  else stem

end Source
end ModuleAtlas
