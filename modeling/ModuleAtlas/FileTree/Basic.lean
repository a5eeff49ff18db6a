import ModuleAtlas.Text.Encoding
/-!
File trees: what stands at which place below the root. A place is the list of the names that
lead to it. Every place holds one entry at most, every name is one that a directory can hold,
and every entry stands in a directory; these facts are part of the type, and the two changes,
adding an entry and overwriting a file, keep them.
-/
namespace ModuleAtlas

/-- What stands at a place. -/
inductive Entry
  | file (bytes : List UInt8)
  | directory
  | link (target : Text)
deriving DecidableEq, Repr

/-- A place in a file tree: the names that lead to it from the root. -/
abbrev Place := List Text

/-- The text of the path to a place. -/
def Place.path (place : Place) : Text := .scalar '/' :: Text.joinWith ['/'] place

/-- A directory can hold an entry of this name. -/
def isEntryName (name : Text) : Bool :=
  !name.isEmpty && !name.contains '/' && name.all Text.isLegal && name != [.scalar '.'] &&
    name != (['.', '.'] : Text)

/-- A file tree. -/
structure FileTree where
  entries : List (Place × Entry)
  distinct : (entries.map Prod.fst).Nodup
  named : ∀ entry ∈ entries, entry.1 ≠ [] ∧ ∀ name ∈ entry.1, isEntryName name
  housed : ∀ entry ∈ entries, entry.1.dropLast = [] ∨ (entry.1.dropLast, .directory) ∈ entries

namespace FileTree

/-- The tree with nothing below its root. -/
def empty : FileTree := ⟨[], by simp, by simp, by simp⟩

instance : Inhabited FileTree := ⟨empty⟩

/-- The entry at a place; the root is a directory. -/
def lookup? (tree : FileTree) (place : Place) : Option Entry :=
  if place = [] then some .directory
  else (tree.entries.find? fun entry => entry.1 == place).map Prod.snd

/-- The place is a directory. -/
def isDirectoryAt (tree : FileTree) (place : Place) : Bool := tree.lookup? place == some .directory

/-- The name under which an entry stands directly in a directory. -/
def nameIn? (directory place : Place) : Option Text :=
  if place.dropLast = directory then place.getLast? else none

/-- The names of the entries of a directory, sorted. -/
def names (tree : FileTree) (directory : Place) : List Text :=
  Text.sort (tree.entries.filterMap fun entry => nameIn? directory entry.1)

/-- The number of links. -/
def linkCount (tree : FileTree) : Nat :=
  tree.entries.countP fun entry => match entry.2 with | .link _ => true | _ => false

/-- What an entry needs to be added: a new place with proper names in a directory. -/
def Admits (tree : FileTree) (place : Place) : Prop :=
  place ∉ tree.entries.map Prod.fst ∧ place ≠ [] ∧ (∀ name ∈ place, isEntryName name) ∧
    (place.dropLast = [] ∨ (place.dropLast, Entry.directory) ∈ tree.entries)

instance (tree : FileTree) (place : Place) : Decidable (tree.Admits place) :=
  inferInstanceAs (Decidable (_ ∧ _ ∧ _ ∧ _))

/-- The tree with one more entry. -/
def extend (tree : FileTree) (place : Place) (entry : Entry) (admits : tree.Admits place) :
    FileTree where
  entries := tree.entries ++ [(place, entry)]
  distinct := by
    rw [List.map_append, List.nodup_append]
    refine ⟨tree.distinct, by simp, ?_⟩
    intro a inside b last same
    rw [List.map_singleton, List.mem_singleton] at last
    rw [same, last] at inside
    exact admits.1 inside
  named := by
    intro e member
    rcases List.mem_append.1 member with old | new
    · exact tree.named e old
    · rw [List.mem_singleton.1 new]
      exact ⟨admits.2.1, admits.2.2.1⟩
  housed := by
    intro e member
    rcases List.mem_append.1 member with old | new
    · exact (tree.housed e old).imp_right (List.mem_append_left _)
    · rw [List.mem_singleton.1 new]
      exact admits.2.2.2.imp_right (List.mem_append_left _)

/-- The tree with an entry added at a place, if the tree admits one there. -/
def add (tree : FileTree) (place : Place) (entry : Entry) : FileTree :=
  if admits : tree.Admits place then tree.extend place entry admits else tree

/-- The tree with an entry added at a place and with the directories on the way to it. -/
def addAlong (tree : FileTree) (place : Place) (entry : Entry) : FileTree :=
  ((List.range place.length).foldl (fun tree n => tree.add (place.take n) .directory) tree).add
    place entry

/-- One entry after a file has been overwritten. -/
def overwriteEntry (place : Place) (bytes : List UInt8) (entry : Place × Entry) : Place × Entry :=
  match entry with
  | (p, .file old) => (p, .file (if p = place then bytes else old))
  | other => other

theorem overwriteEntry_fst (place : Place) (bytes : List UInt8) (entry : Place × Entry) :
    (overwriteEntry place bytes entry).1 = entry.1 := by
  obtain ⟨p, content⟩ := entry
  cases content <;> rfl

/-- The tree with other bytes in a file. -/
def overwrite (tree : FileTree) (place : Place) (bytes : List UInt8) : FileTree where
  entries := tree.entries.map (overwriteEntry place bytes)
  distinct := by
    have same : (tree.entries.map (overwriteEntry place bytes)).map Prod.fst
        = tree.entries.map Prod.fst := by
      rw [List.map_map]
      exact List.map_congr_left fun entry _ => overwriteEntry_fst place bytes entry
    rw [same]; exact tree.distinct
  named := by
    intro e member
    obtain ⟨old, inside, rfl⟩ := List.mem_map.1 member
    rw [overwriteEntry_fst]
    exact tree.named old inside
  housed := by
    intro e member
    obtain ⟨old, inside, rfl⟩ := List.mem_map.1 member
    rw [overwriteEntry_fst]
    refine (tree.housed old inside).imp_right fun house => ?_
    exact List.mem_map.2 ⟨_, house, rfl⟩

end FileTree
end ModuleAtlas
