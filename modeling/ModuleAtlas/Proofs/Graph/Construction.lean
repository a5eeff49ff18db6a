import ModuleAtlas.Proofs.Graph.Tree
/-!
How the tree of a graph is put together, one step after the other and with no bound on the steps.
First the directories are gathered, by climbing from the directory of each file until one is met that
is known (`Climbs`). Then the root is filled, and below it each directory (`Fills`). A directory that
is its own would never be filled (`not_fills_of_loop`), and the way up from an absolute path ends at
one. It is known but not below the root, so the construction ends, with one tree whatever the order
in which files and directories are taken (`construction_ends`).
-/
namespace ModuleAtlas.Graph
open ModuleAtlas.Path

/-! ## Climbing -/

/-- A way up from a directory, and the directories that are known before and after. It ends at the top
or where it meets a directory that is known. -/
inductive Climbs : (known : List Text) → Text → (after : List Text) → Prop
  | top {known : List Text} : Climbs known [] known
  | met {known : List Text} {d : Text} : d ∈ known → Climbs known d known
  | up {known after : List Text} {d : Text} : d ≠ [] → d ∉ known →
    Climbs (d :: known) (dirname d) after → Climbs known d after

/-- Ways up from several directories, one after the other. -/
inductive ClimbsAll : (known starts after : List Text) → Prop
  | nil {known : List Text} : ClimbsAll known [] known
  | cons {known next after starts : List Text} {d : Text} : Climbs known d next →
    ClimbsAll next starts after → ClimbsAll known (d :: starts) after

/-- A directory is shorter than what it is the directory of, or the same. -/
theorem dirname_shortens (p : Text) : (dirname p).length < p.length ∨ dirname p = p := by
  rcases Nat.lt_or_ge (dirname p).length p.length with shorter | longer
  · exact .inl shorter
  · exact .inr ((dirname_opens p).eq_of_length_le longer)

/-- Every way up ends. -/
theorem exists_climbs (known : List Text) (d : Text) : ∃ after, Climbs known d after := by
  by_cases top : d = []
  · exact ⟨known, top ▸ .top⟩
  by_cases again : d ∈ known
  · exact ⟨known, .met again⟩
  rcases dirname_shortens d with shorter | same
  · obtain ⟨after, further⟩ := exists_climbs (d :: known) (dirname d)
    exact ⟨after, .up top again further⟩
  · exact ⟨d :: known, .up top again (same.symm ▸ .met List.mem_cons_self)⟩
termination_by d.length

theorem Climbs.unique {known after other : List Text} {d : Text} (climbs : Climbs known d after)
    (again : Climbs known d other) : after = other := by
  induction climbs with
  | top =>
    cases again with
    | top => rfl
    | met => rfl
    | up named => exact absurd rfl named
  | met here =>
    cases again with
    | top => rfl
    | met => rfl
    | up _ fresh => exact absurd here fresh
  | up named fresh _ ih =>
    cases again with
    | top => exact absurd rfl named
    | met here => exact absurd here fresh
    | up _ _ further => exact ih further

theorem exists_climbsAll (known starts : List Text) : ∃ after, ClimbsAll known starts after := by
  induction starts generalizing known with
  | nil => exact ⟨known, .nil⟩
  | cons d starts ih =>
    obtain ⟨next, first⟩ := exists_climbs known d
    obtain ⟨after, rest⟩ := ih next
    exact ⟨after, .cons first rest⟩

theorem ClimbsAll.unique {known starts after other : List Text}
    (climbs : ClimbsAll known starts after) (again : ClimbsAll known starts other) :
    after = other := by
  induction climbs with
  | nil =>
    cases again
    rfl
  | cons first _ ih =>
    cases again with
    | cons second rest =>
      obtain rfl := first.unique second
      exact ih rest

/-! ## What is known -/

/-- With each directory its own directory is known, but for one that is still to be met. -/
structure IsClimbed (known : List Text) (ahead : Text) : Prop where
  distinct : known.Nodup
  above : ∀ d ∈ known, dirname d ≠ [] → dirname d ∈ known ∨ dirname d = ahead

theorem IsClimbed.weaken {known : List Text} (climbed : IsClimbed known []) (ahead : Text) :
    IsClimbed known ahead :=
  ⟨climbed.distinct, fun d inside some =>
    (climbed.above d inside some).elim .inl fun nothing => absurd nothing some⟩

/-- A way up leads from a directory, perhaps along no step at all. -/
def IsAbove (d start : Text) : Prop := d ≠ [] ∧ ∃ n, dirname^[n] start = d

theorem isAbove_iff {d start : Text} :
    IsAbove d start ↔ d ≠ [] ∧ d = start ∨ IsAbove d (dirname start) := by
  constructor
  · rintro ⟨named, n, reached⟩
    cases n with
    | zero => exact .inl ⟨named, reached.symm⟩
    | succ n => exact .inr ⟨named, n, reached⟩
  · rintro (⟨named, rfl⟩ | ⟨named, n, reached⟩)
    · exact ⟨named, 0, rfl⟩
    · exact ⟨named, n + 1, reached⟩

theorem not_isAbove_nil (d : Text) : ¬ IsAbove d [] := by
  rintro ⟨named, n, reached⟩
  rw [iterate_dirname_nil] at reached
  exact named reached.symm

/-- Nothing is ahead of a directory that is known. -/
theorem mem_of_isAbove {known : List Text} {start : Text} (climbed : IsClimbed known start)
    (here : start ∈ known) : ∀ d, IsAbove d start → d ∈ known := by
  rintro d ⟨named, n, reached⟩
  induction n generalizing d with
  | zero => exact reached ▸ here
  | succ n ih =>
    rw [Function.iterate_succ_apply'] at reached
    have below : dirname^[n] start ≠ [] := by
      intro nothing
      rw [nothing] at reached
      exact named reached.symm
    rcases climbed.above _ (ih _ below rfl) (reached ▸ named) with inside | same
    · exact reached ▸ inside
    · exact (reached.symm.trans same) ▸ here

/-- A way up makes known what it leads to, each once. -/
theorem Climbs.spec {known after : List Text} {start : Text} (climbs : Climbs known start after)
    (climbed : IsClimbed known start) :
    IsClimbed after [] ∧ ∀ d, d ∈ after ↔ d ∈ known ∨ IsAbove d start := by
  induction climbs with
  | top => exact ⟨climbed, fun d => by simp [not_isAbove_nil]⟩
  | @met known start here =>
    refine ⟨⟨climbed.distinct, fun d inside some => .inl ?_⟩, fun d => ?_⟩
    · rcases climbed.above d inside some with known | same
      · exact known
      · exact same ▸ here
    · exact ⟨.inl, fun either => either.elim id (mem_of_isAbove climbed here d)⟩
  | @up known after start named fresh _ ih =>
    have next : IsClimbed (start :: known) (dirname start) := by
      refine ⟨List.nodup_cons.2 ⟨fresh, climbed.distinct⟩, fun d inside some => ?_⟩
      rcases List.mem_cons.1 inside with rfl | inside
      · exact .inr rfl
      · refine .inl (List.mem_cons.2 ?_)
        exact (climbed.above d inside some).symm
    obtain ⟨done, members⟩ := ih next
    refine ⟨done, fun d => ?_⟩
    rw [members, @isAbove_iff d start, List.mem_cons]
    constructor
    · rintro ((rfl | known) | above)
      · exact .inr (.inl ⟨named, rfl⟩)
      · exact .inl known
      · exact .inr (.inr above)
    · rintro (known | ⟨-, rfl⟩ | above)
      · exact .inl (.inr known)
      · exact .inl (.inl rfl)
      · exact .inr above

theorem ClimbsAll.spec {known starts after : List Text} (climbs : ClimbsAll known starts after)
    (climbed : IsClimbed known []) :
    after.Nodup ∧ ∀ d, d ∈ after ↔ d ∈ known ∨ ∃ start ∈ starts, IsAbove d start := by
  induction climbs with
  | nil => exact ⟨climbed.distinct, fun d => by simp⟩
  | cons first _ ih =>
    obtain ⟨next, here⟩ := first.spec (climbed.weaken _)
    obtain ⟨distinct, members⟩ := ih next
    refine ⟨distinct, fun d => ?_⟩
    rw [members, here, List.exists_mem_cons_iff, or_assoc]

/-! ## The directories of a graph -/

/-- The directories on the way to an absolute path are its ancestors as well: the last of them is its
own. -/
theorem mem_ancestors_of_absolute {d p : Text} (rooted : isAbsolute p) :
    d ∈ ancestors p ↔ IsAncestor d p := by
  fun_induction ancestors p with
  | case1 p directory nothing =>
    have top : dirname p = [] := List.isEmpty_iff.1 nothing
    rw [← isAbsolute_dirname, top] at rooted
    exact absurd rooted isAbsolute_nil
  | case2 p directory some shorter ih =>
    have named : directory ≠ [] := by simpa using some
    rw [List.mem_cons, ih (by rwa [isAbsolute_dirname])]
    show d = directory ∨ IsAncestor d directory ↔ IsAbove d directory
    rw [isAbove_iff]
    refine or_congr ⟨?_, And.right⟩ Iff.rfl
    rintro rfl
    exact ⟨named, rfl⟩
  | case3 p directory some longer =>
    have named : directory ≠ [] := by simpa using some
    have same : dirname directory = directory := by
      have whole : directory = p := (dirname_shortens p).resolve_left longer
      rw [whole]
      exact whole
    rw [List.mem_singleton]
    show d = directory ↔ IsAbove d directory
    constructor
    · rintro rfl
      exact ⟨named, 0, rfl⟩
    · rintro ⟨-, n, reached⟩
      rw [Function.iterate_fixed same] at reached
      exact reached.symm

theorem mem_directories_iff_isAbove {graph : Graph Text} {d : Text} :
    d ∈ graph.directories ↔ ∃ node ∈ graph.nodes.values, IsAbove d (dirname node.path) := by
  have ways : ∀ node : Node Text, d ∈ ancestors node.path ↔ IsAbove d (dirname node.path) := by
    intro node
    by_cases rooted : isAbsolute node.path
    · exact mem_ancestors_of_absolute rooted
    · exact mem_ancestors rooted
  simp only [mem_directories, ways]

/-- From the directories of the files, in any order, all directories become known. -/
theorem perm_directories {graph : Graph Text} {starts known : List Text}
    (all : ∀ d, d ∈ starts ↔ ∃ node ∈ graph.nodes.values, dirname node.path = d)
    (climbs : ClimbsAll [] starts known) : known.Perm graph.directories := by
  obtain ⟨distinct, members⟩ := climbs.spec ⟨List.nodup_nil, by simp⟩
  rw [List.perm_ext_iff_of_nodup distinct graph.directories_nodup]
  intro d
  rw [members, mem_directories_iff_isAbove]
  constructor
  · rintro (none | ⟨start, inside, above⟩)
    · exact absurd none List.not_mem_nil
    · obtain ⟨node, registered, rfl⟩ := (all start).1 inside
      exact ⟨node, registered, above⟩
  · rintro ⟨node, registered, above⟩
    exact .inr ⟨_, (all _).2 ⟨node, registered, rfl⟩, above⟩

/-! ## Filling -/

/-- Filling a directory, until all is done: its files come first, by id, and then its directories by
path, each of which has been filled before. -/
inductive Fills (filesIn : Text → List (Node Text)) (known : List Text) : Text → List (Node Text) → Prop
  | intro {d : Text} (below : Text → List (Node Text)) :
    (∀ e ∈ directoriesIn known d, Fills filesIn known e (below e)) →
    Fills filesIn known d (filesIn d ++ (directoriesIn known d).map fun e => directoryNode e (below e))

section
variable {filesIn : Text → List (Node Text)} {known : List Text}

theorem Fills.unique {d : Text} {children others : List (Node Text)}
    (fills : Fills filesIn known d children) (again : Fills filesIn known d others) :
    children = others := by
  induction fills generalizing others with
  | intro below _ ih =>
    cases again with
    | intro further each =>
      congr 1
      apply List.map_congr_left
      intro e inside
      rw [ih e inside (each e inside)]

/-- A directory that is its own is never filled. -/
theorem not_fills_of_loop {d : Text} {children : List (Node Text)} (loop : d ∈ directoriesIn known d) :
    ¬ Fills filesIn known d children := by
  intro fills
  induction fills with
  | intro below _ ih => exact ih _ loop loop

end

theorem directoriesIn_of_perm {known others : List Text} (same : known.Perm others) (d : Text) :
    directoriesIn known d = directoriesIn others d := by
  have moved : (directoriesIn known d).Perm (directoriesIn others d) :=
    (Text.sort_perm _).trans ((same.filter _).trans (Text.sort_perm _).symm)
  exact Text.eq_of_perm_of_sorted id (fun _ _ _ _ same => same) moved (Text.sort_sorted _)
    (Text.sort_sorted _)

/-- A relative directory is filled with what stands in it, in whatever order its directories have
become known. -/
theorem fills_contents {graph : Graph Text} {known : List Text} (same : known.Perm graph.directories)
    {d : Text} (relative : ¬ isAbsolute d) : Fills graph.filesIn known d (graph.contents d) := by
  induction d, relative using directory_induction graph with
  | step d relative ih =>
    rw [contents_eq relative, subdirectories, ← directoriesIn_of_perm same d]
    apply Fills.intro graph.contents
    intro e inside
    rw [directoriesIn_of_perm same d] at inside
    exact ih e inside

/-! ## Files that are left out -/

/-- A registered file has no place in the tree exactly if its path is absolute. -/
theorem not_mem_placed_iff {graph : Graph Text} (flat : graph.IsFlat) {node : Node Text}
    (registered : node ∈ graph.nodes.values) :
    node ∉ graph.withTree.placed.map Prod.snd ↔ isAbsolute node.path := by
  have files : ∀ place : Text × Node Text, place.2 = node →
      (place ∈ graph.withTree.placed ↔ place ∈ filesAmong graph.withTree.placed) := by
    rintro place rfl
    have childless : place.2.children.isEmpty := by simp [flat _ registered]
    exact ⟨fun stands => List.mem_filter.2 ⟨stands, childless⟩, fun file => (List.mem_filter.1 file).1⟩
  rw [not_iff_comm, List.mem_map]
  constructor
  · intro relative
    refine ⟨(dirname node.path, node), (files _ rfl).2 ?_, rfl⟩
    rw [(filesAmong_perm flat).mem_iff]
    exact List.mem_map_of_mem (List.mem_filter.2 ⟨registered, by simpa using relative⟩)
  · rintro ⟨place, stands, same⟩
    rw [files place same, (filesAmong_perm flat).mem_iff] at stands
    obtain ⟨other, kept, rfl⟩ := List.mem_map.1 stands
    obtain rfl : other = node := same
    simpa using (List.mem_filter.1 kept).2

/-! ## The order of the registry -/

theorem forest_of_perm {graph other : Graph Text}
    (distinct : (graph.nodes.values.map Node.id).Nodup)
    (same : other.nodes.entries.Perm graph.nodes.entries) : other.forest = graph.forest := by
  have values : other.nodes.values.Perm graph.nodes.values := same.map Prod.snd
  have files : other.filesIn = graph.filesIn := by
    funext d
    have moved : (other.filesIn d).Perm (graph.filesIn d) :=
      (filesIn_perm d).trans ((values.filter _).trans (filesIn_perm d).symm)
    refine Text.eq_of_perm_of_sorted Node.id ?_ moved (filesIn_sorted d) (filesIn_sorted d)
    intro left inLeft right inRight alike
    exact List.inj_on_of_nodup_map distinct (values.mem_iff.1 (mem_filesIn.1 inLeft).1)
      (mem_filesIn.1 inRight).1 alike
  have directories : other.directories.Perm graph.directories := by
    rw [List.perm_ext_iff_of_nodup other.directories_nodup graph.directories_nodup]
    intro d
    simp only [mem_directories, values.mem_iff]
  have below : directoriesIn other.directories = directoriesIn graph.directories :=
    funext (directoriesIn_of_perm directories)
  rw [forest, forest, files, below, directories.length_eq]

/-! ## The whole construction -/

/-- Whatever the paths of the registered files are, the construction of the tree ends. The directories
of the files, in any order, make the same directories known, and from these, in any order, the root is
filled with the children that it has in the tree and no others. What is left out of the tree are the
files with absolute paths; the others stand in it once. Nothing depends on what the root was before,
and, if no two files have one id, nothing on the order of the registry. -/
theorem construction_ends (graph : Graph Text) (flat : graph.IsFlat) :
    (∀ starts, (∀ d, d ∈ starts ↔ ∃ node ∈ graph.nodes.values, dirname node.path = d) →
      ∃ known, (∀ after, ClimbsAll [] starts after ↔ after = known) ∧
        known.Perm graph.directories ∧
        ∀ order : List Text, order.Perm known →
          (∀ children, Fills graph.filesIn order [] children ↔
            children = graph.withTree.root.children) ∧
          ∀ d ∈ known, dirname d = d → ∀ children, ¬ Fills graph.filesIn order d children) ∧
    (filesAmong graph.withTree.placed).Perm
      ((graph.nodes.values.filter fun node => !isAbsolute node.path).map fun node =>
        (dirname node.path, node)) ∧
    (∀ node ∈ graph.nodes.values,
      node ∉ graph.withTree.placed.map Prod.snd ↔ isAbsolute node.path) ∧
    (∀ root : Node Text, ({ graph with root } : Graph Text).withTree =
      { graph with root := { root with children := graph.withTree.root.children } }) ∧
    ((graph.nodes.values.map Node.id).Nodup → ∀ other : Graph Text,
      other.nodes.entries.Perm graph.nodes.entries →
        other.withTree.root.children = graph.withTree.root.children) := by
  refine ⟨fun starts all => ?_, filesAmong_perm flat, fun node => not_mem_placed_iff flat,
    fun _ => rfl, fun distinct other same => forest_of_perm distinct same⟩
  obtain ⟨known, climbs⟩ := exists_climbsAll [] starts
  have directories := perm_directories all climbs
  refine ⟨known, fun after => ⟨fun again => again.unique climbs, fun same => same ▸ climbs⟩,
    directories, fun order same => ⟨fun children => ?_, fun d inside loop children => ?_⟩⟩
  · have fills := fills_contents (same.trans directories) isAbsolute_nil
    exact ⟨fun again => again.unique fills, fun equal => equal ▸ fills⟩
  · exact not_fills_of_loop (mem_directoriesIn.2 ⟨same.mem_iff.2 inside, loop⟩)

/-- Files whose paths have no segment, open with one slash or with several, end with one or have an
empty segment. -/
def oddPaths : Graph Text where
  root := { id := rootId, name := "app", path := "/work/app", kind := Node.rootKind }
  nodes := Table.ofList (["", "//x", "/", "a//b.js", "lib/", "/a/b.js"].map
    fun p : String => ((p : Text), { id := p, name := "x", path := p, kind := "util" }))

theorem oddPaths_constructed : oddPaths.IsFlat ∧ (oddPaths.nodes.values.map Node.id).Nodup ∧
    (∀ other : Graph Text, other.nodes.entries.Perm oddPaths.nodes.entries →
      other.withTree.root.children = oddPaths.withTree.root.children) ∧
    (∀ node ∈ oddPaths.nodes.values, node ∉ oddPaths.withTree.placed.map Prod.snd ↔
      node.path ∈ (["//x", "/", "/a/b.js"] : List Text)) ∧
    ∃ known, ClimbsAll [] (oddPaths.nodes.values.map fun node => dirname node.path) known ∧
      Fills oddPaths.filesIn known.reverse [] oddPaths.withTree.root.children ∧
      ∀ children, ¬ Fills oddPaths.filesIn known.reverse "/" children := by
  have childless : oddPaths.nodes.values.all fun node => node.children.isEmpty := by decide
  have flat : oddPaths.IsFlat := by
    intro node registered
    simpa using List.all_eq_true.1 childless node registered
  have absolute : ∀ node ∈ oddPaths.nodes.values,
      isAbsolute node.path ↔ node.path ∈ (["//x", "/", "/a/b.js"] : List Text) := by decide
  have distinct : (oddPaths.nodes.values.map Node.id).Nodup := by decide
  obtain ⟨ends, -, missing, -, unordered⟩ := construction_ends oddPaths flat
  obtain ⟨known, only, directories, filled⟩ := ends _ fun d => List.mem_map
  obtain ⟨root, loops⟩ := filled known.reverse (List.reverse_perm known)
  have slash : ("/" : Text) ∈ known := by
    have own : ∃ node ∈ oddPaths.nodes.values, dirname node.path = "/" := by decide
    obtain ⟨node, registered, top⟩ := own
    exact directories.mem_iff.2 (mem_directories_iff_isAbove.2
      ⟨node, registered, by decide, 0, top⟩)
  exact ⟨flat, distinct, unordered distinct, fun node registered => (missing node registered).trans
    (absolute node registered), known, (only known).2 rfl, (root _).2 rfl, loops _ slash rfl⟩

end ModuleAtlas.Graph
