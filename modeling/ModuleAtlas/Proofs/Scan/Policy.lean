import ModuleAtlas.Proofs.Discovery.Walk
import ModuleAtlas.Proofs.Outcome
import ModuleAtlas.Scan
/-!
The two policies for files that cannot be read. A scan that stops at such a file is, notice for
notice, the scan that leaves such files out, up to the first file that is left out (`Halts`). That
holds of visiting files, is handed on by the end of the walk and by the notices in front, and so of
whole scans (`ofWord_halts`).
-/
namespace ModuleAtlas.Scan

/-- The file that a notice says is left out, and why. -/
def leftOut? : Notice → Option (Text × Text)
  | .skipped path reason => some (path, reason)
  | _ => none

/-- The files that a scan leaves out, and why, in the order of its notices. -/
def leftOut (scan : Scan) : List (Text × Text) := scan.notices.filterMap leftOut?

/-- The second scan is the first one if that leaves nothing out, and otherwise ends where the first
one leaves out its first file. -/
inductive Halts : Scan → Scan → Prop
  | whole {scan : Scan} (complete : scan.leftOut = []) : Halts scan scan
  | halted {before after : List Notice} {path reason : Text} {graph : Except ScanFault (Graph Text)}
      (first : before.filterMap leftOut? = []) :
      Halts ⟨before ++ .skipped path reason :: after, graph⟩
        ⟨before, .error (.unreadable path reason)⟩

namespace Halts
variable {skip stop : Scan}

/-- Notices in front that leave nothing out change nothing. -/
theorem behind (halts : Halts skip stop) {notices : List Notice}
    (complete : notices.filterMap leftOut? = []) :
    Halts { skip with notices := notices ++ skip.notices }
      { stop with notices := notices ++ stop.notices } := by
  cases halts with
  | whole none =>
    refine .whole ?_
    rw [leftOut] at none ⊢
    rw [List.filterMap_append, complete, none, List.append_nil]
  | halted first =>
    rw [← List.append_assoc]
    refine .halted ?_
    rw [List.filterMap_append, complete, first, List.append_nil]

/-- What the end of the walk makes of two scans. -/
theorem concluded (halts : Halts skip stop) (root : Text) (fault : Option Discovery.WalkFault) :
    Halts (conclude root fault skip) (conclude root fault stop) := by
  cases halts with
  | whole none =>
    refine .whole ?_
    rw [leftOut] at none
    simp only [conclude]
    split <;> simp [leftOut, leftOut?, none]
  | @halted before after path reason graph first =>
    cases graph with
    | error cause => exact .halted first
    | ok graph =>
      cases fault with
      | some cause => exact .halted first
      | none =>
        simp only [conclude, List.append_assoc, List.cons_append]
        exact .halted first

/-- A scan that leaves nothing out is the one that stops. -/
theorem eq_of_complete (halts : Halts skip stop) (complete : skip.leftOut = []) : stop = skip := by
  cases halts with
  | whole => rfl
  | halted first => simp [leftOut, leftOut?] at complete

/-- The first file that one scan leaves out ends the other. -/
theorem of_first (halts : Halts skip stop) {path reason : Text}
    (first : skip.leftOut.head? = some (path, reason)) :
    stop.graph = .error (.unreadable path reason) ∧
      ∃ later, skip.notices = stop.notices ++ .skipped path reason :: later := by
  cases halts with
  | whole complete => simp [complete] at first
  | halted before =>
    simp only [leftOut, List.filterMap_append, before, List.filterMap_cons, leftOut?,
      List.nil_append, List.head?_cons, Option.some.injEq, Prod.mk.injEq] at first
    obtain ⟨rfl, rfl⟩ := first
    exact ⟨rfl, _, rfl⟩

/-- The scan that stops fails for a file exactly if the other one leaves some file out. -/
theorem unreadable_iff (halts : Halts skip stop)
    (other : ∀ path reason, skip.graph ≠ .error (.unreadable path reason)) :
    (∃ path reason, stop.graph = .error (.unreadable path reason)) ↔ skip.leftOut ≠ [] := by
  cases halts with
  | whole complete => simp [complete, other]
  | halted first => simp [leftOut, leftOut?]

/-- No file is left out of the scan that stops. -/
theorem leftOut_eq_nil (halts : Halts skip stop) : stop.leftOut = [] := by
  cases halts with
  | whole complete => exact complete
  | halted first => exact first

end Halts

/-- Visiting files that may be left out, and visiting them up to the first that cannot be read. -/
theorem visit_halts (project : Project) (places : List Place) (graph : Graph Text) :
    Halts (visit project .skip places graph) (visit project .stop places graph) := by
  induction places generalizing graph with
  | nil => exact .whole rfl
  | cons place places ih =>
    simp only [visit]
    split
    · exact @Halts.halted [] _ _ _ _ rfl
    · split
      · exact ih _
      · split
        · exact ih _
        · exact .whole rfl

end Scan

namespace Configuration

/-- The notice about a document leaves no file out. -/
theorem leftOut?_of_decide? {files : FileSystem} {name p : Text} {kind : Kind} {settings : Settings}
    {document : Option (List (Value × Value))} {ended : Option Settings} {notice : Notice}
    (decided : decide? files name p kind settings document = .ok (ended, notice)) :
    Scan.leftOut? notice = none := by
  rw [decide?.eq_def] at decided
  split at decided
  · cases decided
    rfl
  · split at decided
    · cases decided
      rfl
    · obtain ⟨applied, -, same⟩ := map_eq_ok.1 decided
      cases same
      rfl

/-- Finding settings leaves no file out. -/
theorem leftOut_of_search {files : FileSystem} {root : Text} {candidates : List (Text × Kind)}
    {settings found : Settings} {notices : List Notice}
    (loaded : search files root candidates settings = .ok (found, notices)) :
    notices.filterMap Scan.leftOut? = [] := by
  induction candidates generalizing settings notices with
  | nil =>
    rw [search] at loaded
    obtain ⟨last, -, same⟩ := map_eq_ok.1 loaded
    cases same
    rfl
  | cons candidate candidates ih =>
    obtain ⟨name, kind⟩ := candidate
    simp only [search] at loaded
    split at loaded
    · cases loaded
    · exact ih loaded
    · split at loaded
      · split at loaded
        · cases loaded
        · exact ih loaded
      · split at loaded
        · cases loaded
        · split at loaded
          · cases loaded
          · rename_i decided
            cases loaded
            simp [leftOut?_of_decide? decided]
          · rename_i decided
            obtain ⟨⟨later, others⟩, more, same⟩ := map_eq_ok.1 loaded
            cases same
            simp [leftOut?_of_decide? decided, ih more]

end Configuration

namespace Scan
variable (files : FileSystem) (scope : Discovery.Scope) (root : Text)

theorem ofRealRoot_halts :
    Halts (ofRealRoot files .skip scope root) (ofRealRoot files .stop scope root) := by
  simp only [ofRealRoot]
  split
  · exact .whole rfl
  · rename_i settings notices loaded
    have complete := Configuration.leftOut_of_search loaded
    exact ((visit_halts _ _ _).concluded root _).behind complete

theorem ofWord_halts :
    Halts (ofWord files "skip" scope root) (ofWord files "raise" scope root) := by
  have skip : ReadPolicy.ofWord? "skip" = some .skip := rfl
  have stop : ReadPolicy.ofWord? "raise" = some .stop := rfl
  simp only [ofWord, skip, stop, ofPath]
  split
  · exact .whole rfl
  · exact .whole rfl
  · split
    · exact .whole rfl
    · exact ofRealRoot_halts files scope _
  · exact .whole rfl

/-- The two policies agree. If a scan leaves no file out, the scan that stops at files that cannot
be read is the same: it has the same notices and the same graph, or the same fault. Otherwise it
fails for the first file that is left out, with the reason given there, whatever becomes of the
other scan; it has told what that one has told before, and no file is left out of it. -/
theorem policies_agree :
    let skip := ofWord files "skip" scope root
    let stop := ofWord files "raise" scope root
    (skip.leftOut = [] → stop = skip) ∧
    ∀ path reason, skip.leftOut.head? = some (path, reason) →
      stop.graph = .error (.unreadable path reason) ∧
      (∃ later, skip.notices = stop.notices ++ .skipped path reason :: later) ∧
      stop.leftOut = [] ∧
      (Notice.skipped path reason).text = "Skipping unreadable file " ++ path ++ ": " ++ reason ∧
      (ScanFault.unreadable path reason).message = "Cannot read " ++ path ++ ": " ++ reason := by
  have halts := ofWord_halts files scope root
  exact ⟨halts.eq_of_complete, fun path reason first => ⟨(halts.of_first first).1,
    (halts.of_first first).2, halts.leftOut_eq_nil, rfl, rfl⟩⟩

/-- A project with a file that cannot be read in front of a directory that cannot be listed. -/
def locked : FileSystem where
  tree :=
    { entries := [(["p"], .directory), (["p", "a.js"], .file []), (["p", "z"], .directory)]
      distinct := by decide
      named := by decide
      housed := by decide }
  unreadable := ["/p/a.js"]
  unlistable := ["/p/z"]

/-- What is said about the file. -/
def lockedReason : Text := "[Errno 13] Permission denied: '/p/a.js'"

theorem sourceFiles_locked : Discovery.sourceFiles locked {} "/p" =
    ⟨[["p", "a.js"]], some (.listing "/p/z" ⟨.denied, "/p/z"⟩)⟩ := by
  have outer : locked.list (Place.path ["p"]) = .ok ["a.js", "z"] :=
    FileSystem.list_of_located rfl rfl rfl (by decide)
  have first : Discovery.entryFiles (Discovery.walk locked {} 3) locked {} ["p"] "a.js" =
      ⟨[["p", "a.js"]], none⟩ := rfl
  have second : Discovery.entryFiles (Discovery.walk locked {} 3) locked {} ["p"] "z" =
      Discovery.walk locked {} 3 ["p", "z"] := rfl
  have inner : Discovery.walk locked {} 3 ["p", "z"] =
      ⟨[], some (.listing "/p/z" ⟨.denied, "/p/z"⟩)⟩ := rfl
  show Discovery.walk locked {} 4 ["p"] = _
  rw [Discovery.walk, outer]
  simp only [List.map_cons, first, second, inner]
  rfl

theorem skip_locked : ofWord locked "skip" {} "/p" =
    ⟨[.skipped "a.js" (FileFault.message ⟨.denied, "/p/a.js"⟩)],
      .error (.walk (.listing "/p/z" ⟨.denied, "/p/z"⟩))⟩ := by
  have real : locked.realPath (Path.clean "/p") = .ok "/p" := rfl
  have leads : locked.target? (Path.clean "/p") = .ok (some .directory) := rfl
  have settings : Configuration.load locked "/p" = .ok ({}, []) := rfl
  have skip : ReadPolicy.ofWord? "skip" = some .skip := rfl
  simp only [ofWord, skip, ofPath, leads, real, ofRealRoot, settings, sourceFiles_locked]
  rfl

/-- The scan that stops fails for the file, although the other one fails for the directory. -/
theorem locked_agrees :
    (ofWord locked "skip" {} "/p").leftOut.head? = some (("a.js", lockedReason) : Text × Text) ∧
    (ofWord locked "skip" {} "/p").graph =
      .error (.walk (.listing "/p/z" ⟨.denied, "/p/z"⟩)) ∧
    (ofWord locked "raise" {} "/p").graph = .error (.unreadable "a.js" lockedReason) := by
  have first :
      (ofWord locked "skip" {} "/p").leftOut.head? = some (("a.js", lockedReason) : Text × Text) := by
    have told : FileFault.message ⟨.denied, "/p/a.js"⟩ = lockedReason := by decide +kernel
    rw [skip_locked, told]
    rfl
  refine ⟨first, by rw [skip_locked], ?_⟩
  exact ((policies_agree locked {} "/p").2 "a.js" lockedReason first).1

end Scan
end ModuleAtlas
