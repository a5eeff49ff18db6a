import ModuleAtlas.CommandLine.Run
import ModuleAtlas.Proofs.Configuration.Precedence
import ModuleAtlas.Proofs.Json.Printer
import ModuleAtlas.Proofs.Saving.Outcome
import ModuleAtlas.Proofs.Scan.Isolation
/-!
What a run of the command comes to, with arguments that are accepted and a project whose scan has a
graph or a fault of the project. The run ends with code 0, when the graph has been put out in one
place and saved if that was asked for, or with code 1, when nothing has been put out (`Outcome`).
Otherwise it breaks off, and exactly in these cases: a path that is used can be no path, the home of
the user is needed and unknown, or the drawing that is to be put out has a surrogate, which neither a
file nor the standard output takes (`BreaksOff`, `run_ends`). Each of the steps hands on a file system
in which the next one can work: saving adds directories and one file, and putting out gives one file
its bytes.
-/
namespace ModuleAtlas
open ModuleAtlas.Path FileTree FileSystem

namespace Scan

/-- The scan has a graph, or a fault of the project. -/
def Ends (scan : Scan) : Prop :=
  (∃ graph, scan.graph = .ok graph) ∨ ∃ fault, scan.graph = .error fault ∧ fault.isOfProject

variable {files : FileSystem} {policy : ReadPolicy} {scope : Discovery.Scope} {root : Text}
  {graph : Graph Text}

/-- Whether there is something at the root can be told where a scan ends. -/
theorem Ends.target? (ends : (ofPath files policy scope root).Ends) :
    ∃ entry, files.target? (clean root) = .ok entry := by
  cases checked : files.target? (clean root) with
  | ok entry => exact ⟨entry, rfl⟩
  | error fault =>
    rw [ofPath, checked] at ends
    obtain ⟨graph, scanned⟩ | ⟨other, failed, ofProject⟩ := ends
    · cases scanned
    · cases failed
      cases ofProject

/-- The root of the graph has the name of the directory that has been scanned. -/
theorem name_of_scanned (scanned : (ofRealRoot files policy scope root).graph = .ok graph) :
    graph.root.name = name root := by
  obtain ⟨settings, notices, raw, -, -, visited, rfl⟩ := ofRealRoot_eq_ok scanned
  have kept : raw.root = (Graph.ofDirectory (name root) root).root := (visits_of_visit visited).entries.1
  exact congrArg Node.name kept

/-- A file can have the name of the root of a graph in its own. -/
theorem proper_name (sound : files.IsSound)
    (scanned : (ofPath files policy scope root).graph = .ok graph) :
    .scalar '/' ∉ graph.root.name ∧ graph.root.name.IsLegal := by
  obtain ⟨real, -, found, returned⟩ := ofPath_eq_ok scanned
  have path := (sound.realPath found).1
  rw [name_of_scanned returned, name]
  cases last : (segments real).getLast? with
  | none => exact ⟨by simp, by simp [Text.IsLegal]⟩
  | some segment =>
    have inside := List.mem_of_getLast? last
    exact ⟨Text.not_mem_of_mem_splitOn (List.mem_filter.1 inside).1,
      isLegal_segments_iff.2 path segment inside⟩

end Scan

namespace CommandLine

/-! ## What is asked for -/

section
variable (options : Options) (environment : Environment) (now : Moment) (files : FileSystem)

/-- The scan that the run makes has this graph: the scan of the project at the real root, under the
policy that the options choose. -/
def Scans (graph : Graph Text) : Prop :=
  ∃ root, files.realPath options.root = .ok root ∧
    (Scan.ofPath files (if options.strict then .stop else .skip) {} root).graph = .ok graph

/-- The text of a graph that is to be put out: its document, or its drawing in the style and with the
imports that the options choose. -/
inductive Asks (graph : Graph Text) : Text → Prop
  | document (undrawn : options.drawn = false) : Asks graph (graph.text (.indented 2))
  | box (drawn : options.drawn = true) (style : options.plainStrokes = false) :
      Asks graph (graph.drawing .box options.showImports)
  | plain (drawn : options.drawn = true) (style : options.plainStrokes = true) :
      Asks graph (graph.drawing .plain options.showImports)

/-- The directory in which graphs are to be saved: the one that the options name, or else the one that
the environment names. -/
inductive Houses : Text → Prop
  | given {directory : Text} (named : options.dataDirectory = some directory) : Houses directory
  | usual {directory : Text} (unnamed : options.dataDirectory = none)
      (known : environment.saveDirectory? = some directory) : Houses directory

/-- The run gets as far as putting the graph out: it need not be saved, or has been. -/
inductive GoesOn (graph : Graph Text) : FileSystem → Prop
  | unsaved (unasked : options.save = false) : GoesOn graph files
  | saved {directory p : Text} {saved : FileSystem} (asked : options.save = true)
      (houses : Houses options environment directory)
      (run : Saving.save files directory now graph = (saved, .ok p)) : GoesOn graph saved

/-! ## What there is in the end -/

/-- The run breaks off without an exit code. -/
inductive BreaksOff : Prop
  /-- The root can be no path. -/
  | root (illegal : ¬ options.root.IsLegal)
  /-- The graph is to be saved in the home of the user, which is unknown. -/
  | homeless {graph : Graph Text} (scans : Scans options files graph) (asked : options.save = true)
      (unnamed : options.dataDirectory = none) (unknown : environment.saveDirectory? = none)
  /-- The directory in which the graph is to be saved can be no path. -/
  | directory {graph : Graph Text} {directory : Text} (scans : Scans options files graph)
      (asked : options.save = true) (houses : Houses options environment directory)
      (illegal : ¬ directory.IsLegal)
  /-- The file for the output can be no path. -/
  | output {graph : Graph Text} {saved : FileSystem} {c : CodePoint} {p : Text}
      (scans : Scans options files graph) (goesOn : GoesOn options environment now files graph saved)
      (named : options.output = some (c :: p)) (illegal : ¬ Text.IsLegal (c :: p))
  /-- The graph is to be drawn, the drawing has a surrogate, and the file for it can be opened if there
  is to be one. -/
  | drawing {graph : Graph Text} {saved : FileSystem} {text : Text}
      (scans : Scans options files graph) (goesOn : GoesOn options environment now files graph saved)
      (drawn : options.drawn = true) (asks : Asks options graph text) (surrogate : ¬ text.IsScalar)
      (opens : ∀ c p, options.output = some (c :: p) →
        ∃ after, saved.write (clean (c :: p)) [] = .ok after)

/-- The graph has been saved in one new file if that was asked for. Apart from directories on the way
to this file nothing has changed. -/
inductive IsSaved (graph : Graph Text) : FileSystem → Option Place → Prop
  | not (unasked : options.save = false) : IsSaved graph files none
  | new {saved : FileSystem} {place : Place} (asked : options.save = true)
    (gains : Saving.GainsFile files saved place (Text.utf8 (graph.text (.indented 2)))) :
    IsSaved graph saved (some place)

/-- The text has been put out in one place: on the standard output, with a line feed, or as it stands
in the file that the options name. -/
inductive IsPut (saved : FileSystem) (text : Text) (result : Result) : Prop
  | printed (nowhere : ∀ c p, options.output ≠ some (c :: p))
    (output : result.output = text ++ [.scalar '\n']) (same : result.files = saved)
  | written {c : CodePoint} {p : Text} {place : Place} (named : options.output = some (c :: p))
    (output : result.output = [])
    (writes : Writes saved result.files (clean (c :: p)) place (Text.utf8 text))

/-- What a run has come to. -/
inductive Outcome (result : Result) : Prop
  /-- The run has failed. It has put nothing out: all that was there is as it was, and if the path for
  the output leads to a file, this was there with the same bytes. -/
  | failed (code : result.ending = .ok 1) (output : result.output = [])
    (kept : files.tree.Grows result.files.tree)
    (untouched : ∀ p place bytes, options.output = some p →
      result.files.locate true (clean p) = .ok (.entry place (.file bytes)) →
        files.tree.lookup? place = some (.file bytes))
  /-- The graph of the scan has been put out, after it has been saved if that was asked for. It is
  still in a file that was not there before, unless that is where it has been put out. -/
  | done {graph : Graph Text} {text : Text} {saved : FileSystem} {new : Option Place}
    (code : result.ending = .ok 0) (scans : Scans options files graph)
    (asks : Asks options graph text) (isSaved : IsSaved options files graph saved new)
    (isPut : IsPut options saved text result)
    (stays : ∀ place ∈ new, files.tree.lookup? place = none ∧
      (result.files.tree.lookup? place = some (.file (Text.utf8 (graph.text (.indented 2)))) ∨
        ∃ p, options.output = some p ∧ result.files.locate true (clean p) =
          .ok (.entry place (.file (Text.utf8 text)))))
  /-- The run has broken off. It has put nothing out, but the file for the output may be empty now. -/
  | broken {why : Breakdown} (ending : result.ending = .error why) (output : result.output = [])
    (left : ∀ c p place bytes, options.output = some (c :: p) →
      result.files.locate true (clean (c :: p)) = .ok (.entry place (.file bytes)) →
        bytes = [] ∨ files.tree.lookup? place = some (.file bytes))

end

/-! ## The steps of a run -/

section
variable {options : Options} {environment : Environment} {now : Moment}
  {files saved : FileSystem} {graph : Graph Text} {text : Text} {new : Option Place}

theorem asks_render (graph : Graph Text) : Asks options graph (options.render graph) := by
  rw [Options.render]
  cases drawn : options.drawn with
  | false => exact .document drawn
  | true =>
    cases style : options.plainStrokes with
    | false => exact .box drawn style
    | true => exact .plain drawn style

theorem Asks.eq_render (asks : Asks options graph text) : text = options.render graph := by
  rw [Options.render]
  cases asks with
  | document undrawn => rw [undrawn]; rfl
  | box drawn style => rw [drawn, style]; rfl
  | plain drawn style => rw [drawn, style]; rfl

/-- The document of a graph has no surrogate. -/
theorem Asks.drawn (asks : Asks options graph text) (surrogate : ¬ text.IsScalar) :
    options.drawn = true := by
  cases asks with
  | document => exact absurd (Json.isBasic_text _ _).isScalar surrogate
  | box drawn => exact drawn
  | plain drawn => exact drawn

theorem houses_iff {directory : Text} :
    (options.dataDirectory.orElse fun _ => environment.saveDirectory?) = some directory ↔
      Houses options environment directory := by
  constructor
  · intro house
    cases named : options.dataDirectory with
    | none => exact .usual named (by simpa [named] using house)
    | some other => exact .given (by simpa [named] using house)
  · intro houses
    cases houses with
    | given named => rw [named]; rfl
    | usual unnamed known => rw [unnamed, ← known]; rfl

theorem homeless_iff :
    (options.dataDirectory.orElse fun _ => environment.saveDirectory?) = none ↔
      options.dataDirectory = none ∧ environment.saveDirectory? = none := by
  cases options.dataDirectory <;> simp

/-- The new file keeps its bytes when the graph is put out elsewhere. -/
theorem IsPut.stays {result : Result} (isPut : IsPut options saved text result)
    {place : Place} {bytes : List UInt8} (held : saved.tree.lookup? place = some (.file bytes)) :
    result.files.tree.lookup? place = some (.file bytes) ∨
      ∃ p, options.output = some p ∧
        result.files.locate true (clean p) = .ok (.entry place (.file (Text.utf8 text))) := by
  cases isPut with
  | printed _ _ same => exact .inl (same ▸ held)
  | @written c p target named _ writes =>
    by_cases here : place = target
    · exact .inr ⟨_, named, here ▸ writes.found⟩
    · exact .inl ((writes.others place here).trans held)

/-- What putting a text out has come to. -/
inductive Putting (options : Options) (saved : FileSystem) (text : Text) (result : Result) : Prop
  | put (code : result.ending = .ok 0) (isPut : IsPut options saved text result)
  /-- The path for the output leads to no file. -/
  | refused (code : result.ending = .ok 1) (output : result.output = []) (same : result.files = saved)
    (noFile : ∀ p place bytes, options.output = some p →
      saved.locate true (clean p) ≠ .ok (.entry place (.file bytes)))
  | illegal {why : Breakdown} {c : CodePoint} {p : Text} (ending : result.ending = .error why)
    (output : result.output = []) (named : options.output = some (c :: p))
    (illegal : ¬ Text.IsLegal (c :: p))
  /-- The file for the output has been opened and is empty. -/
  | unencodable {why : Breakdown} (ending : result.ending = .error why) (output : result.output = [])
    (surrogate : ¬ text.IsScalar)
    (opens : ∀ c p, options.output = some (c :: p) →
      ∃ after, saved.write (clean (c :: p)) [] = .ok after)
    (empty : ∀ c p place bytes, options.output = some (c :: p) →
      result.files.locate true (clean (c :: p)) = .ok (.entry place (.file bytes)) → bytes = [])

/-- Putting a text out in files without odd links. -/
theorem putting_putOut (clear : saved.tree.IsClear) (errors : List Text) (text : Text) :
    Putting options saved text (putOut options saved errors text) := by
  rw [putOut]
  split
  · rename_i c p named
    by_cases legal : Text.IsLegal (c :: p)
    · rcases write_cases clear (isLegal_clean_iff.2 legal) ((Text.utf8? text).getD []) with
        ⟨after, place, wrote, writes⟩ | ⟨fault, failed, known, noFile⟩
      · simp only [wrote]
        by_cases scalar : text.IsScalar
        · rw [if_pos scalar]
          rw [Text.utf8?, if_pos scalar] at writes
          exact .put rfl (.written named rfl writes)
        · -- The file is opened, and so is empty, before the text turns out to have no bytes.
          rw [if_neg scalar]
          rw [Text.utf8?, if_neg scalar] at wrote writes
          refine .unencodable rfl rfl scalar (fun d q same => ?_) fun d q target bytes same found => ?_
          · cases named.symm.trans same
            exact ⟨after, wrote⟩
          · cases named.symm.trans same
            cases writes.found.symm.trans found
            rfl
      · simp only [failed, ofFault, known]
        refine .refused rfl rfl rfl fun q place bytes same => ?_
        cases named.symm.trans same
        exact noFile place bytes
    · obtain ⟨cause, refused, failed⟩ := write_of_not_isLegal saved
        (fun other => legal (isLegal_clean_iff.1 other)) ((Text.utf8? text).getD [])
      simp only [failed, ofFault, refused, if_true]
      exact .illegal rfl rfl named legal
  · rename_i nowhere
    by_cases scalar : text.IsScalar
    · rw [if_pos scalar]
      exact .put rfl (.printed nowhere rfl rfl)
    · rw [if_neg scalar]
      exact .unencodable rfl rfl scalar (fun c p same => absurd same (nowhere c p))
        fun c p _ _ same => absurd same (nowhere c p)

/-- What a run has come to when it has tried to put the graph out. -/
theorem Putting.outcome {result : Result}
    (putting : Putting options saved (options.render graph) result)
    (scans : Scans options files graph) (isSaved : IsSaved options files graph saved new)
    (goesOn : GoesOn options environment now files graph saved) :
    Outcome options files result ∧
      ∀ why, result.ending = .error why → BreaksOff options environment now files := by
  have asks : Asks options graph (options.render graph) := asks_render graph
  cases putting with
  | put code isPut =>
    refine ⟨.done code scans asks isSaved isPut fun place among => ?_, by simp [code]⟩
    cases isSaved with
    | not => cases among
    | new _ gains =>
      cases among
      exact ⟨gains.free, isPut.stays gains.found⟩
  | refused code output same noFile =>
    have grows : files.tree.Grows saved.tree := by
      cases isSaved with
      | not => exact List.prefix_refl _
      | new _ gains => exact gains.grows
    refine ⟨.failed code output (same ▸ grows) fun p place bytes named located => ?_, by simp [code]⟩
    rw [same] at located
    exact absurd located (noFile p place bytes named)
  | illegal ending output named illegal =>
    refine ⟨.broken ending output fun d q place bytes same located => ?_, fun _ _ =>
      .output scans goesOn named illegal⟩
    cases named.symm.trans same
    exact absurd (isLegal_clean_iff.1 (isLegal_of_locate located)) illegal
  | unencodable ending output surrogate opens empty =>
    exact ⟨.broken ending output fun c p place bytes named located =>
        .inl (empty c p place bytes named located),
      fun _ _ => .drawing scans goesOn (asks.drawn surrogate) asks surrogate opens⟩

/-- A run that has got no further than this has left the files as they were. -/
theorem broken_of_same {result : Result} {why : Breakdown} (ending : result.ending = .error why)
    (output : result.output = []) (same : result.files = files) : Outcome options files result := by
  refine .broken ending output fun c p place bytes _ located => .inr ?_
  rw [same] at located
  exact lookup?_of_locate located

theorem failed_of_same {result : Result} (code : result.ending = .ok 1) (output : result.output = [])
    (same : result.files = files) : Outcome options files result := by
  refine .failed code output (same ▸ List.prefix_refl _) fun p place bytes _ located => ?_
  rw [same] at located
  exact lookup?_of_locate located

/-- A run that has the graph saves it if that is asked for, and goes on to put it out. -/
theorem finish_outcome (sound : files.IsSound) (scans : Scans options files graph)
    (noSlash : .scalar '/' ∉ graph.root.name) (legal : graph.root.name.IsLegal) (errors : List Text) :
    Outcome options files (finish options environment now files errors graph) ∧
      ∀ why, (finish options environment now files errors graph).ending = .error why →
        BreaksOff options environment now files := by
  rw [finish]
  cases asked : options.save with
  | false => exact (putting_putOut sound.links errors _).outcome scans (.not asked) (.unsaved asked)
  | true =>
    rw [if_pos rfl]
    split
    · rename_i nowhere
      obtain ⟨unnamed, unknown⟩ := homeless_iff.1 nowhere
      exact ⟨broken_of_same rfl rfl rfl, fun _ _ => .homeless scans asked unnamed unknown⟩
    rename_i directory house
    have houses : Houses options environment directory := houses_iff.1 house
    by_cases path : directory.IsLegal
    · have noSlash : .scalar '/' ∉ Label.shown graph.root.name := noSlash
      rcases Saving.save_cases sound.links path noSlash legal now with
        ⟨saved, p, place, run, gains⟩ | ⟨after, fault, run, gains, known⟩
      · rw [run]
        exact (putting_putOut (gains.isClear sound.links) _ _).outcome scans (.new asked gains)
          (.saved asked houses run)
      · -- What is new then are directories on the way, so every file is as it was.
        rw [run]
        simp only [afterSaving, ofFault, known]
        exact ⟨.failed rfl rfl gains.grows fun p place bytes _ located =>
          gains.file (lookup?_of_locate located), by simp⟩
    · obtain ⟨fault, failed, refused⟩ := Saving.save_of_not_isLegal files path now graph
      rw [failed]
      simp only [afterSaving, ofFault, refused, if_true]
      exact ⟨broken_of_same rfl rfl rfl, fun _ _ => .directory scans asked houses path⟩

end

/-! ## Whole runs -/

section
variable {options : Options} {environment : Environment} {now : Moment} {files : FileSystem}
  {graph : Graph Text}

/-- The root is a directory if and only if the scan says so. -/
theorem isDirectory_root (sound : files.IsSound) {root : Text}
    (real : files.realPath options.root = .ok root) {entry : Option Entry}
    (checked : files.target? (clean root) = .ok entry) :
    files.isDirectory root = .ok (entry == some .directory) := by
  rw [(sound.realPath real).2] at checked
  rw [isDirectory, checked]
  rfl

/-- A run whose scan has a graph goes on with it. -/
theorem execute_of_scans (sound : files.IsSound) (scans : Scans options files graph) :
    ∃ told, execute options environment now files =
      finish options environment now files told graph := by
  obtain ⟨root, real, scanned⟩ := scans
  obtain ⟨_, leads, -, -⟩ := Scan.ofPath_eq_ok scanned
  rw [execute, real]
  simp only [Except.bind, isDirectory_root sound real leads, Except.map, Options.policy, scanned,
    beq_self_eq_true]
  exact ⟨_, rfl⟩

theorem execute_outcome (sound : files.IsSound)
    (straight : ∀ fault, files.realPath options.root = .error fault → fault.cause ≠ .linkLoop)
    (ends : ∀ root, files.realPath options.root = .ok root →
      (Scan.ofPath files (if options.strict then .stop else .skip) {} root).Ends) :
    Outcome options files (execute options environment now files) ∧
      ∀ why, (execute options environment now files).ending = .error why →
        BreaksOff options environment now files := by
  cases real : files.realPath options.root with
  | error fault =>
    have illegal : ¬ options.root.IsLegal := fun legal => by
      obtain ⟨root, found⟩ | ⟨other, failed, circle⟩ := realPath_cases legal
      · cases real.symm.trans found
      · cases real.symm.trans failed
        exact straight fault real circle
    rw [execute, real]
    exact ⟨broken_of_same rfl rfl rfl, fun _ _ => .root illegal⟩
  | ok root =>
    rcases ends root real with ⟨graph, scanned⟩ | ⟨fault, failed, ofProject⟩
    · have scans : Scans options files graph := ⟨root, real, scanned⟩
      obtain ⟨noSlash, legal⟩ := Scan.proper_name sound scanned
      obtain ⟨told, goes⟩ := execute_of_scans sound scans
      rw [goes]
      exact finish_outcome sound scans noSlash legal told
    · obtain ⟨entry, checked⟩ := (ends root real).target?
      rw [execute, real]
      simp only [Except.bind, isDirectory_root sound real checked, Except.map, Options.policy]
      cases entry == some .directory with
      | false => exact ⟨failed_of_same rfl rfl rfl, by simp⟩
      | true =>
        simp only [failed, ofProject, if_true]
        exact ⟨failed_of_same rfl rfl rfl, by simp⟩

/-- Where a run has saved the graph, if that was asked for, it puts the text out that is asked for. -/
theorem finish_of_goesOn {saved : FileSystem} {text : Text} (asks : Asks options graph text)
    (goesOn : GoesOn options environment now files graph saved) (errors : List Text) :
    ∃ told, finish options environment now files errors graph = putOut options saved told text := by
  rw [finish, asks.eq_render]
  cases goesOn with
  | unsaved unasked =>
    rw [unasked]
    exact ⟨errors, rfl⟩
  | saved asked houses run =>
    rw [if_pos asked, houses_iff.2 houses]
    simp only [run, afterSaving]
    exact ⟨_, rfl⟩

/-- A run breaks off wherever it is said to. -/
theorem BreaksOff.execute (sound : files.IsSound)
    (breaks : BreaksOff options environment now files) :
    ∃ why, (execute options environment now files).ending = .error why := by
  cases breaks with
  | root illegal =>
    rw [CommandLine.execute]
    cases real : files.realPath options.root with
    | error fault => exact ⟨_, rfl⟩
    | ok root => exact absurd (realPath_eq_ok_iff.1 real).1 illegal
  | homeless scans asked unnamed unknown =>
    obtain ⟨told, goes⟩ := execute_of_scans sound scans
    rw [goes, finish, if_pos asked, homeless_iff.2 ⟨unnamed, unknown⟩]
    exact ⟨_, rfl⟩
  | @directory graph directory scans asked houses illegal =>
    obtain ⟨told, goes⟩ := execute_of_scans sound scans
    obtain ⟨fault, failed, refused⟩ := Saving.save_of_not_isLegal files illegal now graph
    rw [goes, finish, if_pos asked, houses_iff.2 houses]
    simp only [failed, afterSaving, ofFault, refused, if_true]
    exact ⟨_, rfl⟩
  | @output graph saved c p scans goesOn named illegal =>
    obtain ⟨told, goes⟩ := execute_of_scans sound scans
    obtain ⟨said, put⟩ := finish_of_goesOn (asks_render graph) goesOn told
    obtain ⟨cause, refused, failed⟩ := write_of_not_isLegal saved
      (fun legal => illegal (isLegal_clean_iff.1 legal)) ((Text.utf8? (options.render graph)).getD [])
    rw [goes, put, putOut, named]
    simp only [failed, ofFault, refused, if_true]
    exact ⟨_, rfl⟩
  | @drawing graph saved text scans goesOn drawn asks surrogate opens =>
    obtain ⟨told, goes⟩ := execute_of_scans sound scans
    obtain ⟨said, put⟩ := finish_of_goesOn asks goesOn told
    rw [goes, put, putOut]
    split
    · rename_i c p named
      obtain ⟨after, wrote⟩ := opens c p named
      rw [Text.utf8?, if_neg surrogate]
      simp only [Option.getD_none, wrote, if_neg surrogate]
      exact ⟨_, rfl⟩
    · rw [if_neg surrogate]
      exact ⟨_, rfl⟩

/-- The arguments are accepted, the root is no link that leads back to itself, and the scan of the
project has a graph or a fault of the project. Then the run ends with code 1 and has put nothing out,
or with code 0 and has put the graph of the scan out in one place, and saved it in a new file if that
was asked for. Or it breaks off, which it does if and only if a path that it uses can be no path, it
needs a home that is unknown, or it is to put out a drawing with a surrogate. -/
theorem run_ends {arguments : List Text} (accepted : Options.ofTexts arguments = .ok options)
    (sound : files.IsSound)
    (straight : ∀ fault, files.realPath options.root = .error fault → fault.cause ≠ .linkLoop)
    (ends : ∀ root, files.realPath options.root = .ok root →
      (Scan.ofPath files (if options.strict then .stop else .skip) {} root).Ends)
    (environment : Environment) (now : Moment) :
    Outcome options files (run arguments environment now files) ∧
      ((∃ why, (run arguments environment now files).ending = .error why) ↔
        BreaksOff options environment now files) := by
  rw [run, accepted]
  obtain ⟨outcome, because⟩ := execute_outcome sound straight ends
  exact ⟨outcome, fun ⟨why, ending⟩ => because why ending, BreaksOff.execute sound⟩

end

/-! ## Two runs -/

/-- A compiler configuration whose base is a lone surrogate. -/
def loneBase : Text := "\x7b\"compilerOptions\": \x7b\"baseUrl\": \"\\ud800\"\x7d\x7d"

/-- The directory that this base is. -/
def loneName : Text := [.ofNat 0xD800]

def loneEntries : List (Value × Value) :=
  [(.text "compilerOptions", .map [(.text "baseUrl", .text loneName)])]

def loneImport : Text := "import b from 'x/b'"

/-- A project with this configuration and a file that imports from below the base. -/
def lone : FileSystem where
  tree :=
    { entries := [(["p"], .directory), (["p", "a.js"], .file (Text.utf8 loneImport)),
        (["p", "tsconfig.json"], .file (Text.utf8 loneBase))]
      distinct := by decide
      named := by decide
      housed := by decide }

def loneSettings : Settings := { baseUrl := loneName, source := some "tsconfig.json" }

theorem read_lone : Configuration.document? lone "/p/tsconfig.json" = .ok (some loneEntries) := by cbv

theorem load_lone : Configuration.load lone "/p" =
    .ok (loneSettings, [.configured "tsconfig.json" loneName 0]) := by
  have absent : lone.isFile (child "/p" "jsconfig.json") = .ok false := rfl
  have counts : Configuration.Counts lone (child "/p" "tsconfig.json") .compiler loneEntries :=
    ⟨rfl, by decide, read_lone, by decide⟩
  have real : lone.realPath (child "/p" "tsconfig.json") = .ok "/p/tsconfig.json" := by decide +kernel
  have applied : Configuration.apply lone (child "/p" "tsconfig.json") .compiler loneEntries {} =
      .ok { baseUrl := loneName } := by
    rw [Configuration.apply, Configuration.compilerOptions, real]
    rfl
  rw [Configuration.load, Configuration.candidates, Configuration.search]
  simp only [absent]
  rw [Configuration.search_of_counts counts]
  exact map_eq_ok.2 ⟨_, applied, rfl⟩

theorem sourceFiles_lone : Discovery.sourceFiles lone {} "/p" = ⟨[["p", "a.js"]], none⟩ := by
  have listed : lone.list (Place.path ["p"]) = .ok ["a.js", "tsconfig.json"] :=
    FileSystem.list_of_located rfl rfl rfl (by decide)
  show Discovery.walk lone {} 4 ["p"] = _
  rw [Discovery.walk, listed]
  rfl

/-- The node of the file. -/
def loneNode : Node Text :=
  { id := "a.js", name := "a", path := "a.js", kind := "util", imports := [loneName ++ "/x/b"] }

theorem nodeOf_lone :
    Scan.nodeOf { files := lone, root := "/p", settings := loneSettings } ["p", "a.js"] =
      .ok loneNode := by
  have content : lone.lenientText (Place.path ["p", "a.js"]) = .ok loneImport :=
    Scan.lenientText_of_bytes rfl (by decide +kernel) (by decide +kernel)
  have means : Resolution.targets lone loneImport (parent (Place.path ["p", "a.js"])) "/p" loneSettings =
      .ok [loneName ++ "/x/b"] := by decide +kernel
  have role : Source.classify loneImport (name (Place.path ["p", "a.js"]))
      (Scan.idOf { files := lone, root := "/p", settings := loneSettings } ["p", "a.js"]) =
        (.utility, false) := by decide +kernel
  simp only [Scan.nodeOf, content, Except.bind, role, means, Except.map]
  rfl

/-- The graph of the project. -/
def loneGraph : Graph Text where
  root := { (Graph.ofDirectory "p" "/p" : Graph Text).root with children := [loneNode] }
  nodes := Table.ofList [("a.js", loneNode)]
  files := ["a.js"]
  stats := { nodes := 1, utilities := 1 }

/-- The graph before it is completed. -/
def loneRaw : Graph Text := { loneGraph with root := (Graph.ofDirectory "p" "/p" : Graph Text).root }

theorem completed_lone : Scan.completed loneRaw = loneGraph := by
  have order : loneRaw.sorted = loneRaw.nodes.entries := List.mergeSort_singleton _
  have importers : loneRaw.withImporters = loneRaw := by
    rw [Graph.withImporters, Graph.imports, order]
    rfl
  have top : loneRaw.filesIn [] = [loneNode] := List.mergeSort_singleton _
  have none : loneRaw.directories = [] := by
    decide +kernel
  have forest : loneRaw.forest = [loneNode] := by
    rw [Graph.forest, none]
    exact top
  rw [Scan.completed, importers, Graph.withTree, forest]
  rfl

theorem scanned_lone : (Scan.ofPath lone .skip {} "/p").graph = .ok loneGraph := by
  have leads : lone.target? (clean "/p") = .ok (some .directory) := rfl
  have real : lone.realPath (clean "/p") = .ok "/p" := rfl
  simp only [Scan.ofPath, leads, real, Scan.ofRealRoot, load_lone, sourceFiles_lone, Scan.visit,
    nodeOf_lone]
  exact congrArg Except.ok completed_lone

/-- An environment with a home and nothing else. -/
def atHome : Environment := { home := "/home" }

/-- A time in January. -/
def january : Moment := ⟨⟨2024, 1, 2⟩, 3, 4, 5, 0, none⟩

/-- What asks for the drawing of the project in a file and for a saved graph. -/
def asking : List Text := ["/p", "--save", "-f", "tree", "-o", "/out"]

def asked : Options := { root := "/p", save := true, drawn := true, output := some "/out" }

/-- What asks for the imports in the drawing as well. -/
def askingMore : List Text := "--show-imports" :: asking

def askedMore : Options := { asked with showImports := true }

/-- The drawing without imports. -/
def loneDrawing : Text := Text.joinWith ['\n'] ["p/", "└── a.js [U]", "", "Files: 1",
  "Components: 0 (multiple per file: 0)", "State: 0", "Utilities: 1"]

/-- The document, in which the surrogate is escaped. -/
def loneDocument : Text := Text.joinWith ['\n'] [
  "\x7b", "  \"root\": \x7b", "    \"id\": \"root\",", "    \"name\": \"p\",",
  "    \"path\": \"/p\",", "    \"type\": \"root\",", "    \"multipleComp\": false,",
  "    \"imports\": [],", "    \"importedBy\": [],", "    \"children\": [", "      \x7b",
  "        \"id\": \"a.js\",", "        \"name\": \"a\",", "        \"path\": \"a.js\",",
  "        \"type\": \"util\",", "        \"multipleComp\": false,", "        \"imports\": [",
  "          \"\\ud800/x/b\"", "        ],", "        \"importedBy\": []", "      \x7d", "    ]",
  "  \x7d,", "  \"nodesMap\": \x7b", "    \"a.js\": \x7b", "      \"id\": \"a.js\",",
  "      \"name\": \"a\",", "      \"path\": \"a.js\",", "      \"type\": \"util\",",
  "      \"multipleComp\": false,", "      \"imports\": [", "        \"\\ud800/x/b\"", "      ],",
  "      \"importedBy\": []", "    \x7d", "  \x7d,", "  \"files\": [", "    \"a.js\"", "  ],",
  "  \"stats\": \x7b", "    \"totalComponents\": 1,", "    \"multiCompFiles\": 0,",
  "    \"componentFiles\": 0,", "    \"stateFiles\": 0,", "    \"utilFiles\": 1", "  \x7d", "\x7d"]

/-- The files when the graph has been saved and the file for the output has these bytes. -/
def loneAfter (bytes : List UInt8) : List (Place × Entry) :=
  [(["p"], .directory), (["p", "a.js"], .file (Text.utf8 loneImport)),
    (["p", "tsconfig.json"], .file (Text.utf8 loneBase)),
    (["home"], .directory), (["home", ".local"], .directory),
    (["home", ".local", "reactmap"], .directory),
    (["home", ".local", "reactmap", "p_20240102_030405.json"], .file (Text.utf8 loneDocument)),
    (["out"], .file bytes)]

theorem text_lone : loneGraph.text (.indented 2) = loneDocument := by decide +kernel

theorem drawing_lone : loneGraph.drawing .box false = loneDrawing := by decide +kernel

theorem finish_asked (told : List Text) :
    (finish asked atHome january lone told loneGraph).ending = .ok 0 ∧
    (finish asked atHome january lone told loneGraph).files.tree.entries =
      loneAfter (Text.utf8 loneDrawing) := by
  rw [loneAfter, ← text_lone, ← drawing_lone]
  exact ⟨rfl, rfl⟩

theorem finish_askedMore (told : List Text) :
    (finish askedMore atHome january lone told loneGraph).output = [] ∧
    (finish askedMore atHome january lone told loneGraph).files.tree.entries = loneAfter [] := by
  rw [loneAfter, ← text_lone]
  exact ⟨rfl, rfl⟩

theorem sound_lone : lone.IsSound := by
  refine ⟨rfl, fun place target inside => ?_⟩
  simp [lone] at inside

/-- The run that asks for no imports puts the drawing in the file and saves the graph. The one that
asks for them saves the graph, opens the file, and breaks off. -/
theorem lone_ends :
    (run asking atHome january lone).ending = .ok 0 ∧ (run asking atHome january lone).output = [] ∧
    (run asking atHome january lone).files.tree.entries = loneAfter (Text.utf8 loneDrawing) ∧
    (∃ why, (run askingMore atHome january lone).ending = .error why) ∧
    (run askingMore atHome january lone).output = [] ∧
    (run askingMore atHome january lone).files.tree.entries = loneAfter [] := by
  have accepted : Options.ofTexts asking = .ok asked := by decide +kernel
  have acceptedMore : Options.ofTexts askingMore = .ok askedMore := by decide +kernel
  have real : lone.realPath "/p" = .ok "/p" := rfl
  have straight : ∀ fault, lone.realPath "/p" = .error fault → fault.cause ≠ .linkLoop := by
    intro fault failed
    cases real.symm.trans failed
  have ends : ∀ root, lone.realPath "/p" = .ok root → (Scan.ofPath lone .skip {} root).Ends := by
    intro root found
    cases real.symm.trans found
    exact .inl ⟨_, scanned_lone⟩
  have scans : Scans asked lone loneGraph := ⟨_, real, scanned_lone⟩
  have scansMore : Scans askedMore lone loneGraph := ⟨_, real, scanned_lone⟩
  obtain ⟨told, goes⟩ := execute_of_scans sound_lone scans
  obtain ⟨toldMore, goesMore⟩ := execute_of_scans sound_lone scansMore
  have same : run asking atHome january lone = finish asked atHome january lone told loneGraph := by
    rw [run, accepted, ← goes]
  have sameMore : run askingMore atHome january lone =
      finish askedMore atHome january lone toldMore loneGraph := by
    rw [run, acceptedMore, ← goesMore]
  have quiet : (run asking atHome january lone).output = [] := by
    cases (run_ends accepted sound_lone straight ends atHome january).1 with
    | failed code => cases (same ▸ code).symm.trans (finish_asked told).1
    | broken ending => cases (same ▸ ending).symm.trans (finish_asked told).1
    | done _ _ _ _ isPut =>
      cases isPut with
      | printed nowhere => exact absurd rfl (nowhere '/' "out")
      | written _ output => exact output
  have breaks : BreaksOff askedMore atHome january lone := by
    have house : atHome.saveDirectory? = some ("/home/.local/reactmap" : Text) := by decide +kernel
    have saves : (Saving.save lone "/home/.local/reactmap" january loneGraph).2 =
        .ok "/home/.local/reactmap/p_20240102_030405.json" := rfl
    refine .drawing scansMore (.saved rfl (.usual rfl house) (Prod.ext rfl saves)) rfl (.box rfl rfl)
      (by decide +kernel) fun c p named => ?_
    cases named
    exact ⟨_, rfl⟩
  refine ⟨same ▸ (finish_asked told).1, quiet, same ▸ (finish_asked told).2,
    (run_ends acceptedMore sound_lone straight ends atHome january).2.2 breaks, ?_⟩
  exact sameMore ▸ finish_askedMore toldMore

end CommandLine
end ModuleAtlas
