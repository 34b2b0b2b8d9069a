import Z80Atlas.Command.Folder
import Z80Atlas.Command.Run

namespace Z80Atlas.Command

namespace Folder

-- Where a path leads does not depend on the files: they only decide how it is refused.
theorem enter_eq_ok_iff (folder other : Folder) (place next : Place) (name : String) :
    folder.enter place name = .ok next ↔ other.enter place name = .ok next := by
  cases place with
  | folder way => exact Iff.rfl
  | entry file => simp [enter]
  | device device => exact Iff.rfl

theorem foldlM_enter_eq_ok_iff (folder other : Folder) (names : List String) (place next : Place) :
    names.foldlM folder.enter place = .ok next ↔ names.foldlM other.enter place = .ok next := by
  induction names generalizing place with
  | nil => exact Iff.rfl
  | cons name rest ih =>
      have hsame := fun middle => enter_eq_ok_iff folder other place middle name
      rw [List.foldlM_cons, List.foldlM_cons]
      cases hentered : folder.enter place name with
      | ok middle =>
          rw [(hsame middle).mp hentered]
          exact ih middle
      | error reason =>
          cases hother : other.enter place name with
          | ok middle =>
              rw [(hsame middle).mpr hother] at hentered
              cases hentered
          | error reason' => simp [bind, Except.bind]

theorem locate_eq_ok_iff (folder other : Folder) (path : String) (place : Place) :
    folder.locate path = .ok place ↔ other.locate path = .ok place := by
  unfold locate follow
  split
  · simp
  · exact foldlM_enter_eq_ok_iff folder other _ _ place

theorem find?_put_of_ne (folder : Folder) {name other : String} (h : name ≠ other)
    (content : List UInt8) : (folder.put name content).find? other = folder.find? other := by
  have hhead : (name == other) = false := beq_eq_false_iff_ne.mpr h
  rw [put, find?, find?, List.find?_cons, hhead]
  dsimp only
  rw [List.find?_filter]
  congr 2
  funext file
  by_cases hfile : file.1 = other
  · simp [hfile, Ne.symm h]
  · simp [hfile]

end Folder

namespace Scene

theorem folder_writeDevice {scene next : Scene} {text : String} {device : Device}
    (h : scene.writeDevice text device = .ok next) : next.folder = scene.folder := by
  cases device with
  | null | output | errors =>
      cases h
      rfl
  | full =>
      rw [writeDevice] at h
      split at h <;> cases h
      rfl

-- Writing changes no file but the one that the path leads to.
theorem find?_write {scene next : Scene} {path text name : String}
    (hwrite : scene.write path text = .ok next)
    (hother : scene.folder.locate path ≠ .ok (.entry name)) :
    next.folder.find? name = scene.folder.find? name := by
  unfold write at hwrite
  split at hwrite
  · cases hfolder : scene.folder.locateFolder path <;> rw [hfolder] at hwrite <;> cases hwrite
  · cases hplace : scene.folder.locate path with
    | error reason =>
        rw [hplace] at hwrite
        cases hwrite
    | ok place =>
        rw [hplace] at hwrite hother
        cases place with
        | folder way => cases hwrite
        | device device =>
            rw [folder_writeDevice hwrite]
        | entry file =>
            cases hwrite
            refine scene.folder.find?_put_of_ne ?_ _
            rintro rfl
            exact hother rfl

end Scene

namespace Script

def EndsIn (endings : List Ending) : Script → Prop
  | exit ending => ending ∈ endings
  | print _ next | report _ next => next.EndsIn endings
  | read _ next => ∀ content, (next content).EndsIn endings
  | write _ _ next => ∀ reason, (next reason).EndsIn endings

-- The script writes to no other paths, and has one of the endings once it tried to write.
def WritesTo (paths : List String) (endings : List Ending) : Script → Prop
  | exit _ => True
  | print _ next | report _ next => next.WritesTo paths endings
  | read _ next => ∀ content, (next content).WritesTo paths endings
  | write path _ next => path ∈ paths ∧
      ∀ reason, (next reason).EndsIn endings ∧ (next reason).WritesTo paths endings

variable {paths : List String} {endings : List Ending} {script : Script}

theorem EndsIn.ending_runFrom (h : script.EndsIn endings) (scene : Scene) :
    (script.runFrom scene).ending ∈ endings := by
  induction script generalizing scene with
  | exit ending => exact h
  | print text next ih => exact ih h _
  | report text next ih => exact ih h _
  | read path next ih => exact ih _ (h _) scene
  | write path text next ih =>
      rw [runFrom]
      split
      · exact ih none (h none) _
      · next reason _ => exact ih (some reason) (h (some reason)) scene

theorem WritesTo.find?_runFrom (h : script.WritesTo paths endings) (scene : Scene) {name : String}
    (hother : ∀ path ∈ paths, scene.folder.locate path ≠ .ok (.entry name)) :
    (script.runFrom scene).folder.find? name = scene.folder.find? name := by
  induction script generalizing scene with
  | exit ending => rfl
  | print text next ih => exact ih h _ hother
  | report text next ih => exact ih h _ hother
  | read path next ih => exact ih _ (h _) scene hother
  | write path text next ih =>
      obtain ⟨hpath, hnext⟩ := h
      rw [runFrom]
      split
      · next written hwrite =>
        have hother' : ∀ path ∈ paths, written.folder.locate path ≠ .ok (.entry name) :=
          fun path hmem => mt (Folder.locate_eq_ok_iff _ _ path _).mp (hother path hmem)
        rw [ih none (hnext none).2 written hother', Scene.find?_write hwrite (hother path hpath)]
      · next reason _ => exact ih (some reason) (hnext (some reason)).2 scene hother

theorem WritesTo.folder_runFrom (h : script.WritesTo paths endings) (scene : Scene)
    (hending : (script.runFrom scene).ending ∉ endings) :
    (script.runFrom scene).folder = scene.folder := by
  induction script generalizing scene with
  | exit ending => rfl
  | print text next ih => exact ih h _ hending
  | report text next ih => exact ih h _ hending
  | read path next ih => exact ih _ (h _) scene hending
  | write path text next ih =>
      have hends : (write path text next).EndsIn endings := fun reason => (h.2 reason).1
      exact absurd (hends.ending_runFrom scene) hending

end Script

namespace Options

def outputs (options : Options) : List String :=
  [options.output, options.callGraph, options.flowChart, options.mainLabels].filterMap id

-- How a run can end after it began to write.
def lateEndings : List Ending := [.success, .failure 1]

structure Finishes (options : Options) (script : Script) : Prop where
  endsIn : script.EndsIn lateEndings
  writesTo : script.WritesTo options.outputs lateEndings

variable {options : Options}

theorem finishes_exit {ending : Ending} (h : ending ∈ lateEndings) :
    options.Finishes (.exit ending) :=
  ⟨h, trivial⟩

theorem Finishes.report {script : Script} (h : options.Finishes script) (text : String) :
    options.Finishes (.report text script) :=
  ⟨h.endsIn, h.writesTo⟩

theorem Finishes.print {script : Script} (h : options.Finishes script) (text : String) :
    options.Finishes (.print text script) :=
  ⟨h.endsIn, h.writesTo⟩

theorem Finishes.writeOutput {script : Script} (h : options.Finishes script) {path : String}
    (hpath : path ∈ options.outputs) (text : String) :
    options.Finishes (writeOutput path text script) := by
  have hlate : Ending.failure 1 ∈ lateEndings := by decide
  refine ⟨fun reason => ?_, hpath, fun reason => ?_⟩
  · cases reason with
    | none => exact h.endsIn
    | some reason => exact hlate
  · cases reason with
    | none => exact ⟨h.endsIn, h.writesTo⟩
    | some reason => exact ⟨hlate, trivial⟩

theorem Finishes.writeWanted {script : Script} (h : options.Finishes script) {path : Option String}
    (hpath : ∀ wanted, path = some wanted → wanted ∈ options.outputs) (text : Unit → String) :
    options.Finishes (writeWanted path text script) := by
  cases path with
  | none => exact h
  | some wanted => exact h.writeOutput (hpath wanted rfl) (text ())

theorem Finishes.writeListing {script : Script} (h : options.Finishes script) (session : Session) :
    options.Finishes (writeListing options session script) := by
  unfold Command.writeListing
  cases hpath : options.output with
  | none => exact h.print _
  | some path => exact h.writeOutput (by simp [outputs, hpath]) _

theorem Finishes.writeCallGraph {script : Script} (h : options.Finishes script)
    (session : Session) : options.Finishes (writeCallGraph options session script) := by
  unfold Command.writeCallGraph
  cases hpath : options.callGraph with
  | none => exact h
  | some path =>
      cases graphSelection options session with
      | ok ids => exact h.writeOutput (by simp [outputs, hpath]) _
      | error fault => exact (finishes_exit (by decide)).report _

theorem finishes_writeAll (session : Session) : options.Finishes (writeAll options session) := by
  refine Finishes.writeListing (Finishes.writeCallGraph (Finishes.writeWanted
    (Finishes.writeWanted ?_ ?_ _) ?_ _) session) session
  · split
    · exact (finishes_exit (by decide)).report _
    · exact finishes_exit (by decide)
  · intro path hpath
    simp [outputs, hpath]
  · intro path hpath
    simp [outputs, hpath]

section Reading

variable {paths : List String} {endings : List Ending} {session : Session}

theorem writesTo_readInput {path : String} {next : List UInt8 → Script}
    (h : ∀ bytes, (next bytes).WritesTo paths endings) :
    (readInput options session path next).WritesTo paths endings := by
  intro content
  cases content with
  | ok bytes => exact h bytes
  | error reason => trivial

theorem writesTo_loadImage {next : Session → Script}
    (h : ∀ loaded, (next loaded).WritesTo paths endings) :
    (loadImage options session next).WritesTo paths endings := by
  unfold loadImage
  split
  · trivial
  · exact writesTo_readInput fun bytes => h _
  · refine writesTo_readInput fun bytes => ?_
    split
    · exact h _
    · trivial

theorem writesTo_useTrace {next : Session → Script}
    (h : ∀ traced, (next traced).WritesTo paths endings) :
    (useTrace options session next).WritesTo paths endings := by
  unfold useTrace
  split
  · exact h session
  · exact writesTo_readInput fun bytes => h _

theorem writesTo_useComments {next : Session → Script}
    (h : ∀ commented, (next commented).WritesTo paths endings) :
    (useComments options session next).WritesTo paths endings := by
  unfold useComments
  split
  · exact h session
  · refine writesTo_readInput fun bytes => ?_
    split
    · exact h _
    · trivial
    · trivial

end Reading

-- Nothing is written before the analysis is done.
theorem writesTo_script (options : Options) :
    options.script.WritesTo options.outputs lateEndings := by
  refine writesTo_loadImage fun loaded => writesTo_useTrace fun traced => writesTo_useComments
    fun commented => ?_
  exact (finishes_writeAll _).writesTo

end Options

-- A run changes no files but those that it is asked for.
theorem runIn_keeps_files (arguments : List String) (folder : Folder) {name : String}
    (hother : ∀ options, Options.read arguments = .ok options →
      ∀ path ∈ options.outputs, folder.locate path ≠ .ok (.entry name)) :
    ((script arguments).runIn folder).folder.find? name = folder.find? name := by
  unfold script
  split
  · next options hread =>
    exact options.writesTo_script.find?_runFrom ⟨folder, "", ""⟩ (hother options hread)
  all_goals rfl

-- A run that is refused, or that fails before the analysis, leaves all files as they are.
theorem runIn_leaves_folder (arguments : List String) (folder : Folder)
    (hending : ((script arguments).runIn folder).ending ∉ Options.lateEndings) :
    ((script arguments).runIn folder).folder = folder := by
  unfold script at hending ⊢
  split at hending
  · next options hread =>
    exact options.writesTo_script.folder_runFrom ⟨folder, "", ""⟩ hending
  all_goals rfl

end Z80Atlas.Command
