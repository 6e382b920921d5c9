import Mathlib.Data.List.Find
import Mathlib.Data.List.Infix
import ParseView.Config.Loader
import ParseView.Proofs.FilePaths

/-!
# The nearest configuration is found

The search for a configuration goes through paths, one text after the other, and asks the
disk what each of them leads to. What it finds can be said of the tree alone: `places` lists
where a configuration can be, the innermost directory first and in each directory one name
after the other, and the search comes to the first of them that is a file
(`searchUp?_run`). A directory with the name of a configuration is none, and neither is
anything below a file, so that a search from a file is one from the directory around it.

Everything hangs on the text of a place leading back to it. This is so because the steps
the search begins with are names, whatever path they were resolved from.
-/

namespace ParseView

/-- Do steps lead to a file? -/
def Disk.holdsFile (disk : Disk) (steps : List String) : Bool :=
  (disk.root.lookup steps).map Disk.kindOf == some .file

theorem Disk.holdsFile_iff {disk : Disk} {steps : List String} :
    disk.holdsFile steps = true ↔ ∃ bytes, disk.root.lookup steps = some (.file bytes) := by
  rw [Disk.holdsFile, beq_iff_eq]
  cases disk.root.lookup steps with
  | none => simp
  | some tree => cases tree <;> simp [Disk.kindOf]

/-- Operations on a disk go on with the disk that was left. -/
theorem Disk.run_bind {α β : Type} (action : StateM Disk α) (next : α → StateM Disk β)
    (disk : Disk) :
    (action >>= next).run disk = (next (action.run disk).1).run (action.run disk).2 :=
  rfl

theorem Disk.run_resolve (disk : Disk) (path : String) :
    (MonadFiles.resolve (m := StateM Disk) path).run disk = (disk.resolve path, disk) :=
  rfl

theorem Disk.run_readText (disk : Disk) (path : String) :
    (MonadFiles.readText (m := StateM Disk) path).run disk = (disk.readText path, disk) :=
  rfl

theorem Disk.run_isFile (disk : Disk) (path : String) :
    (Files.isFile (m := StateM Disk) path).run disk = (disk.kind? path == some .file, disk) :=
  rfl

namespace Config

/-! ## Places of configurations -/

/-- Steps and what lies around them, up to the top. -/
def outward (steps : List String) : List (List String) := steps.inits.reverse

/-- The places in which a directory has a configuration, given the steps to it. -/
def placesIn (directory : List String) : List (List String) :=
  [".oxbindrc.json", ".oxbindrc.toml", "oxbind.json"].map fun name => directory ++ [name]

/-- The places where a configuration is looked for, given the steps to begin with: those in
the directory that they lead to, and then those in each directory around it up to the top. -/
def places (steps : List String) : List (List String) := (outward steps).flatMap placesIn

theorem places_nil : places [] = placesIn [] := by
  simp [places, outward]

theorem places_concat (outer : List String) (step : String) :
    places (outer ++ [step]) = placesIn (outer ++ [step]) ++ places outer := by
  have houtward : outward (outer ++ [step]) = (outer ++ [step]) :: outward outer := by
    simp [outward, List.inits_append]
  rw [places, houtward, List.flatMap_cons, places]

theorem candidates_eq (directory : List String) :
    candidates directory = (placesIn directory).map Path.absolute := by
  rw [candidates, fileNames, placesIn, List.map_map]
  rfl

theorem isName_of_mem_fileNames : ∀ name ∈ fileNames, Path.IsName name := by decide

/-- The first place that is a file. -/
def nearest? (disk : Disk) (steps : List String) : Option (List String) :=
  (places steps).find? disk.holdsFile

/-- The configuration that the bytes of a file are read as. -/
def ofBytes (path : String) (bytes : ByteArray) : Except LoadError Configuration :=
  match String.fromUTF8? bytes with
  | some text => ofText path text
  | none => .error (.unreadable path .notText)

/-! ## Searching -/

section Search

variable {disk : Disk} {directory steps place : List String}

/-- The text of a place leads where its steps lead. -/
theorem find_placesIn (hnames : ∀ step ∈ directory, Path.IsName step)
    (hplace : place ∈ placesIn directory) :
    (disk.find (Path.absolute place)).toOption = disk.root.lookup place := by
  obtain ⟨name, hname, rfl⟩ := List.mem_map.mp hplace
  refine Disk.find_absolute (by simp) fun step hm => ?_
  rcases List.mem_append.mp hm with hm | hm
  · exact hnames step hm
  · rw [List.mem_singleton.mp hm]
    exact isName_of_mem_fileNames name hname

theorem firstFile?_run (disk : Disk) (paths : List String) :
    (firstFile? (m := StateM Disk) paths).run disk =
      (paths.find? fun path => disk.kind? path == some .file, disk) := by
  induction paths with
  | nil => rfl
  | cons path rest ih =>
      rw [firstFile?, Disk.run_bind, Disk.run_isFile, List.find?_cons]
      cases disk.kind? path == some .file with
      | true => rfl
      | false => exact ih

/-- A directory is searched by the names of configurations, one after the other. -/
theorem firstFile?_candidates (hnames : ∀ step ∈ directory, Path.IsName step) :
    (firstFile? (m := StateM Disk) (candidates directory)).run disk =
      (((placesIn directory).find? disk.holdsFile).map Path.absolute, disk) := by
  rw [firstFile?_run, candidates_eq, List.find?_map]
  congr 2
  refine List.find?_congr fun place hplace => ?_
  rw [Function.comp_apply, Disk.kind?, find_placesIn hnames hplace, Disk.holdsFile]

/-- The search comes to the first place that is a file. -/
theorem searchUp?_run (hnames : ∀ step ∈ steps, Path.IsName step) :
    (searchUp? (m := StateM Disk) steps.reverse).run disk =
      ((nearest? disk steps).map Path.absolute, disk) := by
  -- The last step is the innermost directory, and the search begins there.
  induction steps using List.reverseRecOn with
  | nil =>
      rw [List.reverse_nil, searchUp?, nearest?, places_nil, firstFile?_candidates hnames]
  | append_singleton outer step ih =>
      have houter := ih fun name hm => hnames name (List.mem_append_left _ hm)
      rw [List.reverse_concat, searchUp?, List.reverse_cons, List.reverse_reverse,
        Disk.run_bind, firstFile?_candidates hnames, nearest?, places_concat,
        List.find?_append]
      cases (placesIn (outer ++ [step])).find? disk.holdsFile with
      | some place => rfl
      | none => exact houter

end Search

section Nearest

variable {disk : Disk} {steps place : List String} {start path : String}

theorem discover_run_of_error {error : FileError} (h : disk.resolve start = .error error) :
    (discover (m := StateM Disk) start).run disk = (.error (.invalidStart error), disk) := by
  rw [discover, Disk.run_bind, Disk.run_resolve, h]
  rfl

theorem discover_run_of_ok (hnames : ∀ step ∈ steps, Path.IsName step)
    (h : disk.resolve start = .ok steps) :
    (discover (m := StateM Disk) start).run disk =
      (.ok ((nearest? disk steps).map Path.absolute), disk) := by
  rw [discover, Disk.run_bind, Disk.run_resolve, h]
  change (searchUp? steps.reverse >>= fun found => pure (Except.ok found) : StateM Disk _).run
    disk = _
  rw [Disk.run_bind, searchUp?_run hnames]
  rfl

/-- Discovery fails only where the start cannot be resolved. -/
theorem discover_run_eq_error_iff (hworking : ∀ name ∈ disk.workingSteps, Path.IsName name)
    {error : LoadError} :
    (discover (m := StateM Disk) start).run disk = (.error error, disk) ↔
      ∃ cause, disk.resolve start = .error cause ∧ error = .invalidStart cause := by
  constructor
  · intro herror
    cases hresolve : disk.resolve start with
    | error cause =>
        rw [discover_run_of_error hresolve] at herror
        exact ⟨cause, rfl, (Except.error.inj (congrArg Prod.fst herror)).symm⟩
    | ok steps =>
        rw [discover_run_of_ok (Disk.resolve_spec hworking hresolve).2.1 hresolve] at herror
        exact nomatch (congrArg Prod.fst herror : Except.ok _ = Except.error error)
  · rintro ⟨cause, hresolve, rfl⟩
    exact discover_run_of_error hresolve

/-- Below a file there is nothing. -/
theorem nearest?_of_file {outer : List String} {name : String} {bytes : ByteArray}
    (h : disk.root.lookup (outer ++ [name]) = some (.file bytes)) :
    nearest? disk (outer ++ [name]) = nearest? disk outer := by
  have hbelow : (placesIn (outer ++ [name])).find? disk.holdsFile = none := by
    rw [List.find?_eq_none]
    intro place hplace hholds
    obtain ⟨below, -, rfl⟩ := List.mem_map.mp hplace
    rw [Disk.holdsFile, FileTree.lookup_append, h] at hholds
    exact Bool.false_ne_true hholds
  rw [nearest?, places_concat, List.find?_append, hbelow]
  rfl

/-- A file that was resolved lies in a directory. -/
theorem exists_directory_of_file (hworking : ∀ name ∈ disk.workingSteps, Path.IsName name)
    (h : disk.kind? start = some .file) :
    ∃ outer name, disk.resolve start = .ok (outer ++ [name]) ∧
      (∃ bytes, disk.root.lookup (outer ++ [name]) = some (.file bytes)) ∧
      ∃ entries, disk.root.lookup outer = some (.directory entries) := by
  cases hresolve : disk.resolve start with
  | error error =>
      rw [(Disk.kind?_eq_none_iff hworking).mpr ⟨error, hresolve⟩] at h
      exact nomatch h
  | ok steps =>
      obtain ⟨-, -, entries, hroot⟩ := Disk.resolve_spec hworking hresolve
      have hfile : disk.holdsFile steps = true := by
        rw [Disk.holdsFile, ← Disk.kind?_of_resolve hresolve, h]
        rfl
      obtain ⟨bytes, hbytes⟩ := Disk.holdsFile_iff.mp hfile
      rcases List.eq_nil_or_concat steps with rfl | ⟨outer, name, rfl⟩
      · simp [FileTree.lookup, hroot] at hbytes
      · rw [List.concat_eq_append] at hbytes ⊢
        refine ⟨outer, name, rfl, ⟨bytes, hbytes⟩, ?_⟩
        rw [FileTree.lookup_append] at hbytes
        cases houter : disk.root.lookup outer with
        | none => simp [houter] at hbytes
        | some tree =>
            cases tree with
            | file bytes => simp [houter, FileTree.lookup] at hbytes
            | directory entries => exact ⟨entries, rfl⟩

/-- Loading a file from a path that leads to one reads its bytes. -/
theorem loadFile_run {bytes : ByteArray}
    (h : (disk.find path).toOption = some (.file bytes)) :
    (loadFile (m := StateM Disk) path).run disk = (ofBytes path bytes, disk) := by
  have hfind : disk.find path = .ok (.file bytes) := by
    cases hfind : disk.find path with
    | error error => rw [hfind] at h; exact nomatch h
    | ok tree => rw [hfind] at h; exact congrArg Except.ok (Option.some.inj h)
  have htext : disk.readText path = match String.fromUTF8? bytes with
      | some text => .ok text
      | none => .error .notText := by
    rw [Disk.readText, hfind]
    rfl
  rw [loadFile, Disk.run_bind, Disk.run_readText, htext, ofBytes]
  cases String.fromUTF8? bytes <;> rfl

/-- What is nearest is a file, and its text leads to it. -/
theorem find_nearest? (hnames : ∀ step ∈ steps, Path.IsName step)
    (h : nearest? disk steps = some place) :
    ∃ bytes, disk.root.lookup place = some (.file bytes) ∧
      (disk.find (Path.absolute place)).toOption = some (.file bytes) := by
  obtain ⟨bytes, hbytes⟩ := Disk.holdsFile_iff.mp (List.find?_some h)
  obtain ⟨directory, hdirectory, hplace⟩ :=
    List.mem_flatMap.mp (List.mem_of_find?_eq_some h)
  have hinner : ∀ step ∈ directory, Path.IsName step := fun step hm =>
    hnames step (((List.mem_inits _ _).mp (List.mem_reverse.mp hdirectory)).subset hm)
  refine ⟨bytes, hbytes, ?_⟩
  rw [find_placesIn hinner hplace, hbytes]

/-- Without a named file, what is loaded is the nearest configuration or the empty one. -/
theorem load_run {given : Option String} :
    (load (m := StateM Disk) none given).run disk =
      match (discover (m := StateM Disk) (given.getD ".")).run disk with
      | (.ok (some path), after) => (loadFile (m := StateM Disk) path).run after
      | (.ok none, after) => (.ok {}, after)
      | (.error error, after) => (.error error, after) := by
  rw [load, Disk.run_bind]
  rcases (discover (m := StateM Disk) (given.getD ".")).run disk with ⟨_ | _ | _, after⟩ <;> rfl

end Nearest

/-! ## The nearest configuration -/

/-- Discovery fails, as a matter of configuration, exactly where there is nothing to begin
with. Otherwise it finds the nearest configuration: the first file among the places of the
start and of what lies around it, if there is one. From a file it is the discovery from the
directory that the file lies in. What is loaded is what discovery found, or the empty
configuration; where no start is given, one begins in the directory that one works in. Of
that directory it is only asked that its steps are names. -/
theorem discover_nearest (disk : Disk) (hworking : ∀ name ∈ disk.workingSteps, Path.IsName name)
    (given : Option String) :
    let start := given.getD "."
    ((∃ error, (discover (m := StateM Disk) start).run disk = (.error error, disk)) ↔
      disk.kind? start = none) ∧
    (∀ error, (discover (m := StateM Disk) start).run disk = (.error error, disk) →
      error.failure.area = .config ∧
      (load (m := StateM Disk) none given).run disk = (.error error, disk)) ∧
    (∀ steps, disk.resolve start = .ok steps →
      (discover (m := StateM Disk) start).run disk =
        (.ok ((nearest? disk steps).map Path.absolute), disk) ∧
      (nearest? disk steps = none →
        (load (m := StateM Disk) none given).run disk = (.ok {}, disk)) ∧
      (∀ place, nearest? disk steps = some place →
        (load (m := StateM Disk) none given).run disk =
          (loadFile (m := StateM Disk) (Path.absolute place)).run disk ∧
        ∃ bytes, disk.root.lookup place = some (.file bytes) ∧
          (loadFile (m := StateM Disk) (Path.absolute place)).run disk =
            (ofBytes (Path.absolute place) bytes, disk))) ∧
    (disk.kind? start = some .file → ∃ outer name,
      disk.resolve start = .ok (outer ++ [name]) ∧
      disk.resolve (Path.absolute outer) = .ok outer ∧
      disk.kind? (Path.absolute outer) = some .directory ∧
      (discover (m := StateM Disk) start).run disk =
        (discover (m := StateM Disk) (Path.absolute outer)).run disk) := by
  intro start
  refine ⟨?_, ?_, ?_, ?_⟩
  · rw [Disk.kind?_eq_none_iff hworking]
    constructor
    · rintro ⟨error, herror⟩
      obtain ⟨cause, hcause, -⟩ := (discover_run_eq_error_iff hworking).mp herror
      exact ⟨cause, hcause⟩
    · rintro ⟨cause, hcause⟩
      exact ⟨_, discover_run_of_error hcause⟩
  · intro error herror
    obtain ⟨cause, -, rfl⟩ := (discover_run_eq_error_iff hworking).mp herror
    exact ⟨rfl, by rw [load_run, herror]⟩
  · intro steps hresolve
    have hnames := (Disk.resolve_spec hworking hresolve).2.1
    have hdiscover := discover_run_of_ok hnames hresolve
    refine ⟨hdiscover, fun hnone => ?_, fun place hplace => ?_⟩
    · rw [load_run, hdiscover, hnone]
      rfl
    · obtain ⟨bytes, hbytes, hfind⟩ := find_nearest? hnames hplace
      refine ⟨?_, bytes, hbytes, loadFile_run hfind⟩
      rw [load_run, hdiscover, hplace]
      rfl
  · intro hkind
    obtain ⟨outer, name, hresolve, ⟨bytes, hfile⟩, entries, hdirectory⟩ :=
      exists_directory_of_file hworking hkind
    have hnames := (Disk.resolve_spec hworking hresolve).2.1
    have houter : ∀ step ∈ outer, Path.IsName step := fun step hm =>
      hnames step (List.mem_append_left _ hm)
    have haround := Disk.resolve_absolute_of_directory houter hdirectory
    refine ⟨outer, name, hresolve, haround, ?_, ?_⟩
    · rw [Disk.kind?_of_resolve haround, hdirectory]
      rfl
    · rw [discover_run_of_ok hnames hresolve, discover_run_of_ok houter haround,
        nearest?_of_file hfile]

/-- A configuration of each name in the directory `a`, in which one works, but that of the
first name is a directory. Another one of the first name lies at the top. -/
def sampleDisk : Disk where
  root := .directory
    [(".oxbindrc.json", .file "\x7b\x7d".toUTF8),
      ("a", .directory
        [(".oxbindrc.json", .directory []), (".oxbindrc.toml", .file "".toUTF8),
          ("oxbind.json", .file "\x7b\x7d".toUTF8),
          ("src", .directory [("x.ts", .file "".toUTF8)])])]
  workingSteps := ["a"]

/-- The nearer one is found and not the one of the first name, a directory of that name is
left out, and the start need not be a directory. -/
theorem discover_nearest_of_sampleDisk :
    (∀ name ∈ sampleDisk.workingSteps, Path.IsName name) ∧
      (discover (m := StateM Disk) "src/../src/x.ts").run sampleDisk =
        (.ok (some "/a/.oxbindrc.toml"), sampleDisk) := by
  have hworking : ∀ name ∈ sampleDisk.workingSteps, Path.IsName name := by decide
  have hresolve : sampleDisk.resolve "src/../src/x.ts" = .ok ["a", "src", "x.ts"] := rfl
  have hnearest : nearest? sampleDisk ["a", "src", "x.ts"] = some ["a", ".oxbindrc.toml"] :=
    rfl
  refine ⟨hworking, ?_⟩
  obtain ⟨-, -, hfound, -⟩ := discover_nearest sampleDisk hworking (some "src/../src/x.ts")
  refine (hfound _ hresolve).1.trans ?_
  rw [hnearest]
  rfl

end Config

end ParseView
