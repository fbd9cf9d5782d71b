import Seamark.Command.Run
import Seamark.Proofs.Catalog.Defects
import Seamark.Proofs.Command.Printed
import Seamark.Proofs.Config

/-!
# How a command ends

Whatever stands in its files, a command that does not play ends by what is wrong with them: with the
status zero if nothing is, else by the first trouble in the order of its work.  A reported trouble
is the last line that is printed, and the status is one; an unforeseen one
(`Trouble.IsUnforeseen`) leaves the command unreported.  The troubles are listed without running the
command (`troubles`): those of the configuration, of the name of the catalogue, and then of the
notation or of the catalogue with its lights.  Each step fails for the first of its own
(`FailsFirst`), and so does the command.
-/

namespace Seamark

open Value

/-! ### Troubles that nobody reports -/

/-- The conversions that are not reported: of something that is neither a number nor a text, and of
an integer beyond every double. -/
def ConversionError.unforeseen : List ConversionError :=
  [.notNumeric, .numberTooLarge]

/-- The lights without a timeline that are not reported: those that lack a colour, or have a count
beyond every double. -/
def CompileError.unforeseen : List CompileError :=
  [.noFirstColor, .noColorToShare, .countTooLarge]

/-- The colours that are not reported: those with a negative channel and no positive one, and those
with an infinite one. -/
def ColorError.unforeseen : List ColorError :=
  [.noBrightestChannel, .noChannel .infinite]

/-- The files that are not reported: a directory, a path through a file, and a document in which a
number is too large to be a character or a double. -/
inductive FileError.IsUnforeseen : FileError → Prop where
  | isDirectory : IsUnforeseen .isDirectory
  | notDirectory : IsUnforeseen .notDirectory
  | largeCode {code : Nat} (index : Nat) (hcode : 0x7fffffff < code) :
    IsUnforeseen (.unreadable (.noCharacter code index))
  | tooManyGroups : IsUnforeseen (.unreadable .tooManyGroups)

lemma ConversionError.isReported_eq_false_iff (cause : ConversionError) :
    cause.isReported = false ↔ cause ∈ unforeseen := by
  cases cause <;> simp [isReported, unforeseen]

lemma CompileError.isReported_eq_false_iff (cause : CompileError) :
    cause.isReported = false ↔ cause ∈ unforeseen := by
  cases cause <;> simp [isReported, unforeseen]

lemma ColorError.isReported_eq_false_iff (cause : ColorError) :
    cause.isReported = false ↔ cause ∈ unforeseen := by
  cases cause with
  | noChannel cause => cases cause <;> simp [isReported, unforeseen]
  | _ => simp [isReported, unforeseen]

lemma FileError.isReported_eq_false_iff (cause : FileError) :
    cause.isReported = false ↔ cause.IsUnforeseen := by
  constructor
  · intro h
    cases cause with
    | isDirectory => exact .isDirectory
    | notDirectory => exact .notDirectory
    | unreadable cause =>
      cases cause with
      | noCharacter code index =>
        have hcode : Document.ReadError.largestCode < code := by
          simpa [isReported, Document.ReadError.isOverflow] using h
        exact .largeCode index hcode
      | tooManyGroups => exact .tooManyGroups
      | _ => cases h
    | _ => cases h
  · rintro (_ | _ | ⟨_, hcode⟩ | _)
    case largeCode code _ =>
      have hcode : Document.ReadError.largestCode < code := hcode
      simpa [isReported, Document.ReadError.isOverflow] using hcode
    all_goals rfl

namespace Command

/-- The troubles that leave a command unreported, one by one. -/
inductive Trouble.IsUnforeseen : Trouble → Prop where
  | file (path : String) {cause : FileError} (h : cause.IsUnforeseen) :
    IsUnforeseen (.file path cause)
  /-- The colours or the Morse codes are no map. -/
  | entries : IsUnforeseen (.config .entriesNotAMapping)
  | setting {cause : ConversionError} (h : cause ∈ ConversionError.unforeseen) :
    IsUnforeseen (.config (.conversion cause))
  | catalogNotNamed : IsUnforeseen .catalogNotNamed
  /-- The catalogue cannot be gone through. -/
  | lights : IsUnforeseen (.catalog .notAList)
  | arcs : IsUnforeseen (.catalog .arcsNotAList)
  | position {cause : ConversionError} (h : cause ∈ ConversionError.unforeseen) :
    IsUnforeseen (.catalog (.conversion cause))
  | range {cause : ConversionError} (h : cause ∈ ConversionError.unforeseen) :
    IsUnforeseen (.listing (.range cause))
  | light {cause : CompileError} (h : cause ∈ CompileError.unforeseen) :
    IsUnforeseen (.listing (.compile cause))
  | compile {cause : CompileError} (h : cause ∈ CompileError.unforeseen) :
    IsUnforeseen (.compile cause)
  | listener (reason : String) : IsUnforeseen (.playback (.listener reason))
  | timeline {cause : CompileError} (h : cause ∈ CompileError.unforeseen) :
    IsUnforeseen (.playback (.compile cause))
  | display {cause : ColorError} (h : cause ∈ ColorError.unforeseen) :
    IsUnforeseen (.playback (.display cause))
  | tooDeep : IsUnforeseen (.playback .tooDeep)
  | wait : IsUnforeseen (.wait .tooLarge)

lemma Trouble.isReported_eq_false_iff (trouble : Trouble) :
    trouble.isReported = false ↔ trouble.IsUnforeseen := by
  constructor
  · intro h
    cases trouble with
    | file path cause => exact .file path ((FileError.isReported_eq_false_iff cause).mp h)
    | config cause =>
      cases cause with
      | notAMapping => cases h
      | entriesNotAMapping => exact .entries
      | conversion cause => exact .setting ((ConversionError.isReported_eq_false_iff cause).mp h)
    | catalogNotNamed => exact .catalogNotNamed
    | catalog cause =>
      cases cause with
      | notAList => exact .lights
      | arcsNotAList => exact .arcs
      | conversion cause => exact .position ((ConversionError.isReported_eq_false_iff cause).mp h)
      | _ => cases h
    | listing cause =>
      cases cause with
      | compile cause => exact .light ((CompileError.isReported_eq_false_iff cause).mp h)
      | range cause => exact .range ((ConversionError.isReported_eq_false_iff cause).mp h)
    | unparsed code => cases h
    | compile cause => exact .compile ((CompileError.isReported_eq_false_iff cause).mp h)
    | playback fault =>
      cases fault with
      | listener reason => exact .listener reason
      | compile cause => exact .timeline ((CompileError.isReported_eq_false_iff cause).mp h)
      | display cause => exact .display ((ColorError.isReported_eq_false_iff cause).mp h)
      | tooDeep => exact .tooDeep
    | wait cause =>
      cases cause with
      | tooLarge => exact .wait
      | _ => cases h
  · intro h
    cases h with
    | file path h => exact (FileError.isReported_eq_false_iff _).mpr h
    | setting h => exact (ConversionError.isReported_eq_false_iff _).mpr h
    | position h => exact (ConversionError.isReported_eq_false_iff _).mpr h
    | range h => exact (ConversionError.isReported_eq_false_iff _).mpr h
    | light h => exact (CompileError.isReported_eq_false_iff _).mpr h
    | compile h => exact (CompileError.isReported_eq_false_iff _).mpr h
    | timeline h => exact (CompileError.isReported_eq_false_iff _).mpr h
    | display h => exact (ColorError.isReported_eq_false_iff _).mpr h
    | _ => rfl

/-! ### The troubles of a command -/

section

variable (fetch : Fetch Id) (args : Arguments)

/-- The troubles of a document that is to be read from the file of a path. -/
def documentTroubles (path : String) (ofDocument : Value → List Trouble) :
    Except FileError Value → List Trouble
  | .error cause => [.file path cause]
  | .ok document => ofDocument document

/-- The troubles with the configuration. -/
def configTroubles : Option String → List Trouble
  | none => []
  | some file =>
    let path := Path.normal file
    documentTroubles path (fun document => (Config.defects path document).map .config) (fetch path)

/-- The trouble with the name of the catalogue: the arguments do not name one, and the configuration
names it by something that is no text. -/
def namingTroubles (config : Config) : List Trouble :=
  match args.catalog, config.catalog.given? with
  | none, some (.text _) => []
  | none, some _ => [.catalogNotNamed]
  | _, _ => []

/-- The troubles with reporting a notation. -/
def reportTroubles (compiler : Compiler Float) (code : String) : List Trouble :=
  match Characteristic.read? code with
  | none => [.unparsed code]
  | some c => (defectOf (compiler.compile Morse.builtin (some c))).map .compile

/-- The troubles with a catalogue, and with listing its lights if it can be read. -/
def catalogTroubles (compiler : Compiler Float) (document : Value) : List Trouble :=
  (Catalog.defects document).map .catalog ++
    match (Catalog.read document).result with
    | .ok lights =>
      (lights.flatMap (Catalog.lightDefects compiler Morse.builtin)).map .listing
    | .error _ => []

/-- The troubles that are left once there is a configuration. -/
def taskTroubles (config : Config) : List Trouble :=
  let compiler := config.compiler Morse.builtin
  namingTroubles args config ++
    match args.code, catalogPath args config with
    | some code, _ => reportTroubles compiler code
    | none, .ok (some path) => documentTroubles path (catalogTroubles compiler) (fetch path)
    | none, _ => []

/-- What keeps a command from doing what it is asked for, in the order of its work. -/
def troubles : List Trouble :=
  configTroubles fetch args.config ++
    match configure fetch args.config with
    | .ok config => taskTroubles fetch args config
    | .error _ => []

/-- There is something to do: a notation is given, or a catalogue is named by the arguments or by
the configuration. -/
def IsTask : Prop :=
  args.code.isSome ∨
    ∀ config, configure fetch args.config = .ok config → catalogPath args config ≠ .ok none

end

/-! ### Endings -/

/-- A command prints lines and ends by its troubles: by the first one, or with the status zero. -/
inductive Outcome.EndsBy : Outcome Float → List Trouble → Prop where
  /-- There was no trouble. -/
  | completed (lines : List String) : EndsBy (.ofLines lines 0) []
  /-- The first trouble ends the command. -/
  | troubled (lines : List String) (trouble : Trouble) (more : List Trouble) :
    EndsBy (.troubled (chunksOf lines) trouble) (trouble :: more)

lemma failsFirst_configure (fetch : Fetch Id) (file : Option String) :
    FailsFirst (configure fetch file : Except Trouble Config) (configTroubles fetch file) := by
  cases file with
  | none => exact .ok _
  | some file =>
    rw [configure, configTroubles]
    dsimp only [bind, pure]
    cases fetch (Path.normal file) with
    | error cause => exact .error _ []
    | ok document =>
      dsimp only [documentTroubles]
      obtain ⟨config, hconfig, hnone⟩ | ⟨cause, more, hcause, hmore⟩ :=
        (Config.failsFirst_read (Path.normal file) document).ok_or_error
      · rw [hconfig, hnone]
        exact .ok config
      · rw [hcause, hmore]
        exact .error _ _

lemma failsFirst_catalogPath (args : Arguments) (config : Config) :
    FailsFirst (catalogPath args config) (namingTroubles args config) := by
  rw [catalogPath, namingTroubles]
  cases args.catalog with
  | some file => exact .ok _
  | none =>
    cases config.catalog.given? with
    | none => exact .ok _
    | some v => cases v <;> first | exact .ok _ | exact .error _ []

lemma report_endsBy (compiler : Compiler Float) (code : String) (json : Bool) :
    (report compiler code json).EndsBy (reportTroubles compiler code) := by
  rw [report, reportTroubles]
  cases (Characteristic.read? code : Option (Characteristic Float)) with
  | none => exact .troubled [] _ []
  | some c =>
    dsimp only
    cases compiler.compile Morse.builtin (some c) with
    | error cause => exact .troubled [] _ []
    | ok ts => exact .completed _

lemma list_endsBy (compiler : Compiler Float) (path : String)
    (document : Except FileError Value) :
    (list compiler path document).EndsBy
      (documentTroubles path (catalogTroubles compiler) document) := by
  cases document with
  | error cause => exact .troubled [] _ []
  | ok document =>
    rw [list, documentTroubles, catalogTroubles]
    dsimp only
    obtain ⟨lights, hlights, hnone⟩ | ⟨cause, more, hcause, hmore⟩ :=
      (Catalog.failsFirst_read document).ok_or_error
    · rw [hlights, hnone]
      dsimp only
      rw [Catalog.trouble_listing, ← Outcome.chunksOf_append]
      cases lights.flatMap (Catalog.lightDefects compiler Morse.builtin) with
      | nil => exact .completed _
      | cons cause more => exact .troubled _ _ _
    · rw [hcause, hmore]
      exact .troubled _ _ _

lemma present_endsBy {args : Arguments} (hplay : args.play = none) (config : Config)
    (code : String) (interruption : Option Float) (clock : Clock Float) :
    (present args config code interruption clock).EndsBy
      (reportTroubles (config.compiler Morse.builtin) code) := by
  rw [present, hplay]
  exact report_endsBy _ code args.json

/-- A command that has something to do, and does not play, ends by its troubles. -/
lemma execute_endsBy {fetch : Fetch Id} {args : Arguments} (hplay : args.play = none)
    (htask : IsTask fetch args) (interruption : Option Float) (clock : Clock Float) :
    (execute fetch interruption args clock : Id (Outcome Float)).run.EndsBy
      (troubles fetch args) := by
  rw [execute, troubles]
  dsimp only [bind, pure, Id.run]
  obtain ⟨config, hconfig, hnone⟩ | ⟨trouble, more, htrouble, hmore⟩ :=
    (failsFirst_configure fetch args.config).ok_or_error
  case inr =>
    rw [htrouble, hmore]
    exact .troubled [] _ _
  rw [hconfig, hnone]
  dsimp only
  rw [List.nil_append, taskTroubles]
  obtain ⟨path, hpath, hnone⟩ | ⟨trouble, more, htrouble, hmore⟩ :=
    (failsFirst_catalogPath args config).ok_or_error
  case inr =>
    rw [htrouble, hmore]
    exact .troubled [] _ _
  rw [hpath, hnone]
  cases hcode : args.code with
  | some code => exact present_endsBy hplay config code interruption clock
  | none =>
    cases path with
    | some path => exact list_endsBy _ path _
    | none =>
      obtain hgiven | hnamed := htask
      · rw [hcode] at hgiven
        cases hgiven
      · exact absurd hpath (hnamed config hconfig)

/-- So does the command of a line that is read as its arguments. -/
lemma run_endsBy {fetch : Fetch Id} {line : List String} {args : Arguments}
    (hline : Arguments.read line = .ok args) (hplay : args.play = none)
    (htask : IsTask fetch args) (interruption : Option Float) (clock : Clock Float) :
    (run fetch interruption line clock : Id (Outcome Float)).run.EndsBy (troubles fetch args) := by
  rw [run, hline]
  exact execute_endsBy hplay htask interruption clock

/-- **A command ends by what is wrong with its files.**  A command that has something to do, and
does not play, ends with the status zero exactly if there is no trouble.  If the first trouble is a
reported one, its text is the last line that is printed, and the status is one.  If it is an
unforeseen one, the command is left with this trouble unreported. -/
theorem run_ends {line : List String} {args : Arguments} (fetch : Fetch Id)
    (interruption : Option Float) (clock : Clock Float) (hline : Arguments.read line = .ok args)
    (hplay : args.play = none) (htask : IsTask fetch args) :
    let outcome := (run fetch interruption line clock).run
    match troubles fetch args with
    | [] => outcome.ending = .status 0
    | trouble :: _ =>
      if trouble.isReported then
        ¬ trouble.IsUnforeseen ∧ outcome.ending = .status 1 ∧ ∃ before : List String,
          outcome.text = String.join ((before ++ ["Error: " ++ trouble.message]).map (· ++ "\n"))
      else trouble.IsUnforeseen ∧ outcome.ending = .unreported trouble := by
  have hends := run_endsBy hline hplay htask interruption clock
  generalize (run fetch interruption line clock).run = outcome at hends ⊢
  generalize troubles fetch args = list at hends ⊢
  cases hends with
  | completed lines => rfl
  | troubled lines trouble more =>
    dsimp only
    split_ifs with hreported
    · have hforeseen : ¬ trouble.IsUnforeseen := by
        rw [← trouble.isReported_eq_false_iff, hreported]
        simp
      refine ⟨hforeseen, by rw [Outcome.ending_troubled, if_pos hreported], lines, ?_⟩
      rw [Outcome.text_troubled _ hreported]
      simp
    · have hunforeseen : trouble.IsUnforeseen :=
        trouble.isReported_eq_false_iff.mp (Bool.eq_false_of_not_eq_true hreported)
      exact ⟨hunforeseen, by rw [Outcome.ending_troubled, if_neg hreported]⟩

/-! ### A reported and an unreported trouble -/

/-- A catalogue of one light with an arc that does not end. -/
def openArcs : Value :=
  .list [.map [(.text "name", .text "Pier"), (.text "lat", .float 34.5), (.text "lon", .float 8.25),
    (.text "code", .text "F W"), (.text "arcs", .list [.map [(.text "start", .float 90.0)]])]]

theorem open_arc_reported :
    let args : Arguments := { catalog := some "lights.yaml" }
    let outcome := (run (m := Id) (fun _ => .ok openArcs) none ["--catalog", "lights.yaml"]).run
    Arguments.read ["--catalog", "lights.yaml"] = .ok args ∧ args.play = none ∧
      IsTask (fun _ => .ok openArcs) args ∧ outcome.ending = .status 1 ∧
      outcome.text = "Error: Catalog entry 0 (Pier) has an arc without start/end\n" := by
  have hread : Arguments.read ["--catalog", "lights.yaml"] =
      .ok { catalog := some "lights.yaml" } := by rfl
  have htask : IsTask (fun _ => .ok openArcs) { catalog := some "lights.yaml" } :=
    .inr fun config _ => by simp [catalogPath]
  obtain ⟨-, hending, -⟩ := run_ends (fun _ => .ok openArcs) none .counted hread rfl htask
  exact ⟨hread, rfl, htask, hending, by decide +kernel⟩

/-- A configuration with a list in the place of its colours. -/
def colorList : Value :=
  .map [(.text "colors", .list [.int 1])]

/-- Not every trouble with a document is reported: a list in the place of the colours leaves the
command without a status. -/
theorem color_list_unreported :
    let outcome := (run (m := Id) (fun _ => .ok colorList) none ["Q W", "--config", "c.yaml"]).run
    outcome.ending = .unreported (.config .entriesNotAMapping) ∧
      ∀ status, outcome.ending ≠ .status status := by
  have hending : (run (m := Id) (fun _ => .ok colorList) none
      ["Q W", "--config", "c.yaml"]).run.ending = .unreported (.config .entriesNotAMapping) := by
    rfl
  exact ⟨hending, fun status hstatus => by rw [hending] at hstatus; cases hstatus⟩

end Command

end Seamark
