/-
This file proves how the layers decide the preferences: the command line over the environment over
the file in the working directory over the user's file over what is built in.

A choice goes to the highest layer that says something about it, with one exception. A file that
says the built-in value is taken as saying nothing, so where nothing above it speaks, the file in
the working directory cannot bring a choice back to the built-in value once the user's file has left
it. That exception is the only one, and the law holds exactly where it does not apply.

What files say is a relation here, which covers a file that is not there and one that is understood;
the loading succeeds exactly where both files are of these kinds.
-/

import ConnectorSettings.Program
import ConnectorSettings.Proofs.Passes

namespace ConnectorSettings

namespace Preferences

/-! ### Choices -/

/-- What a layer decides against the layers below it. Sources are not among them: they add up. -/
inductive Choice where
  | connector
  | aliases
  | format
  | showSecrets

abbrev Choice.Value : Choice → Type
  | .connector => Connector
  | .aliases => List String
  | .format => OutputFormat
  | .showSecrets => Bool

instance (choice : Choice) : DecidableEq choice.Value :=
  match choice with
  | .connector => inferInstanceAs (DecidableEq Connector)
  | .aliases => inferInstanceAs (DecidableEq (List String))
  | .format => inferInstanceAs (DecidableEq OutputFormat)
  | .showSecrets => inferInstanceAs (DecidableEq Bool)

def value (preferences : Preferences) : (choice : Choice) → choice.Value
  | .connector => preferences.connector
  | .aliases => preferences.aliases
  | .format => preferences.format
  | .showSecrets => preferences.showSecrets

namespace Layer

def answer (layer : Layer) : (choice : Choice) → Option choice.Value
  | .connector => layer.connector
  | .aliases => layer.aliases
  | .format => layer.format
  | .showSecrets => layer.showSecrets

/-- The layer that says nothing. -/
def silent : Layer := ⟨none, none, none, none, none⟩

/-- The layer without the choices for which it says the built-in value. -/
def withoutBuiltIn (layer : Layer) : Layer where
  connector := layer.connector.filter (· ≠ builtIn.connector)
  aliases := layer.aliases.filter (· ≠ builtIn.aliases)
  sources := layer.sources
  format := layer.format.filter (· ≠ builtIn.format)
  showSecrets := layer.showSecrets.filter (· ≠ builtIn.showSecrets)

theorem answer_withoutBuiltIn (layer : Layer) (choice : Choice) :
    layer.withoutBuiltIn.answer choice =
      (layer.answer choice).filter (· ≠ builtIn.value choice) := by
  cases choice <;> rfl

end Layer

/-- The value that the highest of the layers which speak for a choice gives it. -/
def decided (choice : Choice) (layers : List Layer) : choice.Value :=
  (layers.findSome? fun layer => layer.answer choice).getD (builtIn.value choice)

theorem decided_cons (choice : Choice) (layer : Layer) (layers : List Layer) :
    decided choice (layer :: layers) = (layer.answer choice).getD (decided choice layers) := by
  unfold decided
  rw [List.findSome?_cons]
  cases layer.answer choice <;> rfl

theorem decided_append (choice : Choice) (above layers : List Layer) :
    decided choice (above ++ layers) =
      (above.findSome? fun layer => layer.answer choice).getD (decided choice layers) := by
  unfold decided
  rw [List.findSome?_append]
  cases above.findSome? fun layer => layer.answer choice <;> rfl

/-! ### One layer over preferences -/

theorem overlay_silent (below : Preferences) : below.overlay .silent = below := by
  simp only [overlay, Layer.silent, overlaid, Option.getD_none, List.append_nil]

theorem overlaid_eq_getD {α : Type} [DecidableEq α] (builtIn below : α) (said : Option α) :
    overlaid builtIn below said = (said.filter (· ≠ builtIn)).getD below := by
  cases said with
  | none => rfl
  | some value => by_cases same : value = builtIn <;> simp [overlaid, Option.filter_some, same]

/-- A layer of a file counts only where it differs from what is built in. -/
theorem value_overlay (below : Preferences) (layer : Layer) (choice : Choice) :
    (below.overlay layer).value choice =
      (layer.withoutBuiltIn.answer choice).getD (below.value choice) := by
  cases choice <;> exact overlaid_eq_getD _ _ _

/-- The preferences below what a layer says, whatever values it says. -/
def below (preferences : Preferences) (layer : Layer) : Preferences where
  connector := layer.connector.getD preferences.connector
  aliases := layer.aliases.getD preferences.aliases
  sources := preferences.sources
  format := layer.format.getD preferences.format
  showSecrets := layer.showSecrets.getD preferences.showSecrets

theorem value_below (preferences : Preferences) (layer : Layer) (choice : Choice) :
    (preferences.below layer).value choice =
      (layer.answer choice).getD (preferences.value choice) := by
  cases choice <;> rfl

/-! ### What the environment and the command line say -/

/-- What a variable chooses, if it is set to a choice. -/
def chosen {α : Type} (environment : Environment) (variableName : String)
    (choose : String → Except Warning α) : Option α :=
  match environment.read variableName with
  | .present value => (choose value).toOption
  | .absent => none
  | .undecodable _ => none

theorem override_fst {α : Type} (environment : Environment) (variableName : String)
    (choose : String → Except Warning α) (below : α) :
    (override environment variableName choose below).1 =
      (chosen environment variableName choose).getD below := by
  unfold override chosen
  cases environment.read variableName with
  | absent => rfl
  | undecodable _ => rfl
  | present value =>
    dsimp only
    cases choose value <;> rfl

namespace Layer

def ofEnvironment (environment : Environment) : Layer where
  connector := chosen environment connectorVariable chooseConnector
  aliases := chosen environment aliasesVariable chooseAliases
  sources := none
  format := chosen environment formatVariable chooseFormat
  showSecrets := none

/-- What a command says of its own. Secrets can be asked for there, but not be declined. -/
def ofCommand : CommandLine.Command → Layer
  | .resolve request =>
    { connector := request.connector
      aliases := none
      sources := none
      format := request.format
      showSecrets := if request.showSecrets then some true else none }
  | .keys request =>
    { connector := request.connector
      aliases := none
      sources := none
      format := request.format
      showSecrets := none }

end Layer

theorem underEnvironment_fst (preferences : Preferences) (environment : Environment) :
    (preferences.underEnvironment environment).1 =
      preferences.below (.ofEnvironment environment) := by
  simp only [underEnvironment, override_fst]
  rfl

end Preferences

/-- The command when it leaves every choice to the preferences. -/
def CommandLine.Command.undecided : CommandLine.Command → CommandLine.Command
  | .resolve request =>
    .resolve { request with connector := none, format := none, showSecrets := false }
  | .keys request => .keys { request with connector := none, format := none }

/-- A command acts through the preferences that lie below what it says, and in no other way through
its choices. -/
theorem Program.perform_below (surroundings : Surroundings) (preferences : Preferences)
    (command : CommandLine.Command) :
    perform surroundings preferences command =
      perform surroundings (preferences.below (.ofCommand command)) command.undecided := by
  cases command with
  | keys request => rfl
  | resolve request =>
    have secrets : (request.showSecrets || preferences.showSecrets) =
        (preferences.below (.ofCommand (.resolve request))).showSecrets := by
      cases asked : request.showSecrets <;> simp [Preferences.below, Preferences.Layer.ofCommand,
        asked]
    simp only [perform, resolve, secrets]
    rfl

namespace Preferences

/-! ### What files say -/

/-- What a preference file says, if it is one that can be loaded: nothing where there is no file,
and otherwise what its text means. A relative source that it names is one in the directory of the
file. -/
inductive Means (files : Files) : Option String → Layer → Prop
  | unnamed : Means files none .silent
  | missing {path : String} (absent : files.isPresent path = false) :
    Means files (some path) .silent
  | written {path text : String} {layer : Layer} (present : files.isPresent path = true)
    (given : files.read path = .ok text) (understood : Layer.ofText? text = some layer) :
    Means files (some path) { layer with
      sources := layer.sources.map fun sources => sources.map fun source =>
        if PathName.isAbsolute source then source
        else PathName.join (PathName.parent path) source }

/-- Joining leaves an absolute name as it is. -/
theorem seenFrom_eq (layer : Layer) (path : String) :
    layer.seenFrom path = { layer with
      sources := layer.sources.map fun sources => sources.map fun source =>
        if PathName.isAbsolute source then source
        else PathName.join (PathName.parent path) source } := by
  have joined : (fun source => PathName.join (PathName.parent path) source) = fun source =>
      if PathName.isAbsolute source then source
      else PathName.join (PathName.parent path) source := by
    funext source
    by_cases absolute : PathName.isAbsolute source = true
    · rw [if_pos absolute, PathName.join, absolute, Bool.true_or, if_pos rfl]
    · rw [if_neg absolute]
  rw [Layer.seenFrom, ← joined]

theorem Means.seenFrom {files : Files} {path text : String} {layer : Layer}
    (present : files.isPresent path = true) (given : files.read path = .ok text)
    (understood : Layer.ofText? text = some layer) :
    Means files (some path) (layer.seenFrom path) := by
  rw [seenFrom_eq]
  exact .written present given understood

theorem readLayer_eq_ok_iff {files : Files} {path : String} {layer : Layer} :
    readLayer files path = .ok layer ↔ ∃ text written, files.read path = .ok text ∧
      Layer.ofText? text = some written ∧ layer = written.seenFrom path := by
  unfold readLayer
  cases given : files.read path with
  | error failure => exact ⟨nofun, fun ⟨_, _, read, _⟩ => nomatch read⟩
  | ok text =>
    cases understood : Layer.ofText? text with
    | none =>
      simp only [understood]
      refine ⟨nofun, ?_⟩
      rintro ⟨_, _, ⟨⟩, meant, _⟩
      rw [understood] at meant
      cases meant
    | some written =>
      simp only [understood]
      constructor
      · intro same
        exact ⟨text, written, rfl, understood, (Except.ok.inj same).symm⟩
      · rintro ⟨_, _, ⟨⟩, meant, rfl⟩
        rw [understood] at meant
        obtain rfl := Option.some.inj meant
        rfl

theorem overlayFile_eq_ok_iff {files : Files} {below above : Preferences} {path : String} :
    overlayFile files below path = .ok above ↔
      ∃ layer, Means files (some path) layer ∧ below.overlay layer = above := by
  unfold overlayFile
  cases present : files.isPresent path with
  | false =>
    constructor
    · rintro ⟨⟩
      exact ⟨_, .missing present, overlay_silent below⟩
    · rintro ⟨_, means, rfl⟩
      cases means with
      | missing _ => exact congrArg Except.ok (overlay_silent below).symm
      | written here _ _ => exact absurd (here.symm.trans present) Bool.noConfusion
  | true =>
    show below.overlay <$> readLayer files path = .ok above ↔ _
    rw [map_eq_ok_iff]
    constructor
    · rintro ⟨layer, read, rfl⟩
      obtain ⟨text, written, given, understood, rfl⟩ := readLayer_eq_ok_iff.mp read
      exact ⟨_, .seenFrom present given understood, rfl⟩
    · rintro ⟨_, means, rfl⟩
      cases means with
      | missing absent => exact absurd (absent.symm.trans present) Bool.noConfusion
      | written _ given understood =>
        exact ⟨_, readLayer_eq_ok_iff.mpr ⟨_, _, given, understood, (seenFrom_eq _ _).symm⟩, rfl⟩

theorem foldlM_overlayFile_eq_ok_iff {files : Files} {file : Option String}
    {below above : Preferences} :
    file.toList.foldlM (overlayFile files) below = .ok above ↔
      ∃ layer, Means files file layer ∧ below.overlay layer = above := by
  cases file with
  | none =>
    constructor
    · rintro ⟨⟩
      exact ⟨_, .unnamed, overlay_silent below⟩
    · rintro ⟨_, ⟨⟩, rfl⟩
      exact congrArg Except.ok (overlay_silent below).symm
  | some path =>
    rw [← overlayFile_eq_ok_iff, Option.toList_some, List.foldlM_cons, bind_eq_ok_iff]
    exact ⟨fun ⟨_, step, done⟩ => step.trans done, fun step => ⟨above, step, rfl⟩⟩

/-- The file in the working directory. -/
def workFile (workDirectory : Option String) : Option String :=
  workDirectory.map (PathName.join · workFileName)

/-- Preferences are loaded exactly where both files say something or are missing. -/
theorem load_eq_ok_iff {files : Files} {userFile workDirectory : Option String}
    {environment : Environment} {loaded : Preferences × List Warning} :
    load files userFile workDirectory environment = .ok loaded ↔
      ∃ userLayer workLayer, Means files userFile userLayer ∧
        Means files (workFile workDirectory) workLayer ∧
        ((builtIn.overlay userLayer).overlay workLayer).underEnvironment environment = loaded := by
  show ((userFile.toList ++ (workFile workDirectory).toList).foldlM (overlayFile files) builtIn >>=
    fun preferences => pure (preferences.underEnvironment environment)) = .ok loaded ↔ _
  rw [bind_pure_comp, map_eq_ok_iff, List.foldlM_append]
  simp only [bind_eq_ok_iff, foldlM_overlayFile_eq_ok_iff]
  constructor
  · rintro ⟨_, ⟨_, ⟨userLayer, userMeans, rfl⟩, workLayer, workMeans, rfl⟩, rfl⟩
    exact ⟨userLayer, workLayer, userMeans, workMeans, rfl⟩
  · rintro ⟨userLayer, workLayer, userMeans, workMeans, rfl⟩
    exact ⟨_, ⟨_, ⟨userLayer, userMeans, rfl⟩, workLayer, workMeans, rfl⟩, rfl⟩

/-! ### The law of the layers -/

/-- The file in the working directory asks for what is built in, against the user's file, and
nothing above the two speaks for the choice. -/
def Unheeded (choice : Choice) (above : List Layer) (workLayer userLayer : Layer) : Prop :=
  (∀ layer ∈ above, layer.answer choice = none) ∧
    workLayer.answer choice = some (builtIn.value choice) ∧
    ∃ other, userLayer.answer choice = some other ∧ other ≠ builtIn.value choice

/-- Taking the built-in value for silence makes a difference exactly where one file has that value
to say against another. -/
theorem getD_filter_eq_iff {α : Type} [DecidableEq α] (builtIn : α) (work user : Option α) :
    (work.filter (· ≠ builtIn)).getD (user.getD builtIn) = work.getD (user.getD builtIn) ↔
      ¬ (work = some builtIn ∧ ∃ other, user = some other ∧ other ≠ builtIn) := by
  cases work with
  | none => simp
  | some value =>
    by_cases same : value = builtIn
    · cases user <;> simp [Option.filter_some, same]
    · simp [Option.filter_some, same]

theorem decided_eq_iff (choice : Choice) (above : List Layer) (workLayer userLayer : Layer) :
    decided choice (above ++ [workLayer.withoutBuiltIn, userLayer]) =
      decided choice (above ++ [workLayer, userLayer]) ↔
      ¬ Unheeded choice above workLayer userLayer := by
  rw [decided_append, decided_append]
  unfold Unheeded
  cases spoken : above.findSome? fun layer => layer.answer choice with
  | some value =>
    refine ⟨fun _ unheeded => ?_, fun _ => rfl⟩
    rw [List.findSome?_eq_none_iff.mpr unheeded.1] at spoken
    cases spoken
  | none =>
    have silent := List.findSome?_eq_none_iff.mp spoken
    simp only [Option.getD_none, decided_cons, Layer.answer_withoutBuiltIn]
    exact (getD_filter_eq_iff _ _ _).trans
      (not_congr ⟨fun both => ⟨silent, both⟩, fun unheeded => unheeded.2⟩)

/-- Loading succeeds whatever the two files say, and a command acts through what is decided for each
choice. The file in the working directory counts only with what differs from the built-in values, so
the highest layer that speaks decides unless what that file says goes unheeded. -/
theorem highest_layer_decides_iff (files : Files) (userFile workDirectory : Option String)
    (environment : Environment) (command : CommandLine.Command) {userLayer workLayer : Layer}
    (userMeans : Means files userFile userLayer)
    (workMeans : Means files (workFile workDirectory) workLayer) :
    ∃ loaded warnings, load files userFile workDirectory environment = .ok (loaded, warnings) ∧
      let used := loaded.below (.ofCommand command)
      let above := [.ofCommand command, .ofEnvironment environment]
      (∀ surroundings, Program.perform surroundings loaded command =
        Program.perform surroundings used command.undecided) ∧
      ∀ choice,
        used.value choice =
          decided choice (above ++ [workLayer.withoutBuiltIn, userLayer]) ∧
        (used.value choice = decided choice (above ++ [workLayer, userLayer]) ↔
          ¬ Unheeded choice above workLayer userLayer) := by
  refine ⟨_, _, load_eq_ok_iff.mpr ⟨userLayer, workLayer, userMeans, workMeans, rfl⟩,
    fun surroundings => Program.perform_below surroundings _ command, fun choice => ?_⟩
  have fromUser : (builtIn.overlay userLayer).value choice = decided choice [userLayer] := by
    rw [value_overlay, Layer.answer_withoutBuiltIn, decided_cons]
    exact (getD_filter_eq_iff (builtIn.value choice) (userLayer.answer choice) none).mpr
      fun heeded => nomatch heeded.2
  have chain : ((((builtIn.overlay userLayer).overlay workLayer).underEnvironment
      environment).1.below (.ofCommand command)).value choice =
      decided choice ([.ofCommand command, .ofEnvironment environment] ++
        [workLayer.withoutBuiltIn, userLayer]) := by
    rw [value_below, underEnvironment_fst, value_below, value_overlay, fromUser]
    simp only [List.cons_append, List.nil_append, decided_cons]
  exact ⟨chain, chain ▸ decided_eq_iff choice _ workLayer userLayer⟩

end Preferences

/-- Files that are given by their texts. -/
def Files.ofTexts (texts : List (String × String)) : Files where
  isPresent path := (Entries.lookup? path texts).isSome
  read path :=
    match Entries.lookup? path texts with
    | some text => .ok text
    | none => .error .notFound

namespace Preferences

/-- Both files and a variable speak for the connector, only the user's file for the format, and a
command for the secrets. -/
theorem highest_layer_decides_variable :
    let files := Files.ofTexts
      [("u.toml", "[resolve]\nbackend = \"abfs\"\n[output]\nformat = \"json\"\n"),
        ("w/.fsconf.toml", "[resolve]\nbackend = \"abfs\"\n")]
    let environment := Environment.ofList [("FSCONF_BACKEND", [0x53, 0x33])]
    let command := CommandLine.Command.resolve ⟨none, none, [], [], false, none, true⟩
    ∃ loaded warnings,
      load files (some "u.toml") (some "w") environment = .ok (loaded, warnings) ∧
        (loaded.below (.ofCommand command)).connector = .s3 ∧
        (loaded.below (.ofCommand command)).format = .json ∧
        (loaded.below (.ofCommand command)).showSecrets = true := by
  intro files environment command
  have userMeans : Means files (some "u.toml")
      (Layer.seenFrom ⟨some .abfs, none, none, some .json, none⟩ "u.toml") :=
    .seenFrom (by decide) rfl (by decide +kernel)
  have workMeans : Means files (workFile (some "w"))
      (Layer.seenFrom ⟨some .abfs, none, none, none, none⟩ "w/.fsconf.toml") :=
    .seenFrom (by decide) rfl (by decide +kernel)
  obtain ⟨loaded, warnings, read, -, decides⟩ := highest_layer_decides_iff files (some "u.toml")
    (some "w") environment command userMeans workMeans
  refine ⟨loaded, warnings, read, ?_, ?_, ?_⟩
  · exact (decides .connector).1.trans (by decide +kernel)
  · exact (decides .format).1.trans (by decide +kernel)
  · exact (decides .showSecrets).1.trans (by decide +kernel)

/-- The file in the working directory is the highest layer that speaks for the connector, but what
it says is built in, and so the user's file decides. -/
theorem highest_layer_unheeded :
    let files := Files.ofTexts [("u.toml", "[resolve]\nbackend = \"abfs\"\n"),
      ("w/.fsconf.toml", "[resolve]\nbackend = \"s3\"\n")]
    let userLayer : Layer := ⟨some .abfs, none, none, none, none⟩
    let workLayer : Layer := ⟨some .s3, none, none, none, none⟩
    let command := CommandLine.Command.resolve ⟨none, none, [], [], false, none, false⟩
    let loaded : Preferences := { builtIn with connector := .abfs }
    Means files (some "u.toml") userLayer ∧ Means files (workFile (some "w")) workLayer ∧
      load files (some "u.toml") (some "w") .empty = .ok (loaded, []) ∧
      (loaded.below (.ofCommand command)).connector = .abfs ∧
      decided .connector [.ofCommand command, .ofEnvironment .empty, workLayer, userLayer] =
        .s3 := by
  intro files userLayer workLayer command loaded
  refine ⟨?_, ?_, ?_, rfl, rfl⟩
  · show Means files (some "u.toml") (userLayer.seenFrom "u.toml")
    exact .seenFrom (by decide) rfl (by decide +kernel)
  · show Means files (some "w/.fsconf.toml") (workLayer.seenFrom "w/.fsconf.toml")
    exact .seenFrom (by decide) rfl (by decide +kernel)
  · decide +kernel

end Preferences

end ConnectorSettings
