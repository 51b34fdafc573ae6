/-
This file proves that collecting sources is a matter of the last writer: files in the order in which
the user's preferences, those of the working directory and the command line name them, and overrides
behind all files.

Collecting is two passes and one run of writes. It succeeds exactly if both passes do, and then the
last override of a key decides it, or else the last file that has the key, while the keys stand in
the order in which they first appeared. Where a pass fails, its first failure is the error, and that
of a file comes before that of any override.
-/

import ConnectorSettings.Proofs.Layers
import ConnectorSettings.Proofs.Merging

namespace ConnectorSettings

namespace Source

/-! ### Overrides -/

/-- The override is a key, the first equals sign in it and a value. Blanks around the two do not
count, and there is no empty key. -/
def Assigns (input key value : String) : Prop :=
  ∃ name text, input.toList = name ++ '=' :: text ∧ '=' ∉ name ∧
    key = String.ofList (Text.trim name) ∧ key ≠ "" ∧ value = String.ofList (Text.trim text)

theorem assigns_iff {input key value : String} :
    Assigns input key value ↔ ∃ name text, Text.splitOnce? '=' input.toList = some (name, text) ∧
      key = String.ofList (Text.trim name) ∧ key ≠ "" ∧
        value = String.ofList (Text.trim text) := by
  simp only [Assigns, Text.splitOnce?_eq_some_iff, and_assoc]

theorem parseOverride_eq_ok_iff {input key value : String} :
    parseOverride input = .ok (key, value) ↔ Assigns input key value := by
  rw [assigns_iff]
  unfold parseOverride
  cases Text.splitOnce? '=' input.toList with
  | none => exact ⟨nofun, fun ⟨_, _, split, _⟩ => nomatch split⟩
  | some parts =>
    obtain ⟨name, text⟩ := parts
    cases empty : (Text.trim name).isEmpty with
    | true =>
      simp only [empty, if_true]
      refine ⟨nofun, ?_⟩
      rintro ⟨_, _, ⟨⟩, rfl, filled, _⟩
      exact absurd (congrArg String.ofList (List.isEmpty_iff.mp empty)) filled
    | false =>
      simp only [empty, Bool.false_eq_true, if_false]
      constructor
      · rintro ⟨⟩
        refine ⟨name, text, rfl, rfl, fun none => ?_, rfl⟩
        have nil : Text.trim name = [] := String.ofList_inj.mp none
        rw [nil] at empty
        cases empty
      · rintro ⟨_, _, ⟨⟩, rfl, _, rfl⟩
        rfl

theorem parseOverride_eq_error_iff {input : String} {error : SourceError} :
    parseOverride input = .error error ↔
      (∀ key value, ¬ Assigns input key value) ∧ error = .badOverride input := by
  simp only [← parseOverride_eq_ok_iff]
  cases parsed : parseOverride input with
  | ok pair => exact ⟨nofun, fun bad => absurd rfl (bad.1 pair.1 pair.2)⟩
  | error other =>
    have named : other = .badOverride input := by
      unfold parseOverride at parsed
      split at parsed
      · dsimp only at parsed
        split at parsed
        · exact (Except.error.inj parsed).symm
        · cases parsed
      · exact (Except.error.inj parsed).symm
    constructor
    · rintro ⟨⟩
      exact ⟨nofun, named⟩
    · rintro ⟨_, rfl⟩
      rw [named]

/-! ### Files and overrides -/

/-- What collecting files and overrides comes to if the last writer wins. -/
structure LastWriterWins (files : Files) (paths overrides : List String)
    (outcome : Except SourceError SettingsMap) : Prop where
  succeeds_iff : (∃ map, outcome = .ok map) ↔
    (∀ path ∈ paths, ∃ held, load files path = .ok held) ∧
      ∀ input ∈ overrides, ∃ key value, Assigns input key value
  /-- Each key has the value of the last override of it, or else of the last file that has it, and
  the keys stand in the order in which they first appeared, each of them once. -/
  contents : ∀ map, outcome = .ok map → ∃ maps pairs,
    List.Forall₂ (fun path held => load files path = .ok held) paths maps ∧
      List.Forall₂ (fun input pair => Assigns input pair.1 pair.2) overrides pairs ∧
      (∀ key, map.get? key = (Entries.lookup? key pairs.reverse).or
        (maps.reverse.findSome? fun held => held.get? key)) ∧
      map.keys = (maps.flatMap SettingsMap.keys ++ Entries.names pairs).eraseDups ∧
      map.keys.Nodup
  /-- The error is that of the first file that fails, or else of the first override that does. -/
  fails_iff : ∀ error, outcome = .error error ↔
    (∃ before path after, paths = before ++ path :: after ∧
      (∀ earlier ∈ before, ∃ held, load files earlier = .ok held) ∧
        load files path = .error error) ∨
    ((∀ path ∈ paths, ∃ held, load files path = .ok held) ∧
      ∃ before input after, overrides = before ++ input :: after ∧
        (∀ earlier ∈ before, ∃ key value, Assigns earlier key value) ∧
        (∀ key value, ¬ Assigns input key value) ∧ error = .badOverride input)

theorem collect_eq_ok_iff {files : Files} {paths overrides : List String} {map : SettingsMap} :
    collect files paths overrides = .ok map ↔ ∃ maps, paths.mapM (load files) = .ok maps ∧
      ∃ pairs, overrides.mapM parseOverride = .ok pairs ∧
        (maps.foldl SettingsMap.merge .empty).insertAll pairs = map := by
  simp only [collect, bind_pure_comp, bind_eq_ok_iff, map_eq_ok_iff]

theorem collect_eq_error_iff {files : Files} {paths overrides : List String}
    {error : SourceError} :
    collect files paths overrides = .error error ↔ paths.mapM (load files) = .error error ∨
      (∃ maps, paths.mapM (load files) = .ok maps) ∧
        overrides.mapM parseOverride = .error error := by
  simp only [collect, bind_pure_comp, bind_eq_error_iff, map_eq_error_iff, exists_and_right]

/-- The map that a collection leaves is known by its values and its keys. -/
theorem get?_collected (maps : List SettingsMap) (pairs : List (String × String)) (key : String) :
    ((maps.foldl SettingsMap.merge .empty).insertAll pairs).get? key =
      (Entries.lookup? key pairs.reverse).or
        (maps.reverse.findSome? fun held => held.get? key) := by
  rw [SettingsMap.get?_insertAll_last, SettingsMap.get?_foldl_merge, SettingsMap.get?_empty,
    Option.or_none]

theorem keys_collected (maps : List SettingsMap) (pairs : List (String × String)) :
    ((maps.foldl SettingsMap.merge .empty).insertAll pairs).keys =
      (maps.flatMap SettingsMap.keys ++ Entries.names pairs).eraseDups := by
  rw [SettingsMap.foldl_merge, ← SettingsMap.insertAll_append, SettingsMap.keys_insertAll,
    SettingsMap.keys_empty, List.nil_append, Entries.names_append,
    SettingsMap.names_flatMap_entries]

theorem exists_parseOverride_iff {input : String} :
    (∃ pair, parseOverride input = .ok pair) ↔ ∃ key value, Assigns input key value := by
  simp only [Prod.exists, parseOverride_eq_ok_iff]

theorem collect_lastWriterWins (files : Files) (paths overrides : List String) :
    LastWriterWins files paths overrides (collect files paths overrides) where
  succeeds_iff := by
    simp only [← exists_parseOverride_iff, ← exists_mapM_ok_iff, collect_eq_ok_iff]
    constructor
    · rintro ⟨map, maps, loaded, pairs, parsed, _⟩
      exact ⟨⟨maps, loaded⟩, ⟨pairs, parsed⟩⟩
    · rintro ⟨⟨maps, loaded⟩, ⟨pairs, parsed⟩⟩
      exact ⟨_, maps, loaded, pairs, parsed, rfl⟩
  contents := by
    intro map collected
    obtain ⟨maps, loaded, pairs, parsed, rfl⟩ := collect_eq_ok_iff.mp collected
    refine ⟨maps, pairs, mapM_eq_ok_iff.mp loaded, ?_, get?_collected maps pairs,
      keys_collected maps pairs, SettingsMap.nodup_keys _⟩
    exact (mapM_eq_ok_iff.mp parsed).imp fun _ _ => parseOverride_eq_ok_iff.mp
  fails_iff := by
    intro error
    simp only [collect_eq_error_iff, mapM_eq_error_iff, exists_mapM_ok_iff,
      exists_parseOverride_iff, parseOverride_eq_error_iff]

end Source

/-! ### Sources of loaded preferences -/

/-- Sources add up: those that the user's file names come before those of the file in the working
directory, and nothing else names any. -/
theorem Preferences.sources_of_load {files : Files} {userFile workDirectory : Option String}
    {environment : Environment} {preferences : Preferences} {warnings : List Warning}
    (loaded : load files userFile workDirectory environment = .ok (preferences, warnings)) :
    ∃ userLayer workLayer, Means files userFile userLayer ∧
      Means files (workFile workDirectory) workLayer ∧
      preferences.sources = userLayer.sources.getD [] ++ workLayer.sources.getD [] := by
  obtain ⟨userLayer, workLayer, userMeans, workMeans, same⟩ := load_eq_ok_iff.mp loaded
  refine ⟨userLayer, workLayer, userMeans, workMeans, ?_⟩
  have kept := congrArg (fun outcome => outcome.1.sources) same
  exact kept.symm.trans (congrArg (· ++ workLayer.sources.getD []) (List.nil_append _))

namespace Source

open Preferences (Means workFile)

/-- The last writer wins among the files that the user's file names, those that the file in the
working directory names, those of the command line, and the overrides, in this order. -/
theorem lastWriterWins_of_load {files : Files} {userFile workDirectory : Option String}
    {environment : Environment} {preferences : Preferences}
    {warnings : List Preferences.Warning}
    (loaded : Preferences.load files userFile workDirectory environment =
      .ok (preferences, warnings)) (named overrides : List String) :
    ∃ userLayer workLayer, Means files userFile userLayer ∧
      Means files (workFile workDirectory) workLayer ∧
      LastWriterWins files (userLayer.sources.getD [] ++ workLayer.sources.getD [] ++ named)
        overrides (collect files (preferences.sources ++ named) overrides) := by
  obtain ⟨userLayer, workLayer, userMeans, workMeans, sources⟩ :=
    Preferences.sources_of_load loaded
  refine ⟨userLayer, workLayer, userMeans, workMeans, ?_⟩
  rw [← sources]
  exact collect_lastWriterWins files (preferences.sources ++ named) overrides

/-- A key that is given twice in one file, one that two files give, and two that are overridden. -/
theorem lastWriterWins_of_load_repeated :
    let files := Files.ofTexts [("u/config.toml", "[resolve]\nsources = [\"a.conf\"]\n"),
      ("w/.fsconf.toml", "[resolve]\nsources = [\"/b.conf\"]\n"),
      ("u/a.conf", "x 1\ny 1\nx 2\n"), ("/b.conf", "z 3\ny 3\n"), ("c.conf", "v 4\n")]
    let preferences : Preferences := { Preferences.builtIn with sources := ["u/a.conf", "/b.conf"] }
    Preferences.load files (some "u/config.toml") (some "w") .empty = .ok (preferences, []) ∧
      (∃ userLayer workLayer, Means files (some "u/config.toml") userLayer ∧
        Means files (workFile (some "w")) workLayer ∧
        LastWriterWins files
          (userLayer.sources.getD [] ++ workLayer.sources.getD [] ++ ["c.conf"])
          ["z = 5", " x=6"] (collect files (preferences.sources ++ ["c.conf"])
            ["z = 5", " x=6"])) ∧
      collect files (preferences.sources ++ ["c.conf"]) ["z = 5", " x=6"] =
        .ok (SettingsMap.ofList [("x", "6"), ("y", "3"), ("z", "5"), ("v", "4")]) := by
  intro files preferences
  have loaded : Preferences.load files (some "u/config.toml") (some "w") .empty =
      .ok (preferences, []) := by decide +kernel
  exact ⟨loaded, lastWriterWins_of_load loaded ["c.conf"] ["z = 5", " x=6"], by decide +kernel⟩

end Source

end ConnectorSettings
