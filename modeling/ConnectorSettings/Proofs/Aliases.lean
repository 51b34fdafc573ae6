/-
This file proves that the preferences hold every ecosystem name in one form, wherever it comes from:
not empty, without blanks around it, and with a point at its end.

A name reaches the preferences as a built-in one, through a file or through a variable. Files and
variables are layers, and what a layer says has been normalized when it is read; laying one layer
over another keeps the names of one of the two. So the form is an invariant of the layering, and no
step has to look at the names again.

Normalizing keeps the names that are not blank, in their order and each in its form. A name that is
in that form is left as it is, so normalizing twice is normalizing once.
-/

import ConnectorSettings.Proofs.Warnings
import Mathlib.Data.List.Forall2

namespace ConnectorSettings

namespace Text

/-! ### Blanks at the ends of a text -/

/-- The core is the text without the blanks at its two ends. -/
structure TrimsTo (text core : List Char) : Prop where
  split : ∃ front back, text = front ++ core ++ back ∧
    (∀ char ∈ front, isBlank char = true) ∧ ∀ char ∈ back, isBlank char = true
  starts : ∀ char ∈ core.head?, isBlank char = false
  ends : ∀ char ∈ core.getLast?, isBlank char = false

theorem head?_trimStart (text : List Char) :
    ∀ char ∈ (trimStart text).head?, isBlank char = false := by
  intro char first
  have head := List.head?_dropWhile_not isBlank text
  rw [show (text.dropWhile isBlank).head? = some char from first] at head
  exact head

theorem getLast?_trimEnd (text : List Char) :
    ∀ char ∈ (trimEnd text).getLast?, isBlank char = false := by
  rw [trimEnd, List.getLast?_reverse]
  exact head?_trimStart text.reverse

theorem trimsTo_trim (text : List Char) : TrimsTo text (trim text) where
  split := by
    have atEnd : trim text ++ (trimStart text).rtakeWhile isBlank = trimStart text :=
      List.rdropWhile_append_rtakeWhile
    refine ⟨text.takeWhile isBlank, (trimStart text).rtakeWhile isBlank, ?_, ?_, ?_⟩
    · rw [List.append_assoc, atEnd]
      exact List.takeWhile_append_dropWhile.symm
    · exact fun char member => List.mem_takeWhile_imp member
    · exact fun char member => List.mem_rtakeWhile_imp member
  starts := by
    intro char first
    obtain ⟨back, whole⟩ : trim text <+: trimStart text := List.rdropWhile_prefix _ _
    refine head?_trimStart text char ?_
    rw [← whole]
    exact List.mem_head?_append_of_mem_head? first
  ends := getLast?_trimEnd (trimStart text)

/-- A text that neither begins nor ends with a blank is not cut. -/
theorem trim_of_ends {text : List Char} (starts : ∀ char ∈ text.head?, isBlank char = false)
    (ends : ∀ char ∈ text.getLast?, isBlank char = false) : trim text = text := by
  have atEnd : trimStart text.reverse = text.reverse :=
    trimStart_of_head? (List.head?_reverse ▸ ends)
  rw [trim, trimStart_of_head? starts, trimEnd]
  exact (congrArg List.reverse atEnd).trans (List.reverse_reverse text)

end Text

namespace Aliases

/-! ### The form of a name -/

/-- The form in which names are held. -/
structure Normal (name : String) : Prop where
  filled : name ≠ ""
  starts : ∀ char ∈ name.toList.head?, Text.isBlank char = false
  ends : ∀ char ∈ name.toList.getLast?, Text.isBlank char = false
  point : name.toList.getLast? = some '.'

/-- What a name is in that form: it itself without the blanks around it, if that ends with a point,
and otherwise that with a point behind it. -/
inductive NormalForm (name : String) : String → Prop
  | itself {core : List Char} (trims : Text.TrimsTo name.toList core) (filled : core ≠ [])
    (point : core.getLast? = some '.') : NormalForm name (String.ofList core)
  | pointed {core : List Char} (trims : Text.TrimsTo name.toList core) (filled : core ≠ [])
    (noPoint : core.getLast? ≠ some '.') : NormalForm name (String.ofList (core ++ ['.']))

/-- The name is made of blanks alone, or empty. -/
def isBlank (name : String) : Bool :=
  name.toList.all Text.isBlank

theorem isBlank_eq_isEmpty_trim (name : String) :
    isBlank name = (Text.trim name.toList).isEmpty := by
  rw [Bool.eq_iff_iff, isBlank, List.all_eq_true, List.isEmpty_iff, Text.trim_eq_nil_iff]

/-- Normalizing is done name by name, for those that are not blank. -/
theorem normalize_eq_map (names : List String) :
    normalize names = (names.filter fun name => !isBlank name).map fun name =>
      String.ofList (pointed (Text.trim name.toList)) := by
  simp only [normalize, List.filter_map, List.map_map, Function.comp_def, isBlank_eq_isEmpty_trim]

theorem normalForm_pointed {name : String} (filled : isBlank name = false) :
    NormalForm name (String.ofList (pointed (Text.trim name.toList))) := by
  have trims := Text.trimsTo_trim name.toList
  rw [isBlank_eq_isEmpty_trim, List.isEmpty_eq_false_iff] at filled
  by_cases point : (Text.trim name.toList).getLast? = some '.'
  · rw [pointed, if_pos point]
    exact .itself trims filled point
  · rw [pointed, if_neg point]
    exact .pointed trims filled point

theorem forall₂_normalForm (names : List String) :
    List.Forall₂ NormalForm (names.filter fun name => !isBlank name) (normalize names) := by
  rw [normalize_eq_map, List.forall₂_map_right_iff, List.forall₂_same]
  intro name member
  exact normalForm_pointed (by simpa using (List.mem_filter.mp member).2)

theorem NormalForm.normal {name form : String} (formed : NormalForm name form) : Normal form := by
  have filledOf {core : List Char} (filled : core ≠ []) : String.ofList core ≠ "" := by
    rwa [ne_eq, ← String.toList_eq_nil_iff, String.toList_ofList]
  cases formed with
  | itself trims filled point =>
    refine ⟨filledOf filled, ?_, ?_, ?_⟩
    · rw [String.toList_ofList]
      exact trims.starts
    · rw [String.toList_ofList]
      exact trims.ends
    · rw [String.toList_ofList, point]
  | @pointed core trims filled noPoint =>
    have last : (core ++ ['.']).getLast? = some '.' := List.getLast?_concat
    refine ⟨filledOf (List.append_ne_nil_of_left_ne_nil filled _), ?_, ?_, ?_⟩
    · rw [String.toList_ofList, List.head?_append_of_ne_nil _ filled]
      exact trims.starts
    · rw [String.toList_ofList, last]
      rintro _ ⟨⟩
      decide
    · rw [String.toList_ofList, last]

/-- All of the names are in that form. -/
def AllNormal (names : List String) : Prop :=
  ∀ name ∈ names, Normal name

theorem allNormal_normalize (names : List String) : AllNormal (normalize names) := by
  rw [normalize_eq_map]
  intro form member
  obtain ⟨name, among, rfl⟩ := List.mem_map.mp member
  exact (normalForm_pointed (by simpa using (List.mem_filter.mp among).2)).normal

theorem allNormal_defaultAliases : AllNormal defaultAliases := by
  intro name member
  obtain rfl := List.mem_singleton.mp member
  have first : "spark.hadoop.".toList.head? = some 's' := by decide
  have last : "spark.hadoop.".toList.getLast? = some '.' := by decide
  refine ⟨by decide, ?_, ?_, last⟩
  · rw [first]
    rintro _ ⟨⟩
    decide
  · rw [last]
    rintro _ ⟨⟩
    decide

/-- Names that are in that form stay as they are. -/
theorem normalize_of_allNormal {names : List String} (normal : AllNormal names) :
    normalize names = names := by
  have filled : (names.filter fun name => !isBlank name) = names := by
    refine List.filter_eq_self.mpr fun name member => ?_
    have trimmed := Text.trim_of_ends (normal name member).starts (normal name member).ends
    rw [isBlank_eq_isEmpty_trim, trimmed, Bool.not_eq_true', List.isEmpty_eq_false_iff, ne_eq,
      String.toList_eq_nil_iff]
    exact (normal name member).filled
  rw [normalize_eq_map, filled]
  refine (List.map_congr_left fun name member => ?_).trans (List.map_id names)
  rw [Text.trim_of_ends (normal name member).starts (normal name member).ends, pointed,
    if_pos (normal name member).point, String.ofList_toList, id]

end Aliases

namespace Preferences

open Aliases (AllNormal)

/-! ### Layers -/

/-- The names that the layer says, if it says any, are in the form. -/
def Layer.SaysNormal (layer : Layer) : Prop :=
  ∀ names ∈ layer.aliases, AllNormal names

theorem Layer.saysNormal_ofTable? {document : Toml.Table} {layer : Layer}
    (understood : Layer.ofTable? document = some layer) : layer.SaysNormal := by
  simp only [Layer.ofTable?, Option.bind_eq_bind, Option.bind_eq_some_iff, Option.pure_def,
    Option.some.injEq] at understood
  obtain ⟨_, -, _, -, said, -, _, -, _, -, _, -, _, -, rfl⟩ := understood
  intro names member
  obtain ⟨written, -, rfl⟩ := Option.map_eq_some_iff.mp member
  exact Aliases.allNormal_normalize written

/-- Whatever a file means, the names in it have been normalized. -/
theorem Means.saysNormal {files : Files} {file : Option String} {layer : Layer}
    (means : Means files file layer) : layer.SaysNormal := by
  cases means with
  | unnamed | missing _ => exact fun _ member => nomatch member
  | @written path text written _ _ understood =>
    obtain ⟨document, -, read⟩ := Option.bind_eq_some_iff.mp understood
    have said : written.SaysNormal := Layer.saysNormal_ofTable? read
    exact said

theorem exists_text_of_chosen {α : Type} {environment : Environment} {variableName : String}
    {choose : String → Except Warning α} {value : α}
    (made : chosen environment variableName choose = some value) :
    ∃ text, environment.read variableName = .present text ∧ choose text = .ok value := by
  unfold chosen at made
  cases reading : environment.read variableName with
  | absent | undecodable _ =>
    rw [reading] at made
    cases made
  | present text =>
    rw [reading] at made
    dsimp only at made
    cases outcome : choose text with
    | error _ =>
      rw [outcome] at made
      cases made
    | ok chosen =>
      rw [outcome] at made
      exact ⟨text, rfl, outcome.trans (congrArg Except.ok (Option.some.inj made))⟩

theorem Layer.saysNormal_ofEnvironment (environment : Environment) :
    (Layer.ofEnvironment environment).SaysNormal := by
  intro names member
  have made : chosen environment aliasesVariable chooseAliases = some names := member
  obtain ⟨text, -, chosen⟩ := exists_text_of_chosen made
  obtain ⟨items, -, -, -, -, rfl⟩ := chooseAliases_eq_ok_iff.mp chosen
  exact Aliases.allNormal_normalize _

/-! ### Layer over layer -/

section

variable {below : Preferences} {layer : Layer}

theorem allNormal_getD {said : Option (List String)} {names : List String}
    (above : ∀ names ∈ said, AllNormal names) (below : AllNormal names) :
    AllNormal (said.getD names) := by
  cases said with
  | none => exact below
  | some names => exact above names rfl

theorem allNormal_overlay (normal : AllNormal below.aliases) (said : layer.SaysNormal) :
    AllNormal (below.overlay layer).aliases := by
  rw [show (below.overlay layer).aliases = _ from value_overlay below layer .aliases]
  refine allNormal_getD (fun names member => said names ?_) normal
  exact (Option.mem_filter_iff.mp member).1

theorem allNormal_below (normal : AllNormal below.aliases) (said : layer.SaysNormal) :
    AllNormal (below.below layer).aliases :=
  allNormal_getD said normal

end

/-- Whenever preferences are loaded, all names in them are in the form. Normalizing any names gives
those that are not blank, each in its form and all in their order, and normalizing these again
changes nothing. -/
theorem aliases_normalized (files : Files) (userFile workDirectory : Option String)
    (environment : Environment) :
    (∀ loaded warnings,
      load files userFile workDirectory environment = .ok (loaded, warnings) →
        ∀ name ∈ loaded.aliases, Aliases.Normal name) ∧
    ∀ names,
      List.Forall₂ Aliases.NormalForm (names.filter fun name => !Aliases.isBlank name)
        (Aliases.normalize names) ∧
      Aliases.normalize (Aliases.normalize names) = Aliases.normalize names := by
  refine ⟨fun loaded warnings succeeds => ?_, fun names => ⟨Aliases.forall₂_normalForm names,
    Aliases.normalize_of_allNormal (Aliases.allNormal_normalize names)⟩⟩
  obtain ⟨userLayer, workLayer, userMeans, workMeans, layered⟩ := load_eq_ok_iff.mp succeeds
  have named : AllNormal (((builtIn.overlay userLayer).overlay workLayer).below
      (.ofEnvironment environment)).aliases := by
    refine allNormal_below ?_ (Layer.saysNormal_ofEnvironment environment)
    refine allNormal_overlay ?_ workMeans.saysNormal
    exact allNormal_overlay Aliases.allNormal_defaultAliases userMeans.saysNormal
  rwa [← underEnvironment_fst, layered] at named

/-- A file names an ecosystem by a point between wide blanks, by nothing, and with a blank
inside. -/
theorem aliases_normalized_blanks :
    let files := Files.ofTexts
      [("u.toml", "[resolve]\naliases = [\"\u3000.\u00a0\", \"\", \" a b\"]\n")]
    ∃ loaded warnings, load files (some "u.toml") none .empty = .ok (loaded, warnings) ∧
      loaded.aliases = [".", "a b."] ∧ ∀ name ∈ loaded.aliases, Aliases.Normal name := by
  intro files
  have succeeds : load files (some "u.toml") none .empty =
      .ok ({ builtIn with aliases := [".", "a b."] }, []) := by decide +kernel
  exact ⟨_, _, succeeds, rfl,
    (aliases_normalized files (some "u.toml") none .empty).1 _ _ succeeds⟩

end Preferences

end ConnectorSettings
