/-
This file is about calls that need several settings, and about giving them what they miss.

Such a call demands its settings in order and reports the first that is unset, by its shown key.
Writing a value under the reported key leaves the settings in front as they are, so that the next
report, if there is one, is about a later setting. That is the step; the run, in which every
reported key is given a value, ends with an answer after as many values as there are settings
needed.
-/

import ConnectorSettings.Proofs.ShownKeys

namespace ConnectorSettings

/-! ### Calls that need settings -/

section

variable {α : Type}

/-- Asks, and as long as a key is missing, gives it a value and asks again. -/
def supplied (give : String → String) (ask : View → Except SettingError α) :
    Nat → View → Except SettingError α
  | 0, view => ask view
  | times + 1, view =>
    match ask view with
    | .error (.missing key) => supplied give ask times (view.insert key (give key))
    | outcome => outcome

theorem supplied_of_ok {give : String → String} {ask : View → Except SettingError α}
    {view : View} {answer : α} (answered : ask view = .ok answer) (times : Nat) :
    supplied give ask times view = .ok answer := by
  cases times with
  | zero => exact answered
  | succ times =>
    rw [supplied, answered]

theorem supplied_of_missing {give : String → String} {ask : View → Except SettingError α}
    {view : View} {key : String} (missing : ask view = .error (.missing key)) (times : Nat) :
    supplied give ask (times + 1) view =
      supplied give ask times (view.insert key (give key)) := by
  rw [supplied, missing]

/-- Where a call is ready, it demands some settings in order and makes its answer of their texts.
Writing under the shown key of one that is unset leaves it ready. -/
structure Demands (connector : Connector) (needs : List Setting)
    (ask : View → Except SettingError α) (answer : List String → α) (Ready : View → Prop) :
    Prop where
  members : ∀ setting ∈ needs, setting ∈ connector.settings
  bare : ∀ setting ∈ needs, setting.fallback = none
  built : ∀ view, Ready view → view.layout = connector.layout
  found : ∀ view, Ready view → ∀ setting ∈ needs, ∃ value, view.textOf setting = .ok value
  asks : ∀ view, Ready view → ask view = answer <$> needs.mapM (view.demand String)
  kept : ∀ view setting value, Ready view → setting ∈ needs → view.Unset setting →
    Ready (view.insert (view.shownKey setting) value)

/-- The missing keys that a call reports are keys to set. -/
structure ReportsShownKeys (needs : List Setting) (ask : View → Except SettingError α)
    (view : View) : Prop where
  /-- A reported key is the shown key of the first setting that is needed and unset. -/
  named : ∀ key, ask view = .error (.missing key) → ∃ before setting after,
    needs = before ++ setting :: after ∧ (∀ earlier ∈ before, ¬ view.Unset earlier) ∧
      view.Unset setting ∧ key = view.shownKey setting
  /-- Once it has been given a value, the key is not reported again. -/
  settled : ∀ key value, ask view = .error (.missing key) →
    ask (view.insert key value) ≠ .error (.missing key)

/-- It is enough to look at calls that do report a missing key. -/
theorem ReportsShownKeys.of_missing {needs : List Setting} {ask : View → Except SettingError α}
    {view : View}
    (reports : ∀ key, ask view = .error (.missing key) → ReportsShownKeys needs ask view) :
    ReportsShownKeys needs ask view where
  named key failed := (reports key failed).named key failed
  settled key value failed := (reports key failed).settled key value failed

/-- Setting the keys that a call reports is all that it takes. Where the typed settings can be read,
the call answers after three values at most, each of them given for the key that is reported, and
the answer is made of the settings and of those values without the blanks around them. -/
structure CompletedByShownKeys {Typed : Type} (needs : List Setting)
    (ask : View → Except SettingError α) (typed : View → Except SettingError Typed)
    (answer : Typed → (Setting → String) → α) (view : View) : Prop where
  reports : ReportsShownKeys needs ask view
  completed : ∀ give settings, typed view = .ok settings → supplied give ask 3 view =
    .ok (answer settings fun setting => Text.trimmed (give (view.shownKey setting)))

namespace Demands

open View

variable {connector : Connector} {needs : List Setting} {ask : View → Except SettingError α}
  {answer : List String → α} {Ready : View → Prop}

theorem asks_of_texts (demands : Demands connector needs ask answer Ready) {view : View}
    (ready : Ready view) (texts : ∀ setting ∈ needs, ∃ text, view.textOf setting = .ok (some text))
    (other : Setting → String) : ask view = .ok (answer (needs.map (view.textOr other))) := by
  have each : ∀ setting ∈ needs,
      view.demand String setting = pure (view.textOr other setting) := by
    intro setting member
    obtain ⟨text, given⟩ := texts setting member
    rw [demand_of_textOf given, textOr_of_textOf given]
    rfl
  rw [demands.asks view ready, mapM_congr each, List.mapM_pure]
  rfl

theorem asks_of_missing (demands : Demands connector needs ask answer Ready) {view : View}
    (ready : Ready view) {before after : List Setting} {setting : Setting}
    (split : needs = before ++ setting :: after)
    (texts : ∀ earlier ∈ before, ∃ text, view.textOf earlier = .ok (some text))
    (nothing : view.textOf setting = .ok none) :
    ask view = .error (.missing (view.shownKey setting)) := by
  have passed : ∀ earlier ∈ before, ∃ text, view.demand String earlier = .ok text := by
    intro earlier member
    obtain ⟨text, given⟩ := texts earlier member
    exact ⟨text, demand_of_textOf given⟩
  rw [demands.asks view ready, split, mapM_error_of_first passed (demand_of_textOf nothing)]
  rfl

theorem exists_text_iff (demands : Demands connector needs ask answer Ready) {view : View}
    (ready : Ready view) {setting : Setting} (member : setting ∈ needs) :
    (∃ text, view.textOf setting = .ok (some text)) ↔ ¬ view.Unset setting := by
  constructor
  · rintro ⟨text, given⟩ unset
    rw [textOf_of_unset unset (demands.bare setting member)] at given
    cases given
  · intro set
    obtain ⟨value, given⟩ := demands.found view ready setting member
    cases value with
    | none => exact absurd (unset_of_textOf given) set
    | some text => exact ⟨text, given⟩

/-- A need that is demanded in vain is unset, and the error names its shown key. -/
theorem unset_of_demand (demands : Demands connector needs ask answer Ready) {view : View}
    (ready : Ready view) {setting : Setting} (member : setting ∈ needs) {key : String}
    (failed : view.demand String setting = .error (.missing key)) :
    view.Unset setting ∧ key = view.shownKey setting := by
  obtain ⟨value, given⟩ := demands.found view ready setting member
  rw [demand_of_textOf given] at failed
  cases value with
  | none => exact ⟨unset_of_textOf given, (SettingError.missing.inj (Except.error.inj failed)).symm⟩
  | some text => cases failed

theorem set_of_demand (demands : Demands connector needs ask answer Ready) {view : View}
    {setting : Setting} (member : setting ∈ needs) {text : String}
    (passed : view.demand String setting = .ok text) : ¬ view.Unset setting := by
  intro unset
  rw [demand_of_textOf (textOf_of_unset unset (demands.bare setting member))] at passed
  cases passed

theorem first_of_missing (demands : Demands connector needs ask answer Ready) {view : View}
    (ready : Ready view) {key : String} (failed : ask view = .error (.missing key)) :
    ∃ before setting after, needs = before ++ setting :: after ∧
      (∀ earlier ∈ before, ¬ view.Unset earlier) ∧ view.Unset setting ∧
        key = view.shownKey setting := by
  rw [demands.asks view ready, map_eq_error_iff, mapM_eq_error_iff] at failed
  obtain ⟨before, setting, after, rfl, passed, failed⟩ := failed
  refine ⟨before, setting, after, rfl, fun earlier listed => ?_, ?_⟩
  · obtain ⟨text, passed⟩ := passed earlier listed
    exact demands.set_of_demand (List.mem_append_left _ listed) passed
  · exact demands.unset_of_demand ready (List.mem_append_right _ List.mem_cons_self) failed

theorem reportsShownKeys (demands : Demands connector needs ask answer Ready) {view : View}
    (ready : Ready view) : ReportsShownKeys needs ask view where
  named _ failed := demands.first_of_missing ready failed
  settled key value failed again := by
    obtain ⟨_, setting, _, split, -, unset, rfl⟩ := demands.first_of_missing ready failed
    have member : setting ∈ needs := split ▸ List.mem_append_right _ List.mem_cons_self
    obtain ⟨_, later, _, -, -, laterUnset, same⟩ := demands.first_of_missing
      (demands.kept view setting value ready member unset) again
    -- The key that was written is a candidate of the setting that it is reported for.
    obtain ⟨candidate, ranked, shown⟩ := shownKey_mem_candidates _ later
    have absent : (view.map.insert (view.shownKey setting) value).get? candidate.1 = none :=
      laterUnset.absent candidate ranked
    rw [shown, ← same, SettingsMap.get?_insert, if_pos rfl] at absent
    cases absent

/-- The step: a value for a setting that is unset is found by this setting, and the texts of the
others stay. -/
theorem textOr_insert (demands : Demands connector needs ask answer Ready) {view : View}
    (ready : Ready view) {setting : Setting} (member : setting ∈ needs)
    (unset : view.Unset setting) {other : Setting → String} {value : String}
    (given : other setting = Text.trimmed value) :
    needs.map ((view.insert (view.shownKey setting) value).textOr other) =
      needs.map (view.textOr other) := by
  refine List.map_congr_left fun needed neededMember => ?_
  by_cases same : needed = setting
  · rw [same, textOr_of_textOf (textOf_insert_shownKey unset value),
      textOr_of_textOf (textOf_of_unset unset (demands.bare setting member)), given]
    rfl
  · rw [textOr, textOf_insert_other (demands.built view ready) (demands.members setting member)
      (demands.members needed neededMember) same, textOr]

/-- A text that is there is there after the step. -/
theorem exists_text_insert (demands : Demands connector needs ask answer Ready) {view : View}
    (ready : Ready view) {setting needed : Setting} (member : setting ∈ needs)
    (neededMember : needed ∈ needs) (unset : view.Unset setting) (value : String)
    (text : ∃ text, view.textOf needed = .ok (some text)) :
    ∃ text, (view.insert (view.shownKey setting) value).textOf needed = .ok (some text) := by
  by_cases same : needed = setting
  · rw [same]
    exact ⟨_, textOf_insert_shownKey unset value⟩
  · rwa [textOf_insert_other (demands.built view ready) (demands.members setting member)
      (demands.members needed neededMember) same]

/-- The run behind settings that have their texts. -/
theorem supplied_behind (demands : Demands connector needs ask answer Ready)
    (give : String → String) (after : List Setting) :
    ∀ {before : List Setting} {view : View} {times : Nat}, needs = before ++ after → Ready view →
      (∀ earlier ∈ before, ∃ text, view.textOf earlier = .ok (some text)) →
      after.length ≤ times →
      supplied give ask times view = .ok (answer (needs.map
        (view.textOr fun setting => Text.trimmed (give (view.shownKey setting))))) := by
  induction after with
  | nil =>
    intro before view times split ready texts _
    rw [List.append_nil] at split
    subst split
    exact supplied_of_ok (demands.asks_of_texts ready texts _) times
  | cons setting rest inductionHypothesis =>
    intro before view times split ready texts enough
    have member : setting ∈ needs := split ▸ List.mem_append_right _ List.mem_cons_self
    have further : needs = (before ++ [setting]) ++ rest := by
      rw [split, List.append_assoc]
      rfl
    by_cases unset : view.Unset setting
    · cases times with
      | zero => cases enough
      | succ times =>
        have missing := demands.asks_of_missing ready split texts
          (textOf_of_unset unset (demands.bare setting member))
        have readyThen :=
          demands.kept view setting (give (view.shownKey setting)) ready member unset
        have textsThen : ∀ earlier ∈ before ++ [setting], ∃ text,
            (view.insert (view.shownKey setting) (give (view.shownKey setting))).textOf earlier =
              .ok (some text) := by
          refine List.forall_mem_append.mpr ⟨fun earlier listed => ?_,
            List.forall_mem_singleton.mpr ⟨_, textOf_insert_shownKey unset _⟩⟩
          have needed : earlier ∈ needs := split ▸ List.mem_append_left _ listed
          exact demands.exists_text_insert ready member needed unset _ (texts earlier listed)
        rw [supplied_of_missing missing, inductionHypothesis further readyThen textsThen
          (Nat.le_of_succ_le_succ enough)]
        exact congrArg (fun texts => Except.ok (answer texts))
          (demands.textOr_insert ready member unset rfl)
    · have textsThen : ∀ earlier ∈ before ++ [setting], ∃ text,
          view.textOf earlier = .ok (some text) :=
        List.forall_mem_append.mpr ⟨texts,
          List.forall_mem_singleton.mpr ((demands.exists_text_iff ready member).mpr unset)⟩
      exact inductionHypothesis further ready textsThen (Nat.le_of_succ_le enough)

/-- The run: with a value for every key that is reported, the call answers after as many values as
there are settings that it needs. -/
theorem supplied_eq_ok (demands : Demands connector needs ask answer Ready)
    (give : String → String) {view : View} (ready : Ready view) {times : Nat}
    (enough : needs.length ≤ times) :
    supplied give ask times view = .ok (answer (needs.map
      (view.textOr fun setting => Text.trimmed (give (view.shownKey setting))))) := by
  have noneInFront : ∀ earlier ∈ ([] : List Setting), ∃ text,
      view.textOf earlier = .ok (some text) := List.forall_mem_nil _
  exact demands.supplied_behind give needs rfl ready noneInFront enough

end Demands

end

end ConnectorSettings
