/-
This file is about steps that can fail and passes of such a step over a list. The step is taken for
one item after the other, the values are collected, and the first failure ends the pass and is its
error.

What comes out of two steps in a row is said once, and the rest needs no more than that. A pass
succeeds exactly with the values of its steps in their order. What two passes have in common follows
from what their steps have in common, item by item.
-/

import Mathlib.Data.List.Forall2

namespace ConnectorSettings

variable {α β γ ε : Type}

/-! ### One step after another -/

theorem bind_eq_ok_iff {outcome : Except ε α} {next : α → Except ε β} {value : β} :
    outcome >>= next = .ok value ↔ ∃ inner, outcome = .ok inner ∧ next inner = .ok value := by
  cases outcome with
  | error error => exact ⟨nofun, fun ⟨_, given, _⟩ => nomatch given⟩
  | ok inner =>
    constructor
    · intro given
      exact ⟨inner, rfl, given⟩
    · rintro ⟨_, ⟨⟩, given⟩
      exact given

theorem bind_eq_error_iff {outcome : Except ε α} {next : α → Except ε β} {error : ε} :
    outcome >>= next = .error error ↔ outcome = .error error ∨
      ∃ inner, outcome = .ok inner ∧ next inner = .error error := by
  cases outcome with
  | error other =>
    constructor
    · intro failed
      exact .inl (congrArg Except.error (Except.error.inj failed))
    · rintro (failed | ⟨_, given, _⟩)
      · exact congrArg Except.error (Except.error.inj failed)
      · cases given
  | ok inner =>
    constructor
    · intro failed
      exact .inr ⟨inner, rfl, failed⟩
    · rintro (failed | ⟨_, ⟨⟩, failed⟩)
      · cases failed
      · exact failed

theorem map_eq_ok_iff {outcome : Except ε α} {f : α → β} {value : β} :
    f <$> outcome = .ok value ↔ ∃ inner, outcome = .ok inner ∧ f inner = value := by
  cases outcome with
  | error error => exact ⟨nofun, fun ⟨_, given, _⟩ => nomatch given⟩
  | ok inner =>
    constructor
    · intro given
      exact ⟨inner, rfl, Except.ok.inj given⟩
    · rintro ⟨_, ⟨⟩, rfl⟩
      rfl

theorem exists_map_eq_ok_iff {outcome : Except ε α} (f : α → β) :
    (∃ value, f <$> outcome = .ok value) ↔ ∃ inner, outcome = .ok inner := by
  cases outcome with
  | error error => exact ⟨fun ⟨_, given⟩ => (nomatch given), fun ⟨_, given⟩ => nomatch given⟩
  | ok inner => exact ⟨fun _ => ⟨inner, rfl⟩, fun _ => ⟨f inner, rfl⟩⟩

theorem map_eq_error_iff {outcome : Except ε α} {f : α → β} {error : ε} :
    f <$> outcome = .error error ↔ outcome = .error error := by
  cases outcome with
  | error other =>
    constructor <;> exact fun failed => congrArg _ (Except.error.inj failed)
  | ok inner => exact ⟨nofun, nofun⟩

/-! ### Passes that do the same -/

theorem mapM_congr {items : List α} {left right : α → Except ε β}
    (same : ∀ item ∈ items, left item = right item) :
    items.mapM left = items.mapM right := by
  induction items with
  | nil => rfl
  | cons item rest inductionHypothesis =>
    rw [List.mapM_cons, List.mapM_cons, same item List.mem_cons_self,
      inductionHypothesis fun other member => same other (List.mem_cons_of_mem _ member)]

/-! ### Passes that succeed -/

theorem mapM_cons_eq_ok_iff {step : α → Except ε β} {item : α} {rest : List α}
    {values : List β} : (item :: rest).mapM step = .ok values ↔
      ∃ value others, step item = .ok value ∧ rest.mapM step = .ok others ∧
        values = value :: others := by
  rw [List.mapM_cons, bind_eq_ok_iff]
  refine exists_congr fun value => ?_
  rw [bind_pure_comp, map_eq_ok_iff, ← exists_and_left]
  simp only [eq_comm]

theorem mapM_eq_ok_iff {items : List α} {step : α → Except ε β} {values : List β} :
    items.mapM step = .ok values ↔
      List.Forall₂ (fun item value => step item = .ok value) items values := by
  induction items generalizing values with
  | nil =>
    constructor
    · rintro ⟨⟩
      exact .nil
    · rintro ⟨⟩
      rfl
  | cons item rest inductionHypothesis =>
    rw [mapM_cons_eq_ok_iff]
    constructor
    · rintro ⟨value, others, here, later, rfl⟩
      exact .cons here (inductionHypothesis.mp later)
    · rintro (_ | ⟨here, later⟩)
      exact ⟨_, _, here, inductionHypothesis.mpr later, rfl⟩

theorem mapM_ok {items : List α} {step : α → Except ε β}
    (each : ∀ item ∈ items, ∃ value, step item = .ok value) :
    ∃ values, items.mapM step = .ok values := by
  induction items with
  | nil => exact ⟨[], rfl⟩
  | cons item rest inductionHypothesis =>
    obtain ⟨value, here⟩ := each item List.mem_cons_self
    obtain ⟨values, later⟩ := inductionHypothesis fun other member =>
      each other (List.mem_cons_of_mem _ member)
    exact ⟨value :: values, mapM_cons_eq_ok_iff.mpr ⟨value, values, here, later, rfl⟩⟩

theorem ok_of_mapM_ok {items : List α} {step : α → Except ε β} {values : List β}
    (passed : items.mapM step = .ok values) : ∀ item ∈ items, ∃ value, step item = .ok value := by
  induction items generalizing values with
  | nil => exact fun item member => absurd member List.not_mem_nil
  | cons item rest inductionHypothesis =>
    obtain ⟨value, others, here, later, rfl⟩ := mapM_cons_eq_ok_iff.mp passed
    intro other member
    rcases List.mem_cons.mp member with rfl | member
    · exact ⟨value, here⟩
    · exact inductionHypothesis later other member

/-- A pass succeeds exactly if every step does. -/
theorem exists_mapM_ok_iff {items : List α} {step : α → Except ε β} :
    (∃ values, items.mapM step = .ok values) ↔ ∀ item ∈ items, ∃ value, step item = .ok value :=
  ⟨fun ⟨_, passed⟩ => ok_of_mapM_ok passed, mapM_ok⟩

/-- Two passes that give the same values did the same at every step. -/
theorem eq_of_mapM_ok {items : List α} {left right : α → Except ε β}
    {values : List β} (leftPass : items.mapM left = .ok values)
    (rightPass : items.mapM right = .ok values) : ∀ item ∈ items, left item = right item := by
  induction items generalizing values with
  | nil => exact fun item member => absurd member List.not_mem_nil
  | cons item rest inductionHypothesis =>
    obtain ⟨value, others, leftHere, leftLater, rfl⟩ := mapM_cons_eq_ok_iff.mp leftPass
    obtain ⟨_, _, rightHere, rightLater, same⟩ := mapM_cons_eq_ok_iff.mp rightPass
    obtain ⟨rfl, rfl⟩ := List.cons.inj same
    intro other member
    rcases List.mem_cons.mp member with rfl | member
    · exact leftHere.trans rightHere.symm
    · exact inductionHypothesis leftLater rightLater other member

/-! ### Passes that fail -/

theorem mapM_error_of_first {before after : List α} {item : α} {step : α → Except ε β} {error : ε}
    (passed : ∀ earlier ∈ before, ∃ value, step earlier = .ok value)
    (failed : step item = .error error) :
    (before ++ item :: after).mapM step = .error error := by
  induction before with
  | nil =>
    rw [List.nil_append, List.mapM_cons, failed]
    rfl
  | cons head rest inductionHypothesis =>
    obtain ⟨value, here⟩ := passed head List.mem_cons_self
    rw [List.cons_append, List.mapM_cons, here,
      inductionHypothesis fun earlier member => passed earlier (List.mem_cons_of_mem _ member)]
    rfl

theorem first_of_mapM_error {items : List α} {step : α → Except ε β} {error : ε}
    (failed : items.mapM step = .error error) :
    ∃ before item after, items = before ++ item :: after ∧
      (∀ earlier ∈ before, ∃ value, step earlier = .ok value) ∧ step item = .error error := by
  induction items with
  | nil => cases failed
  | cons head rest inductionHypothesis =>
    rw [List.mapM_cons, bind_eq_error_iff] at failed
    rcases failed with here | ⟨value, here, later⟩
    · exact ⟨[], head, rest, rfl, fun _ member => absurd member List.not_mem_nil, here⟩
    · rw [bind_pure_comp, map_eq_error_iff] at later
      obtain ⟨before, item, after, rfl, passed, failed⟩ := inductionHypothesis later
      refine ⟨head :: before, item, after, rfl, fun earlier member => ?_, failed⟩
      rcases List.mem_cons.mp member with rfl | member
      · exact ⟨value, here⟩
      · exact passed earlier member

/-- The error of a pass is that of the first step that fails. -/
theorem mapM_eq_error_iff {items : List α} {step : α → Except ε β} {error : ε} :
    items.mapM step = .error error ↔ ∃ before item after, items = before ++ item :: after ∧
      (∀ earlier ∈ before, ∃ value, step earlier = .ok value) ∧ step item = .error error := by
  constructor
  · exact first_of_mapM_error
  · rintro ⟨before, item, after, rfl, passed, failed⟩
    exact mapM_error_of_first passed failed

/-! ### What is done with the values -/

theorem map_mapM (items : List α) (step : α → Except ε β) (f : β → γ) :
    List.map f <$> items.mapM step = items.mapM fun item => f <$> step item := by
  induction items with
  | nil => rfl
  | cons item rest inductionHypothesis =>
    rw [List.mapM_cons, List.mapM_cons, ← inductionHypothesis]
    cases step item with
    | error _ => rfl
    | ok value => cases rest.mapM step <;> rfl

/-- Errors may as well be changed once, for there is one error at most. -/
theorem mapM_mapError {δ : Type} (items : List α) (step : α → Except ε β) (f : ε → δ) :
    (items.mapM fun item => (step item).mapError f) = (items.mapM step).mapError f := by
  induction items with
  | nil => rfl
  | cons item rest inductionHypothesis =>
    rw [List.mapM_cons, List.mapM_cons, inductionHypothesis]
    cases step item with
    | error _ => rfl
    | ok value => cases rest.mapM step <;> rfl

/-- Each value is worked on together with the item it belongs to. -/
theorem zipWith_mapM (items : List α) (step : α → Except ε β) (f : α → β → γ) :
    List.zipWith f items <$> items.mapM step = items.mapM fun item => f item <$> step item := by
  induction items with
  | nil => rfl
  | cons item rest inductionHypothesis =>
    rw [List.mapM_cons, List.mapM_cons, ← inductionHypothesis]
    cases step item with
    | error _ => rfl
    | ok value => cases rest.mapM step <;> rfl

end ConnectorSettings
