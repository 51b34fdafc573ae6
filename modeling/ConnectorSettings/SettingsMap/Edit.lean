/-
This file is about edits of a settings map. An edit concerns one key, which is written or erased,
and leaves the values at all others alone; every operation on a map is a run of edits.
-/

import ConnectorSettings.SettingsMap

namespace ConnectorSettings

/-- One change to a settings map. -/
inductive Edit where
  | write (key value : String)
  | erase (key : String)
  deriving DecidableEq, Repr

namespace Edit

def key : Edit → String
  | write key _ => key
  | erase key => key

def apply (map : SettingsMap) : Edit → SettingsMap
  | write key value => map.insert key value
  | erase key => map.erase key

theorem get?_apply (map : SettingsMap) {edit : Edit} {name : String} (other : edit.key ≠ name) :
    (edit.apply map).get? name = map.get? name := by
  cases edit with
  | write key value => exact (SettingsMap.get?_insert map key value name).trans (if_neg other)
  | erase key => exact (SettingsMap.get?_erase map key name).trans (if_neg other)

/-- A run of edits leaves every key alone that none of them names. -/
theorem get?_foldl_apply (map : SettingsMap) {edits : List Edit} {name : String}
    (others : ∀ edit ∈ edits, edit.key ≠ name) :
    (edits.foldl apply map).get? name = map.get? name := by
  induction edits generalizing map with
  | nil => rfl
  | cons edit rest inductionHypothesis =>
    rw [List.foldl_cons,
      inductionHypothesis _ fun later member => others later (List.mem_cons_of_mem _ member),
      get?_apply map (others edit List.mem_cons_self)]

end Edit

end ConnectorSettings
