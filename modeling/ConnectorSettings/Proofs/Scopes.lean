/-
This file proves that scopes do not see each other's keys. However the keys of other scopes are
edited, bare or below the ecosystem's name, every lookup under a scope stays what it was, and so do
the typed settings. A scope without keys of its own for a setting sees what all scopes see.

The proof is about footprints. A lookup depends on the map through the keys of the setting's ranking
only; each of these belongs to the scope of the view or to none; and a key gives its scope back.
-/

import ConnectorSettings.Proofs.KeySpace
import ConnectorSettings.Proofs.Readings
import ConnectorSettings.SettingsMap.Edit

namespace ConnectorSettings

/-! ### Without keys of a scope -/

namespace View

/-- Without a present key of its own, a scope adds nothing to the ranking. -/
theorem firstPresent_ranking_of_unscoped (layout : KeyLayout) (map : SettingsMap)
    (setting : Setting) (ecosystem : String) {scope : Option String}
    (unscoped : ∀ name, scope = some name →
      map.get? (layout.keyFor setting.suffix name) = none ∧
        map.get? (ecosystem ++ layout.keyFor setting.suffix name) = none) :
    firstPresent map (ranking layout [ecosystem] setting scope) =
      firstPresent map (ranking layout [ecosystem] setting none) := by
  cases scope with
  | none => rfl
  | some name =>
    obtain ⟨bare, forwarded⟩ := unscoped name rfl
    by_cases empty : name = ""
    · rw [ranking, if_pos empty]
      rfl
    · rw [ranking, if_neg empty, firstPresent_append, firstPresent_block_singleton, foundAt,
        foundAt, bare, forwarded]
      rfl

end View

/-! ### Isolation -/

namespace Connector

open View SettingsMap

/-- The key narrows a setting to a scope other than the given one, bare or below the ecosystem's
name. -/
def Foreign (connector : Connector) (scope : Option String) (key : String) : Prop :=
  ∃ setting ∈ connector.settings, ∃ other, scope ≠ some other ∧
    (key = connector.layout.keyFor setting.suffix other ∨
      key = ecosystem ++ connector.layout.keyFor setting.suffix other)

/-- No key of another scope is in the footprint of a lookup. -/
theorem foreign_not_mem_ranking {connector : Connector} {scope : Option String} {key : String}
    (foreign : connector.Foreign scope key) {setting : Setting}
    (member : setting ∈ connector.settings) {candidate : String × Origin}
    (candidateMember : candidate ∈ ranking connector.layout [ecosystem] setting scope) :
    key ≠ candidate.1 := by
  obtain ⟨owner, ownerMember, other, distinct, spelled⟩ := foreign
  obtain ⟨place, times, own, -, given⟩ := place_of_mem_ranking candidateMember
  rintro rfl
  obtain ⟨count, address⟩ : ∃ count, candidate.1 =
      below ecosystem count (connector.layout.keyUnder owner.suffix (some other)) := by
    rcases spelled with bare | forwarded
    · exact ⟨0, bare⟩
    · exact ⟨1, forwarded⟩
  obtain ⟨-, places, -⟩ := address_injective member ownerMember (given.symm.trans address)
  rcases own with rfl | rfl
  · cases places
  · exact distinct places

theorem find_edited {connector : Connector} {scope : Option String} (map : SettingsMap)
    (environment : Environment) {edits : List Edit}
    (foreign : ∀ edit ∈ edits, connector.Foreign scope edit.key) {setting : Setting}
    (member : setting ∈ connector.settings) :
    ((connector.view (edits.foldl Edit.apply map) environment).withScope scope).find setting =
      ((connector.view map environment).withScope scope).find setting := by
  rw [view_withScope, view_withScope]
  refine find_congr _ _ _ _ _ fun candidate candidateMember => ?_
  exact Edit.get?_foldl_apply map fun edit editMember =>
    foreign_not_mem_ranking (foreign edit editMember) member candidateMember

theorem resolve_edited {connector : Connector} {scope : Option String} (map : SettingsMap)
    (environment : Environment) {edits : List Edit}
    (foreign : ∀ edit ∈ edits, connector.Foreign scope edit.key) :
    connector.resolve (edits.foldl Edit.apply map) scope environment =
      connector.resolve map scope environment := by
  refine typed_congr rfl fun row rowMember => ?_
  exact readRow_congr rfl (find_edited map environment foreign (setting_mem_of_row rowMember))

/-- Scopes are isolated. Edits of keys that belong to other scopes, in any number and order, change
neither a lookup nor the typed settings under a scope. And a scope for which the map holds no key of
a setting finds for it what is found without a scope. -/
theorem scopes_isolated (connector : Connector) (map : SettingsMap) (environment : Environment)
    (scope : Option String) (edits : List Edit)
    (foreign : ∀ edit ∈ edits, connector.Foreign scope edit.key) :
    let seen := fun map scope => (connector.view map environment).withScope scope
    (∀ setting ∈ connector.settings,
      (seen (edits.foldl Edit.apply map) scope).find setting = (seen map scope).find setting) ∧
    connector.resolve (edits.foldl Edit.apply map) scope environment =
      connector.resolve map scope environment ∧
    ∀ setting ∈ connector.settings,
      (∀ name, scope = some name →
        map.get? (connector.layout.keyFor setting.suffix name) = none ∧
          map.get? (ecosystem ++ connector.layout.keyFor setting.suffix name) = none) →
      (seen map scope).find setting = (seen map none).find setting := by
  intro seen
  refine ⟨fun setting member => find_edited map environment foreign member,
    resolve_edited map environment foreign, fun setting _ unscoped => ?_⟩
  show ((connector.view map environment).withScope scope).find setting =
    ((connector.view map environment).withScope none).find setting
  rw [view_withScope, view_withScope, find_eq_underVariable, find_eq_underVariable,
    findInMap_overMap, findInMap_overMap,
    firstPresent_ranking_of_unscoped connector.layout map setting ecosystem unscoped]
  rfl

/-- A bucket whose name ends like another bucket's key: the dots do not confuse the two. -/
theorem scopes_isolated_dotted :
    let map := SettingsMap.ofList [("fs.s3a.bucket.logs.endpoint", "a"), ("fs.s3a.endpoint", "b")]
    let edits := [Edit.write "fs.s3a.bucket.logs.endpoint.endpoint" "c",
      Edit.erase "spark.hadoop.fs.s3a.bucket..endpoint"]
    (∀ edit ∈ edits, Connector.s3.Foreign (some "logs") edit.key) ∧
      Connector.s3.resolve (edits.foldl Edit.apply map) (some "logs") .empty =
        Connector.s3.resolve map (some "logs") .empty := by
  intro map edits
  have foreign : ∀ edit ∈ edits, Connector.s3.Foreign (some "logs") edit.key := by
    intro edit member
    rcases List.mem_cons.mp member with rfl | member
    · exact ⟨S3.endpoint, by decide, "logs.endpoint", by decide, .inl (by decide)⟩
    · obtain rfl := List.mem_singleton.mp member
      exact ⟨S3.endpoint, by decide, "", by decide, .inr (by decide)⟩
  exact ⟨foreign, (scopes_isolated .s3 map .empty (some "logs") edits foreign).2.1⟩

end Connector

end ConnectorSettings
