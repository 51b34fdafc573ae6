/-
This file proves that a connector's keys say where they belong. A key of a connector is built from a
setting's suffix, from a scope or none, and from the ecosystem's name written in front of it any
number of times; and the text of the key gives all three back.

A scope may be any text, with dots anywhere, so a scoped key cannot be cut up at its dots. What
makes it readable is the table: no suffix ends in a dot and another suffix, where the scope comes
first, or begins with another suffix and a dot, where it comes last. An unscoped key is told from a
scoped one by the word that announces the scope, or by the host that follows it.
-/

import ConnectorSettings.Connector
import ConnectorSettings.Proofs.Stripping

namespace ConnectorSettings

/-! ### Suffixes and scopes -/

namespace KeyLayout

/-- The suffixes can be told from the scopes beside them, and no unscoped key looks scoped. -/
def Separates : KeyLayout → List String → Prop
  | scopeFirst _ announcer, suffixes => ∀ left ∈ suffixes,
    (∀ right ∈ suffixes, ¬ '.' :: right.toList <:+ left.toList) ∧
      ¬ announcer.toList ++ ['.'] <+: left.toList
  | scopeLast _ host, suffixes => ∀ left ∈ suffixes,
    (∀ right ∈ suffixes, ¬ right.toList ++ ['.'] <+: left.toList) ∧
      ¬ host.toList <:+ left.toList

/-- Of two scopes with a suffix behind each, neither reaches into the other's suffix. -/
theorem scope_before_injective {left right : List Char} {scope other : List Char}
    (leftFree : ¬ '.' :: right <:+ left) (rightFree : ¬ '.' :: left <:+ right)
    (same : scope ++ '.' :: left = other ++ '.' :: right) : left = right ∧ scope = other := by
  rcases List.append_eq_append_iff.mp same with ⟨middle, rfl, tail⟩ | ⟨middle, rfl, tail⟩
  · cases middle with
    | nil => exact ⟨List.tail_eq_of_cons_eq tail, (List.append_nil _).symm⟩
    | cons char rest => exact absurd ⟨rest, (List.tail_eq_of_cons_eq tail).symm⟩ leftFree
  · cases middle with
    | nil => exact ⟨(List.tail_eq_of_cons_eq tail).symm, List.append_nil _⟩
    | cons char rest => exact absurd ⟨rest, (List.tail_eq_of_cons_eq tail).symm⟩ rightFree

/-- The same with a suffix in front of each scope. -/
theorem scope_after_injective {left right : List Char} {scope other : List Char}
    (leftFree : ¬ right ++ ['.'] <+: left) (rightFree : ¬ left ++ ['.'] <+: right)
    (same : left ++ '.' :: scope = right ++ '.' :: other) : left = right ∧ scope = other := by
  rcases List.append_eq_append_iff.mp same with ⟨middle, rfl, tail⟩ | ⟨middle, rfl, tail⟩
  · cases middle with
    | nil => exact ⟨(List.append_nil _).symm, List.tail_eq_of_cons_eq tail⟩
    | cons char rest =>
      obtain rfl : '.' = char := List.head_eq_of_cons_eq tail
      exact absurd ⟨rest, by rw [List.append_assoc]; rfl⟩ rightFree
  · cases middle with
    | nil => exact ⟨List.append_nil _, (List.tail_eq_of_cons_eq tail).symm⟩
    | cons char rest =>
      obtain rfl : '.' = char := List.head_eq_of_cons_eq tail
      exact absurd ⟨rest, by rw [List.append_assoc]; rfl⟩ leftFree

theorem toList_key (layout : KeyLayout) (suffix : String) :
    (layout.key suffix).toList = layout.stem.toList ++ suffix.toList :=
  String.toList_append

theorem toList_keyFor_scopeFirst (stem announcer suffix scope : String) :
    ((scopeFirst stem announcer).keyFor suffix scope).toList =
      stem.toList ++ (announcer.toList ++ '.' :: (scope.toList ++ '.' :: suffix.toList)) := by
  simp [keyFor, String.toList_append]

theorem toList_keyFor_scopeLast (stem host suffix scope : String) :
    ((scopeLast stem host).keyFor suffix scope).toList =
      stem.toList ++ (suffix.toList ++ '.' :: scope.toList ++ host.toList) := by
  simp [keyFor, String.toList_append]

theorem key_injective (layout : KeyLayout) {left right : String}
    (same : layout.key left = layout.key right) : left = right :=
  (String.append_right_inj layout.stem).mp same

theorem keyFor_injective {layout : KeyLayout} {suffixes : List String}
    (separates : layout.Separates suffixes) {left right : String} (leftMember : left ∈ suffixes)
    (rightMember : right ∈ suffixes) {scope other : String}
    (same : layout.keyFor left scope = layout.keyFor right other) :
    left = right ∧ scope = other := by
  rw [← String.toList_inj] at same
  have places : left.toList = right.toList ∧ scope.toList = other.toList := by
    cases layout with
    | scopeFirst stem announcer =>
      rw [toList_keyFor_scopeFirst, toList_keyFor_scopeFirst, List.append_right_inj,
        List.append_right_inj] at same
      exact scope_before_injective ((separates left leftMember).1 right rightMember)
        ((separates right rightMember).1 left leftMember) (List.tail_eq_of_cons_eq same)
    | scopeLast stem host =>
      rw [toList_keyFor_scopeLast, toList_keyFor_scopeLast, List.append_right_inj,
        List.append_left_inj] at same
      exact scope_after_injective ((separates left leftMember).1 right rightMember)
        ((separates right rightMember).1 left leftMember) same
  exact ⟨String.toList_inj.mp places.1, String.toList_inj.mp places.2⟩

theorem key_ne_keyFor {layout : KeyLayout} {suffixes : List String}
    (separates : layout.Separates suffixes) {left : String} (leftMember : left ∈ suffixes)
    (right scope : String) : layout.key left ≠ layout.keyFor right scope := by
  intro same
  rw [← String.toList_inj, toList_key] at same
  cases layout with
  | scopeFirst stem announcer =>
    rw [toList_keyFor_scopeFirst] at same
    have rest := (List.append_right_inj _).mp same
    refine (separates left leftMember).2 ⟨scope.toList ++ '.' :: right.toList, ?_⟩
    rw [rest, List.append_assoc]
    rfl
  | scopeLast stem host =>
    rw [toList_keyFor_scopeLast] at same
    have rest := (List.append_right_inj _).mp same
    exact (separates left leftMember).2 ⟨right.toList ++ '.' :: scope.toList, rest.symm⟩

/-- A key, scoped or not, gives its suffix and its scope back. -/
theorem keyUnder_injective {layout : KeyLayout} {suffixes : List String}
    (separates : layout.Separates suffixes) {left right : String} (leftMember : left ∈ suffixes)
    (rightMember : right ∈ suffixes) {scope other : Option String}
    (same : layout.keyUnder left scope = layout.keyUnder right other) :
    left = right ∧ scope = other := by
  cases scope with
  | none =>
    cases other with
    | none => exact ⟨layout.key_injective same, rfl⟩
    | some other => exact absurd same (key_ne_keyFor separates leftMember right other)
  | some scope =>
    cases other with
    | none => exact absurd same.symm (key_ne_keyFor separates rightMember left scope)
    | some other =>
      obtain ⟨suffixes, scopes⟩ := keyFor_injective separates leftMember rightMember same
      exact ⟨suffixes, congrArg some scopes⟩

/-- Every key of a layout begins with its stem. -/
theorem stem_prefix_keyUnder (layout : KeyLayout) (suffix : String) (scope : Option String) :
    layout.stem.toList <+: (layout.keyUnder suffix scope).toList := by
  cases scope with
  | none => exact ⟨suffix.toList, (toList_key layout suffix).symm⟩
  | some scope =>
    cases layout with
    | scopeFirst stem announcer => exact ⟨_, (toList_keyFor_scopeFirst ..).symm⟩
    | scopeLast stem host => exact ⟨_, (toList_keyFor_scopeLast ..).symm⟩

end KeyLayout

/-! ### The ecosystem's name in front -/

namespace SettingsMap

/-- A key with the ecosystem's name in front of it a number of times. -/
def below (ecosystem : String) : Nat → String → String
  | 0, key => key
  | times + 1, key => ecosystem ++ below ecosystem times key

/-- The name can be taken off and counted, as long as the key itself does not begin with it. -/
theorem below_injective {ecosystem left right : String} (leftDirect : ¬ Forwards ecosystem left)
    (rightDirect : ¬ Forwards ecosystem right) {times other : Nat}
    (same : below ecosystem times left = below ecosystem other right) :
    times = other ∧ left = right := by
  induction times generalizing other with
  | zero =>
    cases other with
    | zero => exact ⟨rfl, same⟩
    | succ other => exact absurd ⟨_, same⟩ leftDirect
  | succ times inductionHypothesis =>
    cases other with
    | zero => exact absurd ⟨_, same.symm⟩ rightDirect
    | succ other =>
      obtain ⟨counts, keys⟩ := inductionHypothesis ((String.append_right_inj ecosystem).mp same)
      exact ⟨congrArg _ counts, keys⟩

end SettingsMap

/-! ### Keys of rankings -/

namespace View

open SettingsMap (below)

/-- Every key of a ranking under one ecosystem name belongs to the scope or to no scope, and carries
the name at most once. -/
theorem place_of_mem_ranking {layout : KeyLayout} {ecosystem : String} {setting : Setting}
    {scope : Option String} {candidate : String × Origin}
    (member : candidate ∈ ranking layout [ecosystem] setting scope) :
    ∃ place times, (place = none ∨ place = scope) ∧ times ≤ 1 ∧
      candidate.1 = below ecosystem times (layout.keyUnder setting.suffix place) := by
  obtain ⟨place, front, placed, named, same⟩ := front_of_mem_ranking member
  rcases named with rfl | named
  · exact ⟨place, 0, placed, Nat.zero_le 1, same.trans String.empty_append⟩
  · obtain rfl := List.mem_singleton.mp named
    exact ⟨place, 1, placed, Nat.le_refl 1, same⟩

end View

/-! ### Keys of connectors -/

namespace Connector

open SettingsMap (Forwards below below_injective)

/-- The ecosystem name that is recognised by default. -/
def ecosystem : String := "spark.hadoop."

/-- A connector's view of a map for one scope has that name as its only alias. -/
theorem view_withScope (connector : Connector) (map : SettingsMap) (environment : Environment)
    (scope : Option String) :
    (connector.view map environment).withScope scope =
      View.overMap connector.layout connector.settings environment scope [ecosystem] map := rfl

def suffixes (connector : Connector) : List String :=
  connector.settings.map Setting.suffix

theorem separates (connector : Connector) :
    connector.layout.Separates connector.suffixes := by
  cases connector with
  | s3 =>
    show ∀ left ∈ _, (∀ right ∈ _, ¬ _ <:+ _) ∧ ¬ _ <+: _
    decide
  | abfs =>
    show ∀ left ∈ _, (∀ right ∈ _, ¬ _ <+: _) ∧ ¬ _ <:+ _
    decide

theorem suffix_mem {connector : Connector} {setting : Setting}
    (member : setting ∈ connector.settings) : setting.suffix ∈ connector.suffixes :=
  List.mem_map_of_mem member

/-- A setting is known by its suffix. -/
theorem setting_of_suffix {connector : Connector} {left right : Setting}
    (leftMember : left ∈ connector.settings) (rightMember : right ∈ connector.settings)
    (same : left.suffix = right.suffix) : left = right := by
  have distinct : connector.suffixes.Nodup := by cases connector <;> decide
  exact List.inj_on_of_nodup_map distinct leftMember rightMember same

/-- No key of a connector begins with the ecosystem's name, for the connector's stem does not. -/
theorem not_forwards_keyUnder (connector : Connector) (suffix : String) (scope : Option String) :
    ¬ Forwards ecosystem (connector.layout.keyUnder suffix scope) := by
  rintro ⟨bare, split⟩
  have front := connector.layout.stem_prefix_keyUnder suffix scope
  rw [split, String.toList_append] at front
  have comparable := List.prefix_or_prefix_of_prefix front (List.prefix_append _ _)
  revert comparable
  cases connector <;> decide

/-- A key of a connector gives back its setting, its scope and how often the ecosystem's name stands
in front. -/
theorem address_injective {connector : Connector} {left right : Setting}
    (leftMember : left ∈ connector.settings) (rightMember : right ∈ connector.settings)
    {scope other : Option String} {times count : Nat}
    (same : below ecosystem times (connector.layout.keyUnder left.suffix scope) =
      below ecosystem count (connector.layout.keyUnder right.suffix other)) :
    left = right ∧ scope = other ∧ times = count := by
  obtain ⟨counts, keys⟩ := below_injective (connector.not_forwards_keyUnder _ _)
    (connector.not_forwards_keyUnder _ _) same
  obtain ⟨suffixes, scopes⟩ := KeyLayout.keyUnder_injective connector.separates
    (suffix_mem leftMember) (suffix_mem rightMember) keys
  exact ⟨setting_of_suffix leftMember rightMember suffixes, scopes, counts⟩

end Connector

end ConnectorSettings
