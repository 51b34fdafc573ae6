/-
This file writes a settings map as a JSON record of texts and reads such a record back.

The members of a record are written into an empty map one after the other, so a name that occurs
twice keeps its first place and takes its last value. Only records whose members all hold texts are
read, and the texts that such a record holds say which record it is.
-/

import ConnectorSettings.Json.Reader
import ConnectorSettings.SettingsMap

namespace ConnectorSettings

namespace Json

/-- A member that holds a text. -/
def textMember (member : String × String) : String × Json :=
  (member.1, text member.2)

/-- The record of members that hold texts. -/
def textRecord (members : List (String × String)) : Json :=
  .record (members.map textMember)

end Json

namespace SettingsMap

def toJson (map : SettingsMap) : Json :=
  .record (map.entries.map fun entry => (entry.1, Json.text entry.2))

/-- The members of a record that all hold texts. -/
def textMembers? : List (String × Json) → Option (List (String × String))
  | [] => some []
  | (name, .text value) :: rest => (textMembers? rest).map ((name, value) :: ·)
  | _ => none

def ofJson? : Json → Option SettingsMap
  | .record members => (textMembers? members).map ofList
  | _ => none

def toJsonText (map : SettingsMap) : String :=
  map.toJson.compact

def ofJsonText? (text : String) : Option SettingsMap :=
  (Json.parse? text).bind ofJson?

/-! ### Records of texts -/

theorem textMembers?_eq_some_iff {members : List (String × Json)} {texts : List (String × String)} :
    textMembers? members = some texts ↔ members = texts.map Json.textMember := by
  fun_induction textMembers? members generalizing texts with
  | case1 => simp [eq_comm]
  | case2 name value rest inductionHypothesis =>
    rw [Option.map_eq_some_iff, eq_comm, List.map_eq_cons_iff]
    constructor
    · rintro ⟨others, read, rfl⟩
      exact ⟨(name, value), others, rfl, rfl, (inductionHypothesis.mp read).symm⟩
    · rintro ⟨⟨_, _⟩, others, rfl, same, rest_eq⟩
      cases same
      exact ⟨others, inductionHypothesis.mpr rest_eq.symm, rfl⟩
  | case3 members notNil notText =>
    simp only [reduceCtorEq, false_iff]
    rintro rfl
    cases texts with
    | nil => exact notNil rfl
    | cons first others => exact notText first.1 first.2 _ rfl

/-- The members of a record of texts. -/
def textRecord? : Json → Option (List (String × String))
  | .record members => textMembers? members
  | _ => none

theorem textRecord?_eq_some_iff {value : Json} {members : List (String × String)} :
    textRecord? value = some members ↔ value = Json.textRecord members := by
  cases value with
  | record fields =>
    simp only [textRecord?, Json.textRecord, Json.record.injEq, textMembers?_eq_some_iff]
  | null | bool | text | list => simp [textRecord?, Json.textRecord]

theorem ofJson?_eq (value : Json) : ofJson? value = (textRecord? value).map ofList := by
  cases value <;> rfl

end SettingsMap

end ConnectorSettings
