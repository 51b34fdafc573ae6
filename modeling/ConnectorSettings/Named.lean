/-
This file is about types whose values are a few names: a connector, an output format, a retry mode.

Such a type lists its values and names each of them. A name is then looked up either as it is
spelled or with the case of ASCII letters ignored; letters outside ASCII have no case here.
-/

namespace ConnectorSettings

class Named (α : Type) where
  all : List α
  name : α → String

namespace Named

variable {α : Type} [Named α]

def sameIgnoringCase (left right : String) : Bool :=
  left.toList.map Char.toLower == right.toList.map Char.toLower

def exactly? (text : String) : Option α :=
  all.find? fun value => name value == text

def ignoringCase? (text : String) : Option α :=
  all.find? fun value => sameIgnoringCase (name value) text

/-- Where all values are listed and no two names differ in case alone, a text has one meaning. -/
theorem ignoringCase?_eq_some_iff (complete : ∀ value : α, value ∈ all)
    (apart : ∀ left right : α, sameIgnoringCase (name left) (name right) = true → left = right)
    {text : String} {value : α} :
    ignoringCase? text = some value ↔ sameIgnoringCase (name value) text = true := by
  have fits : ∀ {other : α}, ignoringCase? text = some other →
      sameIgnoringCase (name other) text = true := by
    intro other found
    exact List.find?_some (p := fun value => sameIgnoringCase (name value) text) found
  constructor
  · exact fits
  · intro same
    cases found : (ignoringCase? text : Option α) with
    | none => exact absurd same (List.find?_eq_none.mp found value (complete value))
    | some other =>
      have otherSame := fits found
      have equal : sameIgnoringCase (name other) (name value) = true := by
        unfold sameIgnoringCase at same otherSame ⊢
        rw [beq_iff_eq] at same otherSame ⊢
        exact otherSame.trans same.symm
      rw [apart other value equal]

end Named

end ConnectorSettings
