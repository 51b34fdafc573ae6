/-
This file proves what the environment does to the preferences, variable by variable.

A variable may be set to a text that means something, to one that does not, to bytes that are no
text, or to nothing at all. In the first case its choice takes the value that is meant, and in all
others it keeps the one it had. A text without a meaning is answered by one warning, and nothing
else is: bytes that are no text are ignored without a word. So a warning comes for every variable
that is set and does not count, exactly as long as the bytes of all three are texts.
-/

import ConnectorSettings.Proofs.Layers
import Mathlib.Data.List.DropRight

namespace ConnectorSettings

namespace Text

/-- Nothing is left of blanks alone, and something of everything else. -/
theorem trim_eq_nil_iff {text : List Char} :
    trim text = [] ↔ ∀ char ∈ text, isBlank char = true := by
  induction text with
  | nil => exact ⟨fun _ _ member => absurd member List.not_mem_nil, fun _ => rfl⟩
  | cons first rest inductionHypothesis =>
    by_cases blank : isBlank first = true
    · have skipped : trim (first :: rest) = trim rest := by
        rw [trim, trimStart, List.dropWhile_cons_of_pos blank]
        rfl
      rw [skipped, inductionHypothesis, List.forall_mem_cons, and_iff_right blank]
    · constructor
      · intro nothing
        rw [trim, trimStart, List.dropWhile_cons_of_neg blank, trimEnd, List.reverse_eq_nil_iff,
          List.dropWhile_eq_nil_iff] at nothing
        exact absurd (nothing first (by simp)) blank
      · exact fun all => absurd (all first List.mem_cons_self) blank

end Text

namespace Preferences

/-! ### What the texts of variables mean -/

/-- A variable of the environment that overrides a choice. -/
inductive OwnVariable where
  | connector
  | format
  | aliases
  deriving DecidableEq, Repr

namespace OwnVariable

def name : OwnVariable → String
  | connector => connectorVariable
  | format => formatVariable
  | aliases => aliasesVariable

def choice : OwnVariable → Choice
  | connector => .connector
  | format => .format
  | aliases => .aliases

/-- How the text of the variable is read. -/
def choose : (own : OwnVariable) → String → Except Warning own.choice.Value
  | connector => chooseConnector
  | format => chooseFormat
  | aliases => chooseAliases

/-- The warning that refuses a text. -/
def refusal : OwnVariable → String → Warning
  | connector, text => .unknownConnector text
  | format, text => .unknownFormat text
  | aliases, _ => .noAliases

end OwnVariable

/-- The variable that a warning is about. -/
def Warning.about : Warning → OwnVariable
  | unknownConnector _ => .connector
  | unknownFormat _ => .format
  | noAliases => .aliases

/-- The text is a list of names with commas between them, not all of them blank. The ecosystem names
that it means are these in their normal form. -/
def ListsAliases (text : String) (aliases : List String) : Prop :=
  ∃ items, Text.joinWith [','] items = text.toList ∧ items ≠ [] ∧ (∀ item ∈ items, ',' ∉ item) ∧
    (∃ item ∈ items, ∃ char ∈ item, Text.isBlank char = false) ∧
    aliases = Aliases.normalize (items.map String.ofList)

/-- What a text means as the value of a variable. The name of a connector or a format may be written
in any case of the ASCII letters. -/
def Denotes : (own : OwnVariable) → String → own.choice.Value → Prop
  | .connector, text, value => Named.sameIgnoringCase (Connector.name value) text = true
  | .format, text, value => Named.sameIgnoringCase (OutputFormat.name value) text = true
  | .aliases, text, value => ListsAliases text value

theorem chooseNamed_eq_ok_iff {α : Type} [Named α] (complete : ∀ value : α, value ∈ Named.all)
    (apart : ∀ left right : α,
      Named.sameIgnoringCase (Named.name left) (Named.name right) = true → left = right)
    (refusal : String → Warning) {text : String} {value : α} :
    chooseNamed refusal text = .ok value ↔
      Named.sameIgnoringCase (Named.name value) text = true := by
  rw [← Named.ignoringCase?_eq_some_iff complete apart, chooseNamed]
  cases (Named.ignoringCase? text : Option α) with
  | none => exact ⟨nofun, nofun⟩
  | some chosen => simp only [Except.ok.injEq, Option.some.injEq]

theorem eq_refusal_of_chooseNamed {α : Type} [Named α] {refusal : String → Warning} {text : String}
    {warning : Warning} (refused : (chooseNamed refusal text : Except Warning α) = .error warning) :
    warning = refusal text := by
  unfold chooseNamed at refused
  cases named : (Named.ignoringCase? text : Option α) with
  | some _ =>
    rw [named] at refused
    cases refused
  | none =>
    rw [named] at refused
    exact (Except.error.inj refused).symm

theorem normalize_eq_nil_iff (items : List (List Char)) :
    Aliases.normalize (items.map String.ofList) = [] ↔
      ∀ item ∈ items, ∀ char ∈ item, Text.isBlank char = true := by
  simp [Aliases.normalize, Text.trim_eq_nil_iff]

theorem chooseAliases_eq_ok_iff {text : String} {aliases : List String} :
    chooseAliases text = .ok aliases ↔ ListsAliases text aliases := by
  have chosen : chooseAliases text = .ok aliases ↔
      Aliases.ofText text ≠ [] ∧ aliases = Aliases.ofText text := by
    unfold chooseAliases
    cases names : Aliases.ofText text with
    | nil => exact ⟨nofun, fun ⟨filled, _⟩ => absurd rfl filled⟩
    | cons first rest =>
      simp only [List.isEmpty_cons, Bool.false_eq_true, if_false, Except.ok.injEq, ne_eq,
        List.cons_ne_nil, not_false_eq_true, true_and, eq_comm]
  rw [chosen, Aliases.ofText, ne_eq, normalize_eq_nil_iff]
  constructor
  · rintro ⟨filled, rfl⟩
    obtain ⟨joined, some, apart⟩ := Text.splitOn_eq_iff.mp (rfl : Text.splitOn ',' text.toList = _)
    simp only [not_forall, Bool.not_eq_true] at filled
    obtain ⟨item, member, char, inside, blank⟩ := filled
    exact ⟨_, joined, some, apart, ⟨item, member, char, inside, blank⟩, rfl⟩
  · rintro ⟨items, joined, some, apart, ⟨item, member, char, inside, filled⟩, rfl⟩
    rw [Text.splitOn_eq_iff.mpr ⟨joined, some, apart⟩]
    refine ⟨fun blank => ?_, rfl⟩
    rw [blank item member char inside] at filled
    cases filled

theorem eq_noAliases_of_chooseAliases {text : String} {warning : Warning}
    (refused : chooseAliases text = .error warning) : warning = .noAliases := by
  unfold chooseAliases at refused
  cases names : Aliases.ofText text with
  | nil =>
    simp only [names] at refused
    exact (Except.error.inj refused).symm
  | cons _ _ =>
    simp only [names] at refused
    cases refused

/-- Reading the text of a variable gives what the text means. -/
theorem choose_eq_ok_iff {own : OwnVariable} {text : String} {value : own.choice.Value} :
    own.choose text = .ok value ↔ Denotes own text value := by
  cases own with
  | connector =>
    refine chooseNamed_eq_ok_iff (α := Connector) ?_ ?_ _
    · intro value
      cases value <;> decide
    · intro left right
      cases left <;> cases right <;> decide
  | format =>
    refine chooseNamed_eq_ok_iff (α := OutputFormat) ?_ ?_ _
    · intro value
      cases value <;> decide
    · intro left right
      cases left <;> cases right <;> decide
  | aliases => exact chooseAliases_eq_ok_iff

theorem choose_eq_error {own : OwnVariable} {text : String}
    (meaningless : ∀ value, ¬ Denotes own text value) :
    own.choose text = .error (own.refusal text) := by
  cases outcome : own.choose text with
  | ok value => exact absurd (choose_eq_ok_iff.mp outcome) (meaningless value)
  | error warning =>
    refine congrArg Except.error ?_
    cases own with
    | connector => exact eq_refusal_of_chooseNamed outcome
    | format => exact eq_refusal_of_chooseNamed outcome
    | aliases => exact eq_noAliases_of_chooseAliases outcome

/-! ### One variable -/

/-- The variable is set to a text that means the value. -/
def Chooses (environment : Environment) (own : OwnVariable) (value : own.choice.Value) : Prop :=
  ∃ text, environment.read own.name = .present text ∧ Denotes own text value

/-- The variable is set to a text that means nothing. -/
def Refused (environment : Environment) (own : OwnVariable) (text : String) : Prop :=
  environment.read own.name = .present text ∧ ∀ value, ¬ Denotes own text value

section

variable {environment : Environment} {own : OwnVariable}

theorem override_of_chosen {value : own.choice.Value} (chooses : Chooses environment own value)
    (below : own.choice.Value) :
    override environment own.name own.choose below = (value, []) := by
  obtain ⟨text, present, meant⟩ := chooses
  rw [override, present]
  dsimp only
  rw [choose_eq_ok_iff.mpr meant]

theorem override_of_refused {text : String} (refused : Refused environment own text)
    (below : own.choice.Value) :
    override environment own.name own.choose below = (below, [own.refusal text]) := by
  rw [override, refused.1]
  dsimp only
  rw [choose_eq_error refused.2]

theorem override_of_textless (textless : ∀ text, environment.read own.name ≠ .present text)
    (below : own.choice.Value) :
    override environment own.name own.choose below = (below, []) := by
  unfold override
  cases reading : environment.read own.name with
  | present text => exact absurd reading (textless text)
  | absent => rfl
  | undecodable _ => rfl

/-- There is no fourth case. -/
theorem chosen_or_refused_or_textless (environment : Environment) (own : OwnVariable) :
    (∃ value, Chooses environment own value) ∨ (∃ text, Refused environment own text) ∨
      ∀ text, environment.read own.name ≠ .present text := by
  by_cases textless : ∀ text, environment.read own.name ≠ .present text
  · exact .inr (.inr textless)
  · simp only [ne_eq, not_forall, not_not] at textless
    obtain ⟨text, present⟩ := textless
    by_cases meant : ∃ value, Denotes own text value
    · obtain ⟨value, denotes⟩ := meant
      exact .inl ⟨value, text, present, denotes⟩
    · exact .inr (.inl ⟨text, present, not_exists.mp meant⟩)

theorem Refused.not_chosen {text : String} (refused : Refused environment own text)
    (value : own.choice.Value) : ¬ Chooses environment own value := by
  rintro ⟨other, present, meant⟩
  obtain ⟨⟩ := refused.1.symm.trans present
  exact refused.2 value meant

/-- Whatever is said about a variable names it. -/
theorem about_override {below : own.choice.Value} {warning : Warning}
    (member : warning ∈ (override environment own.name own.choose below).2) :
    ∃ text, Refused environment own text ∧ warning = own.refusal text := by
  rcases chosen_or_refused_or_textless environment own with
    ⟨_, chooses⟩ | ⟨text, refused⟩ | textless
  · rw [override_of_chosen chooses] at member
    cases member
  · rw [override_of_refused refused, List.mem_singleton] at member
    exact ⟨text, refused, member⟩
  · rw [override_of_textless textless] at member
    cases member

end

theorem about_refusal (own : OwnVariable) (text : String) : (own.refusal text).about = own := by
  cases own <;> rfl

/-- The message of a warning names its variable. -/
theorem message_refusal (own : OwnVariable) (text : String) :
    ∃ front back, (own.refusal text).message = front ++ own.name ++ back := by
  have parts : ∀ front name sign back list last : String, ∃ before after,
      front ++ name ++ sign ++ text ++ back ++ list ++ last = before ++ name ++ after :=
    fun front name sign back list last =>
      ⟨front, sign ++ text ++ back ++ list ++ last, by simp only [String.append_assoc]⟩
  cases own with
  | connector =>
    exact parts "ignoring invalid " connectorVariable " value: " " (expected one of "
      Connector.allNames ")"
  | format =>
    exact ⟨"ignoring invalid ", " value: " ++ text, String.append_assoc⟩
  | aliases => exact ⟨"ignoring empty ", " value", rfl⟩

/-! ### All variables -/

theorem value_underEnvironment (below : Preferences) (environment : Environment)
    (own : OwnVariable) :
    (below.underEnvironment environment).1.value own.choice =
      (override environment own.name own.choose (below.value own.choice)).1 := by
  cases own <;> rfl

/-- The warnings that come from one variable. -/
def warningsFrom (below : Preferences) (environment : Environment) (own : OwnVariable) :
    List Warning :=
  (override environment own.name own.choose (below.value own.choice)).2

theorem warnings_underEnvironment (below : Preferences) (environment : Environment) :
    (below.underEnvironment environment).2 = below.warningsFrom environment .connector ++
      below.warningsFrom environment .format ++ below.warningsFrom environment .aliases := rfl

theorem mem_warnings_iff {below : Preferences} {environment : Environment} {warning : Warning} :
    warning ∈ (below.underEnvironment environment).2 ↔
      ∃ own, warning ∈ below.warningsFrom environment own := by
  rw [warnings_underEnvironment, List.mem_append, List.mem_append]
  constructor
  · rintro ((first | second) | third)
    · exact ⟨_, first⟩
    · exact ⟨_, second⟩
    · exact ⟨_, third⟩
  · rintro ⟨_ | _ | _, member⟩
    · exact .inl (.inl member)
    · exact .inl (.inr member)
    · exact .inr member

/-- All warnings about a variable come from it. -/
theorem countP_warnings (below : Preferences) (environment : Environment) (own : OwnVariable) :
    (below.underEnvironment environment).2.countP (·.about = own) =
      (below.warningsFrom environment own).length := by
  have counted : ∀ other, (below.warningsFrom environment other).countP (·.about = own) =
      if other = own then (below.warningsFrom environment other).length else 0 := by
    intro other
    have about : ∀ warning ∈ below.warningsFrom environment other, warning.about = other := by
      intro warning member
      obtain ⟨text, -, rfl⟩ := about_override member
      exact about_refusal other text
    split
    · next same =>
      exact List.countP_eq_length.mpr fun warning member =>
        decide_eq_true ((about warning member).trans same)
    · next different =>
      refine List.countP_eq_zero.mpr fun warning member => ?_
      rw [decide_eq_true_eq, about warning member]
      exact different
  rw [warnings_underEnvironment, List.countP_append, List.countP_append, counted, counted, counted]
  cases own <;> simp

/-- There is one warning about the variable if the condition holds, and none otherwise. -/
def WarnsExactlyIf (warnings : List Warning) (own : OwnVariable) (condition : Prop) : Prop :=
  (condition → warnings.countP (·.about = own) = 1) ∧
    (¬ condition → warnings.countP (·.about = own) = 0)

/-- A condition of which as much is known cannot be another. -/
theorem WarnsExactlyIf.iff_of {warnings : List Warning} {own : OwnVariable} {left right : Prop}
    (known : WarnsExactlyIf warnings own left) :
    WarnsExactlyIf warnings own right ↔ (left ↔ right) := by
  obtain ⟨one, none⟩ := known
  unfold WarnsExactlyIf
  by_cases first : left
  · have counted := one first
    simp [first, counted]
  · have counted := none first
    simp [first, counted]

theorem warnsExactlyIf_refused (below : Preferences) (environment : Environment)
    (own : OwnVariable) :
    WarnsExactlyIf (below.underEnvironment environment).2 own
      (∃ text, Refused environment own text) := by
  unfold WarnsExactlyIf
  rw [countP_warnings, warningsFrom]
  rcases chosen_or_refused_or_textless environment own with
    ⟨value, chooses⟩ | ⟨text, refused⟩ | textless
  · rw [override_of_chosen chooses]
    exact ⟨fun ⟨_, refused⟩ => absurd chooses (refused.not_chosen value), fun _ => rfl⟩
  · rw [override_of_refused refused]
    exact ⟨fun _ => rfl, fun none => absurd ⟨text, refused⟩ none⟩
  · rw [override_of_textless textless]
    exact ⟨fun ⟨text, refused⟩ => absurd refused.1 (textless text), fun _ => rfl⟩

theorem isSet_iff {environment : Environment} {name : String} :
    environment.isSet name = true ↔ environment.read name ≠ .absent := by
  unfold Environment.isSet Environment.read
  cases environment.bytes? name with
  | none => simp
  | some bytes =>
    dsimp only
    cases Utf8.decode? bytes <;> simp

/-- A variable that is set and does not count is refused, or holds bytes that are no text. -/
theorem set_and_not_chosen_iff {environment : Environment} {own : OwnVariable} :
    (environment.isSet own.name = true ∧ ∀ value, ¬ Chooses environment own value) ↔
      (∃ text, Refused environment own text) ∨
        ∃ bytes, environment.read own.name = .undecodable bytes := by
  rw [isSet_iff]
  constructor
  · rintro ⟨set, meaningless⟩
    cases reading : environment.read own.name with
    | absent => exact absurd reading set
    | undecodable bytes => exact .inr ⟨bytes, rfl⟩
    | present text =>
      exact .inl ⟨text, reading, fun value meant => meaningless value ⟨text, reading, meant⟩⟩
  · rintro (⟨text, refused⟩ | ⟨bytes, undecodable⟩)
    · exact ⟨fun absent => (nomatch refused.1.symm.trans absent), refused.not_chosen⟩
    · refine ⟨fun absent => (nomatch undecodable.symm.trans absent), ?_⟩
      rintro value ⟨text, present, -⟩
      exact nomatch undecodable.symm.trans present

/-- Each variable that is set to a text with a meaning decides its choice, and the others leave it
as it was. A text without a meaning is answered by one warning, which names the variable, and
nothing else is warned of. So for a variable that is set and does not count there is a warning just
as long as it does not hold bytes that are no text. What no variable decides stays as it was. -/
theorem warns_iff_decodable (below : Preferences) (environment : Environment) :
    let after := (below.underEnvironment environment).1
    let warnings := (below.underEnvironment environment).2
    (∀ own : OwnVariable,
      (∀ value, Chooses environment own value → after.value own.choice = value) ∧
      ((∀ value, ¬ Chooses environment own value) →
        after.value own.choice = below.value own.choice) ∧
      WarnsExactlyIf warnings own (∃ text, Refused environment own text) ∧
      (WarnsExactlyIf warnings own
          (environment.isSet own.name = true ∧ ∀ value, ¬ Chooses environment own value) ↔
        ∀ bytes, environment.read own.name ≠ .undecodable bytes)) ∧
    (∀ warning ∈ warnings, ∃ own text, Refused environment own text ∧
      warning = own.refusal text ∧
      ∃ front back, warning.message = front ++ own.name ++ back) ∧
    after.sources = below.sources ∧ after.showSecrets = below.showSecrets := by
  refine ⟨fun own => ⟨fun value chooses => ?_, fun meaningless => ?_,
    warnsExactlyIf_refused below environment own, ?_⟩, fun warning member => ?_, rfl, rfl⟩
  · rw [value_underEnvironment, override_of_chosen chooses]
  · rw [value_underEnvironment]
    rcases chosen_or_refused_or_textless environment own with
      ⟨value, chooses⟩ | ⟨text, refused⟩ | textless
    · exact absurd chooses (meaningless value)
    · rw [override_of_refused refused]
    · rw [override_of_textless textless]
  · rw [(warnsExactlyIf_refused below environment own).iff_of, set_and_not_chosen_iff,
      ← not_exists]
    constructor
    · rintro same ⟨bytes, undecodable⟩
      obtain ⟨text, refused⟩ := same.mpr (.inr ⟨bytes, undecodable⟩)
      exact nomatch undecodable.symm.trans refused.1
    · exact fun decodable => ⟨.inl, fun either => either.resolve_right decodable⟩
  · obtain ⟨own, among⟩ := mem_warnings_iff.mp member
    obtain ⟨text, refused, rfl⟩ := about_override among
    exact ⟨own, text, refused, rfl, message_refusal own text⟩

/-- The connector is set to a byte that is no text: it does not count, and no warning says so. -/
theorem undecodable_unwarned :
    let environment := Environment.ofList [("FSCONF_BACKEND", [0xFF])]
    builtIn.underEnvironment environment = (builtIn, []) ∧
      environment.isSet OwnVariable.connector.name = true ∧
      (∀ value, ¬ Chooses environment .connector value) ∧
      ¬ WarnsExactlyIf (builtIn.underEnvironment environment).2 .connector
        (environment.isSet OwnVariable.connector.name = true ∧
          ∀ value, ¬ Chooses environment .connector value) := by
  intro environment
  have outcome : builtIn.underEnvironment environment = (builtIn, []) := by decide +kernel
  have set : environment.isSet OwnVariable.connector.name = true := by decide +kernel
  have unread : environment.read OwnVariable.connector.name = .undecodable [0xFF] := by
    decide +kernel
  have meaningless : ∀ value, ¬ Chooses environment .connector value := by
    rintro value ⟨text, present, -⟩
    exact nomatch unread.symm.trans present
  refine ⟨outcome, set, meaningless, fun warned => ?_⟩
  have one := warned.1 ⟨set, meaningless⟩
  rw [outcome] at one
  cases one

end Preferences

end ConnectorSettings
