/-
This file proves that secrets do not reach the output. Two runs that differ only in secrets, in the
texts under the keys of secret settings and in the bytes of their variables, cannot be told apart by
checking the settings, by the report in any format, or by the description of the typed settings and
of the credentials they give.

The first half is about keys. The ecosystem names can be any texts, so a key says nothing by its
beginning. It does by its end: it ends in the suffix of its setting, or in the scope and the host
that stand behind every suffix alike. No suffix of a secret setting ends like another suffix or like
the host, so a key of a secret setting is never a key of another one.

The second half hides the secrets. Whatever is shown is a function of the settings with the
placeholder in place of every secret, and these are the same in both runs.
-/

import ConnectorSettings.Proofs.Validation
import ConnectorSettings.OutputFormat

namespace ConnectorSettings

/-! ### How keys end -/

namespace KeyLayout

/-- Neither text ends in the other. -/
def EndApart (left right : String) : Prop :=
  ¬ left.toList <:+ right.toList ∧ ¬ right.toList <:+ left.toList

instance (left right : String) : Decidable (EndApart left right) :=
  inferInstanceAs (Decidable (_ ∧ _))

/-- The keys of two suffixes end in different ways. Where the suffix comes first, a scoped key ends
in the host, so that the suffixes have to differ from the host too. -/
def TellsApart : KeyLayout → String → String → Prop
  | scopeFirst _ _, left, right => EndApart left right
  | scopeLast _ host, left, right => EndApart left right ∧ EndApart left host ∧ EndApart right host

instance (layout : KeyLayout) (left right : String) : Decidable (layout.TellsApart left right) :=
  match layout with
  | scopeFirst _ _ => inferInstanceAs (Decidable (EndApart _ _))
  | scopeLast _ _ => inferInstanceAs (Decidable (_ ∧ _ ∧ _))

theorem EndApart.ne {left right : String} (apart : EndApart left right)
    (front other : List Char) : front ++ left.toList ≠ other ++ right.toList := by
  intro same
  have leftEnds : left.toList <:+ other ++ right.toList := same ▸ List.suffix_append _ _
  rcases List.suffix_or_suffix_of_suffix leftEnds (List.suffix_append _ _) with ends | ends
  · exact apart.1 ends
  · exact apart.2 ends

theorem toList_keyUnder_scopeFirst (stem announcer suffix : String) (place : Option String) :
    ∃ front, ((scopeFirst stem announcer).keyUnder suffix place).toList =
      front ++ suffix.toList := by
  cases place with
  | none => exact ⟨_, String.toList_append⟩
  | some scope =>
    refine ⟨stem.toList ++ announcer.toList ++ '.' :: scope.toList ++ ['.'], ?_⟩
    simp [keyUnder, keyFor, String.toList_append]

theorem toList_keyUnder_scopeLast (stem host suffix scope : String) :
    ((scopeLast stem host).keyUnder suffix (some scope)).toList =
      stem.toList ++ suffix.toList ++ ('.' :: scope.toList ++ host.toList) := by
  simp [keyUnder, keyFor, String.toList_append]

/-- Under one scope the keys of the two suffixes differ, whatever stands in front of them. -/
theorem TellsApart.ne {layout : KeyLayout} {left right : String}
    (apart : layout.TellsApart left right) {scope place other : Option String}
    (leftPlace : place = none ∨ place = scope) (rightPlace : other = none ∨ other = scope)
    (front behind : String) :
    front ++ layout.keyUnder left place ≠ behind ++ layout.keyUnder right other := by
  intro same
  rw [← String.toList_inj, String.toList_append, String.toList_append] at same
  cases layout with
  | scopeFirst stem announcer =>
    obtain ⟨leftFront, leftEnd⟩ := toList_keyUnder_scopeFirst stem announcer left place
    obtain ⟨rightFront, rightEnd⟩ := toList_keyUnder_scopeFirst stem announcer right other
    rw [leftEnd, rightEnd, ← List.append_assoc, ← List.append_assoc] at same
    exact EndApart.ne apart _ _ same
  | scopeLast stem host =>
    obtain ⟨suffixes, leftHost, rightHost⟩ := apart
    have global (suffix : String) : ((scopeLast stem host).keyUnder suffix none).toList =
        stem.toList ++ suffix.toList := String.toList_append
    cases place with
    | none =>
      cases other with
      | none =>
        rw [global, global, ← List.append_assoc, ← List.append_assoc] at same
        exact suffixes.ne _ _ same
      | some scope =>
        rw [global, toList_keyUnder_scopeLast] at same
        simp only [← List.append_assoc] at same
        exact leftHost.ne _ _ same
    | some scope =>
      cases other with
      | none =>
        rw [global, toList_keyUnder_scopeLast] at same
        simp only [← List.append_assoc] at same
        exact rightHost.ne _ _ same.symm
      | some name =>
        obtain rfl : scope = name := by
          rcases leftPlace with none | leftPlace
          · cases none
          · rcases rightPlace with none | rightPlace
            · cases none
            · exact Option.some.inj (leftPlace.trans rightPlace.symm)
        rw [toList_keyUnder_scopeLast, toList_keyUnder_scopeLast] at same
        simp only [← List.append_assoc, List.append_left_inj] at same
        exact suffixes.ne _ _ same

end KeyLayout

/-! ### Runs that differ in secrets only -/

/-- What a run starts from. -/
structure Inputs where
  map : SettingsMap
  environment : Environment

namespace View

/-- The key is one that a secret setting is looked up under. -/
def SecretKey (view : View) (key : String) : Prop :=
  ∃ setting ∈ view.settings, setting.secret = true ∧
    ∃ candidate ∈ view.candidates setting, candidate.1 = key

/-- The variable is that of a secret setting. -/
def SecretVariable (view : View) (name : String) : Prop :=
  ∃ setting ∈ view.settings, setting.secret = true ∧ setting.variableName = some name

/-- What a lookup that finds something shows of it. -/
def shown (setting : Setting) (found : Found) : Found :=
  { found with value := Report.shownValue false setting found.value }

theorem shown_of_secret {setting : Setting} (secret : setting.secret = true) (found : Found) :
    shown setting found = ⟨redacted, found.origin⟩ := by
  simp only [shown, Report.shownValue, secret, Bool.not_false, Bool.and_self, if_true]

/-- Which key is found depends on the keys of the map only. -/
theorem origin_firstPresent {left right : SettingsMap}
    (sameKeys : ∀ key, key ∈ left.keys ↔ key ∈ right.keys) (ranking : List (String × Origin)) :
    (firstPresent left ranking).map Found.origin =
      (firstPresent right ranking).map Found.origin := by
  induction ranking with
  | nil => rfl
  | cons candidate rest inductionHypothesis =>
    have none_iff : left.get? candidate.1 = none ↔ right.get? candidate.1 = none := by
      rw [SettingsMap.get?_eq_none_iff, SettingsMap.get?_eq_none_iff, sameKeys]
    rw [firstPresent_cons, firstPresent_cons]
    cases here : left.get? candidate.1 with
    | none =>
      rw [none_iff.mp here]
      exact inductionHypothesis
    | some value =>
      obtain ⟨other, there⟩ := Option.ne_none_iff_exists'.mp fun absent =>
        Option.some_ne_none value (here.symm.trans (none_iff.mpr absent))
      rw [there]
      rfl

end View

/-- What is shown of a row's value. -/
def TypedRow.shown (row : TypedRow) (value : Option TypedValue) : Option TypedValue :=
  if row.setting.secret then value.map fun _ => .text redacted else value

theorem TypedRow.shown_of_secret {row : TypedRow} (secret : row.setting.secret = true) :
    row.shown = Option.map fun _ => .text redacted :=
  funext fun _ => if_pos secret

theorem View.shown_readRow_text {view : View} {setting : Setting}
    (secret : setting.secret = true) :
    (TypedRow.mk setting .text).shown <$> view.readRow ⟨setting, .text⟩ =
      Option.map (fun found => .text found.value) <$>
        (Option.map (shown setting) <$> view.find setting) := by
  rw [TypedRow.shown_of_secret secret, funext (shown_of_secret secret)]
  cases outcome : view.find setting with
  | error error =>
    rw [readRow_of_error outcome]
    rfl
  | ok found =>
    cases found with
    | none =>
      rw [readRow_of_unset outcome]
      rfl
    | some found =>
      rw [readRow_of_found outcome]
      rfl

/-! ### Settings without their secrets -/

namespace S3

/-- The settings with the placeholder in place of every secret. -/
def Settings.hidden (settings : Settings) : Settings :=
  { settings with
    accessKey := settings.accessKey.map fun _ => redacted
    secretKey := settings.secretKey.map fun _ => redacted
    sessionToken := settings.sessionToken.map fun _ => redacted }

theorem values_hidden (settings : Settings) :
    settings.hidden.values = List.zipWith TypedRow.shown rows settings.values := by
  obtain ⟨_, accessKey, secretKey, sessionToken⟩ := settings
  cases accessKey <;> cases secretKey <;> cases sessionToken <;> rfl

theorem describe_hidden (settings : Settings) : settings.hidden.describe = settings.describe := by
  simp only [Settings.describe, Settings.hidden, Text.describedSecret, Option.map_map]
  rfl

theorem describe_credentials?_hidden (settings : Settings) :
    settings.hidden.credentials?.map (Option.map Credentials.describe) =
      settings.credentials?.map (Option.map Credentials.describe) := by
  obtain ⟨_, accessKey, secretKey, sessionToken⟩ := settings
  cases accessKey <;> cases secretKey <;> cases sessionToken <;> rfl

end S3

namespace Abfs

/-- The settings with the placeholder in place of every secret. -/
def Settings.hidden (settings : Settings) : Settings :=
  { settings with
    accountKey := settings.accountKey.map fun _ => redacted
    sasToken := settings.sasToken.map fun _ => redacted
    clientSecret := settings.clientSecret.map fun _ => redacted }

theorem values_hidden (settings : Settings) :
    settings.hidden.values = List.zipWith TypedRow.shown rows settings.values := by
  obtain ⟨_, _, accountKey, sasToken, _, clientSecret⟩ := settings
  cases accountKey <;> cases sasToken <;> cases clientSecret <;> rfl

theorem describe_hidden (settings : Settings) : settings.hidden.describe = settings.describe := by
  simp only [Settings.describe, Settings.hidden, Text.describedSecret, Option.map_map]
  rfl

theorem describe_clientCredentials_hidden (settings : Settings) :
    settings.hidden.clientCredentials.map ClientCredentials.describe =
      settings.clientCredentials.map ClientCredentials.describe := by
  obtain ⟨_, _, _, _, clientId, clientSecret, clientEndpoint⟩ := settings
  cases clientId <;> cases clientSecret <;> cases clientEndpoint <;> rfl

end Abfs

namespace TypedSettings

def hidden : TypedSettings → TypedSettings
  | s3 settings => s3 settings.hidden
  | abfs settings => abfs settings.hidden

theorem scope_hidden (settings : TypedSettings) : settings.hidden.scope = settings.scope := by
  cases settings <;> rfl

/-- The description of typed settings for someone who searches for a fault. -/
def describe : TypedSettings → String
  | s3 settings => settings.describe
  | abfs settings => settings.describe

/-- The description of the credentials that typed settings give. -/
def describeCredentials : TypedSettings → Except SettingError (Option String)
  | s3 settings => settings.credentials?.map (Option.map S3.Credentials.describe)
  | abfs settings => (settings.clientCredentials.map Abfs.ClientCredentials.describe).map some

theorem describe_hidden (settings : TypedSettings) :
    settings.hidden.describe = settings.describe := by
  cases settings with
  | s3 settings => exact S3.describe_hidden settings
  | abfs settings => exact Abfs.describe_hidden settings

theorem describeCredentials_hidden (settings : TypedSettings) :
    settings.hidden.describeCredentials = settings.describeCredentials := by
  cases settings with
  | s3 settings => exact S3.describe_credentials?_hidden settings
  | abfs settings =>
    exact congrArg (Except.map some) (Abfs.describe_clientCredentials_hidden settings)

end TypedSettings

namespace Environment

theorem read_of_text {environment : Environment} {name : String} {bytes : Utf8.Bytes}
    (held : environment.bytes? name = some bytes) (valid : Utf8.isValid bytes = true) :
    ∃ value, environment.read name = .present value := by
  obtain ⟨value, decoded⟩ := Option.isSome_iff_exists.mp valid
  refine ⟨value, ?_⟩
  rw [read, held]
  simp only [decoded]

end Environment

namespace Connector

open View

/-- A run as a connector sees it, under a scope and some ecosystem names. -/
def seen (connector : Connector) (scope : Option String) (aliases : List String)
    (inputs : Inputs) : View :=
  ((connector.view inputs.map inputs.environment).withScope scope).withAliases aliases

/-- Two runs with the same keys and the same variables, which give the same values except to the
secret settings. The variables of these hold texts. -/
structure AlikeButSecrets (connector : Connector) (scope : Option String) (aliases : List String)
    (left right : Inputs) : Prop where
  sameKeys : ∀ key, key ∈ left.map.keys ↔ key ∈ right.map.keys
  sameValues : ∀ key, ¬ (connector.seen scope aliases left).SecretKey key →
    left.map.get? key = right.map.get? key
  sameVariables : ∀ name, left.environment.isSet name = right.environment.isSet name
  sameBytes : ∀ name, ¬ (connector.seen scope aliases left).SecretVariable name →
    left.environment.bytes? name = right.environment.bytes? name
  leftTexts : ∀ name bytes, (connector.seen scope aliases left).SecretVariable name →
    left.environment.bytes? name = some bytes → Utf8.isValid bytes = true
  rightTexts : ∀ name bytes, (connector.seen scope aliases left).SecretVariable name →
    right.environment.bytes? name = some bytes → Utf8.isValid bytes = true

/-- The keys of two settings of one connector end in different ways. -/
theorem tellsApart (connector : Connector) : ∀ left ∈ connector.settings,
    ∀ right ∈ connector.settings, left ≠ right →
      connector.layout.TellsApart left.suffix right.suffix := by
  cases connector <;> decide

theorem secret_variableName_ne (connector : Connector) :
    ∀ secret ∈ connector.settings, secret.secret = true →
      ∀ plain ∈ connector.settings, plain.secret = false →
        ∀ name ∈ plain.variableName, secret.variableName ≠ some name := by
  cases connector <;> decide

/-- Secrets are read as they stand. -/
theorem kind_of_secret (connector : Connector) :
    ∀ row ∈ connector.rows, row.setting.secret = true → row.kind = .text := by
  cases connector <;> decide

section

variable {connector : Connector} {scope : Option String} {aliases : List String}
  {left right : Inputs}

/-- A key of a setting that is not secret is no key of a secret one. -/
theorem not_secretKey_of_plain {setting : Setting} (member : setting ∈ connector.settings)
    (plain : setting.secret = false) {candidate : String × Origin}
    (ranked : candidate ∈ ranking connector.layout aliases setting scope) :
    ¬ (connector.seen scope aliases left).SecretKey candidate.1 := by
  rintro ⟨secret, secretMember, isSecret, other, otherRanked, same⟩
  rw [show (connector.seen scope aliases left).candidates secret =
    ranking connector.layout aliases secret scope from candidates_overMap ..] at otherRanked
  obtain ⟨place, front, placed, -, spelled⟩ := front_of_mem_ranking ranked
  obtain ⟨otherPlace, otherFront, otherPlaced, -, otherSpelled⟩ := front_of_mem_ranking otherRanked
  have differ : secret ≠ setting := fun same =>
    Bool.false_ne_true (plain.symm.trans (same ▸ isSecret))
  refine (connector.tellsApart secret secretMember setting member differ).ne otherPlaced placed
    otherFront front ?_
  rw [← otherSpelled, ← spelled, same]

theorem not_secretVariable_of_plain {setting : Setting} (member : setting ∈ connector.settings)
    (plain : setting.secret = false) {name : String} (named : setting.variableName = some name) :
    ¬ (connector.seen scope aliases left).SecretVariable name := by
  rintro ⟨secret, secretMember, isSecret, same⟩
  exact connector.secret_variableName_ne secret secretMember isSecret setting member plain name
    named same

/-! ### Lookups of the two runs -/

theorem find_plain (alike : connector.AlikeButSecrets scope aliases left right)
    {setting : Setting} (member : setting ∈ connector.settings) (plain : setting.secret = false) :
    (connector.seen scope aliases left).find setting =
      (connector.seen scope aliases right).find setting := by
  have readings : underVariable left.environment setting =
      underVariable right.environment setting :=
    underVariable_congr fun name named =>
      alike.sameBytes name (not_secretVariable_of_plain member plain named)
  have maps : firstPresent left.map (ranking connector.layout aliases setting scope) =
      firstPresent right.map (ranking connector.layout aliases setting scope) :=
    firstPresent_congr fun candidate ranked =>
      alike.sameValues candidate.1 (not_secretKey_of_plain member plain ranked)
  show (overMap connector.layout connector.settings left.environment scope aliases left.map).find
    setting = (overMap connector.layout connector.settings right.environment scope aliases
      right.map).find setting
  rw [find_overMap, find_overMap, readings, maps]

/-- The variable of a secret setting is set in both runs or in neither, and holds a text. -/
theorem read_secret (alike : connector.AlikeButSecrets scope aliases left right) {name : String}
    (secret : (connector.seen scope aliases left).SecretVariable name) :
    (left.environment.read name = .absent ∧ right.environment.read name = .absent) ∨
      ∃ value other, left.environment.read name = .present value ∧
        right.environment.read name = .present other := by
  have same := alike.sameVariables name
  unfold Environment.isSet at same
  cases held : left.environment.bytes? name with
  | none =>
    rw [held] at same
    have absent : right.environment.bytes? name = none :=
      Option.not_isSome_iff_eq_none.mp fun set => Bool.false_ne_true (same.trans set)
    exact .inl ⟨Environment.read_of_unset held, Environment.read_of_unset absent⟩
  | some bytes =>
    rw [held] at same
    obtain ⟨others, there⟩ := Option.isSome_iff_exists.mp same.symm
    obtain ⟨value, reading⟩ :=
      Environment.read_of_text held (alike.leftTexts name bytes secret held)
    obtain ⟨other, otherReading⟩ :=
      Environment.read_of_text there (alike.rightTexts name others secret there)
    exact .inr ⟨value, other, reading, otherReading⟩

theorem origin_findInMap (alike : connector.AlikeButSecrets scope aliases left right)
    (setting : Setting) :
    ((connector.seen scope aliases left).findInMap setting).map Found.origin =
      ((connector.seen scope aliases right).findInMap setting).map Found.origin := by
  show ((overMap connector.layout connector.settings left.environment scope aliases
    left.map).findInMap setting).map Found.origin = ((overMap connector.layout connector.settings
      right.environment scope aliases right.map).findInMap setting).map Found.origin
  rw [findInMap_overMap, findInMap_overMap, Option.map_or, Option.map_or,
    origin_firstPresent alike.sameKeys]

/-- Nothing that is shown of a lookup tells the runs apart. -/
theorem shown_find (alike : connector.AlikeButSecrets scope aliases left right)
    {setting : Setting} (member : setting ∈ connector.settings) :
    Option.map (shown setting) <$> (connector.seen scope aliases left).find setting =
      Option.map (shown setting) <$> (connector.seen scope aliases right).find setting := by
  cases isSecret : setting.secret with
  | false => rw [find_plain alike member isSecret]
  | true =>
    have hidden : shown setting = fun found => ⟨redacted, found.origin⟩ :=
      funext (shown_of_secret isSecret)
    have inMap : ((connector.seen scope aliases left).findInMap setting).map (shown setting) =
        ((connector.seen scope aliases right).findInMap setting).map (shown setting) := by
      have origins := congrArg (Option.map fun origin => (⟨redacted, origin⟩ : Found))
        (origin_findInMap alike setting)
      rw [Option.map_map, Option.map_map] at origins
      rw [hidden]
      exact origins
    rw [find_eq_underVariable, find_eq_underVariable]
    cases named : setting.variableName with
    | none =>
      simp only [underVariable, named]
      exact congrArg Except.ok inMap
    | some name =>
      have secret : (connector.seen scope aliases left).SecretVariable name :=
        ⟨setting, member, isSecret, named⟩
      rcases read_secret alike secret with ⟨absent, there⟩ | ⟨value, other, reading, there⟩
      · have here : (connector.seen scope aliases left).environment.read name = .absent := absent
        have there : (connector.seen scope aliases right).environment.read name = .absent := there
        simp only [underVariable, named, here, there]
        exact congrArg Except.ok inMap
      · have here : (connector.seen scope aliases left).environment.read name =
          .present value := reading
        have there : (connector.seen scope aliases right).environment.read name =
          .present other := there
        simp only [underVariable, named, here, there, hidden]
        rfl

/-! ### Typed settings of the two runs -/

theorem values_hidden_typed (connector : Connector) (view : View) :
    TypedSettings.values <$> (TypedSettings.hidden <$> connector.typed view) =
      connector.rows.mapM fun row => row.shown <$> view.readRow row := by
  rw [← zipWith_mapM, ← values_typed]
  cases connector with
  | s3 =>
    rw [typed, Functor.map_map, Functor.map_map, Functor.map_map, Functor.map_map]
    exact congrArg (· <$> S3.Settings.ofView view) (funext S3.values_hidden)
  | abfs =>
    rw [typed, Functor.map_map, Functor.map_map, Functor.map_map, Functor.map_map]
    exact congrArg (· <$> Abfs.Settings.ofView view) (funext Abfs.values_hidden)

/-- Nothing that is shown of a typed value tells the runs apart. -/
theorem shown_readRow (alike : connector.AlikeButSecrets scope aliases left right)
    {row : TypedRow} (member : row ∈ connector.rows) :
    row.shown <$> (connector.seen scope aliases left).readRow row =
      row.shown <$> (connector.seen scope aliases right).readRow row := by
  have settingMember := setting_mem_of_row member
  cases isSecret : row.setting.secret with
  | false => exact congrArg _ (readRow_congr rfl (find_plain alike settingMember isSecret))
  | true =>
    obtain ⟨setting, kind⟩ := row
    obtain rfl : kind = .text := connector.kind_of_secret _ member isSecret
    rw [shown_readRow_text isSecret, shown_readRow_text isSecret, shown_find alike settingMember]

end

/-- The typed settings with the placeholder in place of every secret are the same in both runs. -/
theorem hidden_typed {connector : Connector} {scope : Option String} {aliases : List String}
    {left right : Inputs} (alike : connector.AlikeButSecrets scope aliases left right) :
    TypedSettings.hidden <$> connector.typed (connector.seen scope aliases left) =
      TypedSettings.hidden <$> connector.typed (connector.seen scope aliases right) := by
  refine TypedSettings.eq_of_values ?_ ?_
  · intro hidden other given otherGiven
    obtain ⟨settings, typed, rfl⟩ := map_eq_ok_iff.mp given
    obtain ⟨others, otherTyped, rfl⟩ := map_eq_ok_iff.mp otherGiven
    rw [TypedSettings.scope_hidden, TypedSettings.scope_hidden, scope_typed typed,
      scope_typed otherTyped]
    rfl
  · rw [values_hidden_typed, values_hidden_typed]
    exact mapM_congr fun row member => shown_readRow alike member

/-! ### Output -/

/-- A row of a report without secrets is made from what is shown of the lookup. -/
theorem row_ofFound_shown (view : View) (setting : Setting) (found : Option Found) :
    Report.Row.ofFound view false setting found =
      Report.Row.ofFound view true setting (found.map (shown setting)) := by
  cases found with
  | none => rfl
  | some found =>
    simp only [Report.Row.ofFound, Option.map_some, shown, Report.shownValue, Bool.not_true,
      Bool.and_false, Bool.false_eq_true, if_false]

theorem report_eq {connector : Connector} {scope : Option String} {aliases : List String}
    {left right : Inputs} (alike : connector.AlikeButSecrets scope aliases left right) :
    Report.ofView connector (connector.seen scope aliases left) false =
      Report.ofView connector (connector.seen scope aliases right) false := by
  have rows (setting : Setting) (member : setting ∈ connector.settings) :
      Report.Row.ofFound (connector.seen scope aliases left) false setting <$>
          (connector.seen scope aliases left).find setting =
        Report.Row.ofFound (connector.seen scope aliases right) false setting <$>
          (connector.seen scope aliases right).find setting := by
    have made := congrArg
      (Report.Row.ofFound (connector.seen scope aliases left) true setting <$> ·)
      (shown_find alike member)
    simp only [Functor.map_map, ← row_ofFound_shown] at made
    exact made
  rw [Report.ofView_eq_mapM, Report.ofView_eq_mapM]
  exact congrArg _ (mapM_congr rows)

/-- Secrets are not seen in the output. Two runs that are alike but for their secrets pass or fail
the check of the settings alike, give the same report and the same text of it, with colour and
without, and the same descriptions of the typed settings and of their credentials. -/
theorem secrets_unseen (connector : Connector) (scope : Option String) (aliases : List String)
    (left right : Inputs) (alike : connector.AlikeButSecrets scope aliases left right) :
    let seen := connector.seen scope aliases
    connector.validate (seen left) = connector.validate (seen right) ∧
    Report.ofView connector (seen left) false = Report.ofView connector (seen right) false ∧
    (∀ format color,
      (fun report => report.render format color) <$> Report.ofView connector (seen left) false =
        (fun report => report.render format color) <$>
          Report.ofView connector (seen right) false) ∧
    TypedSettings.describe <$> connector.typed (seen left) =
      TypedSettings.describe <$> connector.typed (seen right) ∧
    TypedSettings.describeCredentials <$> connector.typed (seen left) =
      TypedSettings.describeCredentials <$> connector.typed (seen right) := by
  intro seen
  have hidden := hidden_typed alike
  -- Whatever the settings without their secrets decide is the same in both runs.
  have same {α : Type} {output : TypedSettings → α}
      (blind : ∀ settings, output settings.hidden = output settings) :
      output <$> connector.typed (seen left) = output <$> connector.typed (seen right) := by
    have outputs := congrArg (output <$> ·) hidden
    simp only [Functor.map_map, blind] at outputs
    exact outputs
  refine ⟨?_, report_eq alike, fun format color => ?_, ?_, ?_⟩
  · rw [validate_eq_typed, validate_eq_typed]
    exact same fun _ => rfl
  · rw [report_eq alike]
  · exact same TypedSettings.describe_hidden
  · exact same TypedSettings.describeCredentials_hidden

/-- Overwriting a secret of the map and one of the environment gives an alike run. -/
theorem alike_of_overwritten {connector : Connector} {scope : Option String}
    {aliases : List String} {map : SettingsMap} {bindings : Variables} {key name : String}
    {bytes : Utf8.Bytes} (value : String) (heldKey : key ∈ map.keys)
    (heldName : name ∈ Entries.names bindings)
    (secretKey : (connector.seen scope aliases ⟨map, .captured bindings⟩).SecretKey key)
    (secretName : (connector.seen scope aliases ⟨map, .captured bindings⟩).SecretVariable name)
    (texts : ∀ binding ∈ bindings, Utf8.isValid binding.2 = true)
    (valid : Utf8.isValid bytes = true) :
    connector.AlikeButSecrets scope aliases ⟨map, .captured bindings⟩
      ⟨map.insert key value, Environment.set (.captured bindings) name bytes⟩ := by
  have overwritten (other : String) :
      (Environment.set (.captured bindings) name bytes).bytes? other =
        if name = other then some bytes else Entries.lookup? other bindings :=
    Entries.lookup?_write name other bytes bindings
  have valid_lookup (other : String) (found : Utf8.Bytes)
      (given : Entries.lookup? other bindings = some found) : Utf8.isValid found = true :=
    texts _ (Entries.mem_of_lookup? given)
  constructor
  · intro other
    rw [SettingsMap.keys_insert, if_pos heldKey]
  · intro other plain
    have differs : key ≠ other := fun same => plain (same ▸ secretKey)
    rw [SettingsMap.get?_insert, if_neg differs]
  · intro other
    unfold Environment.isSet
    rw [overwritten]
    by_cases same : name = other
    · subst same
      obtain ⟨found, given⟩ := Option.ne_none_iff_exists'.mp fun absent =>
        (Entries.lookup?_eq_none_iff name bindings).mp absent heldName
      rw [if_pos rfl, show (Environment.captured bindings).bytes? name = some found from given]
      rfl
    · rw [if_neg same]
      rfl
  · intro other plain
    have differs : name ≠ other := fun same => plain (same ▸ secretName)
    rw [overwritten, if_neg differs]
    rfl
  · intro other found _ given
    exact valid_lookup other found given
  · intro other found _ given
    rw [overwritten] at given
    by_cases same : name = other
    · rw [if_pos same] at given
      exact Option.some.inj given ▸ valid
    · rw [if_neg same] at given
      exact valid_lookup other found given

/-- A key and a client's secret are changed. Among the ecosystem names is the empty text, so that
keys of the map stand for themselves twice. -/
theorem secrets_unseen_overwritten :
    let key := "fs.azure.account.key.logs.dfs.core.windows.net"
    let map := SettingsMap.ofList [(key, "one"), ("fs.azure.account.oauth2.client.id", "id"),
      ("fs.azure.account.oauth2.client.endpoint", "https://login")]
    let bindings : Variables := [("AZURE_CLIENT_SECRET", [0x61])]
    let left : Inputs := ⟨map, .captured bindings⟩
    let right : Inputs :=
      ⟨map.insert key "two", Environment.set (.captured bindings) "AZURE_CLIENT_SECRET" [0x62]⟩
    let seen := Connector.abfs.seen (some "logs") ["", "spark.hadoop."]
    Connector.abfs.AlikeButSecrets (some "logs") ["", "spark.hadoop."] left right ∧
      Connector.abfs.typed (seen left) ≠ Connector.abfs.typed (seen right) ∧
      TypedSettings.describeCredentials <$> Connector.abfs.typed (seen left) =
        TypedSettings.describeCredentials <$> Connector.abfs.typed (seen right) := by
  intro key map bindings left right seen
  have alike : Connector.abfs.AlikeButSecrets (some "logs") ["", "spark.hadoop."] left right :=
    alike_of_overwritten "two" (by decide) (by decide)
      ⟨Abfs.accountKey, by decide, rfl, (key, .scopedAlias key), by decide, rfl⟩
      ⟨Abfs.clientSecret, by decide, rfl, rfl⟩ (by decide +kernel) (by decide +kernel)
  refine ⟨alike, ?_, (secrets_unseen .abfs (some "logs") ["", "spark.hadoop."] left right
    alike).2.2.2.2⟩
  decide +kernel

end Connector

end ConnectorSettings
