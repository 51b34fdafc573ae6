/-
This file relates the typed settings of a connector to its table. The typed settings are built field
by field, each field with a type of its own; the table lists the same settings as rows. Here every
row gets the type its setting is read as, and building the typed settings is shown to be one pass
over the rows: it succeeds when every row can be read, its fields are the values of the rows in
their order, and otherwise its error is that of the first row that cannot be read.

What is proved about a pass over rows then holds of both connectors at once.
-/

import ConnectorSettings.Connector
import ConnectorSettings.Proofs.Passes
import Mathlib.Data.List.Nodup

namespace ConnectorSettings

/-! ### Types of settings -/

/-- The types that settings are read as. -/
inductive Kind where
  | text
  | flag
  | integer
  | duration
  | retryMode
  | authType
  deriving DecidableEq, Repr

/-- A value of one of these types. -/
inductive TypedValue where
  | text (value : String)
  | flag (value : Bool)
  | integer (value : BoundedInt .signed32)
  | duration (value : DurationText)
  | retryMode (value : S3.RetryMode)
  | authType (value : Abfs.AuthType)
  deriving DecidableEq

namespace Kind

def expected : Kind → String
  | text => Readable.expected String
  | flag => Readable.expected Bool
  | integer => Readable.expected (BoundedInt .signed32)
  | duration => Readable.expected DurationText
  | retryMode => Readable.expected S3.RetryMode
  | authType => Readable.expected Abfs.AuthType

def read? : Kind → String → Option TypedValue
  | text, written => (Readable.read? written).map .text
  | flag, written => (Readable.read? written).map .flag
  | integer, written => (Readable.read? written).map .integer
  | duration, written => (Readable.read? written).map .duration
  | retryMode, written => (Readable.read? written).map .retryMode
  | authType, written => (Readable.read? written).map .authType

/-- Reads the text found under `key`. -/
def readValue (kind : Kind) (key written : String) : Except SettingError TypedValue :=
  match kind.read? written with
  | some value => .ok value
  | none => .error (.malformed key written kind.expected)

/-- The kind reads texts as the type does, up to the constructor that wraps the values. -/
structure Reads (kind : Kind) (α : Type) [Readable α] (wrap : α → TypedValue) : Prop where
  expected_eq : kind.expected = Readable.expected α
  read?_eq : ∀ written, kind.read? written = (Readable.read? written : Option α).map wrap

theorem Reads.readValue_eq {kind : Kind} {α : Type} [Readable α] {wrap : α → TypedValue}
    (reads : kind.Reads α wrap) (key written : String) :
    kind.readValue key written = wrap <$> ConnectorSettings.readValue α key written := by
  unfold readValue ConnectorSettings.readValue
  rw [reads.read?_eq, reads.expected_eq]
  cases (Readable.read? written : Option α) <;> rfl

theorem reads_text : text.Reads String .text := ⟨rfl, fun _ => rfl⟩

theorem reads_flag : flag.Reads Bool .flag := ⟨rfl, fun _ => rfl⟩

theorem reads_integer : integer.Reads (BoundedInt .signed32) .integer := ⟨rfl, fun _ => rfl⟩

theorem reads_duration : duration.Reads DurationText .duration := ⟨rfl, fun _ => rfl⟩

theorem reads_retryMode : retryMode.Reads S3.RetryMode .retryMode := ⟨rfl, fun _ => rfl⟩

theorem reads_authType : authType.Reads Abfs.AuthType .authType := ⟨rfl, fun _ => rfl⟩

end Kind

/-- A row of a table with the type its setting is read as. -/
structure TypedRow where
  setting : Setting
  kind : Kind
  deriving DecidableEq

namespace View

/-- The typed value of a row, which may be unset. -/
def readRow (view : View) (row : TypedRow) : Except SettingError (Option TypedValue) := do
  match ← view.find row.setting with
  | none => return none
  | some found =>
    let key := found.origin.name?.getD (view.layout.key row.setting.suffix)
    return some (← row.kind.readValue key found.value)

/-- The key that an error about a found value names. -/
def foundKey (view : View) (setting : Setting) (found : Found) : String :=
  found.origin.name?.getD (view.layout.key setting.suffix)

theorem readRow_of_found {view : View} {row : TypedRow} {found : Found}
    (outcome : view.find row.setting = .ok (some found)) :
    view.readRow row =
      some <$> row.kind.readValue (view.foundKey row.setting found) found.value := by
  unfold readRow
  rw [outcome]
  rfl

theorem readRow_of_unset {view : View} {row : TypedRow}
    (outcome : view.find row.setting = .ok none) : view.readRow row = .ok none := by
  unfold readRow
  rw [outcome]
  rfl

theorem readRow_of_error {view : View} {row : TypedRow} {error : SettingError}
    (outcome : view.find row.setting = .error error) : view.readRow row = .error error := by
  unfold readRow
  rw [outcome]
  rfl

theorem readRow_congr {left right : View} {row : TypedRow} (sameLayout : left.layout = right.layout)
    (same : left.find row.setting = right.find row.setting) :
    left.readRow row = right.readRow row := by
  unfold readRow
  rw [same, sameLayout]

theorem readRow_eq_read (view : View) {kind : Kind} {α : Type} [Readable α]
    {wrap : α → TypedValue} (reads : kind.Reads α wrap) (setting : Setting) :
    view.readRow ⟨setting, kind⟩ = Option.map wrap <$> view.read α setting := by
  unfold read
  cases outcome : view.find setting with
  | error _ => exact readRow_of_error outcome
  | ok found =>
    cases found with
    | none => exact readRow_of_unset outcome
    | some found =>
      rw [readRow_of_found outcome, reads.readValue_eq]
      show _ = Option.map wrap <$> (some <$> readValue α (view.foundKey setting found) found.value)
      cases readValue α (view.foundKey setting found) found.value <;> rfl

/-- A setting with a fallback is never unset. -/
theorem find_ne_ok_none {view : View} {setting : Setting} {fallback : String}
    (given : setting.fallback = some fallback) : view.find setting ≠ .ok none := by
  have found : view.findInMap setting ≠ none := by
    unfold findInMap
    cases firstPresent view.map (view.candidates setting) <;> simp [given]
  unfold find
  cases setting.variableName with
  | none => exact fun none => found (Except.ok.inj none)
  | some name =>
    cases reading : view.environment.read name <;> simp [reading, found]

/-- So the row of such a setting holds a value whenever it can be read. -/
theorem readRow_eq_demand (view : View) {kind : Kind} {α : Type} [Readable α]
    {wrap : α → TypedValue} (reads : kind.Reads α wrap) (setting : Setting) {fallback : String}
    (given : setting.fallback = some fallback) :
    view.readRow ⟨setting, kind⟩ = (fun value => some (wrap value)) <$> view.demand α setting := by
  rw [readRow_eq_read view reads]
  unfold demand read
  cases outcome : view.find setting with
  | error _ => rfl
  | ok found =>
    cases found with
    | none => exact absurd outcome (find_ne_ok_none given)
    | some found =>
      show Option.map wrap <$> (some <$> readValue α (view.foundKey setting found) found.value) =
        (fun value => some (wrap value)) <$>
          ((some <$> readValue α (view.foundKey setting found) found.value) >>= _)
      cases readValue α (view.foundKey setting found) found.value <;> rfl

end View

/-! ### S3 -/

namespace S3

/-- The table with its types. -/
def rows : List TypedRow :=
  [⟨accessKey, .text⟩, ⟨secretKey, .text⟩, ⟨sessionToken, .text⟩, ⟨endpoint, .text⟩,
    ⟨endpointRegion, .text⟩, ⟨useSsl, .flag⟩, ⟨pathStyleAccess, .flag⟩, ⟨maxAttempts, .integer⟩,
    ⟨retryMode, .retryMode⟩, ⟨maxConnections, .integer⟩, ⟨connectTimeout, .duration⟩,
    ⟨useInstanceCredentials, .flag⟩, ⟨iamRole, .text⟩, ⟨iamRoleSessionName, .text⟩,
    ⟨useProxyFromEnvironment, .flag⟩, ⟨credentialsProvider, .text⟩]

/-- The fields in the order of the table. -/
def Settings.values (settings : Settings) : List (Option TypedValue) :=
  [settings.accessKey.map .text, settings.secretKey.map .text, settings.sessionToken.map .text,
    some (.text settings.endpoint), settings.endpointRegion.map .text,
    some (.flag settings.useSsl), some (.flag settings.pathStyleAccess),
    settings.maxAttempts.map .integer, some (.retryMode settings.retryMode),
    some (.integer settings.maxConnections), some (.duration settings.connectTimeout),
    some (.flag settings.useInstanceCredentials), settings.iamRole.map .text,
    some (.text settings.iamRoleSessionName), some (.flag settings.useProxyFromEnvironment),
    settings.credentialsProvider.map .text]

theorem values_ofView (view : View) :
    Settings.values <$> Settings.ofView view = rows.mapM view.readRow := by
  unfold Settings.ofView rows
  simp only [List.mapM_cons, List.mapM_nil]
  rw [view.readRow_eq_read Kind.reads_text accessKey,
    view.readRow_eq_read Kind.reads_text secretKey,
    view.readRow_eq_read Kind.reads_text sessionToken,
    view.readRow_eq_demand Kind.reads_text endpoint rfl,
    view.readRow_eq_read Kind.reads_text endpointRegion,
    view.readRow_eq_demand Kind.reads_flag useSsl rfl,
    view.readRow_eq_demand Kind.reads_flag pathStyleAccess rfl,
    view.readRow_eq_read Kind.reads_integer maxAttempts,
    view.readRow_eq_demand Kind.reads_retryMode retryMode rfl,
    view.readRow_eq_demand Kind.reads_integer maxConnections rfl,
    view.readRow_eq_demand Kind.reads_duration connectTimeout rfl,
    view.readRow_eq_demand Kind.reads_flag useInstanceCredentials rfl,
    view.readRow_eq_read Kind.reads_text iamRole,
    view.readRow_eq_demand Kind.reads_text iamRoleSessionName rfl,
    view.readRow_eq_demand Kind.reads_flag useProxyFromEnvironment rfl,
    view.readRow_eq_read Kind.reads_text credentialsProvider]
  simp only [map_bind, map_pure, bind_map_left, bind_assoc, pure_bind]
  rfl

/-- The scope of the settings is that of the view. -/
theorem bucket_ofView (view : View) :
    Settings.bucket <$> Settings.ofView view =
      (fun _ => view.scope) <$> Settings.ofView view := by
  unfold Settings.ofView
  simp only [map_bind, map_pure]

theorem values_injective {left right : Settings} (scope : left.bucket = right.bucket)
    (same : left.values = right.values) : left = right := by
  have texts {written other : Option String} :
      written.map TypedValue.text = other.map .text ↔ written = other :=
    Option.map_inj_right fun _ _ => TypedValue.text.inj
  have integers {written other : Option (BoundedInt .signed32)} :
      written.map TypedValue.integer = other.map .integer ↔ written = other :=
    Option.map_inj_right fun _ _ => TypedValue.integer.inj
  cases left
  cases right
  simp only [Settings.values, List.cons.injEq, Option.some.injEq, TypedValue.text.injEq,
    TypedValue.flag.injEq, TypedValue.integer.injEq, TypedValue.duration.injEq,
    TypedValue.retryMode.injEq, texts, integers, and_true] at same
  exact (Settings.mk.injEq ..).mpr ⟨scope, same⟩

end S3

/-! ### ABFS -/

namespace Abfs

/-- The table with its types. -/
def rows : List TypedRow :=
  [⟨authType, .authType⟩, ⟨accountKey, .text⟩, ⟨sasToken, .text⟩, ⟨clientId, .text⟩,
    ⟨clientSecret, .text⟩, ⟨clientEndpoint, .text⟩, ⟨endpointSuffix, .text⟩,
    ⟨maxRetries, .integer⟩]

/-- The fields in the order of the table. -/
def Settings.values (settings : Settings) : List (Option TypedValue) :=
  [some (.authType settings.authType), settings.accountKey.map .text,
    settings.sasToken.map .text, settings.clientId.map .text, settings.clientSecret.map .text,
    settings.clientEndpoint.map .text, some (.text settings.endpointSuffix),
    some (.integer settings.maxRetries)]

theorem values_ofView (view : View) :
    Settings.values <$> Settings.ofView view = rows.mapM view.readRow := by
  unfold Settings.ofView rows
  simp only [List.mapM_cons, List.mapM_nil]
  rw [view.readRow_eq_demand Kind.reads_authType authType rfl,
    view.readRow_eq_read Kind.reads_text accountKey,
    view.readRow_eq_read Kind.reads_text sasToken,
    view.readRow_eq_read Kind.reads_text clientId,
    view.readRow_eq_read Kind.reads_text clientSecret,
    view.readRow_eq_read Kind.reads_text clientEndpoint,
    view.readRow_eq_demand Kind.reads_text endpointSuffix rfl,
    view.readRow_eq_demand Kind.reads_integer maxRetries rfl]
  simp only [map_bind, map_pure, bind_map_left, bind_assoc, pure_bind]
  rfl

theorem account_ofView (view : View) :
    Settings.account <$> Settings.ofView view =
      (fun _ => view.scope) <$> Settings.ofView view := by
  unfold Settings.ofView
  simp only [map_bind, map_pure]

theorem values_injective {left right : Settings} (scope : left.account = right.account)
    (same : left.values = right.values) : left = right := by
  have texts {written other : Option String} :
      written.map TypedValue.text = other.map .text ↔ written = other :=
    Option.map_inj_right fun _ _ => TypedValue.text.inj
  cases left
  cases right
  simp only [Settings.values, List.cons.injEq, Option.some.injEq, TypedValue.text.injEq,
    TypedValue.integer.injEq, TypedValue.authType.injEq, texts, and_true] at same
  exact (Settings.mk.injEq ..).mpr ⟨scope, same⟩

end Abfs

/-! ### Both connectors -/

/-- The typed settings of one connector or the other. -/
inductive TypedSettings where
  | s3 (settings : S3.Settings)
  | abfs (settings : Abfs.Settings)
  deriving DecidableEq

namespace TypedSettings

def values : TypedSettings → List (Option TypedValue)
  | s3 settings => settings.values
  | abfs settings => settings.values

def scope : TypedSettings → Option String
  | s3 settings => settings.bucket
  | abfs settings => settings.account

theorem values_injective {left right : TypedSettings} (sameScope : left.scope = right.scope)
    (same : left.values = right.values) : left = right := by
  cases left with
  | s3 left =>
    cases right with
    | s3 right => exact congrArg s3 (S3.values_injective sameScope same)
    | abfs right =>
      have lengths : (16 : Nat) = 8 := congrArg List.length same
      exact absurd lengths (by decide)
  | abfs left =>
    cases right with
    | s3 right =>
      have lengths : (8 : Nat) = 16 := congrArg List.length same
      exact absurd lengths (by decide)
    | abfs right => exact congrArg abfs (Abfs.values_injective sameScope same)

/-- Outcomes with the same fields under one scope are the same. -/
theorem eq_of_values {left right : Except SettingError TypedSettings}
    (sameScope : ∀ settings other, left = .ok settings → right = .ok other →
      settings.scope = other.scope)
    (same : values <$> left = values <$> right) : left = right := by
  cases left with
  | error error =>
    cases right with
    | error other => exact congrArg Except.error (Except.error.inj same)
    | ok other => cases same
  | ok settings =>
    cases right with
    | error error => cases same
    | ok other =>
      exact congrArg Except.ok (values_injective (sameScope settings other rfl rfl)
        (Except.ok.inj same))

end TypedSettings

namespace Connector

def rows : Connector → List TypedRow
  | .s3 => S3.rows
  | .abfs => Abfs.rows

theorem rows_settings (connector : Connector) :
    connector.rows.map TypedRow.setting = connector.settings := by
  cases connector <;> rfl

theorem setting_mem_of_row {connector : Connector} {row : TypedRow}
    (member : row ∈ connector.rows) : row.setting ∈ connector.settings :=
  connector.rows_settings ▸ List.mem_map_of_mem member

theorem row_of_setting {connector : Connector} {left right : TypedRow}
    (leftMember : left ∈ connector.rows) (rightMember : right ∈ connector.rows)
    (same : left.setting = right.setting) : left = right := by
  have distinct : (connector.rows.map TypedRow.setting).Nodup := by cases connector <;> decide
  exact List.inj_on_of_nodup_map distinct leftMember rightMember same

/-- The typed settings that a view finds. -/
def typed : Connector → View → Except SettingError TypedSettings
  | .s3, view => .s3 <$> S3.Settings.ofView view
  | .abfs, view => .abfs <$> Abfs.Settings.ofView view

/-- Checking the settings is building them and forgetting them. -/
theorem validate_eq_typed (connector : Connector) (view : View) :
    connector.validate view = (fun _ => ()) <$> connector.typed view := by
  cases connector with
  | s3 => rw [typed, Functor.map_map]; rfl
  | abfs => rw [typed, Functor.map_map]; rfl

/-- The typed settings of a map for one scope, under the default ecosystem names. -/
def resolve (connector : Connector) (map : SettingsMap) (scope : Option String)
    (environment : Environment) : Except SettingError TypedSettings :=
  connector.typed ((connector.view map environment).withScope scope)

theorem values_typed (connector : Connector) (view : View) :
    TypedSettings.values <$> connector.typed view = connector.rows.mapM view.readRow := by
  cases connector with
  | s3 =>
    rw [rows, ← S3.values_ofView, typed, Functor.map_map]
    rfl
  | abfs =>
    rw [rows, ← Abfs.values_ofView, typed, Functor.map_map]
    rfl

theorem scope_typed {connector : Connector} {view : View} {settings : TypedSettings}
    (given : connector.typed view = .ok settings) : settings.scope = view.scope := by
  have same : TypedSettings.scope <$> connector.typed view =
      (fun _ => view.scope) <$> connector.typed view := by
    cases connector with
    | s3 =>
      rw [typed, Functor.map_map, Functor.map_map]
      exact S3.bucket_ofView view
    | abfs =>
      rw [typed, Functor.map_map, Functor.map_map]
      exact Abfs.account_ofView view
  rw [given] at same
  exact Except.ok.inj same

/-- Views of one scope whose rows read the same give the same typed settings, or the same error. -/
theorem typed_congr {connector : Connector} {left right : View}
    (sameScope : left.scope = right.scope)
    (same : ∀ row ∈ connector.rows, left.readRow row = right.readRow row) :
    connector.typed left = connector.typed right := by
  refine TypedSettings.eq_of_values (fun settings other given otherGiven => ?_) ?_
  · rw [scope_typed given, scope_typed otherGiven, sameScope]
  · rw [values_typed, values_typed]
    exact mapM_congr same

end Connector

end ConnectorSettings
