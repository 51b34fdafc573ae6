/-
This file proves that checking the settings of a connector and reporting them agree. The check
builds the typed settings field by field; the report goes over the table and reads no types. Still
the check passes exactly if every value that a report would show is a text of its setting's type,
and the typed fields are then what these texts are read as.

Where the check fails, it does so at the first row of the table that cannot be read, and says why:
a variable holds no text, or the text of the variable or key that decides is not of the type. It is
never about a fallback, because every fallback of the tables is a text of its setting's type, and it
never misses a value, because a setting that has to have one has a fallback.
-/

import ConnectorSettings.Proofs.Precedence
import ConnectorSettings.Proofs.Readings
import ConnectorSettings.Report

namespace ConnectorSettings

/-! ### Where a found value comes from -/

namespace View

/-- The key decides a setting: no variable does, no key of higher precedence is present, and this
one holds the text. -/
def Decides (view : View) (setting : Setting) (key value : String) : Prop :=
  Silent view.environment setting ∧
    ∃ before origin after, view.candidates setting = before ++ (key, origin) :: after ∧
      (∀ candidate ∈ before, view.map.get? candidate.1 = none) ∧ view.map.get? key = some value

/-- How a lookup comes out. -/
inductive Looked (view : View) (setting : Setting) : Except SettingError (Option Found) → Prop
  | undecodable {name : String} {bytes : Utf8.Bytes} (named : setting.variableName = some name)
      (held : view.environment.bytes? name = some bytes) (noText : Utf8.decode? bytes = none) :
      Looked view setting (.error (.malformed name (Utf8.decodeLossy bytes) "UTF-8 string"))
  | fromVariable {name value : String} (named : setting.variableName = some name)
      (present : view.environment.read name = .present value) :
      Looked view setting (.ok (some ⟨Text.trimmed value, .environment name⟩))
  | fromKey {key value : String} {origin : Origin} (decides : view.Decides setting key value)
      (named : origin.name? = some key) :
      Looked view setting (.ok (some ⟨Text.trimmed value, origin⟩))
  | fromFallback (silent : Silent view.environment setting) :
      Looked view setting (.ok (setting.fallback.map fun text => ⟨text, .fallback⟩))

/-- The origin of a candidate names the candidate's key. -/
theorem name?_of_mem_candidates {view : View} {setting : Setting} {candidate : String × Origin}
    (member : candidate ∈ view.candidates setting) : candidate.2.name? = some candidate.1 := by
  have ofBlock : ∀ {key : String} {forwarded direct : String → Origin},
      (∀ key, (forwarded key).name? = some key) → (∀ key, (direct key).name? = some key) →
        candidate ∈ block view.aliases key forwarded direct →
          candidate.2.name? = some candidate.1 := by
    intro key forwarded direct forwardedNames directNames member
    rcases mem_block_iff.mp member with ⟨ecosystem, -, rfl⟩ | rfl
    · exact forwardedNames _
    · exact directNames _
  rcases List.mem_append.mp member with narrow | wide
  · unfold scopedCandidates at narrow
    cases placed : view.scope with
    | none =>
      rw [placed] at narrow
      cases narrow
    | some scope =>
      rw [placed] at narrow
      exact ofBlock (fun _ => rfl) (fun _ => rfl) narrow
  · exact ofBlock (fun _ => rfl) (fun _ => rfl) wide

theorem undecodable_of_read {environment : Environment} {name : String} {bytes : Utf8.Bytes}
    (reading : environment.read name = .undecodable bytes) :
    environment.bytes? name = some bytes ∧ Utf8.decode? bytes = none := by
  unfold Environment.read at reading
  cases held : environment.bytes? name with
  | none =>
    rw [held] at reading
    cases reading
  | some found =>
    cases decoded : Utf8.decode? found with
    | some value =>
      simp only [held, decoded] at reading
      cases reading
    | none =>
      simp only [held, decoded] at reading
      cases reading
      exact ⟨rfl, decoded⟩

theorem looked_find (view : View) (setting : Setting) :
    view.Looked setting (view.find setting) := by
  have looked (silent : Silent view.environment setting) :
      view.Looked setting (.ok (view.findInMap setting)) := by
    rw [findInMap_eq_or]
    have yields := yields_of_firstPresent view.map setting.fallback (view.candidates setting)
    generalize (firstPresent view.map (view.candidates setting)).or _ = result at yields ⊢
    cases yields with
    | key before split skipped present =>
      refine .fromKey ⟨silent, before, _, _, split, skipped, present⟩ ?_
      exact name?_of_mem_candidates (split ▸ List.mem_append_right _ List.mem_cons_self)
    | fallback absent => exact .fromFallback silent
  unfold find
  cases named : setting.variableName with
  | none => exact looked fun name other => by rw [named] at other; cases other
  | some name =>
    cases reading : view.environment.read name with
    | present value => simpa only [reading] using Looked.fromVariable named reading
    | undecodable bytes =>
      obtain ⟨held, noText⟩ := undecodable_of_read reading
      simpa only [reading] using Looked.undecodable named held noText
    | absent =>
      simp only [reading]
      refine looked fun other same => ?_
      obtain rfl := Option.some.inj (named.symm.trans same)
      exact reading

theorem find_of_decides {view : View} {setting : Setting} {key value : String}
    (decides : view.Decides setting key value) :
    ∃ origin, origin.name? = some key ∧
      view.find setting = .ok (some ⟨Text.trimmed value, origin⟩) := by
  obtain ⟨silent, before, origin, after, split, skipped, present⟩ := decides
  refine ⟨origin, ?_, ?_⟩
  · exact name?_of_mem_candidates (split ▸ List.mem_append_right _ List.mem_cons_self)
  · rw [find_eq_underVariable, findInMap_eq_or, split,
      firstPresent_of_present view.map origin after skipped present]
    exact underVariable_of_silent silent _

/-! ### Rows that can be read -/

/-- The lookup of a row succeeds, and what it finds, if anything, is a text of the row's type. -/
def Passes (view : View) (row : TypedRow) : Prop :=
  ∃ found, view.find row.setting = .ok found ∧
    ∀ result, found = some result → (row.kind.read? result.value).isSome

/-- Why a row cannot be read. -/
inductive Refused (view : View) (row : TypedRow) : SettingError → Prop
  | undecodable {name : String} {bytes : Utf8.Bytes}
      (named : row.setting.variableName = some name)
      (held : view.environment.bytes? name = some bytes) (noText : Utf8.decode? bytes = none) :
      Refused view row (.malformed name (Utf8.decodeLossy bytes) "UTF-8 string")
  | fromVariable {name value : String} (named : row.setting.variableName = some name)
      (present : view.environment.read name = .present value)
      (unread : row.kind.read? (Text.trimmed value) = none) :
      Refused view row (.malformed name (Text.trimmed value) row.kind.expected)
  | fromKey {key value : String} (decides : view.Decides row.setting key value)
      (unread : row.kind.read? (Text.trimmed value) = none) :
      Refused view row (.malformed key (Text.trimmed value) row.kind.expected)

theorem exists_readRow_iff (view : View) (row : TypedRow) :
    (∃ value, view.readRow row = .ok value) ↔ view.Passes row := by
  unfold Passes
  cases outcome : view.find row.setting with
  | error error =>
    rw [readRow_of_error outcome]
    exact ⟨fun ⟨_, passed⟩ => (nomatch passed), fun ⟨_, passed, _⟩ => (nomatch passed)⟩
  | ok found =>
    cases found with
    | none =>
      rw [readRow_of_unset outcome]
      exact ⟨fun _ => ⟨none, rfl, nofun⟩, fun _ => ⟨none, rfl⟩⟩
    | some found =>
      rw [readRow_of_found outcome, Kind.readValue]
      cases read : row.kind.read? found.value with
      | none =>
        refine ⟨fun ⟨_, passed⟩ => (nomatch passed), fun ⟨_, same, readable⟩ => ?_⟩
        have text := readable found (Except.ok.inj same).symm
        rw [read] at text
        cases text
      | some value =>
        refine ⟨fun _ => ⟨some found, rfl, ?_⟩, fun _ => ⟨some value, rfl⟩⟩
        rintro _ ⟨⟩
        rw [read]
        rfl

theorem readRow_eq_error_of_found {view : View} {row : TypedRow} {found : Found}
    (outcome : view.find row.setting = .ok (some found))
    {key : String} (named : found.origin.name? = some key) {error : SettingError} :
    view.readRow row = .error error ↔ row.kind.read? found.value = none ∧
      error = .malformed key found.value row.kind.expected := by
  rw [readRow_of_found outcome, foundKey, named, Kind.readValue]
  cases read : row.kind.read? found.value with
  | some value => exact ⟨nofun, fun ⟨absent, _⟩ => nomatch absent⟩
  | none =>
    constructor
    · intro failed
      exact ⟨rfl, (Except.error.inj failed).symm⟩
    · rintro ⟨-, rfl⟩
      rfl

/-- A row whose fallback is a text of its type is refused for a variable or a key. -/
theorem readRow_eq_error_iff {view : View} {row : TypedRow}
    (sound : ∀ text, row.setting.fallback = some text → (row.kind.read? text).isSome)
    {error : SettingError} : view.readRow row = .error error ↔ view.Refused row error := by
  constructor
  · intro failed
    have looked := view.looked_find row.setting
    generalize outcome : view.find row.setting = result at looked
    cases looked with
    | undecodable named held noText =>
      rw [readRow_of_error outcome] at failed
      obtain rfl := Except.error.inj failed
      exact .undecodable named held noText
    | fromVariable named present =>
      obtain ⟨unread, rfl⟩ := (readRow_eq_error_of_found outcome rfl).mp failed
      exact .fromVariable named present unread
    | fromKey decides named =>
      obtain ⟨unread, rfl⟩ := (readRow_eq_error_of_found outcome named).mp failed
      exact .fromKey decides unread
    | fromFallback silent =>
      cases given : row.setting.fallback with
      | none =>
        rw [given] at outcome
        rw [readRow_of_unset outcome] at failed
        cases failed
      | some text =>
        rw [given] at outcome
        have readable := sound text given
        rw [readRow_of_found outcome, Kind.readValue] at failed
        obtain ⟨value, read⟩ := Option.isSome_iff_exists.mp readable
        simp only [read] at failed
        cases failed
  · intro refused
    cases refused with
    | undecodable named held noText =>
      exact readRow_of_error (find_of_undecodable named held noText)
    | fromVariable named present unread =>
      exact (readRow_eq_error_of_found (find_of_variable named present) rfl).mpr ⟨unread, rfl⟩
    | fromKey decides unread =>
      obtain ⟨origin, named, outcome⟩ := find_of_decides decides
      exact (readRow_eq_error_of_found outcome named).mpr ⟨unread, rfl⟩

end View

/-! ### A key read on its own -/

/-- The typed value at a key of a map. -/
def Kind.getAs (map : SettingsMap) (key : String) : Kind → Except SettingError (Option TypedValue)
  | .text => Option.map .text <$> map.getAs String key
  | .flag => Option.map .flag <$> map.getAs Bool key
  | .integer => Option.map .integer <$> map.getAs (BoundedInt .signed32) key
  | .duration => Option.map .duration <$> map.getAs DurationText key
  | .retryMode => Option.map .retryMode <$> map.getAs S3.RetryMode key
  | .authType => Option.map .authType <$> map.getAs Abfs.AuthType key

theorem Kind.Reads.map_getAs {kind : Kind} {α : Type} [Readable α] {wrap : α → TypedValue}
    (reads : kind.Reads α wrap) {map : SettingsMap} {key value : String}
    (present : map.get? key = some value) :
    Option.map wrap <$> map.getAs α key = some <$> kind.readValue key (Text.trimmed value) := by
  rw [reads.readValue_eq, SettingsMap.getAs]
  simp only [present]
  cases ConnectorSettings.readValue α key (Text.trimmed value) <;> rfl

theorem Kind.getAs_of_present (kind : Kind) {map : SettingsMap} {key value : String}
    (present : map.get? key = some value) :
    kind.getAs map key = some <$> kind.readValue key (Text.trimmed value) := by
  cases kind with
  | text => exact reads_text.map_getAs present
  | flag => exact reads_flag.map_getAs present
  | integer => exact reads_integer.map_getAs present
  | duration => exact reads_duration.map_getAs present
  | retryMode => exact reads_retryMode.map_getAs present
  | authType => exact reads_authType.map_getAs present

/-- Where a key decides, a row is refused for what reading the key on its own refuses. -/
theorem View.getAs_of_refused {view : View} {row : TypedRow} {key value : String}
    {error : SettingError} (decides : view.Decides row.setting key value)
    (refused : view.readRow row = .error error) : row.kind.getAs view.map key = .error error := by
  obtain ⟨origin, named, outcome⟩ := find_of_decides decides
  obtain ⟨unread, rfl⟩ := (readRow_eq_error_of_found outcome named).mp refused
  obtain ⟨-, -, -, -, -, -, present⟩ := decides
  rw [Kind.getAs_of_present row.kind present, Kind.readValue, unread]
  rfl

/-! ### Reports -/

/-- A report is one pass over the settings. -/
theorem Report.ofView_eq_mapM (connector : Connector) (view : View) (showSecrets : Bool) :
    Report.ofView connector view showSecrets =
      (fun rows => ⟨connector, view.scope, rows⟩) <$> view.settings.mapM fun setting =>
        Report.Row.ofFound view showSecrets setting <$> view.find setting := by
  have passes : (view.settings.mapM fun setting =>
        Report.Row.ofFound view showSecrets setting <$> view.find setting) =
      List.map (fun pair => Report.Row.ofFound view showSecrets pair.1 pair.2) <$>
        view.findAll := by
    rw [View.findAll, map_mapM]
    refine mapM_congr fun setting _ => ?_
    cases view.find setting <;> rfl
  rw [passes, Functor.map_map]
  rfl

/-- What the value of a report's row is read as, for a row of a type. -/
def TypedRow.reading (row : TypedRow) (shown : Report.Row) : Option (Option TypedValue) :=
  shown.value.map row.kind.read?

/-- A row that can be read is reported with the text it is read from. -/
theorem View.reading_ofFound {view : View} {row : TypedRow} (passes : view.Passes row) :
    row.reading <$> (Report.Row.ofFound view true row.setting <$> view.find row.setting) =
      Option.map some <$> view.readRow row := by
  obtain ⟨found, outcome, readable⟩ := passes
  cases found with
  | none =>
    rw [outcome, readRow_of_unset outcome]
    rfl
  | some found =>
    obtain ⟨value, read⟩ := Option.isSome_iff_exists.mp (readable found rfl)
    have shown : Report.shownValue true row.setting found.value = found.value := by
      simp only [Report.shownValue, Bool.not_true, Bool.and_false, Bool.false_eq_true, if_false]
    rw [outcome, readRow_of_found outcome, Kind.readValue, read]
    show Except.ok (some (row.kind.read? (Report.shownValue true row.setting found.value))) = _
    rw [shown, read]
    rfl

namespace Connector

open View

theorem fallback_sound (connector : Connector) : ∀ row ∈ connector.rows,
    ∀ text ∈ row.setting.fallback, (row.kind.read? text).isSome := by
  cases connector <;> decide

theorem validate_eq_ok_iff (connector : Connector) (view : View) :
    connector.validate view = .ok () ↔ ∀ row ∈ connector.rows, view.Passes row := by
  calc connector.validate view = .ok ()
      ↔ ∃ settings, connector.typed view = .ok settings := by
        rw [validate_eq_typed, map_eq_ok_iff]
        exact exists_congr fun settings => and_iff_left rfl
    _ ↔ ∃ values, connector.rows.mapM view.readRow = .ok values := by
        rw [← values_typed, exists_map_eq_ok_iff]
    _ ↔ ∀ row ∈ connector.rows, ∃ value, view.readRow row = .ok value := exists_mapM_ok_iff
    _ ↔ ∀ row ∈ connector.rows, view.Passes row :=
        forall₂_congr fun row _ => view.exists_readRow_iff row

theorem validate_eq_error_iff (connector : Connector) (view : View) (error : SettingError) :
    connector.validate view = .error error ↔ ∃ before row after,
      connector.rows = before ++ row :: after ∧ (∀ earlier ∈ before, view.Passes earlier) ∧
        view.Refused row error := by
  rw [validate_eq_typed, map_eq_error_iff, ← map_eq_error_iff (f := TypedSettings.values),
    values_typed, mapM_eq_error_iff]
  refine exists_congr fun before => exists_congr fun row => exists_congr fun after => ?_
  refine and_congr_right fun split => and_congr ?_ ?_
  · exact forall₂_congr fun earlier _ => view.exists_readRow_iff earlier
  · have member : row ∈ connector.rows := split ▸ List.mem_append_right _ List.mem_cons_self
    exact readRow_eq_error_iff (connector.fallback_sound row member)

/-- What a report's row takes from its setting alone follows the table. -/
theorem map_of_mapM_ofFound {view : View} {showSecrets : Bool} {settings : List Setting}
    {rows : List Report.Row} (passed : (settings.mapM fun setting =>
      Report.Row.ofFound view showSecrets setting <$> view.find setting) = .ok rows)
    {α : Type} (shown : Report.Row → α) (ofSetting : Setting → α)
    (agree : ∀ setting found,
      shown (Report.Row.ofFound view showSecrets setting found) = ofSetting setting) :
    rows.map shown = settings.map ofSetting := by
  have paired : List.Forall₂ (fun setting row => ofSetting setting = shown row) settings rows :=
    (mapM_eq_ok_iff.mp passed).imp fun setting row given => by
      obtain ⟨found, -, rfl⟩ := map_eq_ok_iff.mp given
      exact (agree setting found).symm
  have same : List.Forall₂ (· = ·) (settings.map ofSetting) (rows.map shown) :=
    List.forall₂_map_left_iff.mpr (List.forall₂_map_right_iff.mpr paired)
  exact (List.forall₂_eq_eq_eq ▸ same : _ = _).symm

/-- The names of a report's rows are those of the table. -/
theorem names_of_mapM_ofFound {view : View} {showSecrets : Bool} {settings : List Setting}
    {rows : List Report.Row} (passed : (settings.mapM fun setting =>
      Report.Row.ofFound view showSecrets setting <$> view.find setting) = .ok rows) :
    rows.map Report.Row.setting = settings.map Setting.name :=
  map_of_mapM_ofFound passed Report.Row.setting Setting.name fun _ _ => rfl

theorem exists_report_of_passes {connector : Connector} {view : View}
    (sameSettings : view.settings = connector.settings)
    (passes : ∀ row ∈ connector.rows, view.Passes row) (showSecrets : Bool) :
    ∃ report, Report.ofView connector view showSecrets = .ok report := by
  rw [Report.ofView_eq_mapM, exists_map_eq_ok_iff, exists_mapM_ok_iff, sameSettings,
    ← connector.rows_settings]
  intro setting member
  obtain ⟨row, rowMember, rfl⟩ := List.mem_map.mp member
  obtain ⟨found, outcome, -⟩ := passes row rowMember
  rw [outcome]
  exact ⟨_, rfl⟩

/-- Where all rows can be read, the rows of the report are read as the typed fields. -/
theorem report_of_passes {connector : Connector} {view : View}
    (sameSettings : view.settings = connector.settings)
    (passes : ∀ row ∈ connector.rows, view.Passes row) :
    ∃ settings report, connector.typed view = .ok settings ∧
      Report.ofView connector view true = .ok report ∧ report.scope = settings.scope ∧
      report.rows.map Report.Row.setting = connector.settings.map Setting.name ∧
      List.zipWith TypedRow.reading connector.rows report.rows =
        settings.values.map (Option.map some) := by
  have valid := (connector.validate_eq_ok_iff view).mpr passes
  rw [validate_eq_typed] at valid
  obtain ⟨settings, typed, -⟩ := map_eq_ok_iff.mp valid
  have readings : List.zipWith TypedRow.reading connector.rows <$>
      (connector.rows.mapM fun row =>
        Report.Row.ofFound view true row.setting <$> view.find row.setting) =
      .ok (settings.values.map (Option.map some)) := by
    rw [zipWith_mapM, mapM_congr fun row member => reading_ofFound (passes row member),
      ← map_mapM, ← values_typed, typed]
    rfl
  obtain ⟨rows, passed, read⟩ := map_eq_ok_iff.mp readings
  have pass : (view.settings.mapM fun setting =>
      Report.Row.ofFound view true setting <$> view.find setting) = .ok rows := by
    rw [sameSettings, ← connector.rows_settings, List.mapM_map]
    exact passed
  refine ⟨settings, ⟨connector, view.scope, rows⟩, typed, ?_, (scope_typed typed).symm,
    sameSettings ▸ names_of_mapM_ofFound pass, read⟩
  rw [Report.ofView_eq_mapM, pass]
  rfl

/-- The row of the path style says the opposite of whether the bucket goes into the host. -/
theorem pathStyle_of_readings {settings : S3.Settings} {rows : List Report.Row}
    (names : rows.map Report.Row.setting = Connector.s3.settings.map Setting.name)
    (readings : List.zipWith TypedRow.reading Connector.s3.rows rows =
      settings.values.map (Option.map some)) :
    ∃ shown ∈ rows, shown.setting = S3.pathStyleAccess.name ∧
      shown.value.map readBool? = some (some !settings.useVirtualAddressing) := by
  have named : rows[6]?.map Report.Row.setting = some S3.pathStyleAccess.name := by
    rw [← List.getElem?_map, names]
    rfl
  obtain ⟨shown, place, name⟩ := Option.map_eq_some_iff.mp named
  have zipped : (List.zipWith TypedRow.reading Connector.s3.rows rows)[6]? =
      some (some (some (.flag settings.pathStyleAccess))) := by
    rw [readings]
    rfl
  rw [List.getElem?_zipWith, place] at zipped
  have reading : shown.value.map Kind.flag.read? = some (some (.flag settings.pathStyleAccess)) :=
    Option.some.inj zipped
  obtain ⟨text, value, read⟩ := Option.map_eq_some_iff.mp reading
  obtain ⟨flag, readable, same⟩ := Option.map_eq_some_iff.mp read
  refine ⟨shown, List.mem_of_getElem? place, name, ?_⟩
  rw [value, Option.map_some, S3.Settings.useVirtualAddressing, Bool.not_not,
    ← TypedValue.flag.inj same]
  exact congrArg some readable

/-- Checking and reporting agree. The check passes exactly if every row of the table can be looked
up and the text that is found, if any, is of the row's type. Otherwise its error is that of the
first row of which this does not hold, and it is about the variable or the key that decides the row,
with the text found there; for a key it is the error of reading the key on its own. Where the check
passes there is a report, and the typed fields are what its rows are read as. -/
theorem validate_agrees_with_report (connector : Connector) (map : SettingsMap)
    (environment : Environment) (scope : Option String) (aliases : List String) :
    let view := ((connector.view map environment).withScope scope).withAliases aliases
    connector.rows.map TypedRow.setting = connector.settings ∧
    (connector.validate view = .ok () ↔ ∀ row ∈ connector.rows, view.Passes row) ∧
    (∀ error, connector.validate view = .error error ↔ ∃ before row after,
      connector.rows = before ++ row :: after ∧ (∀ earlier ∈ before, view.Passes earlier) ∧
        view.Refused row error) ∧
    (∀ row ∈ connector.rows, ∀ key value error, view.Decides row.setting key value →
      view.Refused row error → row.kind.getAs map key = .error error) ∧
    (connector.validate view = .ok () → ∀ showSecrets, ∃ report,
      Report.ofView connector view showSecrets = .ok report) ∧
    (connector.validate view = .ok () → ∃ settings report, connector.typed view = .ok settings ∧
      Report.ofView connector view true = .ok report ∧ report.scope = settings.scope ∧
      report.rows.map Report.Row.setting = connector.settings.map Setting.name ∧
      List.zipWith TypedRow.reading connector.rows report.rows =
        settings.values.map (Option.map some) ∧
      ∀ typed, settings = .s3 typed → ∃ shown ∈ report.rows,
        shown.setting = S3.pathStyleAccess.name ∧
          shown.value.map readBool? = some (some !typed.useVirtualAddressing)) := by
  intro view
  refine ⟨connector.rows_settings, connector.validate_eq_ok_iff view,
    connector.validate_eq_error_iff view, ?_, fun valid => ?_, fun valid => ?_⟩
  · intro row member key value error decides refused
    exact getAs_of_refused decides
      ((readRow_eq_error_iff (connector.fallback_sound row member)).mpr refused)
  · exact connector.exists_report_of_passes rfl ((connector.validate_eq_ok_iff view).mp valid)
  · obtain ⟨settings, report, typed, reported, places, names, readings⟩ :=
      connector.report_of_passes rfl ((connector.validate_eq_ok_iff view).mp valid)
    refine ⟨settings, report, typed, reported, places, names, readings, ?_⟩
    rintro s3 rfl
    cases connector with
    | s3 => exact pathStyle_of_readings names readings
    | abfs =>
      obtain ⟨_, -, other⟩ := map_eq_ok_iff.mp typed
      cases other

/-- Of two malformed values the one that stands first in the table is reported, without blanks. -/
example :
    let map := SettingsMap.ofList
      [("fs.s3a.retry.mode", "lazy"), ("spark.hadoop.fs.s3a.connection.ssl.enabled", " maybe ")]
    Connector.s3.validate (Connector.s3.view map .empty) =
      .error (.malformed "spark.hadoop.fs.s3a.connection.ssl.enabled" "maybe" "boolean") := rfl

end Connector

end ConnectorSettings
