/-
This file proves that a report written as JSON can be read back without loss, whatever texts it
holds.

What a document says of a report is a relation with one shape for each thing that may be absent: an
absent text is null, and so is an absent origin, while the origin without a name is a record without
one. The document that is written shows its report, and no document shows two. Reading undoes
writing, so the text determines the document and with it the report.

No text can pass for something else. Those of a report come from a user, who may put quotes,
backslashes and line breaks into them, and null is only ever an absence.
-/

import ConnectorSettings.Proofs.JsonText
import ConnectorSettings.Proofs.Validation
import ConnectorSettings.OutputFormat
import Mathlib.Data.List.Forall2

namespace ConnectorSettings

/-! ### What a document shows -/

/-- A text that may be absent: null, or the text. -/
inductive ShowsText : Option String → Json → Prop
  | absent : ShowsText none .null
  | present (value : String) : ShowsText (some value) (.text value)

/-- An origin that may be absent: null, or a record of its kind and of its name if it has one. -/
inductive ShowsOrigin : Option Origin → Json → Prop
  | absent : ShowsOrigin none .null
  | named {origin : Origin} {name : String} (has : origin.name? = some name) :
    ShowsOrigin (some origin) (.record [("kind", .text origin.kind), ("name", .text name)])
  | fallback : ShowsOrigin (some .fallback) (.record [("kind", .text "default")])

/-- A row: a record of these five members, in this order. -/
inductive ShowsRow (row : Report.Row) : Json → Prop
  | members {value source : Json} (showsValue : ShowsText row.value value)
    (showsOrigin : ShowsOrigin row.origin source) :
    ShowsRow row (.record [("setting", .text row.setting), ("key", .text row.key),
      ("value", value), ("source", source), ("secret", .bool row.secret)])

/-- A report: a record of these three members, the last of which has an item for each row. -/
inductive ShowsReport (report : Report) : Json → Prop
  | members {scope : Json} {settings : List Json} (showsScope : ShowsText report.scope scope)
    (showsRows : List.Forall₂ ShowsRow report.rows settings) :
    ShowsReport report (.record [("backend", .text report.connector.name), ("scope", scope),
      ("settings", .list settings)])

/-! ### The written document shows its report -/

theorem showsText_ofText? (value : Option String) : ShowsText value (Json.ofText? value) := by
  cases value with
  | none => exact .absent
  | some value => exact .present value

theorem showsOrigin_toJson (origin : Option Origin) :
    ShowsOrigin origin ((origin.map Origin.toJson).getD .null) := by
  cases origin with
  | none => exact .absent
  | some origin =>
    cases origin with
    | fallback => exact .fallback
    | environment | scopedAlias | scopedKey | aliasKey | canonicalKey => exact .named rfl

theorem showsRow_toJson (row : Report.Row) : ShowsRow row row.toJson :=
  .members (showsText_ofText? row.value) (showsOrigin_toJson row.origin)

theorem showsReport_toJson (report : Report) : ShowsReport report report.toJson :=
  .members (showsText_ofText? report.scope)
    (List.forall₂_map_right_iff.mpr (List.forall₂_same.mpr fun row _ => showsRow_toJson row))

/-! ### No document shows two reports -/

theorem Origin.eq_of_kind_eq {left right : Origin} (sameKind : left.kind = right.kind)
    (sameName : left.name? = right.name?) : left = right := by
  cases left <;> cases right <;> simp_all [kind, name?]

theorem Connector.eq_of_name_eq {left right : Connector} (same : left.name = right.name) :
    left = right := by
  have cases : ∀ left right : Connector, left.name = right.name → left = right := by
    rintro ⟨⟩ ⟨⟩ <;> decide
  exact cases left right same

theorem ShowsText.unique {left right : Option String} {document other : Json}
    (shown : ShowsText left document) (again : ShowsText right other) (same : document = other) :
    left = right := by
  cases shown <;> cases again <;> cases same <;> rfl

theorem ShowsOrigin.unique {left right : Option Origin} {document other : Json}
    (shown : ShowsOrigin left document) (again : ShowsOrigin right other)
    (same : document = other) : left = right := by
  -- A kind is computed from its origin, so the cases cannot identify the documents by themselves.
  cases shown with
  | absent =>
    cases again with
    | absent => rfl
    | named | fallback => cases same
  | fallback =>
    cases again with
    | fallback => rfl
    | absent => cases same
    | named => simp at same
  | named has =>
    cases again with
    | absent => cases same
    | fallback => simp at same
    | named hasToo =>
      simp only [Json.record.injEq, List.cons.injEq, Prod.mk.injEq, Json.text.injEq, true_and,
        and_true] at same
      exact congrArg some (Origin.eq_of_kind_eq same.1 (by rw [has, hasToo, same.2]))

theorem ShowsRow.unique {left right : Report.Row} {document other : Json}
    (shown : ShowsRow left document) (again : ShowsRow right other) (same : document = other) :
    left = right := by
  cases left
  cases right
  obtain ⟨showsValue, showsOrigin⟩ := shown
  obtain ⟨showsValueToo, showsOriginToo⟩ := again
  simp only [Json.record.injEq, List.cons.injEq, Prod.mk.injEq, Json.text.injEq, Json.bool.injEq,
    true_and, and_true] at same
  obtain ⟨rfl, rfl, sameValue, sameOrigin, rfl⟩ := same
  obtain rfl := showsValue.unique showsValueToo sameValue
  obtain rfl := showsOrigin.unique showsOriginToo sameOrigin
  rfl

theorem ShowsReport.unique {left right : Report} {document other : Json}
    (shown : ShowsReport left document) (again : ShowsReport right other)
    (same : document = other) : left = right := by
  cases left
  cases right
  obtain ⟨showsScope, showsRows⟩ := shown
  obtain ⟨showsScopeToo, showsRowsToo⟩ := again
  simp only [Json.record.injEq, List.cons.injEq, Prod.mk.injEq, Json.text.injEq, Json.list.injEq,
    true_and, and_true] at same
  obtain ⟨sameName, sameScope, rfl⟩ := same
  obtain rfl := Connector.eq_of_name_eq sameName
  obtain rfl := showsScope.unique showsScopeToo sameScope
  obtain rfl := List.left_unique_forall₂' (fun _ _ _ shown again => shown.unique again rfl)
    showsRows showsRowsToo
  rfl

/-! ### Rendering -/

/-- The text of a report is read as a document that shows it. -/
theorem Report.exists_shows_of_render (report : Report) (color : Bool) :
    ∃ document, Json.parse? (report.render .json color) = some document ∧
      ShowsReport report document :=
  ⟨report.toJson, Json.parse?_indented report.toJson, showsReport_toJson report⟩

theorem Report.eq_of_render_eq {left right : Report} {color otherColor : Bool}
    (same : left.render .json color = right.render .json otherColor) : left = right := by
  obtain ⟨document, read, shown⟩ := left.exists_shows_of_render color
  obtain ⟨other, readToo, again⟩ := right.exists_shows_of_render otherColor
  rw [← same, read] at readToo
  exact shown.unique again (Option.some.inj readToo)

/-- A report that is built has a row for each setting, in the order of the table. -/
theorem Report.fields_of_ofView {connector : Connector} {view : View} {showSecrets : Bool}
    {report : Report} (built : Report.ofView connector view showSecrets = .ok report) :
    report.connector = connector ∧ report.scope = view.scope ∧
      report.rows.map Report.Row.setting = view.settings.map Setting.name := by
  rw [Report.ofView_eq_mapM] at built
  obtain ⟨rows, passed, rfl⟩ := map_eq_ok_iff.mp built
  exact ⟨rfl, rfl, Connector.names_of_mapM_ofFound passed⟩

/-- Nothing is lost in a report written as JSON. It is read as one document, which shows the report
that was built, a row for each setting of the table and in the table's order; and no other report is
written alike. -/
theorem Connector.report_read_back (connector : Connector) (map : SettingsMap)
    (environment : Environment) (scope : Option String) (aliases : List String) (showSecrets : Bool)
    (report : Report)
    (built : Report.ofView connector
      (((connector.view map environment).withScope scope).withAliases aliases) showSecrets =
        .ok report) :
    report.connector = connector ∧ report.scope = scope.filter (fun name => !name.isEmpty) ∧
      report.rows.map Report.Row.setting = connector.settings.map Setting.name ∧
      (∀ color, ∃ document, Json.parse? (report.render .json color) = some document ∧
        ShowsReport report document) ∧
      ∀ other color otherColor,
        other.render .json otherColor = report.render .json color → other = report := by
  obtain ⟨sameConnector, sameScope, names⟩ := Report.fields_of_ofView built
  exact ⟨sameConnector, sameScope, names, report.exists_shows_of_render,
    fun _ _ _ same => Report.eq_of_render_eq same⟩

/-- The scope, an ecosystem name and the values hold quotes, a backslash, line separators and a
control character, and one value is the word for an absent one. -/
theorem Connector.report_read_back_unusual_texts :
    let scope := "a\"b\\"
    let map := SettingsMap.ofList
      [("fs.azure.account.auth.type.a\"b\\.dfs.core.windows.net", "\u0001\u2028\"\x7d"),
        ("up\n.fs.azure.account.oauth2.client.endpoint", "null")]
    let environment := Environment.ofList [("AZURE_CLIENT_ID", [0x5C, 0x22])]
    let view := ((Connector.abfs.view map environment).withScope (some scope)).withAliases ["up\n."]
    ∃ report, Report.ofView .abfs view false = .ok report ∧
      report.rows.map Report.Row.value = [some "\u0001\u2028\"\x7d", none, none, some "\\\"", none,
        some "null", some "core.windows.net", some "30"] ∧
      ∃ document, Json.parse? (report.render .json false) = some document ∧
        ShowsReport report document := by
  intro scope map environment view
  have passes : (fun report => report.rows.map Report.Row.value) <$>
      Report.ofView .abfs view false =
      .ok [some "\u0001\u2028\"\x7d", none, none, some "\\\"", none,
        some "null", some "core.windows.net", some "30"] := by decide +kernel
  obtain ⟨report, built, values⟩ := map_eq_ok_iff.mp passes
  exact ⟨report, built, values, (report_read_back .abfs map environment (some scope) ["up\n."] false
    report built).2.2.2.1 false⟩

end ConnectorSettings
