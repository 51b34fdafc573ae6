/-
This file proves that the calls of the connectors report the keys to set: the credentials of S3, and
the connection string and the client's credentials of ABFS.

The calls work on typed settings and build the keys that they report on their own, from the suffix
of the setting and the scope of the settings. Each of them is shown to demand its settings of the
view that the typed settings come from, so that what holds of such calls holds of it.
-/

import ConnectorSettings.Proofs.Supplying

namespace ConnectorSettings

/-! ### Credentials of S3 -/

namespace S3

open View

/-- The credentials of the settings that a view finds. -/
def credentialsOf (view : View) : Except SettingError (Option Credentials) :=
  Settings.ofView view >>= Settings.credentials?

theorem typed_ofView {view : View} {settings : Settings}
    (given : Settings.ofView view = .ok settings) :
    Connector.s3.typed view = .ok (.s3 settings) :=
  map_eq_ok_iff.mpr ⟨settings, given, rfl⟩

theorem textOf_ofView {view : View} {settings : Settings}
    (given : Settings.ofView view = .ok settings) :
    view.textOf accessKey = .ok settings.accessKey ∧
      view.textOf secretKey = .ok settings.secretKey ∧
        view.textOf sessionToken = .ok settings.sessionToken := by
  obtain ⟨access, rest⟩ := List.forall₂_cons.mp (Connector.readRow_of_typed (typed_ofView given))
  obtain ⟨secret, rest⟩ := List.forall₂_cons.mp rest
  obtain ⟨token, -⟩ := List.forall₂_cons.mp rest
  exact ⟨textOf_of_readRow access, textOf_of_readRow secret, textOf_of_readRow token⟩

/-- The settings can be built, with one half of the credentials at least, and a token or none. -/
structure Halved (token : Option String) (view : View) : Prop where
  built : view.layout = layout
  resolves : ∃ settings, Connector.s3.typed view = .ok settings
  token : view.textOf sessionToken = .ok token
  half : ∃ setting ∈ [accessKey, secretKey], ∃ text, view.textOf setting = .ok (some text)

theorem demands_credentials (token : Option String) :
    Demands .s3 [accessKey, secretKey] credentialsOf
      (fun texts => some ⟨texts.getD 0 "", texts.getD 1 "", token⟩) (Halved token) where
  members := by decide
  bare := by decide
  built _ halved := halved.built
  found view halved := by
    obtain ⟨settings, given⟩ := (exists_map_eq_ok_iff TypedSettings.s3).mp halved.resolves
    obtain ⟨access, secret, -⟩ := textOf_ofView given
    intro setting member
    rcases List.mem_pair.mp member with rfl | rfl
    · exact ⟨_, access⟩
    · exact ⟨_, secret⟩
  asks view halved := by
    obtain ⟨settings, given⟩ := (exists_map_eq_ok_iff TypedSettings.s3).mp halved.resolves
    obtain ⟨access, secret, tokenText⟩ := textOf_ofView given
    obtain rfl := Except.ok.inj (tokenText.symm.trans halved.token)
    have half : ¬ (settings.accessKey = none ∧ settings.secretKey = none) := by
      rintro ⟨noAccess, noSecret⟩
      rw [noAccess] at access
      rw [noSecret] at secret
      obtain ⟨setting, member, text, found⟩ := halved.half
      rcases List.mem_pair.mp member with rfl | rfl
      · cases access.symm.trans found
      · cases secret.symm.trans found
    have bucket : settings.bucket = view.scope := Connector.scope_typed (typed_ofView given)
    rw [List.mapM_cons, List.mapM_cons, List.mapM_nil, demand_of_textOf access,
      demand_of_textOf secret, credentialsOf, given, shownKey, shownKey, halved.built, ← bucket]
    obtain ⟨_, accessKey, secretKey⟩ := settings
    cases accessKey with
    | none =>
      cases secretKey with
      | none => exact absurd ⟨rfl, rfl⟩ half
      | some secret => rfl
    | some access => cases secretKey <;> rfl
  kept view setting value halved member unset := by
    have row : ∀ needed ∈ [accessKey, secretKey], ⟨needed, .text⟩ ∈ rows := by decide
    have apart : ∀ needed ∈ [accessKey, secretKey],
        needed ∈ Connector.s3.settings ∧ sessionToken ≠ needed := by
      decide
    constructor
    · exact halved.built
    · obtain ⟨_, given⟩ := halved.resolves
      exact Connector.typed_insert halved.built (row setting member) unset given value
    · obtain ⟨listed, differ⟩ := apart setting member
      rw [textOf_insert_other halved.built listed (by decide) differ, halved.token]
    · exact ⟨setting, member, _, textOf_insert_shownKey unset value⟩

theorem halved_of_ofView {view : View} (built : view.layout = layout) {settings : Settings}
    (given : Settings.ofView view = .ok settings)
    (half : ¬ (settings.accessKey = none ∧ settings.secretKey = none)) :
    Halved settings.sessionToken view := by
  obtain ⟨access, secret, token⟩ := textOf_ofView given
  refine ⟨built, ⟨_, typed_ofView given⟩, token, ?_⟩
  by_cases absent : settings.accessKey = none
  · obtain ⟨text, found⟩ := Option.ne_none_iff_exists'.mp fun other => half ⟨absent, other⟩
    exact ⟨secretKey, by decide, text, found ▸ secret⟩
  · obtain ⟨text, found⟩ := Option.ne_none_iff_exists'.mp absent
    exact ⟨accessKey, by decide, text, found ▸ access⟩

theorem credentials?_of_none {settings : Settings}
    (absent : settings.accessKey = none ∧ settings.secretKey = none) :
    settings.credentials? = .ok none := by
  rw [Settings.credentials?, absent.1, absent.2]

theorem reportsShownKeys_credentials {view : View} (built : view.layout = layout) :
    ReportsShownKeys [accessKey, secretKey] credentialsOf view := by
  refine .of_missing fun key failed => ?_
  obtain ⟨settings, given, failed⟩ := Connector.settings_of_missing
    (rfl : Connector.s3.typed view = .s3 <$> Settings.ofView view) failed
  refine (demands_credentials settings.sessionToken).reportsShownKeys
    (halved_of_ofView built given fun absent => ?_)
  cases (credentials?_of_none absent).symm.trans failed

theorem supplied_credentials {view : View} (built : view.layout = layout) {settings : Settings}
    (given : Settings.ofView view = .ok settings) (give : String → String) :
    let text := fun setting => Text.trimmed (give (view.shownKey setting))
    supplied give credentialsOf 3 view = .ok
      (if settings.accessKey = none ∧ settings.secretKey = none then none
      else some
        { accessKey := settings.accessKey.getD (text accessKey)
          secretKey := settings.secretKey.getD (text secretKey)
          sessionToken := settings.sessionToken }) := by
  intro text
  by_cases absent : settings.accessKey = none ∧ settings.secretKey = none
  · rw [if_pos absent]
    refine supplied_of_ok ?_ 3
    rw [credentialsOf, given]
    exact credentials?_of_none absent
  · obtain ⟨access, secret, -⟩ := textOf_ofView given
    rw [if_neg absent, (demands_credentials _).supplied_eq_ok give
      (halved_of_ofView built given absent) (by decide)]
    simp only [List.map_cons, List.map_nil, textOr_of_textOf access, textOr_of_textOf secret]
    rfl

end S3

/-! ### The connection string and the client's credentials of ABFS -/

namespace Abfs

open View

/-- The connection string of the settings that a view finds. -/
def connectionStringOf (view : View) : Except SettingError String :=
  Settings.ofView view >>= Settings.connectionString

/-- The client's credentials of the settings that a view finds. -/
def clientCredentialsOf (view : View) : Except SettingError ClientCredentials :=
  Settings.ofView view >>= Settings.clientCredentials

theorem typed_ofView {view : View} {settings : Settings}
    (given : Settings.ofView view = .ok settings) :
    Connector.abfs.typed view = .ok (.abfs settings) :=
  map_eq_ok_iff.mpr ⟨settings, given, rfl⟩

/-- The texts of the settings that are needed. -/
structure Texts (view : View) (settings : Settings) : Prop where
  accountKey : view.textOf accountKey = .ok settings.accountKey
  clientId : view.textOf clientId = .ok settings.clientId
  clientSecret : view.textOf clientSecret = .ok settings.clientSecret
  clientEndpoint : view.textOf clientEndpoint = .ok settings.clientEndpoint
  endpointSuffix : view.textOf endpointSuffix = .ok (some settings.endpointSuffix)

theorem texts_ofView {view : View} {settings : Settings}
    (given : Settings.ofView view = .ok settings) : Texts view settings := by
  obtain ⟨-, rest⟩ := List.forall₂_cons.mp (Connector.readRow_of_typed (typed_ofView given))
  obtain ⟨key, rest⟩ := List.forall₂_cons.mp rest
  obtain ⟨-, rest⟩ := List.forall₂_cons.mp rest
  obtain ⟨client, rest⟩ := List.forall₂_cons.mp rest
  obtain ⟨secret, rest⟩ := List.forall₂_cons.mp rest
  obtain ⟨endpoint, rest⟩ := List.forall₂_cons.mp rest
  obtain ⟨suffix, -⟩ := List.forall₂_cons.mp rest
  exact ⟨textOf_of_readRow key, textOf_of_readRow client, textOf_of_readRow secret,
    textOf_of_readRow endpoint, textOf_of_readRow suffix⟩

/-- A needed text is demanded of the view. -/
theorem need_eq_demand {view : View} {settings : Settings} (built : view.layout = layout)
    (account : settings.account = view.scope) {setting : Setting} {value : Option String}
    (given : view.textOf setting = .ok value) :
    settings.need value setting = view.demand String setting := by
  rw [demand_of_textOf given, shownKey, built, ← account]
  cases value <;> rfl

/-- The settings of an account can be built, with an endpoint suffix. -/
structure OfAccount (account suffix : String) (view : View) : Prop where
  built : view.layout = layout
  placed : view.scope = some account
  resolves : ∃ settings, Connector.abfs.typed view = .ok settings
  suffix : view.textOf endpointSuffix = .ok (some suffix)

theorem demands_connectionString (account suffix : String) :
    Demands .abfs [accountKey] connectionStringOf
      (fun texts => "DefaultEndpointsProtocol=https;AccountName=" ++ account ++ ";AccountKey=" ++
        texts.getD 0 "" ++ ";EndpointSuffix=" ++ suffix) (OfAccount account suffix) where
  members := by decide
  bare := by decide
  built _ ready := ready.built
  found view ready := by
    obtain ⟨settings, given⟩ := (exists_map_eq_ok_iff TypedSettings.abfs).mp ready.resolves
    intro setting member
    obtain rfl := List.mem_singleton.mp member
    exact ⟨_, (texts_ofView given).accountKey⟩
  asks view ready := by
    obtain ⟨settings, given⟩ := (exists_map_eq_ok_iff TypedSettings.abfs).mp ready.resolves
    have texts := texts_ofView given
    obtain rfl := Option.some.inj (Except.ok.inj (texts.endpointSuffix.symm.trans ready.suffix))
    have scope : settings.account = view.scope := Connector.scope_typed (typed_ofView given)
    rw [List.mapM_cons, List.mapM_nil, ← need_eq_demand ready.built scope texts.accountKey,
      connectionStringOf, given]
    show settings.connectionString = _
    rw [Settings.connectionString, scope, ready.placed]
    cases settings.need settings.accountKey accountKey <;> rfl
  kept view setting value ready member unset := by
    obtain rfl := List.mem_singleton.mp member
    constructor
    · exact ready.built
    · exact ready.placed
    · obtain ⟨_, given⟩ := ready.resolves
      exact Connector.typed_insert ready.built (by decide) unset given value
    · have listed : accountKey ∈ Connector.abfs.settings := by decide
      rw [textOf_insert_other ready.built listed (by decide) (by decide), ready.suffix]

/-- The settings can be built. -/
structure Resolved (view : View) : Prop where
  built : view.layout = layout
  resolves : ∃ settings, Connector.abfs.typed view = .ok settings

theorem demands_clientCredentials :
    Demands .abfs [clientId, clientSecret, clientEndpoint] clientCredentialsOf
      (fun texts => ⟨texts.getD 0 "", texts.getD 1 "", texts.getD 2 ""⟩) Resolved where
  members := by decide
  bare := by decide
  built _ resolved := resolved.built
  found view resolved := by
    obtain ⟨settings, given⟩ := (exists_map_eq_ok_iff TypedSettings.abfs).mp resolved.resolves
    have texts := texts_ofView given
    intro setting member
    rcases List.mem_cons.mp member with rfl | member
    · exact ⟨_, texts.clientId⟩
    · rcases List.mem_pair.mp member with rfl | rfl
      · exact ⟨_, texts.clientSecret⟩
      · exact ⟨_, texts.clientEndpoint⟩
  asks view resolved := by
    obtain ⟨settings, given⟩ := (exists_map_eq_ok_iff TypedSettings.abfs).mp resolved.resolves
    have texts := texts_ofView given
    have scope : settings.account = view.scope := Connector.scope_typed (typed_ofView given)
    rw [List.mapM_cons, List.mapM_cons, List.mapM_cons, List.mapM_nil,
      ← need_eq_demand resolved.built scope texts.clientId,
      ← need_eq_demand resolved.built scope texts.clientSecret,
      ← need_eq_demand resolved.built scope texts.clientEndpoint, clientCredentialsOf, given]
    show settings.clientCredentials = _
    rw [Settings.clientCredentials]
    simp only [map_bind, map_pure, bind_assoc, pure_bind]
    rfl
  kept view setting value resolved member unset := by
    have row : ∀ needed ∈ [clientId, clientSecret, clientEndpoint], ⟨needed, .text⟩ ∈ rows := by
      decide
    obtain ⟨_, given⟩ := resolved.resolves
    exact ⟨resolved.built,
      Connector.typed_insert resolved.built (row setting member) unset given value⟩

theorem reportsShownKeys_connectionString {view : View} (built : view.layout = layout)
    {account : String} (placed : view.scope = some account) :
    ReportsShownKeys [accountKey] connectionStringOf view := by
  refine .of_missing fun key failed => ?_
  obtain ⟨settings, given, -⟩ := Connector.settings_of_missing
    (rfl : Connector.abfs.typed view = .abfs <$> Settings.ofView view) failed
  exact (demands_connectionString account settings.endpointSuffix).reportsShownKeys
    ⟨built, placed, ⟨_, typed_ofView given⟩, (texts_ofView given).endpointSuffix⟩

theorem supplied_connectionString {view : View} (built : view.layout = layout) {account : String}
    (placed : view.scope = some account) {settings : Settings}
    (given : Settings.ofView view = .ok settings) (give : String → String) :
    let text := fun setting => Text.trimmed (give (view.shownKey setting))
    supplied give connectionStringOf 3 view = .ok
      ("DefaultEndpointsProtocol=https;AccountName=" ++ account ++ ";AccountKey=" ++
        settings.accountKey.getD (text accountKey) ++ ";EndpointSuffix=" ++
          settings.endpointSuffix) := by
  intro text
  have texts := texts_ofView given
  rw [(demands_connectionString account settings.endpointSuffix).supplied_eq_ok give
    ⟨built, placed, ⟨_, typed_ofView given⟩, texts.endpointSuffix⟩ (by decide)]
  simp only [List.map_cons, List.map_nil, textOr_of_textOf texts.accountKey]
  rfl

theorem reportsShownKeys_clientCredentials {view : View} (built : view.layout = layout) :
    ReportsShownKeys [clientId, clientSecret, clientEndpoint] clientCredentialsOf view := by
  refine .of_missing fun key failed => ?_
  obtain ⟨settings, given, -⟩ := Connector.settings_of_missing
    (rfl : Connector.abfs.typed view = .abfs <$> Settings.ofView view) failed
  exact demands_clientCredentials.reportsShownKeys ⟨built, _, typed_ofView given⟩

theorem supplied_clientCredentials {view : View} (built : view.layout = layout)
    {settings : Settings} (given : Settings.ofView view = .ok settings) (give : String → String) :
    let text := fun setting => Text.trimmed (give (view.shownKey setting))
    supplied give clientCredentialsOf 3 view = .ok
      { clientId := settings.clientId.getD (text clientId)
        clientSecret := settings.clientSecret.getD (text clientSecret)
        tokenEndpoint := settings.clientEndpoint.getD (text clientEndpoint) } := by
  intro text
  have texts := texts_ofView given
  rw [demands_clientCredentials.supplied_eq_ok give ⟨built, _, typed_ofView given⟩ (by decide)]
  simp only [List.map_cons, List.map_nil, textOr_of_textOf texts.clientId,
    textOr_of_textOf texts.clientSecret, textOr_of_textOf texts.clientEndpoint]
  rfl

end Abfs

/-! ### The law -/

open View in
/-- The keys that are shown are the keys to set. The report, the table of keys and the errors of the
calls all name the key that the view shows. Of a setting that is unset, a value that is written
under this key is found, without the blanks around it, and no other setting finds anything else. So
setting the keys that a call reports is all that it takes: it then answers with the values that were
there and with those that were given. -/
theorem shown_keys_to_set (scope : Option String) (aliases : List String) (map : SettingsMap)
    (environment : Environment) :
    let view := fun connector : Connector => connector.seen scope aliases ⟨map, environment⟩
    (∀ connector : Connector,
      let shown := connector.settings.map fun setting =>
        (setting.name, (view connector).shownKey setting)
      (∀ showSecrets report, Report.ofView connector (view connector) showSecrets = .ok report →
        report.rows.map (fun row => (row.setting, row.key)) = shown) ∧
      (KeyTable.ofConnector connector scope).rows.map
        (fun row => (row.setting, row.keyUnder scope)) = shown ∧
      ∀ setting ∈ connector.settings, (view connector).Unset setting → ∀ value,
        let key := (view connector).shownKey setting
        (∃ origin, origin.name? = some key ∧ ((view connector).insert key value).find setting =
          .ok (some ⟨Text.trimmed value, origin⟩)) ∧
        ∀ other ∈ connector.settings, other ≠ setting →
          ((view connector).insert key value).find other = (view connector).find other) ∧
    CompletedByShownKeys [S3.accessKey, S3.secretKey] S3.credentialsOf S3.Settings.ofView
      (fun settings given =>
        if settings.accessKey = none ∧ settings.secretKey = none then none
        else some
          { accessKey := settings.accessKey.getD (given S3.accessKey)
            secretKey := settings.secretKey.getD (given S3.secretKey)
            sessionToken := settings.sessionToken })
      (view .s3) ∧
    (∀ account, (view .abfs).scope = some account →
      CompletedByShownKeys [Abfs.accountKey] Abfs.connectionStringOf Abfs.Settings.ofView
        (fun settings given =>
          "DefaultEndpointsProtocol=https;AccountName=" ++ account ++ ";AccountKey=" ++
            settings.accountKey.getD (given Abfs.accountKey) ++ ";EndpointSuffix=" ++
              settings.endpointSuffix)
        (view .abfs)) ∧
    CompletedByShownKeys [Abfs.clientId, Abfs.clientSecret, Abfs.clientEndpoint]
      Abfs.clientCredentialsOf Abfs.Settings.ofView
      (fun settings given =>
        { clientId := settings.clientId.getD (given Abfs.clientId)
          clientSecret := settings.clientSecret.getD (given Abfs.clientSecret)
          tokenEndpoint := settings.clientEndpoint.getD (given Abfs.clientEndpoint) })
      (view .abfs) := by
  intro view
  refine ⟨fun connector => ⟨fun showSecrets report reported => ?_, ?_, ?_⟩, ⟨?_, ?_⟩,
    fun account placed => ⟨?_, ?_⟩, ?_, ?_⟩
  · exact Connector.keys_of_report rfl reported
  · exact connector.keys_of_table scope aliases ⟨map, environment⟩
  · intro setting member unset value
    exact ⟨find_insert_shownKey unset value, fun other otherMember differ =>
      find_insert_other rfl member otherMember differ value⟩
  · exact S3.reportsShownKeys_credentials rfl
  · exact fun give settings given => S3.supplied_credentials rfl given give
  · exact Abfs.reportsShownKeys_connectionString rfl placed
  · exact fun give settings given => Abfs.supplied_connectionString rfl placed given give
  · exact Abfs.reportsShownKeys_clientCredentials rfl
  · exact fun give settings given => Abfs.supplied_clientCredentials rfl given give

open View in
/-- In an account the client's secret and its endpoint are asked for one after the other. Among the
ecosystem names is the empty text, so that the shown keys are candidates twice. -/
theorem shown_keys_to_set_in_account :
    let secretKey := "fs.azure.account.oauth2.client.secret.logs.dfs.core.windows.net"
    let endpointKey := "fs.azure.account.oauth2.client.endpoint.logs.dfs.core.windows.net"
    let give := fun key => if key = secretKey then " secret " else "https://login"
    let map := SettingsMap.ofList [("fs.azure.account.oauth2.client.id", "id")]
    let view := Connector.abfs.seen (some "logs") ["", "spark.hadoop."] ⟨map, .empty⟩
    view.Unset Abfs.clientSecret ∧
    Abfs.clientCredentialsOf view = .error (.missing secretKey) ∧
    Abfs.clientCredentialsOf (view.insert secretKey " secret ") = .error (.missing endpointKey) ∧
    (∃ origin, origin.name? = some secretKey ∧ (view.insert secretKey " secret ").find
      Abfs.clientSecret = .ok (some ⟨"secret", origin⟩)) ∧
    supplied give Abfs.clientCredentialsOf 3 view = .ok ⟨"id", "secret", "https://login"⟩ := by
  intro secretKey endpointKey give map view
  have law := shown_keys_to_set (some "logs") ["", "spark.hadoop."] map .empty
  have unset : view.Unset Abfs.clientSecret := ⟨fun _ _ => rfl, by decide +kernel⟩
  have given : Abfs.Settings.ofView view = .ok
      ⟨some "logs", .sharedKey, none, none, some "id", none, none, "core.windows.net",
        ⟨30, by decide⟩⟩ := by
    decide +kernel
  refine ⟨unset, by decide +kernel, by decide +kernel, ?_, ?_⟩
  · exact ((law.1 .abfs).2.2 Abfs.clientSecret (by decide) unset " secret ").1
  · refine (law.2.2.2.completed give _ given).trans ?_
    decide +kernel

end ConnectorSettings
