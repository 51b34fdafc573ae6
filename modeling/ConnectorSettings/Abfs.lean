/-
This file holds the ABFS connector: the table of its settings and their typed values for one storage
account or for all.

Keys live below `fs.azure.` and are narrowed to an account by its host name at the end. Secrets and
the client's identity can come from the environment.

How the connector signs its requests is a setting of its own. The values that one way of signing
needs are demanded only when they are asked for; what is missing then is named by its key.
-/

import ConnectorSettings.Named
import ConnectorSettings.Text.Described
import ConnectorSettings.View

namespace ConnectorSettings

namespace Abfs

/-! ### The table -/

def layout : KeyLayout := .scopeLast "fs.azure." ".dfs.core.windows.net"

def authType : Setting :=
  ⟨"auth type", "account.auth.type", some "SharedKey", none, false⟩

def accountKey : Setting :=
  ⟨"account key", "account.key", none, some "AZURE_STORAGE_ACCOUNT_KEY", true⟩

def sasToken : Setting :=
  ⟨"SAS token", "sas.fixed.token", none, some "AZURE_STORAGE_SAS_TOKEN", true⟩

def clientId : Setting :=
  ⟨"OAuth client id", "account.oauth2.client.id", none, some "AZURE_CLIENT_ID", false⟩

def clientSecret : Setting :=
  ⟨"OAuth client secret", "account.oauth2.client.secret", none, some "AZURE_CLIENT_SECRET", true⟩

def clientEndpoint : Setting :=
  ⟨"OAuth token endpoint", "account.oauth2.client.endpoint", none, none, false⟩

def endpointSuffix : Setting :=
  ⟨"endpoint suffix", "endpoint.suffix", some "core.windows.net", none, false⟩

def maxRetries : Setting :=
  ⟨"max retries", "io.retry.max.retries", some "30", none, false⟩

/-- Every setting, in the order in which they are shown. -/
def table : List Setting :=
  [authType, accountKey, sasToken, clientId, clientSecret, clientEndpoint, endpointSuffix,
    maxRetries]

/-! ### Typed values -/

/-- How requests are signed. -/
inductive AuthType where
  | sharedKey
  | oauth
  | sas
  deriving DecidableEq, Repr

namespace AuthType

instance : Named AuthType where
  all := [.sharedKey, .oauth, .sas]
  name
    | .sharedKey => "SharedKey"
    | .oauth => "OAuth"
    | .sas => "SAS"

instance : Readable AuthType where
  expected := "auth type (SharedKey, OAuth, SAS)"
  read? := Named.ignoringCase?

def describe : AuthType → String
  | .sharedKey => "SharedKey"
  | .oauth => "OAuth"
  | .sas => "Sas"

end AuthType

/-- What a client shows to get a token. -/
structure ClientCredentials where
  clientId : String
  clientSecret : String
  tokenEndpoint : String
  deriving DecidableEq

structure Settings where
  account : Option String
  authType : AuthType
  accountKey : Option String
  sasToken : Option String
  clientId : Option String
  clientSecret : Option String
  clientEndpoint : Option String
  endpointSuffix : String
  maxRetries : BoundedInt .signed32
  deriving DecidableEq

namespace Settings

/-- The typed values of the settings that a view finds. -/
def ofView (view : View) : Except SettingError Settings := do
  return {
    account := view.scope
    authType := ← view.demand AuthType Abfs.authType
    accountKey := ← view.read String Abfs.accountKey
    sasToken := ← view.read String Abfs.sasToken
    clientId := ← view.read String Abfs.clientId
    clientSecret := ← view.read String Abfs.clientSecret
    clientEndpoint := ← view.read String Abfs.clientEndpoint
    endpointSuffix := ← view.demand String Abfs.endpointSuffix
    maxRetries := ← view.demand (BoundedInt .signed32) Abfs.maxRetries }

/-- A value that must be there, or an error that names the setting's key. -/
def need (settings : Settings) (value : Option String) (setting : Setting) :
    Except SettingError String :=
  match value with
  | some text => .ok text
  | none => .error (.missing (layout.keyUnder setting.suffix settings.account))

/-- The text that the provider's libraries take in place of an account and its shared key. -/
def connectionString (settings : Settings) : Except SettingError String :=
  match settings.account with
  | none => .error (.missing "storage account")
  | some account => do
    let key ← settings.need settings.accountKey Abfs.accountKey
    return "DefaultEndpointsProtocol=https;AccountName=" ++ account ++ ";AccountKey=" ++ key ++
      ";EndpointSuffix=" ++ settings.endpointSuffix

/-- What the client shows to get a token; every part of it is needed. -/
def clientCredentials (settings : Settings) : Except SettingError ClientCredentials := do
  return {
    clientId := ← settings.need settings.clientId Abfs.clientId
    clientSecret := ← settings.need settings.clientSecret Abfs.clientSecret
    tokenEndpoint := ← settings.need settings.clientEndpoint Abfs.clientEndpoint }

end Settings

/-! ### Showing typed values -/

def ClientCredentials.describe (credentials : ClientCredentials) : String :=
  Text.describedRecord "OAuthCredentials" ("client_id", Text.quoted credentials.clientId)
    [("client_secret", Text.quoted redacted),
      ("token_endpoint", Text.quoted credentials.tokenEndpoint)]

def Settings.describe (settings : Settings) : String :=
  Text.describedRecord "AbfsConfig" ("account", Text.describedText settings.account)
    [("auth_type", settings.authType.describe),
      ("account_key", Text.describedSecret settings.accountKey),
      ("sas_token", Text.describedSecret settings.sasToken),
      ("client_id", Text.describedText settings.clientId),
      ("client_secret", Text.describedSecret settings.clientSecret),
      ("client_endpoint", Text.describedText settings.clientEndpoint),
      ("endpoint_suffix", Text.quoted settings.endpointSuffix),
      ("max_retries", settings.maxRetries.toText)]

end Abfs

end ConnectorSettings
