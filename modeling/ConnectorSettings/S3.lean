/-
This file holds the S3 connector: the table of its settings and their typed values for one bucket or
for all.

Keys live below `fs.s3a.` and are narrowed to a bucket in front of the suffix. Credentials, the
endpoint and the retry settings can come from the environment variables that other tools for the
same service read.

The typed values are read in the order of the table, so the first setting that is malformed is the
one reported. The credentials are a pair: one half without the other is an error that names the key
of the missing half.
-/

import ConnectorSettings.Named
import ConnectorSettings.Text.Described
import ConnectorSettings.S3.Region
import ConnectorSettings.View
import ConnectorSettings.Duration

namespace ConnectorSettings

namespace S3

/-! ### The table -/

def layout : KeyLayout := .scopeFirst "fs.s3a." "bucket"

def accessKey : Setting :=
  ⟨"access key", "access.key", none, some "AWS_ACCESS_KEY_ID", true⟩

def secretKey : Setting :=
  ⟨"secret key", "secret.key", none, some "AWS_SECRET_ACCESS_KEY", true⟩

/-- The token that goes with temporary credentials. -/
def sessionToken : Setting :=
  ⟨"session token", "session.token", none, some "AWS_SESSION_TOKEN", true⟩

def endpoint : Setting :=
  ⟨"endpoint", "endpoint", some "", some "AWS_ENDPOINT", false⟩

def endpointRegion : Setting :=
  ⟨"endpoint region", "endpoint.region", none, none, false⟩

def useSsl : Setting :=
  ⟨"use SSL", "connection.ssl.enabled", some "false", none, false⟩

/-- Whether the bucket goes into the path of a request rather than into its host. -/
def pathStyleAccess : Setting :=
  ⟨"path style access", "path.style.access", some "false", none, false⟩

def maxAttempts : Setting :=
  ⟨"max retry attempts", "retry.limit", none, some "AWS_MAX_ATTEMPTS", false⟩

def retryMode : Setting :=
  ⟨"retry mode", "retry.mode", some "legacy", some "AWS_RETRY_MODE", false⟩

def maxConnections : Setting :=
  ⟨"max connections", "connection.maximum", some "15", none, false⟩

def connectTimeout : Setting :=
  ⟨"connect timeout", "connection.timeout", some "200s", none, false⟩

def useInstanceCredentials : Setting :=
  ⟨"use instance credentials", "instance.credentials", some "false", none, false⟩

def iamRole : Setting :=
  ⟨"IAM role", "iam.role", none, none, false⟩

def iamRoleSessionName : Setting :=
  ⟨"IAM role session name", "iam.role.session.name", some "gluten-session", none, false⟩

def useProxyFromEnvironment : Setting :=
  ⟨"use proxy from env", "use.proxy.from.env", some "false", none, false⟩

def credentialsProvider : Setting :=
  ⟨"credentials provider", "aws.credentials.provider", none, none, false⟩

/-- Every setting, in the order in which they are shown. -/
def table : List Setting :=
  [accessKey, secretKey, sessionToken, endpoint, endpointRegion, useSsl, pathStyleAccess,
    maxAttempts, retryMode, maxConnections, connectTimeout, useInstanceCredentials, iamRole,
    iamRoleSessionName, useProxyFromEnvironment, credentialsProvider]

/-! ### Typed values -/

inductive RetryMode where
  | legacy
  | standard
  | adaptive
  deriving DecidableEq, Repr

namespace RetryMode

instance : Named RetryMode where
  all := [.legacy, .standard, .adaptive]
  name
    | .legacy => "legacy"
    | .standard => "standard"
    | .adaptive => "adaptive"

instance : Readable RetryMode where
  expected := "retry mode (legacy, standard, adaptive)"
  read? := Named.ignoringCase?

def describe : RetryMode → String
  | .legacy => "Legacy"
  | .standard => "Standard"
  | .adaptive => "Adaptive"

end RetryMode

structure Credentials where
  accessKey : String
  secretKey : String
  sessionToken : Option String
  deriving DecidableEq

structure Settings where
  bucket : Option String
  accessKey : Option String
  secretKey : Option String
  sessionToken : Option String
  endpoint : String
  endpointRegion : Option String
  useSsl : Bool
  pathStyleAccess : Bool
  maxAttempts : Option (BoundedInt .signed32)
  retryMode : RetryMode
  maxConnections : BoundedInt .signed32
  connectTimeout : DurationText
  useInstanceCredentials : Bool
  iamRole : Option String
  iamRoleSessionName : String
  useProxyFromEnvironment : Bool
  credentialsProvider : Option String
  deriving DecidableEq

namespace Settings

/-- The typed values of the settings that a view finds. -/
def ofView (view : View) : Except SettingError Settings := do
  return {
    bucket := view.scope
    accessKey := ← view.read String S3.accessKey
    secretKey := ← view.read String S3.secretKey
    sessionToken := ← view.read String S3.sessionToken
    endpoint := ← view.demand String S3.endpoint
    endpointRegion := ← view.read String S3.endpointRegion
    useSsl := ← view.demand Bool S3.useSsl
    pathStyleAccess := ← view.demand Bool S3.pathStyleAccess
    maxAttempts := ← view.read (BoundedInt .signed32) S3.maxAttempts
    retryMode := ← view.demand RetryMode S3.retryMode
    maxConnections := ← view.demand (BoundedInt .signed32) S3.maxConnections
    connectTimeout := ← view.demand DurationText S3.connectTimeout
    useInstanceCredentials := ← view.demand Bool S3.useInstanceCredentials
    iamRole := ← view.read String S3.iamRole
    iamRoleSessionName := ← view.demand String S3.iamRoleSessionName
    useProxyFromEnvironment := ← view.demand Bool S3.useProxyFromEnvironment
    credentialsProvider := ← view.read String S3.credentialsProvider }

/-- Whether the bucket goes into the host of a request. -/
def useVirtualAddressing (settings : Settings) : Bool :=
  !settings.pathStyleAccess

/-- The signing region: the one that is set, or the one the endpoint names. -/
def region? (settings : Settings) : Option String :=
  match settings.endpointRegion with
  | some region => some region
  | none => regionOf? settings.endpoint

/-- The credentials, if there are any. -/
def credentials? (settings : Settings) : Except SettingError (Option Credentials) :=
  match settings.accessKey, settings.secretKey with
  | some access, some secret => .ok (some ⟨access, secret, settings.sessionToken⟩)
  | none, none => .ok none
  | some _, none => .error (.missing (layout.keyUnder S3.secretKey.suffix settings.bucket))
  | none, some _ => .error (.missing (layout.keyUnder S3.accessKey.suffix settings.bucket))

end Settings

/-! ### Showing typed values -/

def Credentials.describe (credentials : Credentials) : String :=
  Text.describedRecord "S3Credentials" ("access_key", Text.quoted redacted)
    [("secret_key", Text.quoted redacted),
      ("session_token", Text.describedSecret credentials.sessionToken)]

def Settings.describe (settings : Settings) : String :=
  Text.describedRecord "S3Config" ("bucket", Text.describedText settings.bucket)
    [("access_key", Text.describedSecret settings.accessKey),
      ("secret_key", Text.describedSecret settings.secretKey),
      ("session_token", Text.describedSecret settings.sessionToken),
      ("endpoint", Text.quoted settings.endpoint),
      ("endpoint_region", Text.describedText settings.endpointRegion),
      ("use_ssl", Text.describedBool settings.useSsl),
      ("path_style_access", Text.describedBool settings.pathStyleAccess),
      ("max_attempts", Text.describedOption (settings.maxAttempts.map BoundedInt.toText)),
      ("retry_mode", settings.retryMode.describe),
      ("max_connections", settings.maxConnections.toText),
      ("connect_timeout", settings.connectTimeout.describe),
      ("use_instance_credentials", Text.describedBool settings.useInstanceCredentials),
      ("iam_role", Text.describedText settings.iamRole),
      ("iam_role_session_name", Text.quoted settings.iamRoleSessionName),
      ("use_proxy_from_env", Text.describedBool settings.useProxyFromEnvironment),
      ("credentials_provider", Text.describedText settings.credentialsProvider)]

end S3

end ConnectorSettings
