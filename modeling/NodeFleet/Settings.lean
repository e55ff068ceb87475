import NodeFleet.Cloud.Connection

/-!
# Settings

The settings of a provisioner, read from environment variables. Every required variable that is
missing is reported in one error. A variable whose value is no UTF-8 text counts as unset.
-/

namespace NodeFleet

/-- Environment variables with the bytes of their values. -/
structure Environment where
  values : List (String × List UInt8)

/-- The text of a variable. -/
def Environment.text? (e : Environment) (name : String) : Option String :=
  (e.values.lookup name).bind fun bytes => String.fromUTF8? (ByteArray.mk bytes.toArray)

/-- The settings of a provisioner; the lifetime of cached lists is in seconds. -/
structure Settings where
  apiUrl : String
  apiKey : String
  secretKey : String
  verifySsl : Bool := true
  clusterName : String
  cacheTtl : Nat := 900
  namePrefix : String := "karpenter"
deriving DecidableEq

/-- Why settings are refused. -/
inductive SettingsError where
  | missing (names : List String)
  | invalid (name : String) (value : String)
deriving DecidableEq

/-- The kind of the error. -/
def SettingsError.kind : SettingsError → String
  | .missing _ => "MissingEnvVars"
  | .invalid _ _ => "InvalidValue"

/-- The wording of the error. -/
def SettingsError.message : SettingsError → String
  | .missing names =>
      "missing required environment variables: " ++ ", ".intercalate names
  | .invalid name value => s!"invalid value for {name}: {value}"

namespace Settings

/-- The required variables in the order in which they are reported. -/
def requiredVariables : List String := [
  "CLOUDSTACK_API_URL", "CLOUDSTACK_API_KEY", "CLOUDSTACK_SECRET_KEY", "CLUSTER_NAME"]

/-- The value of a required variable; an empty one is as good as none. -/
def requiredValue (e : Environment) (name : String) : String :=
  (e.text? name).getD ""

/-- A decimal number below `2 ^ 64`, with or without a plus sign. -/
def readSeconds? (value : String) : Option Nat :=
  let digits := match value.toList with
    | '+' :: rest => rest
    | cs => cs
  if digits.isEmpty ∨ ¬ digits.all Char.isDigit then none
  else
    let n := digits.foldl (fun n c => n * 10 + (c.toNat - 48)) 0
    if n < Nat.pow 2 64 then some n else none

/-- The lifetime of cached lists: a positive number of seconds, or the default. -/
def readCacheTtl (e : Environment) : Except SettingsError Nat :=
  match e.text? "CLOUDSTACK_CACHE_TTL_SECONDS" with
  | none => .ok 900
  | some value =>
      match readSeconds? value with
      | some (seconds + 1) => .ok (seconds + 1)
      | _ => .error (.invalid "CLOUDSTACK_CACHE_TTL_SECONDS" value)

/-- Reads the settings. -/
def ofEnvironment (e : Environment) : Except SettingsError Settings :=
  match requiredVariables.filter fun name => requiredValue e name = "" with
  | [] => do
      let cacheTtl ← readCacheTtl e
      return {
        apiUrl := requiredValue e "CLOUDSTACK_API_URL"
        apiKey := requiredValue e "CLOUDSTACK_API_KEY"
        secretKey := requiredValue e "CLOUDSTACK_SECRET_KEY"
        verifySsl := decide (e.text? "CLOUDSTACK_VERIFY_SSL" ≠ some "false")
        clusterName := requiredValue e "CLUSTER_NAME"
        cacheTtl := cacheTtl
        namePrefix :=
          ((e.text? "CLOUDSTACK_INSTANCE_NAME_PREFIX").filter fun v => v ≠ "").getD "karpenter" }
  | missing => .error (.missing missing)

/-- The connection settings for the cloud. -/
def connection (s : Settings) : Cloud.Connection :=
  { apiUrl := s.apiUrl, apiKey := s.apiKey, secretKey := s.secretKey, verifySsl := s.verifySsl }

/-- The fields that may be shown. -/
def shown (s : Settings) : List (String × String) := [
  ("api_url", Text.quoted s.apiUrl),
  ("api_key", Text.quoted "<redacted>"),
  ("secret_key", Text.quoted "<redacted>"),
  ("verify_ssl", if s.verifySsl then "true" else "false"),
  ("cluster_name", Text.quoted s.clusterName),
  ("cache_ttl", Text.duration (s.cacheTtl * 1000)),
  ("instance_name_prefix", Text.quoted s.namePrefix)]

/-- The settings on one line. -/
def text (s : Settings) : String :=
  Text.record "Options" s.shown

/-- The settings on a line each. -/
def lines (s : Settings) : String :=
  Text.recordLines "Options" s.shown

end Settings

end NodeFleet
