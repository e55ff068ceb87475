import NodeFleet.Cloud.Call
import NodeFleet.Text.Duration
import NodeFleet.Text.Quoted

/-!
# Connection settings

How a client reaches the cloud. The settings are checked in a fixed order and the first fault is
reported. Their texts never show the keys.
-/

namespace NodeFleet.Cloud

/-- Where and with which keys the cloud is called; the timeout is in milliseconds. -/
structure Connection where
  apiUrl : String
  apiKey : String
  secretKey : String
  verifySsl : Bool := true
  timeout : Nat := 60000
deriving DecidableEq

namespace Connection

/-- Checks the settings. -/
def validate (c : Connection) : Except CallError Unit :=
  if c.apiUrl = "" then .error (.invalidConnection "api_url is required")
  else if !(("http://".toList.isPrefixOf c.apiUrl.toList)
      || "https://".toList.isPrefixOf c.apiUrl.toList) then
    .error (.invalidConnection ("api_url must be an http(s) URL: " ++ c.apiUrl))
  else if c.apiKey = "" then .error (.invalidConnection "api_key is required")
  else if c.secretKey = "" then .error (.invalidConnection "secret_key is required")
  else if c.timeout = 0 then .error (.invalidConnection "request_timeout must be positive")
  else .ok ()

/-- The fields that may be shown. -/
def shown (c : Connection) : List (String × String) := [
  ("api_url", Text.quoted c.apiUrl),
  ("api_key", Text.quoted "<redacted>"),
  ("secret_key", Text.quoted "<redacted>"),
  ("verify_ssl", if c.verifySsl then "true" else "false"),
  ("request_timeout", Text.duration c.timeout)]

/-- The settings on one line. -/
def text (c : Connection) : String :=
  Text.record "ClientConfig" c.shown

/-- The settings on a line each. -/
def lines (c : Connection) : String :=
  Text.recordLines "ClientConfig" c.shown

end Connection

end NodeFleet.Cloud
