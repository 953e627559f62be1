import Phrasebook.Catalog.Basic
import Phrasebook.Json.Decode
import Phrasebook.Text.Capital

/-!
# Providers

A provider is asked to translate the templates of some keys from one language to another and
answers with templates or with a fault. What it answers may depend on everything it was asked
before. One provider marks every template for tests without a network; the other one sends each
request to a service over a transport, which is a parameter.
-/

namespace Phrasebook

/-- A request for templates in another language. -/
structure ProviderRequest where
  sourceLocale : String
  targetLocale : String
  keys : Catalog
deriving DecidableEq

/-- Why a provider gives no templates. -/
inductive ProviderFault where
  /-- The service cannot be reached. -/
  | transport (endpoint message : String)
  /-- The service answers with a status of failure. -/
  | status (endpoint : String) (code : Nat) (body : String)
  /-- The answer of the service cannot be understood. -/
  | decode (endpoint : String)
deriving DecidableEq, Repr

def ProviderFault.describe : ProviderFault → String
  | transport endpoint message => "request to " ++ endpoint ++ " failed: " ++ message
  | status endpoint code body =>
    endpoint ++ " answered with status " ++ toString code ++ ": " ++ body
  | decode endpoint => "could not decode the response from " ++ endpoint

/-- What answers a request, given the requests before it. -/
abbrev Provider :=
  List ProviderRequest → ProviderRequest → Except ProviderFault Catalog

namespace Provider

def mark (locale template : String) : String :=
  "[" ++ Text.Capital.ofString locale ++ "] " ++ template

/-- The provider that marks every template with the target language. -/
def marking : Provider :=
  fun _ request ↦
    .ok (.ofList (request.keys.entries.map fun (key, template) ↦
      (key, mark request.targetLocale template)))

/-- What a service needs to know who asks, and where it is. -/
structure Account where
  apiKey : String
  projectId : String
  endpoint : String
deriving DecidableEq, Repr

/-- A message to a service. -/
structure Post where
  endpoint : String
  body : String
deriving DecidableEq, Repr

/-- What comes back for a message. -/
inductive Reply where
  | unreachable (message : String)
  | answer (status : Nat) (body : String)
deriving DecidableEq, Repr

/-- What carries messages to a service, given the messages before. -/
abbrev Transport :=
  List Post → Post → Reply

def textMember (name value : String) : String × Json.Value :=
  (name, .text value)

def post (account : Account) (request : ProviderRequest) : Post where
  endpoint := account.endpoint
  body := (Json.Value.object
    [textMember "apiKey" account.apiKey,
      textMember "projectId" account.projectId,
      textMember "fromLang" request.sourceLocale,
      textMember "toLang" request.targetLocale,
      ("keys", .object (request.keys.entries.map fun (key, text) ↦ textMember key text)),
      textMember "format" "text"]).render

/-- The templates in the body of an answer, under the name `translated`; none when the name is
missing. -/
def decodeBody : Json.Reader Catalog :=
  .record
    { title := "struct TranslateResponse"
      fields := [⟨"translated", do
        let entries ← .textObject
        return fun _ ↦ Catalog.ofList entries⟩]
      initial := .empty
      allowsShortLists := true }

def failureStatus : Nat :=
  400

/-- The templates in a reply. -/
def interpret (endpoint : String) : Reply → Except ProviderFault Catalog
  | .unreachable message => .error (.transport endpoint message)
  | .answer status body =>
    if failureStatus ≤ status then .error (.status endpoint status body)
    else
      match Json.Reader.readAll decodeBody body with
      | .ok catalog => .ok catalog
      | .error _ => .error (.decode endpoint)

/-- The provider that asks a service. -/
def service (account : Account) (transport : Transport) : Provider :=
  fun earlier request ↦
    interpret account.endpoint (transport (earlier.map (post account)) (post account request))

end Provider

end Phrasebook
