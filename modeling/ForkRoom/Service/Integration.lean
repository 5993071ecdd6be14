/-
# `Service.Integration` — integration requests

`IntegrationService` of `app/services/integration.py`, as far as it decides who may do
what.  What a call does for those who may (with a provider, a cipher, the tables of
`Model.Integration`) is given to it.

    membership     lists, one connection, subscriptions, deliveries
    manager        authorize, destinations, changed subscriptions, test, disconnect
    callback       the manager that the OAuth state names
-/
import ForkRoom.Model.Integration
import ForkRoom.Model.Repositories

namespace ForkRoom

inductive IntegrationError where
  | workspaceNotFound | integrationNotFound | accessDenied | providerUnavailable | oauthState
  | configuration (text : String)
  | provider (text : String)
  deriving DecidableEq, Repr

/-- What is kept of an authorization that has begun, beside its user and its workspace. -/
structure IntegrationOAuthState where
  provider : IntegrationProvider
  codeVerifier : String
  returnPath : String

structure IntegrationSubscriptionUpdate where
  eventType : IntegrationEventType
  enabled : Bool
  destinationId : Option String
  destinationName : Option String
  configuration : Json

inductive IntegrationCall where
  | listConnections
  | getConnection (connectionId : UUID)
  | authorize (provider : IntegrationProvider) (returnPath : Option String)
  /-- the callback, with a state that `consume` has found -/
  | completeAuthorization (provider : IntegrationProvider) (oauthState : IntegrationOAuthState)
      (code providerError : Option String)
  | listDestinations (connectionId : UUID)
  | listSubscriptions (connectionId : UUID)
  | updateSubscriptions (connectionId : UUID) (updates : List IntegrationSubscriptionUpdate)
  | sendTest (connectionId : UUID) (destinationId : Option String)
  | listDeliveries (connectionId : UUID) (limit offset : Nat)
  | disconnect (connectionId : UUID)

/-- The call is for owners and admins. -/
def IntegrationCall.manages : IntegrationCall → Bool
  | listConnections | getConnection _ | listSubscriptions _ | listDeliveries .. => false
  | authorize .. | completeAuthorization .. | listDestinations _ | updateSubscriptions ..
  | sendTest .. | disconnect _ => true

def IntegrationCall.connectionId : IntegrationCall → Option UUID
  | listConnections | authorize .. | completeAuthorization .. => none
  | getConnection i | listDestinations i | listSubscriptions i | updateSubscriptions i _
  | sendTest i _ | listDeliveries i _ _ | disconnect i => some i

/-- What a call that has found its caller and its connection comes to. -/
inductive IntegrationAnswer where
  | body (json : Json)
  | redirect (url : String)

namespace IntegrationService

def requireMembership (userId workspaceId : UUID) (db : Db) :
    Except IntegrationError WorkspaceMember :=
  match WorkspaceRepository.getById workspaceId db with
  | none => .error .workspaceNotFound
  | some _ =>
      match WorkspaceRepository.getMembership workspaceId userId db with
      | none => .error .workspaceNotFound
      | some membership => .ok membership

/-- `_require_manager`: the reads of `_require_membership`, and the role. -/
def requireManager (userId workspaceId : UUID) (db : Db) : Except IntegrationError Unit := do
  let membership ← requireMembership userId workspaceId db
  if canManageWorkspace membership.role then .ok () else .error .accessDenied

def requireConnection (workspaceId connectionId : UUID) (connections : List IntegrationConnection) :
    Except IntegrationError IntegrationConnection :=
  match connections.find? fun c =>
      decide (c.id = connectionId) && decide (c.workspaceId = workspaceId) with
  | none => .error .integrationNotFound
  | some connection => .ok connection

/-- What a call has to find before it does anything. -/
def gate (userId workspaceId : UUID) (call : IntegrationCall) (db : Db)
    (connections : List IntegrationConnection) :
    Except IntegrationError (Option IntegrationConnection) := do
  if call.manages then requireManager userId workspaceId db
  else
    let _ ← requireMembership userId workspaceId db
  match call.connectionId with
  | none => .ok none
  | some i => do
      let connection ← requireConnection workspaceId i connections
      .ok (some connection)

/-- A text that is not empty. -/
def given (text : Option String) : Bool := text.any fun t => t ≠ ""

/-- `urlencode` leaves these keys and values as they are. -/
def callbackRedirect (frontendUrl returnPath key value : String) : String :=
  frontendUrl ++ returnPath ++ "?" ++ key ++ "=" ++ value

/-- The callback: `install` exchanges the code and keeps the connection.  What goes wrong is
told in the redirect. -/
def completeAuthorization (frontendUrl : String) (install : Except IntegrationError Unit)
    (userId workspaceId : UUID) (provider : IntegrationProvider)
    (oauthState : IntegrationOAuthState) (code providerError : Option String) (db : Db) :
    Except IntegrationError String :=
  let redirect := callbackRedirect frontendUrl oauthState.returnPath
  if oauthState.provider ≠ provider then .error .oauthState
  else if given providerError || !given code then
    .ok (redirect "error"
      (if providerError = some "access_denied" then "access_denied" else "oauth_failed"))
  else
    match (do requireManager userId workspaceId db; install : Except IntegrationError Unit) with
    | .ok () => .ok (redirect "connected" "slack")
    | .error (.provider _) | .error .providerUnavailable => .ok (redirect "error" "provider_failed")
    | .error .accessDenied | .error .workspaceNotFound =>
        .ok (redirect "error" "permission_denied")
    | .error (.configuration _) => .ok (redirect "error" "configuration_error")
    | .error e => .error e

/-- A call, given what it does once it is let through, and what the callback installs. -/
def perform (frontendUrl : String)
    (goOn : IntegrationCall → Option IntegrationConnection → Except IntegrationError Json)
    (install : IntegrationCall → Except IntegrationError Unit) (userId workspaceId : UUID)
    (call : IntegrationCall) (db : Db) (connections : List IntegrationConnection) :
    Except IntegrationError IntegrationAnswer :=
  match call with
  | .completeAuthorization provider oauthState code providerError => do
      let url ← completeAuthorization frontendUrl (install call) userId workspaceId provider
        oauthState code providerError db
      .ok (.redirect url)
  | call => do
      let connection ← gate userId workspaceId call db connections
      let json ← goOn call connection
      .ok (.body json)

end IntegrationService

end ForkRoom
