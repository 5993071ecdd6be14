/-
# `Model.Installation` — the connections as they are installed

What `Model.Integration` leaves out of a connection: the account it is for, the refresh
token, the expiry, the scopes and who has connected it.  The methods of
`IntegrationRepository` here are those of the requests; each ends in one commit, which
writes of a row that was read before no column but those it has changed.

    uq_integration_connections_workspace_provider_account
        one connection of a workspace for each account
    uq_integration_subscriptions_connection_event
        one subscription of a connection for each type of event

Left out are `configuration`, which nothing reads, and the times of the rows.
-/
import ForkRoom.Model.Database
import ForkRoom.Model.Integration

namespace ForkRoom

/-! ## What the provider answers -/

/-- `ProviderInstallation` -/
structure ProviderInstallation where
  externalAccountId : String
  externalAccountName : String
  accessToken : String
  refreshToken : Option String
  expiresAt : Option Datetime
  scopes : List String
  deriving DecidableEq

namespace SlackProvider

/-- `payload.get(field)` -/
def get (payload : List (String × Json)) (field : String) : Option Json :=
  (payload.find? fun p => p.1 = field).map Prod.snd

/-- `_required_string` -/
def requiredString (payload : List (String × Json)) (field : String) : Except String String :=
  match get payload field with
  | some (.str value) =>
      if value = "" then .error ("Slack response is missing " ++ field) else .ok value
  | _ => .error ("Slack response is missing " ++ field)

/-- `_required_mapping` -/
def requiredMapping (payload : List (String × Json)) (field : String) :
    Except String (List (String × Json)) :=
  match get payload field with
  | some (.obj fields) => .ok fields
  | _ => .error ("Slack response is missing " ++ field)

/-- `_optional_string` -/
def optionalString (payload : List (String × Json)) (field : String) : Option String :=
  match get payload field with
  | some (.str value) => if value = "" then none else some value
  | _ => none

/-- `_string` -/
def string (payload : List (String × Json)) (field : String) : String :=
  match get payload field with
  | some (.str value) => value
  | _ => ""

/-- The seconds of `expires_in`; a Python boolean is an integer. -/
def expiresIn (payload : List (String × Json)) : Option Int :=
  match get payload "expires_in" with
  | some (.int n) => if n > 0 then some n else none
  | some (.bool true) => some 1
  | _ => none

/-- `exchange_code`, from the body of a response that `_request` has let through. -/
def installation (now : Datetime) (payload : List (String × Json)) :
    Except String ProviderInstallation := do
  let accessToken ← requiredString payload "access_token"
  let team ← requiredMapping payload "team"
  let scopes := ((string payload "scope").splitOn ",").filter (· ≠ "")
  let expiresAt := (expiresIn payload).map fun seconds => now + seconds * 1000000
  let externalAccountId ← requiredString team "id"
  let externalAccountName ← requiredString team "name"
  .ok
    { externalAccountId := externalAccountId
      externalAccountName := externalAccountName
      accessToken := accessToken
      refreshToken := optionalString payload "refresh_token"
      expiresAt := expiresAt
      scopes := scopes }

/-- `_request`, from the body of a response with a status of success. -/
def response : Json → Except String (List (String × Json))
  | .obj payload =>
      match get payload "ok" with
      | some (.bool true) => .ok payload
      | _ =>
          let message :=
            match get payload "error" with
            | some (.str error) => error
            | _ => "unknown_error"
          .error ("Slack rejected the request: " ++ message)
  | _ => .error "Slack returned an invalid response"

end SlackProvider

/-! ## Rows -/

structure Installation extends IntegrationConnection where
  externalAccountId : String
  externalAccountName : String
  refreshTokenEncrypted : Option String
  tokenExpiresAt : Option Datetime
  scopes : List String
  connectedById : UUID
  lastSyncedAt : Option Datetime
  lastError : Option String
  deriving DecidableEq

instance : Rows.Keyed Installation UUID := ⟨fun c => c.id⟩

/-- What a connection is of: no two connections have the same. -/
def Installation.account (c : Installation) : UUID × IntegrationProvider × String :=
  (c.workspaceId, c.provider, c.externalAccountId)

structure InstallationTables where
  connections : List Installation := []
  subscriptions : List IntegrationSubscription := []

namespace InstallationRepository

/-! ## Connections -/

/-- The row of a connection that is not there yet. -/
def newConnection (id workspaceId : UUID) (provider : IntegrationProvider) (connectedById : UUID)
    (installation : ProviderInstallation) : Installation :=
  { id := id
    workspaceId := workspaceId
    provider := provider
    status := .active
    accessTokenEncrypted := none
    externalAccountId := installation.externalAccountId
    externalAccountName := installation.externalAccountName
    refreshTokenEncrypted := none
    tokenExpiresAt := none
    scopes := []
    connectedById := connectedById
    lastSyncedAt := none
    lastError := none }

/-- The assignments of `upsert_connection`. -/
def installed (c : Installation) (connectedById : UUID) (installation : ProviderInstallation)
    (accessTokenEncrypted : String) (refreshTokenEncrypted : Option String) : Installation :=
  { c with
    status := .active
    externalAccountName := installation.externalAccountName
    accessTokenEncrypted := some accessTokenEncrypted
    refreshTokenEncrypted := refreshTokenEncrypted
    tokenExpiresAt := installation.expiresAt
    scopes := installation.scopes
    connectedById := connectedById
    lastError := none }

/-- The assignments of `mark_verified`. -/
def verified (verifiedAt : Datetime) (c : Installation) : Installation :=
  { c with status := .active, lastSyncedAt := some verifiedAt, lastError := none }

/-- The assignments of `mark_revoked`. -/
def revoked (c : Installation) : Installation :=
  { c with
    status := .revoked
    accessTokenEncrypted := none
    refreshTokenEncrypted := none
    tokenExpiresAt := none }

/-- The row as it is stored once a changed object is flushed over it. -/
def merge (loaded c stored : Installation) : Installation :=
  { stored with
    status := Rows.column loaded.status c.status stored.status
    externalAccountName :=
      Rows.column loaded.externalAccountName c.externalAccountName stored.externalAccountName
    accessTokenEncrypted :=
      Rows.column loaded.accessTokenEncrypted c.accessTokenEncrypted stored.accessTokenEncrypted
    refreshTokenEncrypted :=
      Rows.column loaded.refreshTokenEncrypted c.refreshTokenEncrypted stored.refreshTokenEncrypted
    tokenExpiresAt := Rows.column loaded.tokenExpiresAt c.tokenExpiresAt stored.tokenExpiresAt
    scopes := Rows.column loaded.scopes c.scopes stored.scopes
    connectedById := Rows.column loaded.connectedById c.connectedById stored.connectedById
    lastSyncedAt := Rows.column loaded.lastSyncedAt c.lastSyncedAt stored.lastSyncedAt
    lastError := Rows.column loaded.lastError c.lastError stored.lastError }

/-- The `SELECT` of `upsert_connection`. -/
def findAccount (workspaceId : UUID) (provider : IntegrationProvider) (externalAccountId : String)
    (t : InstallationTables) : Option Installation :=
  t.connections.find? fun c => c.account = (workspaceId, provider, externalAccountId)

/-- The `INSERT` of a connection, with its keys and references. -/
def insertConnection (c : Installation) (db : Db) (t : InstallationTables) :
    Option InstallationTables :=
  if t.connections.any (fun c' => c'.id = c.id || c'.account = c.account) then none
  else if db.workspaces.any (fun w => w.id = c.workspaceId) &&
      db.users.any (fun u => u.id = c.connectedById) then
    some { t with connections := t.connections ++ [c] }
  else none

/-- The `UPDATE` of a connection, where a column has changed; it fails when the row is gone. -/
def updateConnection (loaded c : Installation) (db : Db) (t : InstallationTables) :
    Option InstallationTables :=
  if c = loaded then some t
  else
    match Rows.find c.id t.connections with
    | none => none
    | some stored =>
        if db.users.any (fun u => u.id = (merge loaded c stored).connectedById) then
          some { t with
            connections := Rows.modify c.id (fun _ => merge loaded c stored) t.connections }
        else none

/-! ## Subscriptions -/

/-- `list_subscriptions` -/
def listSubscriptions (connectionId : UUID) (t : InstallationTables) :
    List IntegrationSubscription :=
  t.subscriptions.filter fun s => s.connectionId = connectionId

/-- A subscription of `ensure_subscriptions`. -/
def newSubscription (id connectionId : UUID) (eventType : IntegrationEventType) :
    IntegrationSubscription :=
  { id := id
    connectionId := connectionId
    eventType := eventType
    enabled := false
    destinationId := none
    destinationName := none }

/-- The subscriptions that `ensure_subscriptions` adds; `fresh` are the `uuid4()`s. -/
def missing (connectionId : UUID) (eventTypes : List IntegrationEventType) (fresh : Nat → UUID)
    (existing : List IntegrationSubscription) : List IntegrationSubscription :=
  (eventTypes.filter fun e => e ∉ existing.map IntegrationSubscription.eventType).mapIdx
    fun i e => newSubscription (fresh i) connectionId e

/-- The row as it is stored once a changed subscription is flushed over it. -/
def mergeSubscription (loaded s stored : IntegrationSubscription) : IntegrationSubscription :=
  { stored with
    enabled := Rows.column loaded.enabled s.enabled stored.enabled
    destinationId := Rows.column loaded.destinationId s.destinationId stored.destinationId
    destinationName := Rows.column loaded.destinationName s.destinationName stored.destinationName }

/-- The `INSERT`s of subscriptions, with their keys and references. -/
def insertSubscriptions (new : List IntegrationSubscription) (t : InstallationTables) :
    Option InstallationTables :=
  let rows := t.subscriptions ++ new
  if (rows.map IntegrationSubscription.id).Nodup ∧
      (rows.map fun s => (s.connectionId, s.eventType)).Nodup ∧
      ∀ s ∈ new, s.connectionId ∈ t.connections.map (fun c => c.id) then
    some { t with subscriptions := rows }
  else none

/-- The `UPDATE` of a subscription, where a column has changed. -/
def updateSubscription (loaded s : IntegrationSubscription) (t : InstallationTables) :
    Option InstallationTables :=
  if s = loaded then some t
  else
    match t.subscriptions.find? fun r => r.id = s.id with
    | none => none
    | some _ =>
        some { t with subscriptions := t.subscriptions.map fun r =>
          if r.id = s.id then mergeSubscription loaded s r else r }

/-- A flush of changed and of new subscriptions: all of it, or nothing. -/
def saveSubscriptions (changed : List (IntegrationSubscription × IntegrationSubscription))
    (new : List IntegrationSubscription) (t : InstallationTables) : Option InstallationTables :=
  (changed.foldlM (fun t p => updateSubscription p.1 p.2 t) t).bind (insertSubscriptions new)

end InstallationRepository

end ForkRoom
