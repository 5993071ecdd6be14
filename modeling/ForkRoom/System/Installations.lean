/-
# `System.Installations` — installing, configuring and revoking, request by request

The requests of `IntegrationService` that change something.  Between what a request reads,
what it asks of the provider and what it commits, others run, and the rows of the core
change, a deleted workspace with its connections (`core`).

    authorize       gate · keep the state
    callback        take the state · gate · exchange, verify · SELECT · commit
                    · SELECT subscriptions · commit
    subscriptions   gate · SELECT · commit
    test            gate · verify, send · commit
    disconnect      gate · revoke · commit

A gate is the manager, or the member, and the connection.  The state of an authorization
is taken by one script, `GET` and `DEL`.  Who is told an error has changed nothing after it;
a commit that the database refuses is a `failed` request.
-/
import ForkRoom.Lib.Expiring
import ForkRoom.Lib.Machine
import ForkRoom.Lib.Request
import ForkRoom.Model.Installation
import ForkRoom.Service.Integration

namespace ForkRoom

namespace Installations

open IntegrationService InstallationRepository

/-- What is fixed when the servers are started.  `cipher` decrypts under the configured key,
or is the text of the error that there is none. -/
structure Deployment where
  frontendUrl : String
  stateTtlSeconds : Nat
  available : IntegrationProvider → Bool
  cipher : Except String (String → Option String)
  ttl_ge : 300 ≤ stateTtlSeconds
  ttl_le : stateTtlSeconds ≤ 1800

/-- What is kept of an authorization that has begun. -/
structure PendingAuthorization extends IntegrationOAuthState where
  workspaceId : UUID
  userId : UUID

/-- A state that a callback has taken, with what was kept under it. -/
structure Taken where
  state : String
  pending : PendingAuthorization

/-- A connection that a callback has written. -/
structure Installed where
  connectionId : UUID
  taken : Taken

/-- `IntegrationSubscriptionsUpdateRequest`, as its validators let it through. -/
structure UpdateRequest where
  items : List IntegrationSubscriptionUpdate
  unique : (items.map IntegrationSubscriptionUpdate.eventType).Nodup
  destined : ∀ u ∈ items, u.enabled →
    IntegrationService.given u.destinationId ∧ IntegrationService.given u.destinationName

inductive Answer where
  | authorization (state : String)
  | redirect (url : String)
  | done

/-- A request in flight, by what it does next. -/
inductive Task where
  | issuing (pending : PendingAuthorization)
  | authorizing (taken : Taken)
  | exchanging (taken : Taken)
  | selecting (taken : Taken) (installation : ProviderInstallation)
  | upserting (taken : Taken) (loaded : Option Installation) (row : Installation)
  | listing (connectionId : UUID) (answer : Answer)
  | ensuring (connectionId : UUID) (new : List IntegrationSubscription) (answer : Answer)
  | configuring (connectionId : UUID) (updates : UpdateRequest)
  | saving (changed : List (IntegrationSubscription × IntegrationSubscription))
      (new : List IntegrationSubscription)
  | testing (loaded : Installation)
  | verifying (loaded : Installation)
  | revoking (loaded : Installation)
  | disconnecting (loaded : Installation)
  | answered (answer : Except IntegrationError Answer)
  | failed

structure State extends InstallationTables where
  clock : Datetime
  db : Db
  states : String → Expiring.Key Datetime PendingAuthorization
  tasks : List Task
  /-- the states that `authorize` has kept, the last first -/
  issued : List String
  /-- the states that callbacks have taken, the last first -/
  takes : List String
  /-- what callbacks have written, the last first -/
  installs : List Installed

def start (clock : Datetime) (db : Db) : State := ⟨{}, clock, db, fun _ => none, [], [], [], []⟩

/-- What comes from outside: what is drawn, and what the provider answers. -/
structure Outside where
  state : String
  id : UUID
  fresh : Nat → UUID
  accessTokenEncrypted : String
  refreshTokenEncrypted : String
  exchange : Except String Json
  call : Except String Unit

/-! ## Parts of the requests -/

def supportedEvents : List IntegrationEventType :=
  [.decisionActivated, .votingOpened, .votingClosed, .decisionLocked]

/-- `providers.get` -/
def provider (dep : Deployment) (name : IntegrationProvider) : Except IntegrationError Unit :=
  if dep.available name then .ok () else .error .providerUnavailable

/-- `_cipher` -/
def cipher (dep : Deployment) : Except IntegrationError (String → Option String) :=
  dep.cipher.mapError .configuration

/-- `_access_token` -/
def accessToken (dep : Deployment) (now : Datetime) (c : Installation) :
    Except IntegrationError String :=
  if c.status ≠ .active then .error (.configuration "Integration connection is not active")
  else if c.tokenExpiresAt.any fun t => t ≤ now then
    .error (.configuration "Integration credentials have expired")
  else
    match c.accessTokenEncrypted with
    | none => .error (.configuration "Integration credentials are unavailable")
    | some encrypted => do
        let decrypt ← cipher dep
        match decrypt encrypted with
        | some token => .ok token
        | none => .error (.configuration "Stored integration credentials could not be decrypted")

/-- `_require_connection` -/
def requireInstallation (workspaceId connectionId : UUID) (t : InstallationTables) :
    Except IntegrationError Installation :=
  match t.connections.find? fun c =>
      decide (c.id = connectionId) && decide (c.workspaceId = workspaceId) with
  | none => .error .integrationNotFound
  | some connection => .ok connection

/-- `return_path or f"/w/{workspace_id}/integrations"` -/
def safeReturnPath (workspaceId : UUID) (returnPath : Option String) : String :=
  match returnPath with
  | some path => if path = "" then "/w/" ++ workspaceId.str ++ "/integrations" else path
  | none => "/w/" ++ workspaceId.str ++ "/integrations"

/-- `frontend_url.rstrip("/")` -/
def frontend (dep : Deployment) : String :=
  String.ofList (dep.frontendUrl.toList.reverse.dropWhile (· = '/')).reverse

/-- `_callback_redirect` -/
def redirect (dep : Deployment) (pending : PendingAuthorization) (key value : String) : Task :=
  .answered (.ok (.redirect (callbackRedirect (frontend dep) pending.returnPath key value)))

/-- How a callback ends that has failed: what went wrong is told in the redirect. -/
def redirectError (dep : Deployment) (pending : PendingAuthorization) : IntegrationError → Task
  | .provider _ | .providerUnavailable => redirect dep pending "error" "provider_failed"
  | .accessDenied | .workspaceNotFound => redirect dep pending "error" "permission_denied"
  | .configuration _ => redirect dep pending "error" "configuration_error"
  | .integrationNotFound => .answered (.error .integrationNotFound)
  | .oauthState => .answered (.error .oauthState)

/-- The part of the callback between the gate and the encryption. -/
def exchange (dep : Deployment) (now : Datetime) (out : Outside) (name : IntegrationProvider) :
    Except IntegrationError ProviderInstallation := do
  provider dep name
  let json ← out.exchange.mapError .provider
  let payload ← (SlackProvider.response json).mapError .provider
  let installation ← (SlackProvider.installation now payload).mapError .provider
  out.call.mapError .provider
  let _ ← cipher dep
  .ok installation

/-- The destination of a test: the one that is asked for, or that of a subscription. -/
def testDestination (destinationId : Option String)
    (subscriptions : List IntegrationSubscription) : Option String :=
  match destinationId with
  | some destination => some destination
  | none =>
      (subscriptions.find? fun s => s.enabled && IntegrationService.given s.destinationId).bind
        fun s => s.destinationId

/-- The subscription that an update makes of one. -/
def configured (s : IntegrationSubscription) (update : IntegrationSubscriptionUpdate) :
    IntegrationSubscription :=
  { s with
    enabled := update.enabled
    destinationId := update.destinationId
    destinationName := update.destinationName }

/-- What `update_subscriptions` changes: of the subscriptions that are there. -/
def changes (updates : List IntegrationSubscriptionUpdate)
    (existing : List IntegrationSubscription) :
    List (IntegrationSubscription × IntegrationSubscription) :=
  updates.filterMap fun update =>
    (existing.find? fun s => s.eventType = update.eventType).map fun s => (s, configured s update)

/-- What `update_subscriptions` adds: for the types that have none. -/
def additions (connectionId : UUID) (updates : List IntegrationSubscriptionUpdate)
    (fresh : Nat → UUID) (existing : List IntegrationSubscription) :
    List IntegrationSubscription :=
  (updates.filter fun update =>
    update.eventType ∉ existing.map IntegrationSubscription.eventType).mapIdx
    fun i update => configured (newSubscription (fresh i) connectionId update.eventType) update

/-! ## Steps -/

inductive Action where
  | tick (clock : Datetime)
  | core (db : Db)
  | authorize (userId workspaceId : UUID) (name : IntegrationProvider)
      (returnPath : Option String) (codeVerifier : String)
  | callback (name : IntegrationProvider) (state code providerError : Option String)
  | listSubscriptions (userId workspaceId connectionId : UUID)
  | updateSubscriptions (userId workspaceId connectionId : UUID)
      (updates : UpdateRequest)
  | sendTest (userId workspaceId connectionId : UUID) (destinationId : Option String)
  | disconnect (userId workspaceId connectionId : UUID)
  | advance (i : Nat) (out : Outside)

/-- A task, or the answer to an error. -/
def answering (r : Except IntegrationError Task) : Task :=
  match r with
  | .ok task => task
  | .error e => .answered (.error e)

def State.begin (s : State) (task : Task) : State := { s with tasks := s.tasks ++ [task] }

def State.goOn (s : State) (i : Nat) (task : Task) : State :=
  { s with tasks := s.tasks.set i task }

/-- A commit, after which the task goes on. -/
def State.commit (s : State) (i : Nat) (tables : Option InstallationTables) (task : Task) : State :=
  match tables with
  | none => s.goOn i .failed
  | some t => { s.goOn i task with toInstallationTables := t }

def authorize (dep : Deployment) (s : State) (userId workspaceId : UUID)
    (name : IntegrationProvider) (returnPath : Option String) (codeVerifier : String) : Task :=
  let pending : PendingAuthorization :=
    ⟨⟨name, codeVerifier, safeReturnPath workspaceId returnPath⟩, workspaceId, userId⟩
  answering do
    requireManager userId workspaceId s.db
    let _ ← cipher dep
    provider dep name
    .ok (.issuing pending)

/-- The gate of the callback. -/
def regain (dep : Deployment) (s : State) (taken : Taken) : Task :=
  match requireManager taken.pending.userId taken.pending.workspaceId s.db with
  | .error e => redirectError dep taken.pending e
  | .ok () => .exchanging taken

/-- `complete_authorization` up to the gate. -/
def callback (dep : Deployment) (s : State) (name : IntegrationProvider)
    (state code providerError : Option String) : State :=
  match state with
  | none => s.begin (.answered (.error .oauthState))
  | some state =>
      if state = "" then s.begin (.answered (.error .oauthState))
      else
        match (s.states state).read s.clock with
        | none => s.begin (.answered (.error .oauthState))
        | some pending =>
            let s := { s with
              states := Function.update s.states state none
              takes := state :: s.takes }
            if pending.provider ≠ name then s.begin (.answered (.error .oauthState))
            else if IntegrationService.given providerError || !IntegrationService.given code then
              s.begin (redirect dep pending "error"
                (if providerError = some "access_denied" then "access_denied" else "oauth_failed"))
            else s.begin (.authorizing ⟨state, pending⟩)

def gated (s : State) (userId workspaceId connectionId : UUID) (manages : Bool) :
    Except IntegrationError Installation := do
  if manages then requireManager userId workspaceId s.db
  else
    let _ ← requireMembership userId workspaceId s.db
  requireInstallation workspaceId connectionId s.toInstallationTables

def updateSubscriptions (s : State) (userId workspaceId connectionId : UUID)
    (updates : UpdateRequest) : Except IntegrationError Task := do
  let connection ← gated s userId workspaceId connectionId true
  if updates.items.all fun update => update.eventType ∈ supportedEvents then
    .ok (.configuring connection.id updates)
  else .error (.configuration "Unsupported integration event type")

def sendTest (dep : Deployment) (s : State) (userId workspaceId connectionId : UUID)
    (destinationId : Option String) : Except IntegrationError Task := do
  let connection ← gated s userId workspaceId connectionId true
  let subscriptions := InstallationRepository.listSubscriptions connection.id s.toInstallationTables
  if (testDestination destinationId subscriptions).isNone then
    .error (.configuration "Select a destination before sending a test")
  else do
    provider dep connection.provider
    let _ ← accessToken dep s.clock connection
    .ok (.testing connection)

def disconnect (dep : Deployment) (s : State) (userId workspaceId connectionId : UUID) :
    Except IntegrationError Task := do
  let connection ← gated s userId workspaceId connectionId true
  provider dep connection.provider
  let _ ← accessToken dep s.clock connection
  .ok (.revoking connection)

/-- The row that a callback writes, over the one it has found. -/
def upserted (pending : PendingAuthorization) (installation : ProviderInstallation) (out : Outside)
    (loaded : Option Installation) : Installation :=
  installed (loaded.getD (newConnection out.id pending.workspaceId pending.provider pending.userId
      installation)) pending.userId installation out.accessTokenEncrypted
    (installation.refreshToken.map fun _ => out.refreshTokenEncrypted)

/-- The commit of `upsert_connection`. -/
def upsert (loaded : Option Installation) (row : Installation) (db : Db)
    (t : InstallationTables) : Option InstallationTables :=
  match loaded with
  | none => insertConnection row db t
  | some loaded => updateConnection loaded row db t

/-- What a request does next.  A state, an identifier and an encrypted token have random
bytes in them, so that they are none that there was. -/
def advance (dep : Deployment) (s : State) (i : Nat) (out : Outside) : Option State := do
  let task ← s.tasks[i]?
  match task with
  | .issuing pending => do
      guard (out.state ∉ s.issued)
      let key : Expiring.Key Datetime PendingAuthorization :=
        .putFor s.clock (dep.stateTtlSeconds * 1000000) pending
      pure { s.goOn i (.answered (.ok (.authorization out.state))) with
        states := Function.update s.states out.state key
        issued := out.state :: s.issued }
  | .authorizing taken => pure (s.goOn i (regain dep s taken))
  | .exchanging taken =>
      match exchange dep s.clock out taken.pending.provider with
      | .error e => pure (s.goOn i (redirectError dep taken.pending e))
      | .ok installation => pure (s.goOn i (.selecting taken installation))
  | .selecting taken installation => do
      let loaded := findAccount taken.pending.workspaceId taken.pending.provider
        installation.externalAccountId s.toInstallationTables
      guard (loaded.all fun c => c.accessTokenEncrypted ≠ some out.accessTokenEncrypted)
      pure (s.goOn i (.upserting taken loaded (upserted taken.pending installation out loaded)))
  | .upserting taken loaded row => do
      guard (loaded = none → row.id ∉ s.installs.map Installed.connectionId)
      match upsert loaded row s.db s.toInstallationTables with
      | none => pure (s.goOn i .failed)
      | some t =>
          pure { s.goOn i (.listing row.id (.redirect (callbackRedirect (frontend dep)
              taken.pending.returnPath "connected" "slack"))) with
            toInstallationTables := t
            installs := ⟨row.id, taken⟩ :: s.installs }
  | .listing connectionId answer =>
      let existing := InstallationRepository.listSubscriptions connectionId s.toInstallationTables
      pure (s.goOn i (.ensuring connectionId
        (InstallationRepository.missing connectionId supportedEvents out.fresh existing) answer))
  | .ensuring _ new answer =>
      pure (s.commit i (insertSubscriptions new s.toInstallationTables) (.answered (.ok answer)))
  | .configuring connectionId updates =>
      let existing := InstallationRepository.listSubscriptions connectionId s.toInstallationTables
      pure (s.goOn i (.saving (changes updates.items existing)
        (additions connectionId updates.items out.fresh existing)))
  | .saving changed new =>
      pure (s.commit i (saveSubscriptions changed new s.toInstallationTables)
        (.answered (.ok .done)))
  | .testing loaded =>
      match out.call with
      | .error text => pure (s.goOn i (.answered (.error (.provider text))))
      | .ok () => pure (s.goOn i (.verifying loaded))
  | .verifying loaded =>
      pure (s.commit i (updateConnection loaded (verified s.clock loaded) s.db
        s.toInstallationTables) (.answered (.ok .done)))
  | .revoking loaded =>
      match out.call with
      | .error text => pure (s.goOn i (.answered (.error (.provider text))))
      | .ok () => pure (s.goOn i (.disconnecting loaded))
  | .disconnecting loaded =>
      pure (s.commit i (updateConnection loaded (revoked loaded) s.db s.toInstallationTables)
        (.answered (.ok .done)))
  | .answered _ | .failed => none

/-- The tables once the rows of deleted workspaces are gone with what belongs to them. -/
def within (db : Db) (t : InstallationTables) : InstallationTables :=
  let connections := t.connections.filter fun c => db.workspaces.any fun w => w.id = c.workspaceId
  { connections := connections
    subscriptions :=
      t.subscriptions.filter fun s => connections.any fun c => c.id = s.connectionId }

def State.step (dep : Deployment) (s : State) : Action → Option State
  | .tick clock => if s.clock ≤ clock then some { s with clock := clock } else none
  | .core db =>
      -- a user who has connected something cannot be deleted
      if (within db s.toInstallationTables).connections.all fun c =>
          db.users.any fun u => u.id = c.connectedById then
        some { s with db := db, toInstallationTables := within db s.toInstallationTables }
      else none
  | .authorize userId workspaceId name returnPath codeVerifier =>
      some (s.begin (authorize dep s userId workspaceId name returnPath codeVerifier))
  | .callback name state code providerError => some (callback dep s name state code providerError)
  | .listSubscriptions userId workspaceId connectionId =>
      some (s.begin (answering ((gated s userId workspaceId connectionId false).map
        fun c => .listing c.id .done)))
  | .updateSubscriptions userId workspaceId connectionId updates =>
      some (s.begin (answering (updateSubscriptions s userId workspaceId connectionId updates)))
  | .sendTest userId workspaceId connectionId destinationId =>
      some (s.begin (answering (sendTest dep s userId workspaceId connectionId destinationId)))
  | .disconnect userId workspaceId connectionId =>
      some (s.begin (answering (disconnect dep s userId workspaceId connectionId)))
  | .advance i out => advance dep s i out

/-- Some run leads to `s`. -/
def Reachable (dep : Deployment) (s : State) : Prop :=
  ∃ clock db, Machine.Run (State.step dep) (fun _ _ => True) (start clock db) s

/-! ## What one step can do -/

/-- The user may manage the workspace. -/
def Managed (pending : PendingAuthorization) (s : State) : Prop :=
  requireManager pending.userId pending.workspaceId s.db = .ok ()

/-- The request is at its end. -/
def Task.Ended (task : Task) : Prop := (∃ answer, task = .answered answer) ∨ task = .failed

/-- The request asks for such an authorization. -/
def Action.Asks (pending : PendingAuthorization) (a : Action) : Prop :=
  ∃ returnPath codeVerifier, a =
    .authorize pending.userId pending.workspaceId pending.provider returnPath codeVerifier

/-- How a request begins that has passed its gate. -/
inductive Begins (dep : Deployment) (s : State) (a : Action) : Task → Prop
  | ended {task : Task} : task.Ended → Begins dep s a task
  | issuing {pending : PendingAuthorization} : a.Asks pending → Managed pending s →
      Begins dep s a (.issuing pending)
  | listing {c : Installation} {answer : Answer} : c ∈ s.connections →
      Begins dep s a (.listing c.id answer)
  | configuring {c : Installation} {updates : UpdateRequest} : c ∈ s.connections →
      (∀ u ∈ updates.items, u.eventType ∈ supportedEvents) →
      Begins dep s a (.configuring c.id updates)
  | testing {c : Installation} {token : String} : c ∈ s.connections →
      accessToken dep s.clock c = .ok token → Begins dep s a (.testing c)
  | revoking {c : Installation} {token : String} : c ∈ s.connections →
      accessToken dep s.clock c = .ok token → Begins dep s a (.revoking c)

/-- What the request does next may be refused. -/
def Task.Refusable : Task → Prop
  | .authorizing _ | .exchanging _ | .testing _ | .revoking _ => True
  | _ => False

/-- How a request goes on that writes nothing. -/
inductive Moves (dep : Deployment) (s : State) : Task → Task → Prop
  | failed {task : Task} : Moves dep s task .failed
  | ended {task task' : Task} : task.Refusable → task'.Ended → Moves dep s task task'
  | regained {taken : Taken} : Managed taken.pending s →
      Moves dep s (.authorizing taken) (.exchanging taken)
  | exchanged {taken : Taken} {installation : ProviderInstallation} {out : Outside} :
      exchange dep s.clock out taken.pending.provider = .ok installation →
      Moves dep s (.exchanging taken) (.selecting taken installation)
  | selected {taken : Taken} {installation : ProviderInstallation} {out : Outside}
      {loaded : Option Installation} :
      loaded = findAccount taken.pending.workspaceId taken.pending.provider
        installation.externalAccountId s.toInstallationTables →
      (∀ c, loaded = some c → c.accessTokenEncrypted ≠ some out.accessTokenEncrypted) →
      Moves dep s (.selecting taken installation)
        (.upserting taken loaded (upserted taken.pending installation out loaded))
  | listed {connectionId : UUID} {fresh : Nat → UUID} {answer : Answer} :
      Moves dep s (.listing connectionId answer)
        (.ensuring connectionId (InstallationRepository.missing connectionId supportedEvents fresh
          (InstallationRepository.listSubscriptions connectionId s.toInstallationTables)) answer)
  | configured {connectionId : UUID} {fresh : Nat → UUID} {updates : UpdateRequest} :
      Moves dep s (.configuring connectionId updates)
        (.saving (changes updates.items
            (InstallationRepository.listSubscriptions connectionId s.toInstallationTables))
          (additions connectionId updates.items fresh
            (InstallationRepository.listSubscriptions connectionId s.toInstallationTables)))
  | tested {loaded : Installation} : Moves dep s (.testing loaded) (.verifying loaded)
  | revoked {loaded : Installation} : Moves dep s (.revoking loaded) (.disconnecting loaded)

/-- What a request commits last. -/
inductive Commits (s : State) : Task → InstallationTables → Prop
  | ensured {connectionId : UUID} {new : List IntegrationSubscription} {answer : Answer}
      {t : InstallationTables} : insertSubscriptions new s.toInstallationTables = some t →
      Commits s (.ensuring connectionId new answer) t
  | saved {changed : List (IntegrationSubscription × IntegrationSubscription)}
      {new : List IntegrationSubscription} {t : InstallationTables} :
      saveSubscriptions changed new s.toInstallationTables = some t →
      Commits s (.saving changed new) t
  | verified {loaded : Installation} {t : InstallationTables} :
      updateConnection loaded (verified s.clock loaded) s.db s.toInstallationTables = some t →
      Commits s (.verifying loaded) t
  | disconnected {loaded : Installation} {t : InstallationTables} :
      updateConnection loaded (revoked loaded) s.db s.toInstallationTables = some t →
      Commits s (.disconnecting loaded) t

/-- One step, case by case. -/
inductive Steps (dep : Deployment) (s : State) : Action → State → Prop
  | tick {clock : Datetime} : s.clock ≤ clock → Steps dep s (.tick clock) { s with clock := clock }
  | core {db : Db} :
      Steps dep s (.core db)
        { s with db := db, toInstallationTables := within db s.toInstallationTables }
  | begun {a : Action} {task : Task} : Begins dep s a task → Steps dep s a (s.begin task)
  | taken {name : IntegrationProvider} {state : String} {code providerError : Option String}
      {pending : PendingAuthorization} {task : Task} :
      (s.states state).read s.clock = some pending →
      task.Ended ∨ (task = .authorizing ⟨state, pending⟩ ∧ pending.provider = name) →
      Steps dep s (.callback name (some state) code providerError)
        (State.begin { s with
          states := Function.update s.states state none
          takes := state :: s.takes } task)
  | issued {i : Nat} {out : Outside} {pending : PendingAuthorization} {answer : Answer} :
      s.tasks[i]? = some (.issuing pending) → out.state ∉ s.issued →
      Steps dep s (.advance i out)
        { s.goOn i (.answered (.ok answer)) with
          states := Function.update s.states out.state
            (.putFor s.clock (dep.stateTtlSeconds * 1000000) pending)
          issued := out.state :: s.issued }
  | moved {i : Nat} {out : Outside} {task task' : Task} : s.tasks[i]? = some task →
      Moves dep s task task' → Steps dep s (.advance i out) (s.goOn i task')
  | installed {i : Nat} {out : Outside} {taken : Taken} {loaded : Option Installation}
      {row : Installation} {t : InstallationTables} {answer : Answer} :
      s.tasks[i]? = some (.upserting taken loaded row) →
      (loaded = none → row.id ∉ s.installs.map Installed.connectionId) →
      upsert loaded row s.db s.toInstallationTables = some t →
      Steps dep s (.advance i out)
        { s.goOn i (.listing row.id answer) with
          toInstallationTables := t
          installs := ⟨row.id, taken⟩ :: s.installs }
  | committed {i : Nat} {out : Outside} {task : Task} {t : InstallationTables} {answer : Answer} :
      s.tasks[i]? = some task → Commits s task t →
      Steps dep s (.advance i out)
        { s.goOn i (.answered (.ok answer)) with toInstallationTables := t }

/-- Where a request of the next state comes from. -/
inductive TaskOrigin (dep : Deployment) (s : State) (a : Action) (s' : State) : Task → Prop
  | kept {task : Task} : task ∈ s.tasks → TaskOrigin dep s a s' task
  | begun {task : Task} : Begins dep s a task → TaskOrigin dep s a s' task
  | redeemed {state : String} {pending : PendingAuthorization} :
      (s.states state).read s.clock = some pending →
      TaskOrigin dep s a s' (.authorizing ⟨state, pending⟩)
  | moved {task task' : Task} : task ∈ s.tasks → Moves dep s task task' →
      TaskOrigin dep s a s' task'
  | installed {taken : Taken} {row : Installation} {answer : Answer} :
      s'.installs = ⟨row.id, taken⟩ :: s.installs → TaskOrigin dep s a s' (.listing row.id answer)

/-- Where a connection of the next state comes from. -/
inductive ConnectionOrigin (s s' : State) : Installation → Prop
  | kept {c : Installation} : c ∈ s.connections → ConnectionOrigin s s' c
  | inserted {taken : Taken} {row : Installation} : .upserting taken none row ∈ s.tasks →
      s'.installs = ⟨row.id, taken⟩ :: s.installs →
      row.id ∉ s.installs.map Installed.connectionId → ConnectionOrigin s s' row
  | updated {taken : Taken} {loaded row stored : Installation} :
      .upserting taken (some loaded) row ∈ s.tasks →
      s'.installs = ⟨row.id, taken⟩ :: s.installs → stored ∈ s.connections → stored.id = row.id →
      ConnectionOrigin s s' (merge loaded row stored)
  | verified {loaded stored : Installation} : .verifying loaded ∈ s.tasks →
      stored ∈ s.connections → stored.id = loaded.id →
      ConnectionOrigin s s' (merge loaded (verified s.clock loaded) stored)
  | disconnected {loaded stored : Installation} : .disconnecting loaded ∈ s.tasks →
      stored ∈ s.connections → stored.id = loaded.id →
      ConnectionOrigin s s' (merge loaded (revoked loaded) stored)

section
variable {dep : Deployment} {s s' : State}

theorem ended_answered (answer : Except IntegrationError Answer) : (Task.answered answer).Ended :=
  .inl ⟨answer, rfl⟩

theorem ended_redirectError (pending : PendingAuthorization) (e : IntegrationError) :
    (redirectError dep pending e).Ended := by
  cases e <;> exact ended_answered _

/-- A request that is refused begins at its end. -/
theorem begins_answering {a : Action} {r : Except IntegrationError Task}
    (h : ∀ task, r = .ok task → Begins dep s a task) : Begins dep s a (answering r) := by
  cases r with
  | error e => exact .ended (ended_answered _)
  | ok task => exact h task rfl

theorem requireInstallation_ok {workspaceId connectionId : UUID} {t : InstallationTables}
    {c : Installation} (h : requireInstallation workspaceId connectionId t = .ok c) :
    c ∈ t.connections ∧ c.id = connectionId ∧ c.workspaceId = workspaceId := by
  unfold requireInstallation at h
  split at h
  · cases h
  · rename_i found hfind
    cases h
    have hc := List.find?_some hfind
    rw [Bool.and_eq_true, decide_eq_true_eq, decide_eq_true_eq] at hc
    exact ⟨List.mem_of_find?_eq_some hfind, hc⟩

theorem gated_ok {userId workspaceId connectionId : UUID} {manages : Bool} {c : Installation}
    (h : gated s userId workspaceId connectionId manages = .ok c) :
    c ∈ s.connections ∧ c.id = connectionId ∧ c.workspaceId = workspaceId := by
  unfold gated at h
  cases manages with
  | true =>
      rw [if_pos rfl] at h
      obtain ⟨_, -, h⟩ := Optimistic.bind_ok h
      exact requireInstallation_ok h
  | false =>
      rw [if_neg Bool.false_ne_true] at h
      obtain ⟨_, -, h⟩ := Optimistic.bind_ok h
      exact requireInstallation_ok h

theorem begins_authorize {userId workspaceId : UUID} {name : IntegrationProvider}
    {returnPath : Option String} {codeVerifier : String} :
    Begins dep s (.authorize userId workspaceId name returnPath codeVerifier)
      (authorize dep s userId workspaceId name returnPath codeVerifier) := by
  refine begins_answering fun task h => ?_
  obtain ⟨_, hmanages, h⟩ := Optimistic.bind_ok h
  obtain ⟨-, -, h⟩ := Optimistic.bind_ok h
  obtain ⟨-, -, h⟩ := Optimistic.bind_ok h
  cases h
  exact .issuing ⟨returnPath, codeVerifier, rfl⟩ hmanages

theorem begins_updateSubscriptions {a : Action} {userId workspaceId connectionId : UUID}
    {updates : UpdateRequest} :
    Begins dep s a (answering (updateSubscriptions s userId workspaceId connectionId updates)) := by
  refine begins_answering fun task h => ?_
  obtain ⟨c, hc, h⟩ := Optimistic.bind_ok h
  split at h
  · rename_i hall
    cases h
    refine .configuring (gated_ok hc).1 fun u hu => ?_
    simpa using List.all_eq_true.mp hall u hu
  · cases h

theorem begins_sendTest {a : Action} {userId workspaceId connectionId : UUID}
    {destinationId : Option String} :
    Begins dep s a (answering (sendTest dep s userId workspaceId connectionId destinationId)) := by
  refine begins_answering fun task h => ?_
  obtain ⟨c, hc, h⟩ := Optimistic.bind_ok h
  dsimp only at h
  split at h
  · cases h
  · obtain ⟨-, -, h⟩ := Optimistic.bind_ok h
    obtain ⟨token, htoken, h⟩ := Optimistic.bind_ok h
    cases h
    exact .testing (gated_ok hc).1 htoken

theorem begins_disconnect {a : Action} {userId workspaceId connectionId : UUID} :
    Begins dep s a (answering (disconnect dep s userId workspaceId connectionId)) := by
  refine begins_answering fun task h => ?_
  obtain ⟨c, hc, h⟩ := Optimistic.bind_ok h
  obtain ⟨-, -, h⟩ := Optimistic.bind_ok h
  obtain ⟨token, htoken, h⟩ := Optimistic.bind_ok h
  cases h
  exact .revoking (gated_ok hc).1 htoken

theorem callback_cases (name : IntegrationProvider) (state code providerError : Option String) :
    Steps dep s (.callback name state code providerError)
      (callback dep s name state code providerError) := by
  unfold callback
  split
  · exact .begun (.ended (ended_answered _))
  · rename_i state
    split
    · exact .begun (.ended (ended_answered _))
    · cases hread : (s.states state).read s.clock with
      | none => exact .begun (.ended (ended_answered _))
      | some pending =>
          dsimp only
          split
          · exact .taken hread (.inl (ended_answered _))
          · rename_i hname
            split
            · exact .taken hread (.inl (ended_answered _))
            · exact .taken hread (.inr ⟨rfl, Decidable.not_not.mp hname⟩)

theorem regain_cases (taken : Taken) :
    Moves dep s (.authorizing taken) (regain dep s taken) := by
  unfold regain
  split
  · exact .ended trivial (ended_redirectError _ _)
  · rename_i h
    exact .regained h

/-- A commit goes through, or the request has failed. -/
theorem commit_cases {i : Nat} {out : Outside} {task : Task} {tables : Option InstallationTables}
    {answer : Answer} (hi : s.tasks[i]? = some task) (h : ∀ t, tables = some t → Commits s task t) :
    Steps dep s (.advance i out) (s.commit i tables (.answered (.ok answer))) := by
  cases tables with
  | none => exact .moved hi .failed
  | some t => exact .committed hi (h t rfl)

theorem advance_cases {i : Nat} {out : Outside} (h : advance dep s i out = some s') :
    Steps dep s (.advance i out) s' := by
  obtain ⟨task, hi, h⟩ := Option.bind_eq_some_iff.mp h
  cases task with
  | issuing pending =>
      obtain ⟨hfresh, h⟩ := Machine.guard_bind h
      cases h
      exact .issued hi hfresh
  | authorizing taken =>
      cases h
      exact .moved hi (regain_cases taken)
  | exchanging taken =>
      dsimp only at h
      split at h
      · cases h
        exact .moved hi (.ended trivial (ended_redirectError _ _))
      · rename_i hexchange
        cases h
        exact .moved hi (.exchanged hexchange)
  | selecting taken installation =>
      obtain ⟨hfresh, h⟩ := Machine.guard_bind h
      cases h
      refine .moved hi (.selected rfl fun c hc => ?_)
      simpa [hc] using hfresh
  | upserting taken loaded row =>
      obtain ⟨hfresh, h⟩ := Machine.guard_bind h
      split at h
      · cases h
        exact .moved hi .failed
      · rename_i hupsert
        cases h
        exact .installed hi hfresh hupsert
  | listing connectionId answer =>
      cases h
      exact .moved hi .listed
  | ensuring connectionId new answer =>
      cases h
      exact commit_cases hi fun t => .ensured
  | configuring connectionId updates =>
      cases h
      exact .moved hi .configured
  | saving changed new =>
      cases h
      exact commit_cases hi fun t => .saved
  | testing loaded =>
      dsimp only at h
      split at h
      · cases h
        exact .moved hi (.ended trivial (ended_answered _))
      · cases h
        exact .moved hi .tested
  | verifying loaded =>
      cases h
      exact commit_cases hi fun t => .verified
  | revoking loaded =>
      dsimp only at h
      split at h
      · cases h
        exact .moved hi (.ended trivial (ended_answered _))
      · cases h
        exact .moved hi .revoked
  | disconnecting loaded =>
      cases h
      exact commit_cases hi fun t => .disconnected
  | answered answer => cases h
  | failed => cases h

theorem State.step_cases {a : Action} (h : State.step dep s a = some s') : Steps dep s a s' := by
  cases a with
  | tick clock =>
      rw [State.step] at h
      split at h
      · rename_i hle
        cases h
        exact .tick hle
      · cases h
  | core db =>
      rw [State.step] at h
      split at h
      · cases h
        exact .core
      · cases h
  | authorize userId workspaceId name returnPath codeVerifier =>
      cases h
      exact .begun begins_authorize
  | callback name state code providerError =>
      cases h
      exact callback_cases name state code providerError
  | listSubscriptions userId workspaceId connectionId =>
      cases h
      refine .begun (begins_answering fun task h => ?_)
      cases hc : gated s userId workspaceId connectionId false with
      | error e =>
          rw [hc] at h
          cases h
      | ok c =>
          rw [hc] at h
          cases h
          exact .listing (gated_ok hc).1
  | updateSubscriptions userId workspaceId connectionId updates =>
      cases h
      exact .begun begins_updateSubscriptions
  | sendTest userId workspaceId connectionId destinationId =>
      cases h
      exact .begun begins_sendTest
  | disconnect userId workspaceId connectionId =>
      cases h
      exact .begun begins_disconnect
  | advance i out => exact advance_cases h

/-! ## What comes of it -/

theorem Steps.task_origin {a : Action} (h : Steps dep s a s') {task : Task} (ht : task ∈ s'.tasks) :
    TaskOrigin dep s a s' task := by
  cases h with
  | tick _ => exact .kept ht
  | core => exact .kept ht
  | begun hbegins =>
      rcases List.mem_append.mp ht with ht | ht
      · exact .kept ht
      · cases List.mem_singleton.mp ht
        exact .begun hbegins
  | taken hread htask =>
      rcases List.mem_append.mp ht with ht | ht
      · exact .kept ht
      · cases List.mem_singleton.mp ht
        rcases htask with hended | ⟨rfl, -⟩
        · exact .begun (.ended hended)
        · exact .redeemed hread
  | issued hi _ =>
      rcases List.mem_or_eq_of_mem_set ht with ht | rfl
      · exact .kept ht
      · exact .begun (.ended (ended_answered _))
  | moved hi hmoves =>
      rcases List.mem_or_eq_of_mem_set ht with ht | rfl
      · exact .kept ht
      · exact .moved (List.mem_of_getElem? hi) hmoves
  | installed hi _ _ =>
      rcases List.mem_or_eq_of_mem_set ht with ht | rfl
      · exact .kept ht
      · exact .installed rfl
  | committed hi _ =>
      rcases List.mem_or_eq_of_mem_set ht with ht | rfl
      · exact .kept ht
      · exact .begun (.ended (ended_answered _))

theorem insertConnection_some {c : Installation} {db : Db} {t t' : InstallationTables}
    (h : insertConnection c db t = some t') :
    (∀ c' ∈ t.connections, c'.id ≠ c.id ∧ c'.account ≠ c.account) ∧
      t' = { t with connections := t.connections ++ [c] } := by
  unfold insertConnection at h
  split at h
  · cases h
  · rename_i hnew
    split at h
    · cases h
      refine ⟨fun c' hc' => ?_, rfl⟩
      have hne := mt (fun h => List.any_eq_true.mpr ⟨c', hc', h⟩) hnew
      simpa using hne
    · cases h

theorem updateConnection_some {loaded c : Installation} {db : Db} {t t' : InstallationTables}
    (h : updateConnection loaded c db t = some t') :
    t' = t ∨ ∃ stored ∈ t.connections, stored.id = c.id ∧
      t' = { t with
        connections := Rows.modify c.id (fun _ => merge loaded c stored) t.connections } := by
  unfold updateConnection at h
  split at h
  · cases h
    exact .inl rfl
  · split at h
    · cases h
    · rename_i stored hfind
      split at h
      · cases h
        obtain ⟨hmem, hid⟩ := Rows.find_some hfind
        exact .inr ⟨stored, hmem, hid, rfl⟩
      · cases h

/-- An update leaves each row, or the merged one in the place of the one that is there. -/
theorem mem_updateConnection {loaded c x : Installation} {db : Db} {t t' : InstallationTables}
    (h : updateConnection loaded c db t = some t') (hx : x ∈ t'.connections) :
    x ∈ t.connections ∨ ∃ stored ∈ t.connections, stored.id = c.id ∧ x = merge loaded c stored := by
  rcases updateConnection_some h with rfl | ⟨stored, hmem, hid, rfl⟩
  · exact .inl hx
  · obtain ⟨r, hr, rfl⟩ := Rows.mem_modify.mp hx
    split
    · exact .inr ⟨stored, hmem, hid, rfl⟩
    · exact .inl hr

theorem insertSubscriptions_some {new : List IntegrationSubscription} {t t' : InstallationTables}
    (h : insertSubscriptions new t = some t') :
    t' = { t with subscriptions := t.subscriptions ++ new } ∧
      (t'.subscriptions.map IntegrationSubscription.id).Nodup ∧
      (t'.subscriptions.map fun s => (s.connectionId, s.eventType)).Nodup ∧
      ∀ s ∈ new, s.connectionId ∈ t.connections.map fun c => c.id := by
  unfold insertSubscriptions at h
  dsimp only at h
  split at h
  · rename_i hkeys
    cases h
    exact ⟨rfl, hkeys⟩
  · cases h

theorem updateSubscription_connections {loaded s : IntegrationSubscription}
    {t t' : InstallationTables} (h : updateSubscription loaded s t = some t') :
    t'.connections = t.connections := by
  unfold updateSubscription at h
  split at h
  · cases h
    rfl
  · split at h <;> cases h
    rfl

/-- A flush with no changed row is the insertion. -/
theorem saveSubscriptions_nil {new : List IntegrationSubscription} {t : InstallationTables} :
    saveSubscriptions [] new t = insertSubscriptions new t :=
  rfl

theorem saveSubscriptions_connections {new : List IntegrationSubscription} :
    ∀ {changed : List (IntegrationSubscription × IntegrationSubscription)}
      {t t' : InstallationTables}, saveSubscriptions changed new t = some t' →
      t'.connections = t.connections
  | [], t, t', h => by
      rw [(insertSubscriptions_some h).1]
  | p :: changed, t, t', h => by
      obtain ⟨t₂, hfold, h⟩ := Option.bind_eq_some_iff.mp h
      obtain ⟨t₁, hp, hfold⟩ := Option.bind_eq_some_iff.mp hfold
      rw [← updateSubscription_connections hp]
      exact saveSubscriptions_connections (Option.bind_eq_some_iff.mpr ⟨t₂, hfold, h⟩)

theorem Steps.connection_origin {a : Action} (h : Steps dep s a s') {c : Installation}
    (hc : c ∈ s'.connections) : ConnectionOrigin s s' c := by
  cases h with
  | tick _ => exact .kept hc
  | core => exact .kept (List.mem_filter.mp hc).1
  | begun _ => exact .kept hc
  | taken _ _ => exact .kept hc
  | issued _ _ => exact .kept hc
  | moved _ _ => exact .kept hc
  | @installed _ _ _ loaded _ _ _ hi hnew hupsert =>
      cases loaded with
      | none =>
          obtain ⟨-, rfl⟩ := insertConnection_some hupsert
          rcases List.mem_append.mp hc with hc | hc
          · exact .kept hc
          · cases List.mem_singleton.mp hc
            exact .inserted (List.mem_of_getElem? hi) rfl (hnew rfl)
      | some loaded =>
          rcases mem_updateConnection hupsert hc with hc | ⟨stored, hmem, hid, rfl⟩
          · exact .kept hc
          · exact .updated (List.mem_of_getElem? hi) rfl hmem hid
  | committed hi hcommits =>
      cases hcommits with
      | ensured hinsert =>
          rw [(insertSubscriptions_some hinsert).1] at hc
          exact .kept hc
      | saved hsave =>
          exact .kept (saveSubscriptions_connections hsave ▸ hc)
      | verified hupdate =>
          rcases mem_updateConnection hupdate hc with hc | ⟨stored, hmem, hid, rfl⟩
          · exact .kept hc
          · exact .verified (List.mem_of_getElem? hi) hmem hid
      | disconnected hupdate =>
          rcases mem_updateConnection hupdate hc with hc | ⟨stored, hmem, hid, rfl⟩
          · exact .kept hc
          · exact .disconnected (List.mem_of_getElem? hi) hmem hid

end

end Installations

end ForkRoom
