/-
# `System.Slack` — the requests and the workers together

The requests of `System.Installations` and the tasks of `System.Integration` on one database
and under one clock.  What the requests write of connections and subscriptions the workers
see at once (`shown`); in `System.Integration` such a write is a step of its own, taken at
any time, so what the two do together the workers' system does alone (`request_runs`), as
long as no workspace with a connection is deleted (`keeps`): a deletion takes along events
and deliveries.
-/
import ForkRoom.System.Installations
import ForkRoom.System.Integration

namespace ForkRoom

namespace Slack

structure Deployment where
  requests : Installations.Deployment
  workers : Integration.Deployment

structure State where
  requests : Installations.State
  workers : Integration.Config

def start (clock : Datetime) (db : Db) : State := ⟨Installations.start clock db, .empty clock⟩

inductive Action where
  | request (a : Installations.Action)
  | worker (a : Integration.Action)

/-- What of a connection the workers read. -/
def connections (t : InstallationTables) : List IntegrationConnection :=
  t.connections.map fun c => c.toIntegrationConnection

/-- The workers, with the tables that the requests write. -/
def withTables (t : InstallationTables) (c : Integration.Config) : Integration.Config :=
  { c with connections := connections t, subscriptions := t.subscriptions }

/-- The workers, with what the requests write, and their clock. -/
def shown (s : Installations.State) (c : Integration.Config) : Integration.Config :=
  { withTables s.toInstallationTables c with clock := s.clock }

/-- The action is one of the workers. -/
def own : Integration.Action → Bool
  | .tick _ | .saveConnection _ | .saveSubscription _ => false
  | _ => true

def State.step (dep : Deployment) (s : State) : Action → Option State
  | .request a =>
      (Installations.State.step dep.requests s.requests a).map fun r => ⟨r, shown r s.workers⟩
  | .worker a =>
      if own a then (s.workers.step dep.workers a).map fun c => ⟨s.requests, c⟩ else none

/-- No workspace with a connection is deleted. -/
def keeps (s : State) : Action → Bool
  | .request (.core db) =>
      s.requests.connections.all fun c => db.workspaces.any fun w => w.id = c.workspaceId
  | _ => true

end Slack

end ForkRoom
