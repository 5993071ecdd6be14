import ForkRoom.Lib.Request
import ForkRoom.Lib.Rows
import ForkRoom.Lib.Binary64
import ForkRoom.Lib.Json
import ForkRoom.Lib.Chain
import ForkRoom.Lib.Positions
import ForkRoom.Lib.Machine
import ForkRoom.Lib.Claims
import ForkRoom.Model.Records
import ForkRoom.Model.Database
import ForkRoom.Model.Requests
import ForkRoom.Model.Repositories
import ForkRoom.Model.Notification
import ForkRoom.Model.Integration
import ForkRoom.Service.Workspace
import ForkRoom.Service.ActionReview
import ForkRoom.System.Operations
import ForkRoom.System.Footprint
import ForkRoom.System.Members
import ForkRoom.System.Steps
import ForkRoom.System.Gates
import ForkRoom.System.Constraints
import ForkRoom.System.Ballots
import ForkRoom.System.Delivery
import ForkRoom.System.Integration
import ForkRoom.Proof.Results
import ForkRoom.Proof.Voting
import ForkRoom.Proof.Interleaved
import ForkRoom.Proof.Frozen
import ForkRoom.Proof.Lock
import ForkRoom.Proof.Record
import ForkRoom.Proof.VotedText
import ForkRoom.Proof.Active
import ForkRoom.Proof.Undisturbed
import ForkRoom.Proof.FinalBallots
import ForkRoom.Proof.Secrecy
import ForkRoom.Proof.Proposals
import ForkRoom.Proof.ObjectionLog
import ForkRoom.Proof.Objections
import ForkRoom.Proof.Roles
import ForkRoom.Proof.Reviews
import ForkRoom.Proof.Revisions
import ForkRoom.Proof.Announced
import ForkRoom.Proof.Outbox
import ForkRoom.Proof.Delivery
import ForkRoom.Proof.Leases
import ForkRoom.Proof.Stranded
import ForkRoom.Proof.Sends
import ForkRoom.Proof.FanOut
import ForkRoom.Proof.Recovery
import ForkRoom.Proof.Reminders
import ForkRoom.Proof.PasswordReset
import ForkRoom.Proof.ActionTokens
import ForkRoom.Proof.Mailbox
import ForkRoom.Proof.Presence
import ForkRoom.Proof.Timers
import ForkRoom.Proof.Speakers
import ForkRoom.Proof.Connections
import ForkRoom.Proof.Collaboration
import ForkRoom.Proof.Downloads
import ForkRoom.Proof.Exports
import ForkRoom.Proof.Ownership
import ForkRoom.Proof.Lifecycle
import ForkRoom.Proof.ResultLaw
import ForkRoom.Proof.Snapshot
import ForkRoom.Proof.Hashing
import ForkRoom.Proof.Comparison
import ForkRoom.Proof.Finished
import ForkRoom.Proof.Discovery
import ForkRoom.Proof.Migrations
import ForkRoom.Proof.Mentions
import ForkRoom.Proof.Inbox
import ForkRoom.Proof.Hidden
import ForkRoom.Proof.Freshness
import ForkRoom.Proof.MeetingRate
import ForkRoom.Proof.Redirects
import ForkRoom.Proof.Cursors
import ForkRoom.Proof.Criteria
import ForkRoom.Proof.Updates
import ForkRoom.Lib.Cascade
import ForkRoom.System.Deletion
import ForkRoom.Proof.References
import ForkRoom.Proof.Cascades
import ForkRoom.Proof.Removal
import ForkRoom.Proof.Deletion
import ForkRoom.Proof.AuthRate
import ForkRoom.Proof.Broadcast
import ForkRoom.Proof.Installations
import ForkRoom.Proof.Subscriptions
import ForkRoom.Proof.Messages
import ForkRoom.Proof.Slack
