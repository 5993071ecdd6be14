/-
# `Proof.Removal` — a row is removed with what belongs to it

The commit of a deletion says of each table which rows stay (`Tables.Left` in the core,
`World.cascade` outside).  Read row by row this is the law of `Lib.Cascade`: a row stays
iff it is not the deleted one and all that it refers to with `ON DELETE CASCADE` stays
(`World.cascade_deletes`).  Keys are unique, references go to rows that are there, and
upwards only (`Row.height_lt`), so that just the rows are gone that belong to the deleted
one (`World.removed`).
-/
import ForkRoom.Proof.Cascades

namespace ForkRoom.Gateway

open Optimistic Reads Rows Cascade

/-! ## The tables outside the core -/

section
variable {s s' : World} {actions : ActionDb}

theorem World.cascade_cascade : (s.cascade actions).cascade actions = s.cascade actions := by
  simp only [World.cascade, List.filter_filter, Bool.and_self]

theorem World.Valid.of_cascade (hv : s.Valid) (he : s.exportsStand actions.db) :
    (s.cascade actions).Valid where
  pkComments := hv.pkComments.sublist List.filter_sublist
  pkConnections := hv.pkConnections.sublist List.filter_sublist
  cascade := World.cascade_cascade
  exports := by
    refine List.all_eq_true.mpr fun e he' => ?_
    exact List.all_eq_true.mp he e (List.mem_filter.mp he').1

/-! ## Keys -/

/-- The row of the key is in its table. -/
def World.Stands (s : World) : Key → Prop
  | .workspace id => Kept s.db.workspaces id
  | .decision id => Kept s.db.decisions id
  | .proposal id => Kept s.db.proposals id
  | .criterion id => Kept s.db.decisionCriteria id
  | .objection id => Kept s.db.objections id
  | .session id => Kept s.db.votingSessions id
  | .comment id => Kept s.comments.comments id
  | .connection id => Kept s.integrations.connections id

theorem holds_iff {k : Key} : Holds s.Has k ↔ s.Stands k := by
  constructor
  · rintro ⟨r, hr, hk⟩
    cases r <;> cases hk <;> exact ⟨_, hr, rfl⟩
  · cases k <;> rintro ⟨r, hr, rfl⟩
    case workspace => exact ⟨.workspace r, hr, rfl⟩
    case decision => exact ⟨.decision r, hr, rfl⟩
    case proposal => exact ⟨.proposal r, hr, rfl⟩
    case criterion => exact ⟨.criterion r, hr, rfl⟩
    case objection => exact ⟨.objection r, hr, rfl⟩
    case session => exact ⟨.session r, hr, rfl⟩
    case comment => exact ⟨.comment r, hr, rfl⟩
    case connection => exact ⟨.connection r, hr, rfl⟩

theorem kept_iff {α : Type} [Keyed α UUID] {rows : List α} {id : UUID} :
    (find id rows).isSome ↔ Kept rows id := by
  rw [Option.isSome_iff_exists]
  constructor
  · rintro ⟨r, hr⟩
    exact ⟨r, find_some hr⟩
  · rintro ⟨r, hr, hk⟩
    rw [← Option.isSome_iff_exists, Option.isSome_iff_ne_none, ne_eq, find_none]
    exact fun h => h r hr hk

/-- A place stands if all that is named in it does. -/
theorem stands_iff {p : Place} :
    Place.stands s.db.toTables p ↔ ∀ k ∈ Place.parents p, s.Stands k := by
  obtain ⟨w, decision, proposal, objection⟩ := p
  rcases decision with - | d <;> rcases proposal with - | p <;> rcases objection with - | o <;>
    simp [Place.stands, Place.parents, World.Stands, kept_iff, and_assoc]

theorem inWorkspace_iff {id : UUID} : inWorkspace s.db.toTables id ↔ Kept s.db.workspaces id := by
  simp [inWorkspace, Place.stands, kept_iff]

/-! ## The law of a deletion -/

/-- The rows that a deletion starts from. -/
def Key.isRoot : Key → Bool
  | .workspace _ | .decision _ | .proposal _ => true
  | _ => false

/-- The rows outside the core. -/
def Row.beside : Row → Bool
  | comment _ | mention _ | notification _ | attachment _ | decisionExport _ | document _
  | collaborationDocument _ | outboxEvent _ | connection _ | subscription _ | delivery _ => true
  | _ => false

/-- The tables of `ActionDb` after a deletion. -/
structure Cut (root : Key) (s : World) (actions : ActionDb) : Prop where
  left : s.db.toTables.Left root actions.db.toTables
  users : actions.db.users = s.db.users
  locks : actions.db.decisionLocks = s.db.decisionLocks
  reviews : actions.db.decisionReviews = s.db.decisionReviews
  revisions : actions.db.decisionRevisions = s.db.decisionRevisions
  actions : actions.implementationActions = s.actions.implementationActions

/-- A row outside the core stays iff all that it refers to does. -/
theorem World.cascade_beside {r : Row} (hr : r.beside) :
    (s.cascade actions).Has r ↔ s.Has r ∧ ∀ k ∈ r.parents, (s.cascade actions).Stands k := by
  have hstands : ∀ p : Place, Place.stands actions.db.toTables p ↔
      ∀ k ∈ Place.parents p, (s.cascade actions).Stands k := fun p =>
    stands_iff (s := s.cascade actions)
  have hin : ∀ id, inWorkspace actions.db.toTables id ↔ Kept actions.db.workspaces id := fun id =>
    inWorkspace_iff (s := s.cascade actions)
  cases r with
  | comment r => simp [World.Has, World.cascade_comments, Row.parents, hstands]
  | mention r =>
      simp [World.Has, World.cascade_mentions, Row.parents, hstands, kept_iff, World.Stands]
  | notification r =>
      simp [World.Has, World.cascade_notifications, Row.parents, hin, World.Stands]
  | attachment r => simp [World.Has, World.cascade_attachments, Row.parents, hstands]
  | decisionExport r => simp [World.Has, World.cascade_exports, Row.parents, hin, World.Stands]
  | document r => simp [World.Has, World.cascade_documents, Row.parents, hstands]
  | collaborationDocument r =>
      simp [World.Has, World.cascade_collaborationDocuments, Row.parents, hstands]
  | outboxEvent r => simp [World.Has, World.cascade_outboxEvents, Row.parents, hin, World.Stands]
  | connection r => simp [World.Has, World.cascade_connections, Row.parents, hin, World.Stands]
  | subscription r =>
      simp [World.Has, World.cascade_subscriptions, Row.parents, kept_iff, World.Stands]
  | delivery r => simp [World.Has, World.cascade_deliveries, Row.parents, kept_iff, World.Stands]
  | _ => cases hr

/-- **What is left of all tables**, once it is known of the core. -/
theorem World.cascade_deletes {root : Key} (hroot : root.isRoot) (h : Cut root s actions) :
    Deletes root s.Has (s.cascade actions).Has := by
  have hother : ∀ k : Key, k.isRoot = false → k ≠ root := by
    rintro k hk rfl
    rw [hroot] at hk
    nomatch hk
  have hbeside : ∀ r : Row, r.beside → r.key ≠ some root := by
    intro r hr hk
    cases r <;> cases hk <;>
      first | exact absurd hr Bool.false_ne_true | exact absurd hroot Bool.false_ne_true
  intro r
  simp only [holds_iff, Record.key, Record.parents]
  cases r with
  | user r => simp [World.Has, Row.key, Row.parents, h.users]
  | workspace r => simpa [World.Has, Row.key, Row.parents] using h.left.workspaces r
  | member r => simpa [World.Has, Row.key, Row.parents, World.Stands] using h.left.members r
  | decision r => simpa [World.Has, Row.key, Row.parents, World.Stands] using h.left.decisions r
  | proposal r => simpa [World.Has, Row.key, Row.parents, World.Stands] using h.left.proposals r
  | criterion r =>
      simpa [World.Has, Row.key, Row.parents, World.Stands, hother (.criterion r.id) rfl] using
        h.left.criteria r
  | score r => simpa [World.Has, Row.key, Row.parents, World.Stands] using h.left.scores r
  | objection r =>
      simpa [World.Has, Row.key, Row.parents, World.Stands, hother (.objection r.id) rfl] using
        h.left.objections r
  | statusEvent r =>
      simpa [World.Has, Row.key, Row.parents, World.Stands] using h.left.statusEvents r
  | session r =>
      simpa [World.Has, Row.key, Row.parents, World.Stands, hother (.session r.id) rfl] using
        h.left.sessions r
  | voter r => simpa [World.Has, Row.key, Row.parents, World.Stands] using h.left.voters r
  | offer r => simpa [World.Has, Row.key, Row.parents, World.Stands] using h.left.offers r
  | vote r => simpa [World.Has, Row.key, Row.parents, World.Stands] using h.left.votes r
  | lock r => simp [World.Has, Row.key, Row.parents, h.locks]
  | review r => simp [World.Has, Row.key, Row.parents, h.reviews]
  | revision r => simp [World.Has, Row.key, Row.parents, h.revisions]
  | stagedEvent r => simpa [World.Has, Row.key, Row.parents, World.Stands] using h.left.events r
  | action r => simp [World.Has, Row.key, Row.parents, h.actions]
  | _ =>
      rw [World.cascade_beside rfl]
      exact and_congr_right fun _ => ⟨fun hk => ⟨hbeside _ rfl, hk⟩, fun hk => hk.2⟩

/-! ## Keys and references hold -/

theorem World.unique (hv : s.Valid) {r r' : Row} {k : Key} (hr : s.Has r) (hr' : s.Has r')
    (hk : r.key = some k) (hsame : r'.key = some k) : r = r' := by
  cases r with
  | workspace x =>
      cases hk
      cases r' with
      | workspace x' =>
          exact congrArg _ (eq_of_key s.db.valid.pkWorkspaces hr hr'
            (Key.workspace.inj (Option.some.inj hsame)).symm)
      | _ => nomatch hsame
  | decision x =>
      cases hk
      cases r' with
      | decision x' =>
          exact congrArg _ (eq_of_key s.db.valid.pkDecisions hr hr'
            (Key.decision.inj (Option.some.inj hsame)).symm)
      | _ => nomatch hsame
  | proposal x =>
      cases hk
      cases r' with
      | proposal x' =>
          exact congrArg _ (eq_of_key s.db.valid.pkProposals hr hr'
            (Key.proposal.inj (Option.some.inj hsame)).symm)
      | _ => nomatch hsame
  | criterion x =>
      cases hk
      cases r' with
      | criterion x' =>
          exact congrArg _ (eq_of_key s.db.valid.pkDecisionCriteria hr hr'
            (Key.criterion.inj (Option.some.inj hsame)).symm)
      | _ => nomatch hsame
  | objection x =>
      cases hk
      cases r' with
      | objection x' =>
          exact congrArg _ (eq_of_key s.db.valid.pkObjections hr hr'
            (Key.objection.inj (Option.some.inj hsame)).symm)
      | _ => nomatch hsame
  | session x =>
      cases hk
      cases r' with
      | session x' =>
          exact congrArg _ (eq_of_key s.db.valid.pkVotingSessions hr hr'
            (Key.session.inj (Option.some.inj hsame)).symm)
      | _ => nomatch hsame
  | comment x =>
      cases hk
      cases r' with
      | comment x' =>
          exact congrArg _ (eq_of_key hv.pkComments hr hr'
            (Key.comment.inj (Option.some.inj hsame)).symm)
      | _ => nomatch hsame
  | connection x =>
      cases hk
      cases r' with
      | connection x' =>
          exact congrArg _ (eq_of_key hv.pkConnections hr hr'
            (Key.connection.inj (Option.some.inj hsame)).symm)
      | _ => nomatch hsame
  | _ => nomatch hk

/-- What a row of the core refers to is there. -/
theorem World.parents_core {r : Row} (hr : s.Has r) (hcore : r.beside = false) :
    ∀ k ∈ r.parents, s.Stands k := by
  cases r with
  | member r =>
      simpa [Row.parents, World.Stands, Kept] using s.db.valid.fkWorkspaceMembersWorkspace r hr
  | decision r => simpa [Row.parents, World.Stands, Kept] using s.db.valid.fkDecisionsWorkspace r hr
  | proposal r => simpa [Row.parents, World.Stands, Kept] using s.db.valid.fkProposalsDecision r hr
  | criterion r =>
      simpa [Row.parents, World.Stands, Kept] using s.db.valid.fkDecisionCriteriaDecision r hr
  | score r =>
      simpa [Row.parents, World.Stands, Kept] using
        And.intro (s.db.valid.fkProposalScoresProposal r hr)
          (s.db.valid.fkProposalScoresCriterion r hr)
  | objection r =>
      simpa [Row.parents, World.Stands, Kept] using s.db.valid.fkObjectionsProposal r hr
  | statusEvent r =>
      simpa [Row.parents, World.Stands, Kept] using s.db.valid.fkObjectionStatusEventsObjection r hr
  | session r =>
      simpa [Row.parents, World.Stands, Kept] using s.db.valid.fkVotingSessionsDecision r hr
  | voter r =>
      simpa [Row.parents, World.Stands, Kept] using s.db.valid.fkVotingEligibleVotersSession r hr
  | offer r =>
      simpa [Row.parents, World.Stands, Kept] using s.db.valid.fkVotingSessionProposalsSession r hr
  | vote r => simpa [Row.parents, World.Stands, Kept] using s.db.valid.fkVotesSession r hr
  | stagedEvent r =>
      simpa [Row.parents, World.Stands, Kept] using
        s.db.valid.fkIntegrationOutboxEventsWorkspace r hr
  | user | workspace | lock | review | revision | action => exact fun _ hk => nomatch hk
  | _ => nomatch hcore

theorem World.Valid.sound (hv : s.Valid) : Sound s.Has where
  unique _ _ _ := World.unique hv
  parents r hr := by
    simp only [holds_iff, Record.parents]
    by_cases hbeside : r.beside
    · rw [← hv.cascade, World.cascade_beside hbeside, hv.cascade] at hr
      exact hr.2
    · exact World.parents_core hr (Bool.eq_false_iff.mpr hbeside)

/-- References go up: from what is in a comment or a connection to these, from there to the
objection, the proposal, the decision and the workspace. -/
def Key.height : Key → Nat
  | .workspace _ => 0
  | .decision _ | .connection _ => 1
  | .proposal _ | .criterion _ | .session _ => 2
  | .objection _ => 3
  | .comment _ => 4

def Row.height (r : Row) : Nat := r.key.elim 5 Key.height

theorem Place.height_lt {p : Place} : ∀ k ∈ Place.parents p, k.height < 4 := by
  obtain ⟨w, decision, proposal, objection⟩ := p
  rcases decision with - | d <;> rcases proposal with - | p <;> rcases objection with - | o <;>
    simp [Place.parents, Key.height]

theorem Row.height_lt {r : Row} : ∀ k ∈ r.parents, k.height < r.height := by
  cases r with
  | comment r => exact Place.height_lt
  | mention r =>
      refine List.forall_mem_cons.mpr ⟨Nat.lt_succ_self 4, fun k hk => ?_⟩
      exact Nat.lt_succ_of_lt (Place.height_lt k hk)
  | attachment r | document r | collaborationDocument r =>
      exact fun k hk => Nat.lt_succ_of_lt (Place.height_lt k hk)
  | _ => simp [Row.parents, Row.height, Row.key, Key.height]

theorem wellFounded_parent : WellFounded (Parent (ρ := Row)) := by
  refine Subrelation.wf (r := fun r' r => Row.height r' < Row.height r) ?_ (measure Row.height).wf
  rintro r' r ⟨k, hk, hkey⟩
  have hr' : Row.height r' = k.height := by
    rw [Row.height, show r'.key = some k from hkey]
    rfl
  rw [hr']
  exact Row.height_lt k hk

/-- **The tables without a row and what belongs to it.** -/
theorem World.removed {root : Key} (hv : s.Valid) (hroot : root.isRoot)
    (h : Cut root s actions) : s.Removed root (s.cascade actions) :=
  (World.cascade_deletes hroot h).stays_iff hv.sound wellFounded_parent

end

end ForkRoom.Gateway
