/-
# `Proof.Hashing` — what the hash of a snapshot vouches for

    create    documentHash = sha256 (dumps snapshot)
    verify    sha256 (dumps stored) = documentHash ?
    export    sha256 (dumps stored) = documentHash ?   then render

The canonical text determines a well-formed snapshot up to the order of its keys
(`Json.dumps_eq_iff`), and the snapshots that `create` builds are well-formed.  A digest has
64 characters, so no hash function is injective; what is assumed is that it has no
collision among the texts in question.
-/
import ForkRoom.Lib.Canonical
import ForkRoom.Lib.Text
import ForkRoom.Proof.Exports
import ForkRoom.Proof.Lock

namespace ForkRoom

open Optimistic Rows

/-! ## Snapshots are well-formed -/

theorem Json.wellFormed_ofOption (o : Option String) : (Json.ofOption o).WellFormed := by
  cases o with
  | none => exact .null
  | some s => exact .str s

theorem isNumberChar_digit {c : Char} (h : c.isDigit) : Json.isNumberChar c := by
  simp [Json.isNumberChar, h]

/-- The text of a percentage has a point. -/
theorem Hundredths.isDecimal (h : Hundredths) : Json.IsDecimal (Hundredths.text h) := by
  have hdigits : ∀ n : Nat, ∀ c ∈ (toString n).toList, Json.isNumberChar c := fun n c hc =>
    isNumberChar_digit (Nat.isDigit_of_mem_toDigits (by decide) (by decide)
      (Nat.toList_repr ▸ hc : c ∈ Nat.toDigits 10 n))
  have hcents : ∀ n k : Nat, ∀ c ∈ zeroPadded k n, Json.isNumberChar c := fun n k c hc =>
    isNumberChar_digit (Text.isDigit_of_mem_padded hc)
  constructor
  · intro c hc
    simp only [Hundredths.text, String.toList_append, List.mem_append] at hc
    rcases hc with (hc | hc) | hc
    · exact Json.numberChars_int _ c hc
    · rw [List.mem_singleton.mp hc]
      decide
    · split at hc
      · exact hdigits _ c hc
      · rw [String.toList_ofList] at hc
        exact hcents _ _ c hc
  · left
    simp [Hundredths.text]

theorem DecisionLockService.decisionSnapshot_wellFormed (d : Decision) :
    (DecisionLockService.decisionSnapshot d).WellFormed := by
  refine .obj (by simp) ?_
  simp [DecisionLockService.datetimeValue, Json.wellFormed_ofOption, Json.WellFormed.str]

theorem DecisionLockService.proposalSnapshot_wellFormed (p : Proposal) :
    (DecisionLockService.proposalSnapshot p).WellFormed := by
  refine .obj (by simp) ?_
  simp [DecisionLockService.datetimeValue, Json.wellFormed_ofOption, Json.WellFormed.str]

theorem DecisionLockService.objectionSnapshot_wellFormed (o : Objection) :
    (DecisionLockService.objectionSnapshot o).WellFormed := by
  refine .obj (by simp) ?_
  simp [DecisionLockService.datetimeValue, Json.wellFormed_ofOption, Json.WellFormed.str]

theorem VotingResultResponse.toJson_wellFormed (r : VotingResultResponse) :
    r.toJson.WellFormed := by
  refine .obj (by simp) ?_
  simp only [List.forall_mem_cons, List.not_mem_nil, IsEmpty.forall_iff, implies_true, and_true,
    Json.wellFormed_ofOption, Json.WellFormed.str, Json.WellFormed.int, Json.WellFormed.bool,
    true_and]
  refine .arr fun v hv => ?_
  obtain ⟨t, -, rfl⟩ := List.mem_map.mp hv
  refine .obj (by simp) ?_
  simp [Json.WellFormed.str, Json.WellFormed.int, Json.WellFormed.decimal (Hundredths.isDecimal _)]

section
variable {dep : Deployment} {env : Env} {db : Db} {d : Decision} {w : Proposal}

theorem objections_wellFormed (os : List Objection) :
    (Json.arr (os.map DecisionLockService.objectionSnapshot)).WellFormed := by
  refine .arr fun v hv => ?_
  obtain ⟨o, -, rfl⟩ := List.mem_map.mp hv
  exact DecisionLockService.objectionSnapshot_wellFormed o

/-- What the loop over the tallies collects. -/
theorem alternatives_wellFormed : ∀ {tallies : List ProposalVoteTallyResponse}
    {as : List AlternativeProposal},
    (DecisionLockService.alternatives env d w tallies).run db = .ok as →
      ∀ a ∈ as, a.toJson.WellFormed
  | [], _, h => by
      cases h
      intro _ ha
      cases ha
  | t :: tallies, as, h => by
      rw [DecisionLockService.alternatives] at h
      split at h
      · exact alternatives_wellFormed h
      · simp only [Reads.run_bind, Reads.run_query, Reads.run_orThrow, Reads.run_pure] at h
        cases hp : ProposalRepository.getForDecision d.id t.proposalId db with
        | none =>
            rw [hp] at h
            cases h
        | some p =>
            rw [hp] at h
            cases hrest : (DecisionLockService.alternatives env d w tallies).run db with
            | error e =>
                simp only [Option.elim, Except.bind, hrest] at h
                cases h
            | ok rest =>
                simp only [Option.elim, Except.bind, hrest] at h
                cases h
                rw [List.forall_mem_cons]
                refine ⟨.obj (by simp) ?_, alternatives_wellFormed hrest⟩
                simp [DecisionLockService.proposalSnapshot_wellFormed, Json.WellFormed.int,
                  Json.WellFormed.decimal (Hundredths.isDecimal _), objections_wellFormed]

/-- A snapshot that has been built is well-formed. -/
theorem buildSnapshot_wellFormed {r : VotingResultResponse} {snapshot : Snapshot}
    (h : (DecisionLockService.buildSnapshot env d w r).run db = .ok snapshot) :
    snapshot.toJson.WellFormed := by
  simp only [DecisionLockService.buildSnapshot, Reads.run_bind, Reads.run_query, Reads.run_pure]
    at h
  cases hrun : (DecisionLockService.alternatives env d w r.tallies).run db with
  | error e =>
      simp only [Except.bind, hrun] at h
      cases h
  | ok as =>
      simp only [Except.bind, hrun] at h
      cases h
      have halternatives : (Json.arr (as.map AlternativeProposal.toJson)).WellFormed := by
        refine .arr fun v hv => ?_
        obtain ⟨a, ha, rfl⟩ := List.mem_map.mp hv
        exact alternatives_wellFormed hrun a ha
      have hdissent : (Json.obj [
          ("objections_to_approved_proposal",
            .arr ((ObjectionRepository.listForProposal env.tie w.id none none db).map
              DecisionLockService.objectionSnapshot)),
          ("alternative_proposals", .arr (as.map AlternativeProposal.toJson))]).WellFormed :=
        .obj (by simp) (by simp [objections_wellFormed, halternatives])
      refine .obj (by simp) ?_
      simp [DecisionLockService.decisionSnapshot_wellFormed, hdissent,
        DecisionLockService.proposalSnapshot_wellFormed, VotingResultResponse.toJson_wellFormed]

theorem Reachable.snapshot_wellFormed (h : Reachable dep db) {l : DecisionLock}
    (hl : l ∈ db.decisionLocks) : l.snapshot.WellFormed := by
  obtain ⟨d, s, w, hb⟩ := h.lockInv.locks l hl
  obtain ⟨env, snapshot, hrun, heq⟩ := hb.built
  rw [heq]
  exact buildSnapshot_wellFormed hrun

end

/-! ## What a hash vouches for -/

/-- Without a collision, equal hashes are those of the same snapshot. -/
theorem hashSnapshot_eq_iff {dep : Deployment} {texts : Set (List Char)}
    (hsha : Set.InjOn dep.sha256 texts) {j j' : Json} (hj : j.WellFormed) (hj' : j'.WellFormed)
    (ht : j.dumps ∈ texts) (ht' : j'.dumps ∈ texts) :
    DecisionLockService.hashSnapshot dep j = DecisionLockService.hashSnapshot dep j' ↔
      j.Same j' := by
  rw [← Json.dumps_eq_iff hj hj']
  constructor
  · intro h
    exact hsha ht ht' (Subtype.ext h)
  · intro h
    rw [DecisionLockService.hashSnapshot, h, DecisionLockService.hashSnapshot]

namespace Exports

section
variable {settings : ExportSettings} {rendering : Rendering} {s s' : State} {a : Action} {k : Nat}
  {t : Task} {e : DecisionExport} {bytes : List UInt8}

/-- A PDF is made of a lock with the hash it was made with. -/
theorem pdf_some {db : Db} (h : pdf rendering e db = some bytes) :
    ∃ lock ∈ db.decisionLocks, lock.decisionId = e.decisionId ∧ lock.id = e.decisionLockId ∧
      DecisionLockService.hashSnapshot rendering.dep lock.snapshot = lock.documentHash ∧
      lock.documentHash = e.documentHash ∧ rendering.render lock = some bytes := by
  unfold pdf at h
  split at h
  · rename_i lock hlock
    obtain ⟨hmem, hid⟩ := DecisionLockRepository.getForDecision_some hlock
    simp only at h
    split at h
    · rename_i hhash
      exact ⟨lock, hmem, hid, hhash.1, hhash.2.2, hhash.2.2.symm.trans hhash.2.1, h⟩
    · nomatch h
  · nomatch h

/-- What a step does to the tasks: one starts, or one goes on, and what it renders is the PDF. -/
inductive TasksStep (rendering : Rendering) (s s' : State) : Prop
  | same (h : s'.tasks = s.tasks)
  | started (m : Message) (h : s'.tasks = s.tasks ++ [⟨m, .starting⟩])
  | moved (i : Nat) (t : Task) (p : TaskPhase) (h : s'.tasks = s.tasks.set i { t with phase := p })
      (hp : ∀ e bytes, p = .rendered e bytes → pdf rendering e s.db = some bytes)

theorem perform_tasks (s : State) (i : Nat) (r : Request) (newId : UUID) (txn : Datetime)
    (task : ExportTask) : (perform settings s i r newId txn task).tasks = s.tasks := by
  cases task with
  | create lock =>
      rw [perform]
      split <;> rfl
  | reset e =>
      rw [perform]
      split <;> rfl
  | get e => rfl
  | download e => rfl

theorem advance_tasks {i : Nat} {newId : UUID} {txn : Datetime}
    (hstep : advance settings s i newId txn = some s') : s'.tasks = s.tasks := by
  unfold Exports.advance at hstep
  obtain ⟨⟨user, w, d, c, phase⟩, -, hstep⟩ := Option.bind_eq_some_iff.mp hstep
  cases phase with
  | reading rest =>
      rcases rest with (_ | task) | _
      · cases hstep
        rfl
      · cases hstep
        exact perform_tasks _ _ _ _ _ _
      · cases hstep
        rfl
  | publishing id =>
      dsimp only at hstep
      split at hstep <;> cases hstep <;> rfl
  | answered answer => cases hstep
  | failed e => cases hstep

/-- A task renders in one phase only. -/
theorem work_tasks (hstep : work settings rendering s k = some s') : TasksStep rendering s s' := by
  unfold Exports.work at hstep
  obtain ⟨⟨m, phase⟩, hk, hstep⟩ := Option.bind_eq_some_iff.mp hstep
  cases phase with
  | starting =>
      cases hstep
      rw [Exports.claim]
      split
      · split <;> exact .moved k _ _ rfl (by intro _ _ h; cases h)
      · exact .moved k _ _ rfl (by intro _ _ h; cases h)
  | refreshing =>
      dsimp only at hstep
      split at hstep <;> cases hstep <;> exact .moved k _ _ rfl (by intro _ _ h; cases h)
  | claimed e =>
      dsimp only at hstep
      split at hstep
      · rename_i bytes hpdf
        cases hstep
        refine .moved k _ _ rfl fun e' bytes' heq => ?_
        cases heq
        exact hpdf
      · cases hstep
        exact .moved k _ _ rfl (by intro _ _ h; cases h)
  | rendered e pdf =>
      cases hstep
      exact .moved k _ _ rfl (by intro _ _ h; cases h)
  | uploaded e size =>
      dsimp only at hstep
      split at hstep <;> cases hstep <;> exact .moved k _ _ rfl (by intro _ _ h; cases h)
  | failing error =>
      dsimp only at hstep
      split at hstep
      · cases hstep
        refine .moved k _ _ rfl fun e' bytes' heq => ?_
        split at heq <;> cases heq
      · cases hstep
        exact .moved k _ _ rfl (by intro _ _ h; cases h)
  | marking e error =>
      dsimp only at hstep
      split at hstep <;> cases hstep <;> exact .moved k _ _ rfl (by intro _ _ h; cases h)
  | deciding attempts =>
      dsimp only at hstep
      split at hstep
      · cases hstep
        exact .moved k _ _ rfl (by intro _ _ h; cases h)
      · split at hstep <;> cases hstep <;> exact .moved k _ _ rfl (by intro _ _ h; cases h)
  | acknowledging =>
      cases hstep
      exact .moved k _ _ rfl (by intro _ _ h; cases h)
  | done => cases hstep

theorem raised_ne_rendered (error : String) (p : TaskPhase) :
    p.raised error ≠ .rendered e bytes := by
  cases p <;> exact nofun

theorem tasks_step (hstep : step settings rendering s a = some s') : TasksStep rendering s s' := by
  cases a with
  | tick now =>
      obtain ⟨-, hstep⟩ := Machine.guard_bind hstep
      cases hstep
      exact .same rfl
  | others db =>
      obtain ⟨-, hstep⟩ := Machine.guard_bind hstep
      cases hstep
      exact .same rfl
  | call user w d c =>
      cases hstep
      exact .same rfl
  | advance i newId txn => exact .same (advance_tasks hstep)
  | requestFails i =>
      obtain ⟨r, -, hstep⟩ := Option.bind_eq_some_iff.mp hstep
      split at hstep <;> cases hstep
      exact .same rfl
  | recover =>
      cases hstep
      exact .same rfl
  | publish j =>
      obtain ⟨ids, -, hstep⟩ := Option.bind_eq_some_iff.mp hstep
      cases ids <;> cases hstep
      exact .same rfl
  | duplicate j =>
      obtain ⟨m, -, hstep⟩ := Option.bind_eq_some_iff.mp hstep
      cases hstep
      exact .same rfl
  | deliver j =>
      obtain ⟨m, -, hstep⟩ := Option.bind_eq_some_iff.mp hstep
      cases hstep
      exact .started m rfl
  | work k => exact work_tasks hstep
  | skipped k =>
      obtain ⟨t, -, hstep⟩ := Option.bind_eq_some_iff.mp hstep
      obtain ⟨-, hstep⟩ := Machine.guard_bind hstep
      cases hstep
      exact .moved k _ _ rfl nofun
  | taskFails k error =>
      obtain ⟨t, -, hstep⟩ := Option.bind_eq_some_iff.mp hstep
      cases hstep
      exact .moved k _ _ rfl fun _ _ heq => absurd heq (raised_ne_rendered error t.phase)
  | lost k =>
      obtain ⟨t, -, hstep⟩ := Option.bind_eq_some_iff.mp hstep
      obtain ⟨-, hstep⟩ := Machine.guard_bind hstep
      cases hstep
      exact .moved k _ _ rfl nofun

/-- A task that has rendered has just done so, or had done so before. -/
theorem rendered_step (hstep : step settings rendering s a = some s') (ht : s'.tasks[k]? = some t)
    (hphase : t.phase = .rendered e bytes) :
    s.tasks[k]? = some t ∨ pdf rendering e s.db = some bytes := by
  cases tasks_step hstep with
  | same h => exact .inl (h ▸ ht)
  | started m h =>
      rw [h, List.getElem?_append] at ht
      split at ht
      · exact .inl ht
      · obtain rfl := List.mem_singleton.mp (List.mem_of_getElem? ht)
        nomatch hphase
  | moved i t₀ p h hp =>
      rw [h] at ht
      rcases Machine.getElem?_set_cases ht with ⟨-, rfl⟩ | ⟨-, ht⟩
      · exact .inr (hp e bytes hphase)
      · exact .inl ht

end

end Exports

/-- **Canonical hashing.**  The canonical texts of two well-formed values are the same exactly
when the values are, up to the order of keys.  So, without a collision among the texts, `verify`
answers that a lock is valid exactly when its snapshot is the one that was hashed, the two hash
functions agree, and a task that renders a PDF does it from the snapshot that was hashed. -/
theorem hash_vouches {dep : Deployment} {texts : Set (List Char)}
    (hsha : Set.InjOn dep.sha256 texts) :
    (∀ j j' : Json, j.WellFormed → j'.WellFormed → (j.dumps = j'.dumps ↔ j.Same j')) ∧
    (∀ (d : UUID) (lock : DecisionLock) (hashed : Json), lock.snapshot.WellFormed →
      hashed.WellFormed → lock.snapshot.dumps ∈ texts → hashed.dumps ∈ texts →
      lock.documentHash = DecisionLockService.hashSnapshot dep hashed →
      ((DecisionLockService.verification dep d lock).valid = true ↔ lock.snapshot.Same hashed)) ∧
    (∀ db, Reachable dep db → ∀ lock ∈ db.decisionLocks, ∀ j : Json, j.WellFormed →
      j.dumps ∈ texts → lock.snapshot.dumps ∈ texts → ∀ d,
      ((DecisionLockService.verification dep d { lock with snapshot := j }).valid = true ↔
        j.Same lock.snapshot)) ∧
    (∀ j, DecisionLockService.hashSnapshot dep j =
      DecisionExportProcessingService.hashSnapshot dep j) ∧
    ∀ (settings : Exports.ExportSettings) (rendering : Exports.Rendering), rendering.dep = dep →
      ∀ (s s' : Exports.State) (a : Exports.Action), Exports.step settings rendering s a = some s' →
      ∀ (k : Nat) (t : Exports.Task) (e : DecisionExport) (bytes : List UInt8),
        s'.tasks[k]? = some t → t.phase = .rendered e bytes → s.tasks[k]? ≠ some t →
      ∃ lock ∈ s.db.decisionLocks, lock.decisionId = e.decisionId ∧
        rendering.render lock = some bytes ∧
        ∀ hashed : Json, hashed.WellFormed → lock.snapshot.WellFormed →
          lock.snapshot.dumps ∈ texts → hashed.dumps ∈ texts →
          (lock.documentHash = DecisionLockService.hashSnapshot dep hashed ∨
            e.documentHash = DecisionLockService.hashSnapshot dep hashed) →
          lock.snapshot.Same hashed := by
  have hverify : ∀ (d : UUID) (lock : DecisionLock) (hashed : Json), lock.snapshot.WellFormed →
      hashed.WellFormed → lock.snapshot.dumps ∈ texts → hashed.dumps ∈ texts →
      lock.documentHash = DecisionLockService.hashSnapshot dep hashed →
      ((DecisionLockService.verification dep d lock).valid = true ↔ lock.snapshot.Same hashed) := by
    intro d lock hashed hj hj' ht ht' hhash
    rw [← hashSnapshot_eq_iff hsha hj hj' ht ht', ← hhash, DecisionLockService.verification,
      decide_eq_true_eq]
  refine ⟨fun j j' => Json.dumps_eq_iff, hverify, ?_, fun _ => rfl, ?_⟩
  · intro db hrun lock hlock j hj ht ht' d
    obtain ⟨_, _, _, hb⟩ := hrun.lockInv.locks lock hlock
    exact hverify d { lock with snapshot := j } lock.snapshot hj (hrun.snapshot_wellFormed hlock) ht
      ht' hb.hashed
  · rintro settings rendering rfl s s' a hstep k t e bytes ht hphase hnew
    rcases Exports.rendered_step hstep ht hphase with hold | hpdf
    · exact absurd hold hnew
    · obtain ⟨lock, hlock, hid, -, hhash, hsame, hrender⟩ := Exports.pdf_some hpdf
      refine ⟨lock, hlock, hid, hrender, fun hashed hj hj' ht ht' hmade => ?_⟩
      rw [← hashSnapshot_eq_iff hsha hj' hj ht ht', hhash]
      rcases hmade with hmade | hmade
      · exact hmade
      · exact hsame.trans hmade

/-! ## A sample -/

namespace Sample

/-- A snapshot, as it was hashed. -/
def hashed : Json := .obj [("title", .str "Database"), ("votes", .int 2)]

/-- The same snapshot, its keys in the order in which the database returns them. -/
def stored : Json := .obj [("votes", .int 2), ("title", .str "Database")]

/-- Another one. -/
def tampered : Json := .obj [("title", .str "Database"), ("votes", .int 3)]

/-- A hash that tells the snapshots apart. -/
def hashing : Deployment where
  sha256 cs := ⟨String.ofList (List.replicate 64 (if cs = hashed.dumps then '0' else '1')), by simp⟩
  integrationEvents := false

def hashedLock (snapshot : Json) : DecisionLock :=
  ⟨1, 2, 3, 4, 5, 1, snapshot, DecisionLockService.hashSnapshot hashing hashed, 0⟩

end Sample

theorem hash_vouches_sample :
    (DecisionLockService.verification Sample.hashing 2 (Sample.hashedLock Sample.stored)).valid ∧
      ¬ Sample.tampered.Same Sample.hashed := by
  have hsha : Set.InjOn Sample.hashing.sha256 {Sample.hashed.dumps, Sample.tampered.dumps} := by
    have hne : Sample.hashing.sha256 Sample.hashed.dumps ≠
        Sample.hashing.sha256 Sample.tampered.dumps := by decide +kernel
    rintro t (rfl | rfl) t' (rfl | rfl) h
    · rfl
    · exact absurd h hne
    · exact absurd h hne.symm
    · rfl
  have hfields :
      ∀ n : Int, Json.WellFormed (.obj [("title", .str "Database"), ("votes", .int n)]) :=
    fun n => .obj (by simp) (by simp [Json.WellFormed.str, Json.WellFormed.int])
  have hstored : Sample.stored.WellFormed :=
    .obj (by simp) (by simp [Json.WellFormed.str, Json.WellFormed.int])
  have htext : Sample.stored.dumps = Sample.hashed.dumps := by decide +kernel
  obtain ⟨hcanonical, hverify, -⟩ := hash_vouches hsha
  constructor
  · refine (hverify 2 (Sample.hashedLock Sample.stored) Sample.hashed hstored (hfields 2) ?_
      (.inl rfl) rfl).mpr ((hcanonical _ _ hstored (hfields 2)).mp htext)
    exact .inl htext
  · intro hsame
    exact absurd ((hcanonical _ _ (hfields 3) (hfields 2)).mpr hsame) (by decide +kernel)

end ForkRoom
