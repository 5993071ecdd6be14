/-
# `Proof.Freshness` — what is not listed as stale is up to date

A document is behind when its decision says something else by now, and the list finds it
then only if a row of the decision is dated after it.  Three things break that: a commit that
is dated before a document made while it was under way; a task that writes what it has
read before such a commit; a proposal that is deleted, and the latest date with it.

All three are seen in what the requests write.  If a commit dates the rows it writes after
the documents of their decision, those included that a task is about to make, the commit
keeps up with them (`AllStamped.keepsUp`), and so does a whole run.
-/
import ForkRoom.System.SearchIndex
import ForkRoom.Lib.Machine
import ForkRoom.System.Steps

namespace ForkRoom.SearchIndex

open Optimistic Reads Rows

/-! ## What the index reads -/

section
variable {tie : UUID → Nat} {d : UUID} {db : Db}

/-- All statements at one state. -/
theorem getIndexSource_run : (SearchRepository.getIndexSource tie d).run db =
    .ok ((find d db.decisions).map fun decision => ⟨decision,
      earliestFirst Proposal.createdAt tie (db.proposals.filter fun p => p.decisionId = d),
      DecisionLockRepository.getForDecision d db⟩) := by
  simp only [SearchRepository.getIndexSource, run_bind, run_query, Except.bind]
  cases find d db.decisions with
  | none => rfl
  | some decision => rfl

/-- The text is made of what the rows say. -/
theorem body_of_words {source source' : IndexSource}
    (h : wordsOf (some source.decision) source.proposals source.decisionLock =
      wordsOf (some source'.decision) source'.proposals source'.decisionLock) :
    SearchIndexService.body source = SearchIndexService.body source' := by
  obtain ⟨hdecision, hproposals, hlock⟩ := Words.mk.inj h
  have hsummary : source.decision.summary = source'.decision.summary := by
    simp only [Option.map_some, Option.some.injEq, Prod.mk.injEq] at hdecision
    exact hdecision.2.1
  have hsections : ∀ ps : List Proposal, (ps.flatMap fun p =>
      [p.title, SearchIndexService.orEmpty p.summary, SearchIndexService.orEmpty p.content]) =
        (ps.map fun p => (p.title, p.summary, p.content)).flatMap fun p =>
          [p.1, SearchIndexService.orEmpty p.2.1, SearchIndexService.orEmpty p.2.2] := by
    intro ps
    rw [List.flatMap_map]
  have htext : ∀ l : Option DecisionLock,
      l.map (fun l => String.ofList l.snapshot.dumpsUnicode) =
        (l.map fun l => l.snapshot.dumpsUnicode).map String.ofList := by
    intro l
    rw [Option.map_map]
    rfl
  rw [SearchIndexService.body, SearchIndexService.body, SearchIndexService.sections,
    SearchIndexService.sections, hsummary, hsections, hsections, hproposals, htext, htext, hlock]

/-- A document made of what the rows say is up to date. -/
theorem upToDate_of_words {x : DecisionSearchDocument} {source : IndexSource}
    (hx : x.decisionId = d) (htitle : x.title = source.decision.title)
    (hbody : x.body = SearchIndexService.body source)
    (hstatus : x.decisionStatus = source.decision.status)
    (hcategory : x.category = source.decision.category)
    (hwords : wordsOf (some source.decision) source.proposals source.decisionLock =
      words tie d db.toTables) : UpToDate tie db x := by
  have hdecision := congrArg Words.decision hwords
  simp only [wordsOf, words, Option.map_some] at hdecision
  obtain ⟨decision, hfind, heq⟩ := Option.map_eq_some_iff.mp hdecision.symm
  simp only [Prod.mk.injEq] at heq
  refine ⟨_, by rw [hx, getIndexSource_run, hfind]; rfl, htitle.trans heq.1.symm, ?_,
    hstatus.trans heq.2.2.1.symm, hcategory.trans heq.2.2.2.symm⟩
  rw [hbody]
  refine body_of_words (hwords.trans ?_)
  rw [words, hfind]
  rfl

/-- The document stays up to date as long as the rows say the same. -/
theorem UpToDate.congr {x : DecisionSearchDocument} {db' : Db} (h : UpToDate tie db x)
    (hwords : words tie x.decisionId db'.toTables = words tie x.decisionId db.toTables) :
    UpToDate tie db' x := by
  obtain ⟨source, hrun, htitle, hbody, hstatus, hcategory⟩ := h
  rw [getIndexSource_run] at hrun
  obtain ⟨decision, hfind, rfl⟩ := Option.map_eq_some_iff.mp (Except.ok.inj hrun)
  refine upToDate_of_words rfl htitle hbody hstatus hcategory (Eq.trans ?_ hwords.symm)
  rw [words, hfind]
  rfl

end

/-! ## What the list says -/

theorem olderThan_max {i : Datetime} {ts : List Datetime} :
    SearchRepository.olderThan i ts.max? = true ↔ ∃ t ∈ ts, i < t := by
  unfold SearchRepository.olderThan
  cases hmax : ts.max? with
  | none =>
      rw [List.max?_eq_none_iff.mp hmax]
      simp
  | some m =>
      obtain ⟨hm, hle⟩ := List.max?_eq_some_iff.mp hmax
      simp only [Option.any_some, decide_eq_true_eq]
      constructor
      · exact fun h => ⟨m, hm, h⟩
      · rintro ⟨t, ht, hlt⟩
        exact lt_of_lt_of_le hlt (hle t ht)

/-- A decision that is not listed has a document, and no row dated after it. -/
theorem isStale_false {db : Db} {documents : List DecisionSearchDocument} {d : Decision}
    (hd : d ∈ db.decisions) (h : SearchRepository.isStale db documents d = false) :
    ∃ x ∈ documents, SearchRepository.documentOf d.id documents = some x ∧ x.decisionId = d.id ∧
      ¬ Later x.decisionId x.indexedAt db.toTables := by
  unfold SearchRepository.isStale at h
  cases hx : SearchRepository.documentOf d.id documents with
  | none =>
      rw [hx] at h
      nomatch h
  | some x =>
      simp only [hx, Bool.or_eq_false_iff] at h
      obtain ⟨⟨hupdated, hproposals⟩, hlocked⟩ := h
      have hdecision : x.decisionId = d.id := by
        rw [SearchRepository.documentOf] at hx
        simpa using List.find?_some hx
      refine ⟨x, List.mem_of_find?_eq_some hx, rfl, hdecision, ?_⟩
      rintro ⟨date, hdate, hlt⟩
      rw [hdecision, dates, List.mem_append, List.mem_append] at hdate
      rcases hdate with (hdate | hdate) | hdate
      · have hfind : find d.id db.decisions = some d := find_of_mem db.valid.pkDecisions hd
        rw [hfind] at hdate
        rw [List.mem_singleton.mp hdate] at hlt
        exact of_decide_eq_false hupdated hlt
      · have hmax := olderThan_max.mpr ⟨date, hdate, hlt⟩
        exact Bool.eq_false_iff.mp hproposals hmax
      · refine Bool.eq_false_iff.mp hlocked ?_
        have hlock : SearchRepository.lockedAt d.id db = some date := Option.mem_toList.mp hdate
        rw [hlock]
        exact decide_eq_true hlt

/-! ## Writes that keep up

From write to write, a commit keeps up if each of its writes does. -/

/-- From `t` to `t'` no date after `indexedAt` is lost, and if the rows of the decision come
to say something else, one of them comes to be dated after it. -/
def KeepsUp (tie : UUID → Nat) (d : UUID) (indexedAt : Datetime) (t t' : Tables) : Prop :=
  (Later d indexedAt t → Later d indexedAt t') ∧
    (words tie d t' ≠ words tie d t → Later d indexedAt t')

section
variable {tie : UUID → Nat} {d : UUID} {indexedAt : Datetime} {t t' t'' : Tables}

theorem KeepsUp.refl : KeepsUp tie d indexedAt t t := ⟨id, fun h => absurd rfl h⟩

theorem KeepsUp.trans (h : KeepsUp tie d indexedAt t t') (h' : KeepsUp tie d indexedAt t' t'') :
    KeepsUp tie d indexedAt t t'' := by
  refine ⟨fun hlater => h'.1 (h.1 hlater), fun hwords => ?_⟩
  by_cases hsame : words tie d t'' = words tie d t'
  · exact h'.1 (h.2 fun heq => hwords (hsame.trans heq))
  · exact h'.2 hsame

/-- The rows of the decision are what they were. -/
theorem KeepsUp.of_rows (hdecision : find d t'.decisions = find d t.decisions)
    (hproposals : (t'.proposals.filter fun p => p.decisionId = d) =
      t.proposals.filter fun p => p.decisionId = d)
    (hlock : (t'.decisionLocks.find? fun l => l.decisionId = d) =
      t.decisionLocks.find? fun l => l.decisionId = d) : KeepsUp tie d indexedAt t t' := by
  have hdates : dates d t' = dates d t := by
    rw [dates, dates, hdecision, hproposals, hlock]
  have hwords : words tie d t' = words tie d t := by
    rw [words, words, hdecision, hproposals, hlock]
  refine ⟨?_, fun h => absurd hwords h⟩
  rintro ⟨date, hdate, hlt⟩
  exact ⟨date, hdates ▸ hdate, hlt⟩

theorem KeepsUp.of_later (date : Datetime) (hdate : date ∈ dates d t') (hlt : indexedAt < date) :
    KeepsUp tie d indexedAt t t' :=
  ⟨fun _ => ⟨date, hdate, hlt⟩, fun _ => ⟨date, hdate, hlt⟩⟩

theorem setDecision_keepsUp {l c : Decision} {date : Datetime}
    (h : Stamped d indexedAt t (.setDecision l c date)) :
    KeepsUp tie d indexedAt t ((Write.setDecision l c date).run t) := by
  by_cases hsame : c = l
  · have hrows : update l c (l.merge c date) t.decisions = t.decisions := if_pos hsame
    exact .of_rows (congrArg (find d) hrows) rfl rfl
  · have hrows : update l c (l.merge c date) t.decisions =
        modify l.id (l.merge c date) t.decisions := if_neg hsame
    by_cases hid : l.id = d
    · have hfind := find_modify_self (k := l.id) (f := l.merge c date) (fun _ => rfl) t.decisions
      rw [hid] at hfind
      cases hd : find d t.decisions with
      | none =>
          rw [hd] at hfind
          refine .of_rows ?_ rfl rfl
          simp only [Write.run, hrows, hid, hfind, hd, Option.map_none]
      | some decision =>
          rw [hd] at hfind
          refine .of_later date ?_ ((h.resolve_left hsame).resolve_left (not_not_intro hid))
          simp [dates, Write.run, hrows, hid, hfind, Decision.merge]
    · refine .of_rows ?_ rfl rfl
      simp only [Write.run, hrows]
      exact find_modify_of_ne (f := l.merge c date) (fun he => hid he.symm)
        (fun _ => rfl) t.decisions

theorem setProposal_keepsUp {l c : Proposal} {date : Datetime}
    (h : Stamped d indexedAt t (.setProposal l c date)) :
    KeepsUp tie d indexedAt t ((Write.setProposal l c date).run t) := by
  by_cases hsame : c = l
  · have hrows : update l c (l.merge c date) t.proposals = t.proposals := if_pos hsame
    refine .of_rows rfl ?_ rfl
    simp only [Write.run, hrows]
  · have hrows : update l c (l.merge c date) t.proposals =
        modify l.id (l.merge c date) t.proposals := if_neg hsame
    by_cases hrow : ∃ p ∈ t.proposals, p.id = l.id ∧ p.decisionId = d
    · obtain ⟨p, hp, hid, hdecision⟩ := hrow
      refine .of_later date ?_
        ((h.resolve_left hsame).resolve_left fun hnone => hnone p hp hid hdecision)
      have hmem : l.merge c date p ∈ modify l.id (l.merge c date) t.proposals :=
        List.mem_map.mpr ⟨p, hp, if_pos hid⟩
      refine List.mem_append_left _ (List.mem_append_right _ (List.mem_map.mpr
        ⟨l.merge c date p, List.mem_filter.mpr ⟨?_, decide_eq_true hdecision⟩, rfl⟩))
      simp only [Write.run, hrows]
      exact hmem
    · refine .of_rows rfl ?_ rfl
      simp only [Write.run, hrows]
      refine filter_modify fun p hp hid => ?_
      have hdecision : p.decisionId ≠ d := fun he => hrow ⟨p, hp, hid, he⟩
      exact ⟨decide_eq_false hdecision, decide_eq_false hdecision⟩

theorem withoutProposals_keepsUp {gone : UUID → Bool}
    (h : ∀ p ∈ t.proposals, gone p.id = true → p.decisionId ≠ d) :
    KeepsUp tie d indexedAt t (t.withoutProposals gone) := by
  refine .of_rows rfl ?_ rfl
  simp only [Tables.withoutProposals, List.filter_filter]
  refine List.filter_congr fun p hp => ?_
  by_cases hdecision : p.decisionId = d
  · have hgone : gone p.id = false := Bool.eq_false_iff.mpr fun hg => h p hp hg hdecision
    simp [hgone]
  · simp [hdecision]

theorem withoutDecisions_keepsUp {gone : UUID → Bool} (hd : gone d = false)
    (hkept : ∀ p ∈ t.proposals, t.proposalsOf gone p.id → p.decisionId ≠ d) :
    KeepsUp tie d indexedAt t (t.withoutDecisions gone) := by
  refine (withoutProposals_keepsUp hkept).trans (.of_rows ?_ rfl rfl)
  refine find_filter (fun r hr => ?_) t.decisions
  rw [show r.id = d from hr, hd]
  rfl

/-- A write that is stamped keeps up. -/
theorem Stamped.keepsUp {w : Write} (h : Stamped d indexedAt t w) :
    KeepsUp tie d indexedAt t (w.run t) := by
  cases w with
  | setDecision l c date => exact setDecision_keepsUp h
  | setProposal l c date => exact setProposal_keepsUp h
  | deleteProposal id =>
      exact withoutProposals_keepsUp fun p hp hid => h p hp (of_decide_eq_true hid)
  | deleteDecision id => exact withoutDecisions_keepsUp (decide_eq_false fun he => h.1 he.symm) h.2
  | deleteWorkspace id =>
      exact (withoutDecisions_keepsUp h.1 h.2).trans (.of_rows rfl rfl rfl)
  | addDecision row =>
      refine .of_rows ?_ rfl rfl
      have hrow : decide (row.id = d) = false := decide_eq_false h
      simp [Write.run, Rows.find, List.find?_append, Keyed.key, hrow]
  | addProposal row =>
      by_cases hid : row.decisionId = d
      · refine .of_later row.updatedAt ?_ (h.resolve_left (not_not_intro hid))
        simp [dates, Write.run, List.filter_append, hid]
      · refine .of_rows rfl ?_ rfl
        simp [Write.run, List.filter_append, hid]
  | addLock row =>
      cases hlock : t.decisionLocks.find? fun l => l.decisionId = d with
      | some l =>
          refine .of_rows rfl rfl ?_
          simp [Write.run, List.find?_append, hlock]
      | none =>
          by_cases hid : row.decisionId = d
          · refine .of_later row.lockedAt ?_ (h.resolve_left (not_not_intro hid))
            simp [dates, Write.run, List.find?_append, hlock, hid]
          · refine .of_rows rfl rfl ?_
            simp [Write.run, List.find?_append, hlock, hid]
  | _ => exact .of_rows rfl rfl rfl

theorem AllStamped.keepsUp : ∀ {ws : List Write} {t : Tables}, AllStamped d indexedAt ws t →
    KeepsUp tie d indexedAt t (t.write ws)
  | [], _, _ => .refl
  | _ :: _, _, h => h.1.keepsUp.trans h.2.keepsUp

end

/-! ## Steps -/

/-- Every document is up to date, or behind a row that is dated after it. -/
def Kept (tie : UUID → Nat) (s : State) : Prop :=
  ∀ x ∈ s.documents, Later x.decisionId x.indexedAt s.db.toTables ∨ UpToDate tie s.db x

/-- What a task has read so far is what the rows say now, unless one of them is dated
after a date that all commits since have been dated after. -/
def IndexTask.Reading (tie : UUID → Nat) (t : Tables) (task : IndexTask) : Prop :=
  ∀ rest, task.phase = .reading rest →
    ∃ ss : List Db, (SearchRepository.getIndexSource tie task.decisionId).Leaves ss rest ∧
      ∀ indexedAt, (∀ e ∈ task.since, AllStamped task.decisionId indexedAt e.2 e.1) →
        Later task.decisionId indexedAt t ∨
          ∀ s ∈ ss, words tie task.decisionId s.toTables = words tie task.decisionId t

/-- The invariant. -/
structure Fresh (tie : UUID → Nat) (s : State) : Prop where
  documents : Kept tie s
  tasks : ∀ task ∈ s.tasks, task.Reading tie s.db.toTables

theorem fresh_start {tie : UUID → Nat} (db : Db) : Fresh tie (start db) where
  documents _ hx := nomatch hx
  tasks _ htask := nomatch htask

/-- A document after an `upsert` is the new one, or was there and is of another decision. -/
theorem upsert_cases {id : UUID} {decision : Decision} {body : String} {now : Datetime} {db : Db}
    {documents documents' : List DecisionSearchDocument}
    (h : SearchRepository.upsert id decision body now db documents = some documents') :
    ∀ x ∈ documents', (∃ i, x = SearchRepository.newDocument i decision body now) ∨
      x ∈ documents := by
  unfold SearchRepository.upsert at h
  intro x hx
  split at h
  · cases h
  · split at h
    · cases h
      obtain ⟨y, hy, rfl⟩ := List.mem_map.mp hx
      split
      · exact .inl ⟨y.id, rfl⟩
      · exact .inr hy
    · split at h
      · cases h
      · cases h
        rcases List.mem_append.mp hx with hx | hx
        · exact .inr hx
        · exact .inl ⟨id, List.mem_singleton.mp hx⟩

/-- What a step of the API commits. -/
theorem committed_write {dep : Deployment} {c c' : Configuration} {a : Optimistic.Action Op}
    (hact : c.act Db.commit (Op.program dep) a = some c') :
    c'.state.toTables = c.state.toTables.write (committed c a) := by
  cases a with
  | start op =>
      cases hact
      rfl
  | advance i =>
      obtain ⟨⟨op, seen, rest, answer⟩, t', ht, hadv, -⟩ := Config.act_advance hact
      rw [committed, ht, Option.elim_some]
      cases answer with
      | some r => nomatch hadv
      | none =>
          rcases rest with (e | ⟨b⟩ | ⟨ws, f, g⟩) | k
          · exact congrArg (fun p => p.2.toTables) (Option.some.inj hadv).symm
          · exact congrArg (fun p => p.2.toTables) (Option.some.inj hadv).symm
          · have hstate := congrArg Prod.snd (Option.some.inj hadv)
            simp only [Intent.perform] at hstate
            cases hc : Db.commit ws c.state with
            | error e =>
                rw [hc] at hstate
                simp only [hc]
                exact congrArg Db.toTables hstate.symm
            | ok db' =>
                rw [hc] at hstate
                simp only [hc]
                exact hstate ▸ (Db.commit_ok hc).1
          · exact congrArg (fun p => p.2.toTables) (Option.some.inj hadv).symm

section
variable {dep : Deployment} {tie : UUID → Nat} {s : State}

/-- A commit that is dated after the documents. -/
theorem Kept.request {a : Optimistic.Action Op} {requests : Configuration} (h : Kept tie s)
    (hact : s.requests.act Db.commit (Op.program dep) a = some requests)
    (hok : WellDated dep s (.request a)) :
    Kept tie (s.onDatabase (committed s.requests a) requests) := by
  intro x hx
  obtain ⟨hx, hparents⟩ := List.mem_filter.mp hx
  have hwrite : requests.state.toTables = s.db.toTables.write (committed s.requests a) :=
    committed_write hact
  have hkeeps : KeepsUp tie x.decisionId x.indexedAt s.db.toTables
      (s.db.toTables.write (committed s.requests a)) := (hok requests hact x hx hparents).keepsUp
  obtain ⟨hdate, hwords⟩ := hkeeps
  rw [← hwrite] at hdate hwords
  rcases h x hx with hlater | hup
  · exact .inl (hdate hlater)
  · by_cases hsame : words tie x.decisionId requests.state.toTables =
        words tie x.decisionId s.db.toTables
    · exact .inr (hup.congr hsame)
    · exact .inl (hwords hsame)

/-- A task that reads on takes note of the commit. -/
theorem IndexTask.Reading.note {t : Tables} {task : IndexTask} (h : task.Reading tie t)
    (ws : List Write) : (task.note t ws).Reading tie (t.write ws) := by
  intro rest hphase
  have hreading : task.phase = .reading rest := by
    rw [IndexTask.note] at hphase
    split at hphase <;> exact hphase
  have hnote : task.note t ws = { task with since := task.since ++ [(t, ws)] } := by
    rw [IndexTask.note, hreading]
    rfl
  obtain ⟨ss, hleaves, hss⟩ := h rest hreading
  rw [hnote]
  refine ⟨ss, hleaves, fun indexedAt hall => ?_⟩
  have hkeeps : KeepsUp tie task.decisionId indexedAt t (t.write ws) :=
    AllStamped.keepsUp (hall _ (List.mem_append_right _ List.mem_cons_self))
  rcases hss indexedAt fun e he => hall e (List.mem_append_left _ he) with hlater | hsame
  · exact .inl (hkeeps.1 hlater)
  · by_cases hwords : words tie task.decisionId (t.write ws) = words tie task.decisionId t
    · exact .inr fun s hs => (hsame s hs).trans hwords.symm
    · exact .inl (hkeeps.2 hwords)

/-- A read. -/
theorem IndexTask.Reading.read {task : IndexTask} {k : Db → Query (Option IndexSource)}
    (h : task.Reading tie s.db.toTables) (hphase : task.phase = .reading (.read k)) :
    ({ task with phase := .reading (k s.db) } : IndexTask).Reading tie s.db.toTables := by
  intro rest hrest
  cases hrest
  obtain ⟨ss, hleaves, hss⟩ := h _ hphase
  refine ⟨ss ++ [s.db], Reads.leaves_snoc hleaves s.db, fun indexedAt hall => ?_⟩
  refine (hss indexedAt hall).imp_right fun hsame s' hs' => ?_
  rcases List.mem_append.mp hs' with hs' | hs'
  · exact hsame s' hs'
  · rw [List.mem_singleton.mp hs']

/-- What three reads make of states that say the same. -/
theorem words_of_leaves {d : UUID} {ss : List Db} {source : IndexSource}
    (h : (SearchRepository.getIndexSource tie d).Leaves ss (.done (.ok (some source)))) :
    source.decision.id = d ∧ ∀ w : Words, (∀ s ∈ ss, words tie d s.toTables = w) →
      wordsOf (some source.decision) source.proposals source.decisionLock = w := by
  simp only [SearchRepository.getIndexSource, ends_query_bind] at h
  obtain ⟨s₁, ss₁, rfl, h⟩ := h
  cases hfind : find d s₁.decisions with
  | none =>
      rw [hfind] at h
      obtain ⟨-, he⟩ := ends_pure.mp h
      cases he
  | some decision =>
      rw [hfind] at h
      simp only [ends_query_bind, ends_pure] at h
      obtain ⟨s₂, _, rfl, s₃, _, rfl, rfl, he⟩ := h
      cases he
      refine ⟨(find_some hfind).2, fun w hw => ?_⟩
      simp only [List.forall_mem_cons] at hw
      obtain ⟨h₁, h₂, h₃, -⟩ := hw
      have hdecision := congrArg Words.decision h₁
      rw [words, hfind] at hdecision
      have hproposals := congrArg Words.proposals h₂
      have hlock := congrArg Words.decisionLock h₃
      exact Words.ext hdecision hproposals hlock

/-- A task that has read all writes what the rows say, or dates it before one of them. -/
theorem Kept.write {task : IndexTask} {i : Nat} {now : Datetime} {newId : UUID}
    {source : IndexSource} {documents : List DecisionSearchDocument} (h : Kept tie s)
    (htask : s.tasks[i]? = some task) (hreading : task.Reading tie s.db.toTables)
    (hok : WellDated dep s (.advance i now newId))
    (hphase : task.phase = .reading (.done (.ok (some source))))
    (hwrite : SearchIndexService.write newId now source s.db s.documents = some documents) :
    ∀ x ∈ documents, Later x.decisionId x.indexedAt s.db.toTables ∨ UpToDate tie s.db x := by
  obtain ⟨ss, hleaves, hss⟩ := hreading _ hphase
  obtain ⟨hid, hsource⟩ := words_of_leaves hleaves
  have hfound : (find source.decision.id s.db.decisions).isSome := by
    unfold SearchIndexService.write SearchRepository.upsert at hwrite
    split at hwrite
    · cases hwrite
    · rename_i hgone
      simp only [Bool.or_eq_true, not_or, Option.isNone_iff_eq_none] at hgone
      exact Option.ne_none_iff_isSome.mp hgone.1
  have hall : ∀ e ∈ task.since, AllStamped task.decisionId now e.2 e.1 := by
    rw [← hid]
    exact hok task htask source (by rw [hphase]; rfl) hfound
  intro x hx
  rcases upsert_cases hwrite x hx with ⟨j, rfl⟩ | hx
  · rcases hss now hall with hlater | hsame
    · refine .inl ?_
      rw [show (SearchRepository.newDocument j source.decision _ now).decisionId = task.decisionId
        from hid]
      exact hlater
    · refine .inr (upToDate_of_words rfl rfl rfl rfl rfl ?_)
      rw [show (SearchRepository.newDocument j source.decision _ now).decisionId = task.decisionId
        from hid]
      exact hsource _ hsame
  · exact h x hx

/-- A statement of a task: a read, or the write after the last. -/
theorem Fresh.advance {task : IndexTask} {i : Nat} {now : Datetime} {newId : UUID}
    {phase : TaskPhase} {documents : List DecisionSearchDocument} (h : Fresh tie s)
    (htask : s.tasks[i]? = some task) (hok : WellDated dep s (.advance i now newId))
    (hadv : advance tie s task.decisionId now newId task.phase = some (phase, documents)) :
    Fresh tie { s with
      documents := documents, tasks := s.tasks.set i { task with phase := phase } } := by
  have hreading := h.tasks task (List.mem_of_getElem? htask)
  -- the other tasks and the rows stay
  have hset : ({ task with phase := phase } : IndexTask).Reading tie s.db.toTables →
      ∀ u ∈ s.tasks.set i { task with phase := phase }, u.Reading tie s.db.toTables := by
    intro hself u hu
    rcases List.mem_or_eq_of_mem_set hu with hu | rfl
    · exact h.tasks u hu
    · exact hself
  unfold SearchIndex.advance at hadv
  split at hadv
  · cases hadv
    refine ⟨h.documents, hset fun rest hrest => ?_⟩
    cases hrest
    exact ⟨[], rfl, fun _ _ => .inr fun _ hs => nomatch hs⟩
  · rename_i k hphase
    cases hadv
    exact ⟨h.documents, hset (hreading.read hphase)⟩
  · rename_i source hphase
    cases hadv
    refine ⟨?_, hset fun rest hrest => nomatch hrest⟩
    cases hwrite : SearchIndexService.write newId now source s.db s.documents with
    | none => exact h.documents
    | some written => exact h.documents.write htask hreading hok hphase hwrite
  · cases hadv
    exact ⟨h.documents, hset fun rest hrest => nomatch hrest⟩
  · nomatch hadv

theorem Fresh.step {a : Action} {s' : State} (h : Fresh tie s) (hok : WellDated dep s a)
    (hstep : step dep tie s a = some s') : Fresh tie s' := by
  cases a with
  | request a =>
      obtain ⟨requests, hact, rfl⟩ := Option.map_eq_some_iff.mp hstep
      refine ⟨h.documents.request hact hok, fun task htask => ?_⟩
      obtain ⟨task, hmem, rfl⟩ := List.mem_map.mp htask
      have hwrite : requests.state.toTables = s.db.toTables.write (committed s.requests a) :=
        committed_write hact
      have hnote := (h.tasks task hmem).note (committed s.requests a)
      rw [← hwrite] at hnote
      exact hnote
  | index d =>
      cases hstep
      refine ⟨h.documents, fun task htask => ?_⟩
      rcases List.mem_append.mp htask with htask | htask
      · exact h.tasks task htask
      · rw [List.mem_singleton.mp htask]
        exact fun rest hrest => nomatch hrest
  | advance i now newId =>
      simp only [SearchIndex.step, Option.bind_eq_bind, Option.bind_eq_some_iff, Option.pure_def,
        Option.some.injEq] at hstep
      obtain ⟨task, htask, ⟨phase, documents⟩, hadv, rfl⟩ := hstep
      exact h.advance htask hok hadv

end

/-- **Freshness.**  In every state of a run whose commits are dated after the documents that
they concern, a decision that `list_stale_decision_ids` does not list has a document, and it is
what `index` would write now. -/
theorem unlisted_upToDate (dep : Deployment) (tie : UUID → Nat) {db : Db} {s : State}
    (h : Machine.Run (step dep tie) (WellDated dep) (start db) s) :
    ∀ d ∈ s.db.decisions, SearchRepository.isStale s.db s.documents d = false →
      ∃ x, SearchRepository.documentOf d.id s.documents = some x ∧ UpToDate tie s.db x := by
  have hfresh : Fresh tie s :=
    h.invariant (fun _ _ _ hs hok hstep => Fresh.step hs hok hstep) (fresh_start db)
  intro d hd hstale
  obtain ⟨x, hx, hdocument, -, hlater⟩ := isStale_false hd hstale
  exact ⟨x, hdocument, (hfresh.documents x hx).resolve_left hlater⟩

namespace Sample

open ForkRoom.Sample

/-- Ada writes a decision and a proposal. -/
def written : List Action :=
  (oneByOne 0
    [(.register ada, 0), (.createWorkspace (env 1 10) ada ⟨"Lab", none⟩, 0),
      (.createDecision (env 3 20) ada 10 ⟨"Database", none, .technology, none, none⟩, 2),
      (.createProposal (env 5 30) ada 10 20 ⟨"Postgres", none, some "rows"⟩, 3)]).map .request

/-- A task runs from its start to its end. -/
def indexed (i : Nat) (now : Datetime) (id : UUID) : List Action :=
  .index 20 :: List.replicate 5 (.advance i now id)

/-- One more request, of four reads. -/
def requested (op : Op) : List Action :=
  ((Optimistic.Action.start op) :: List.replicate 5 (.advance 4)).map .request

/-- The proposal is written anew. -/
def changed : List Action :=
  requested (.updateProposal (env 7 0) ada 10 20 30 ⟨none, none, some (some "tables")⟩)

def deleted : List Action := requested (.deleteProposal ada 10 20 30)

end Sample

/-- The body that `index` would write now. -/
def bodyNow (d : UUID) (db : Db) : Option String :=
  match (SearchRepository.getIndexSource BitVec.toNat d).run db with
  | .ok source => source.map SearchIndexService.body
  | .error _ => none

/-- The bodies of a document and of what `index` would write are the same if it is up to date. -/
theorem UpToDate.body {db : Db} {x : DecisionSearchDocument} (h : UpToDate BitVec.toNat db x) :
    bodyNow x.decisionId db = some x.body := by
  obtain ⟨source, hrun, -, hbody, -, -⟩ := h
  rw [bodyNow, hrun, hbody]
  rfl

theorem unlisted_upToDate_sample : ∃ s : State,
    Machine.Run (step ForkRoom.Sample.dep BitVec.toNat) (WellDated ForkRoom.Sample.dep)
      (start Db.empty) s ∧
    ∃ d ∈ s.db.decisions, d.id = 20 ∧ ∃ x, SearchRepository.documentOf d.id s.documents = some x ∧
      x.body = "Postgres\ntables" ∧ UpToDate BitVec.toNat s.db x := by
  obtain ⟨s, hplay, hs⟩ := Option.map_eq_some_iff.mp
    (show (Machine.play (step ForkRoom.Sample.dep BitVec.toNat)
        (WellDated ForkRoom.Sample.dep) (start Db.empty)
        (Sample.written ++ Sample.indexed 0 6 70 ++ Sample.changed ++ Sample.indexed 1 8 71)).map
          (fun s => s.db.decisions.map fun d =>
            (d.id, SearchRepository.isStale s.db s.documents d,
              (SearchRepository.documentOf d.id s.documents).map DecisionSearchDocument.body)) =
      some [(20, false, some "Postgres\ntables")] by decide +kernel)
  have hrun := Machine.Run.of_play hplay
  obtain ⟨d, hd, hview⟩ := List.mem_map.mp (hs ▸ List.mem_singleton_self _)
  simp only [Prod.mk.injEq] at hview
  obtain ⟨hid, hstale, hbody⟩ := hview
  obtain ⟨x, hx, hup⟩ := unlisted_upToDate ForkRoom.Sample.dep BitVec.toNat hrun d hd hstale
  rw [hx] at hbody
  exact ⟨s, hrun, d, hd, hid, x, hx, Option.some.inj hbody, hup⟩

/-- A proposal that is deleted after the decision was indexed: its text stays in the document, and
the decision is not listed. -/
theorem deleted_not_listed : ¬ ∀ (dep : Deployment) (tie : UUID → Nat) (s : State),
    Machine.Run (step dep tie) (fun _ _ => True) (start Db.empty) s →
    (∀ task ∈ s.tasks, task.phase.halfDone = false) →
    ∀ d ∈ s.db.decisions, SearchRepository.isStale s.db s.documents d = false →
      ∃ x, SearchRepository.documentOf d.id s.documents = some x ∧ UpToDate tie s.db x := by
  intro h
  obtain ⟨s, hplay, hs⟩ := Option.map_eq_some_iff.mp
    (show (Machine.play (step ForkRoom.Sample.dep BitVec.toNat) (fun _ _ => True) (start Db.empty)
        (Sample.written ++ Sample.indexed 0 6 70 ++ Sample.deleted)).map (fun s =>
          (s.tasks.map (fun task => task.phase.halfDone), s.db.decisions.map fun d =>
            (SearchRepository.isStale s.db s.documents d,
              (SearchRepository.documentOf d.id s.documents).map DecisionSearchDocument.body,
              bodyNow d.id s.db))) =
      some ([false], [(false, some "Postgres\nrows", some "")]) by decide +kernel)
  obtain ⟨htasks, hdecisions⟩ := Prod.mk.inj hs
  obtain ⟨d, hd, hview⟩ := List.mem_map.mp (hdecisions ▸ List.mem_singleton_self _)
  simp only [Prod.mk.injEq] at hview
  obtain ⟨hstale, hbody, hnow⟩ := hview
  have hdone : ∀ task ∈ s.tasks, task.phase.halfDone = false := fun task htask =>
    List.mem_singleton.mp (htasks ▸ List.mem_map_of_mem htask)
  obtain ⟨x, hx, hup⟩ := h _ _ s (Machine.Run.of_play hplay) hdone d hd hstale
  have hsame := hup.body
  have hid : x.decisionId = d.id := by
    rw [SearchRepository.documentOf] at hx
    simpa using List.find?_some hx
  rw [hx] at hbody
  rw [hid, hnow, Option.some.inj hbody] at hsame
  nomatch hsame

end ForkRoom.SearchIndex
