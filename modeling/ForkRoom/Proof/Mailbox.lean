/-
# `Proof.Mailbox` — a password counts once somebody has been at the mailbox

Whoever can sign in with a password has a verified account.  An account is
verified by a token that was sent to its address and has been redeemed, or by a
Google sign-in with that address (`Event.proves`).  The password that was given to
register stays as it is in the second case.
-/
import ForkRoom.Proof.ActionTokens
import ForkRoom.Proof.Refresh
import ForkRoom.System.Mailbox

namespace ForkRoom

namespace Mailbox

section
variable {T : Type}

/-! ## What only grows -/

def State.identities (s : State T) : List (UUID × String) := ForkRoom.identities s.accounts

/-- The tokens drawn so far. -/
def State.drawn (s : State T) : List ActionTokens.Issued :=
  s.tokens.calls.map ActionTokens.Issue.issued

structure Grows (s s' : State T) : Prop where
  identities : s.identities ⊆ s'.identities
  drawn : s.drawn ⊆ s'.drawn
  mails : s.mails ⊆ s'.mails
  history : s.history ⊆ s'.history

/-- The event shows that somebody has been at the mailbox of the account. -/
def Event.proves (digest lower : String → String) (mails : List Mail) (userId : UUID)
    (email : String) : Event → Prop
  | .registered .. => False
  | .redeemed x => x.userId = userId ∧
      ∃ mail ∈ mails, mail.recipient = email ∧ digest mail.token = x.digest
  | .signedIn id profile => id = userId ∧ lower profile.email = lower email

def Reached (digest lower : String → String) (s : State T) (userId : UUID) (email : String) :
    Prop :=
  ∃ e ∈ s.history, e.proves digest lower s.mails userId email

/-- The mail went to the account that its token was drawn for. -/
def Mail.Ok (digest : String → String) (s : State T) (mail : Mail) : Prop :=
  ∃ x ∈ s.drawn, x.digest = digest mail.token ∧ (x.userId, mail.recipient) ∈ s.identities

def Event.Ok (digest : String → String) (s : State T) : Event → Prop
  | .registered userId _ | .signedIn userId _ => ∃ email, (userId, email) ∈ s.identities
  | .redeemed x => ∃ mail ∈ s.mails, digest mail.token = x.digest ∧
      (x.userId, mail.recipient) ∈ s.identities

/-- What a request has read is so. -/
def Request.Ok (digest lower : String → String) (s : State T) : Request → Prop
  | .create user _ => user.isEmailVerified = false
  | .issue _ user | .linked _ user _ => (user.id, user.email) ∈ s.identities
  | .send purpose user token => (user.id, user.email) ∈ s.identities ∧
      ⟨purpose, user.id, digest token⟩ ∈ s.drawn
  | .verify userId => ∃ x, .redeemed x ∈ s.history ∧ x.userId = userId
  | .markVerified user => ∃ x, .redeemed x ∈ s.history ∧ x.userId = user.id
  | .reset .. | .updatePassword .. | .link none _ => True
  | .link (some user) profile => (user.id, user.email) ∈ s.identities ∧
      lower profile.email = lower user.email

variable {digest lower : String → String} {s s' : State T}

theorem Event.proves_mono {mails mails' : List Mail} (h : mails ⊆ mails') {userId : UUID}
    {email : String} {e : Event} (he : e.proves digest lower mails userId email) :
    e.proves digest lower mails' userId email := by
  cases e with
  | registered id password => exact he
  | signedIn id profile => exact he
  | redeemed x =>
      obtain ⟨hid, mail, hm, hmail⟩ := he
      exact ⟨hid, mail, h hm, hmail⟩

theorem Reached.mono (g : Grows s s') {userId : UUID} {email : String}
    (h : Reached digest lower s userId email) : Reached digest lower s' userId email := by
  obtain ⟨e, he, hp⟩ := h
  exact ⟨e, g.history he, Event.proves_mono g.mails hp⟩

theorem Mail.Ok.mono (g : Grows s s') {mail : Mail} (h : mail.Ok digest s) : mail.Ok digest s' := by
  obtain ⟨x, hx, hd, hid⟩ := h
  exact ⟨x, g.drawn hx, hd, g.identities hid⟩

theorem Event.Ok.mono (g : Grows s s') {e : Event} (h : e.Ok digest s) : e.Ok digest s' := by
  cases e with
  | registered userId password => exact h.imp fun _ hid => g.identities hid
  | signedIn userId profile => exact h.imp fun _ hid => g.identities hid
  | redeemed x =>
      obtain ⟨mail, hm, hd, hid⟩ := h
      exact ⟨mail, g.mails hm, hd, g.identities hid⟩

theorem Request.Ok.mono (g : Grows s s') {r : Request} (h : r.Ok digest lower s) :
    r.Ok digest lower s' := by
  cases r with
  | create user password => exact h
  | issue purpose user => exact g.identities h
  | send purpose user token => exact ⟨g.identities h.1, g.drawn h.2⟩
  | verify userId => exact h.imp fun _ hx => ⟨g.history hx.1, hx.2⟩
  | markVerified user => exact h.imp fun _ hx => ⟨g.history hx.1, hx.2⟩
  | reset userId newPassword => trivial
  | updatePassword user passwordHash => trivial
  | linked account user profile => exact g.identities h
  | link user profile =>
      cases user with
      | none => trivial
      | some user => exact ⟨g.identities h.1, h.2⟩

/-! ## The invariant -/

structure Sound (digest lower : String → String) (s : State T) : Prop where
  traced : ActionTokens.Traced s.tokens
  ids : (s.accounts.map Account.id).Nodup
  requests : ∀ r ∈ s.requests, r.Ok digest lower s
  mails : ∀ m ∈ s.mails, m.Ok digest s
  events : ∀ e ∈ s.history, e.Ok digest s
  verified : ∀ a ∈ s.accounts, a.isEmailVerified → Reached digest lower s a.id a.email
  /-- nothing has happened to an account before it was registered -/
  order : s.history.Pairwise fun e e' => ∀ u p, e' = .registered u p → e.userId ≠ u

theorem Sound.init {clock : T} : Sound digest lower (start clock) :=
  ⟨ActionTokens.Traced.init, List.nodup_nil, fun _ h => (nomatch h), fun _ h => (nomatch h),
    fun _ h => (nomatch h), fun _ h => (nomatch h), List.Pairwise.nil⟩

/-- A key has one address. -/
theorem Sound.email_eq (h : Sound digest lower s) {userId : UUID} {email email' : String}
    (he : (userId, email) ∈ s.identities) (he' : (userId, email') ∈ s.identities) :
    email = email' := by
  obtain ⟨a, ha, hp⟩ := List.mem_map.mp he
  obtain ⟨a', ha', hp'⟩ := List.mem_map.mp he'
  cases hp
  have hid : a'.id = a.id := congrArg Prod.fst hp'
  rw [List.inj_on_of_nodup_map h.ids ha' ha hid] at hp'
  exact congrArg Prod.snd hp'

/-- A token that was redeemed for an account was sent to its address. -/
theorem Sound.reached_of_redeemed (h : Sound digest lower s) {x : ActionTokens.Issued}
    {a : Account} (hx : .redeemed x ∈ s.history) (ha : a ∈ s.accounts) (hid : x.userId = a.id) :
    Reached digest lower s a.id a.email := by
  obtain ⟨mail, hm, hd, hmem⟩ := h.events _ hx
  rw [hid] at hmem
  exact ⟨_, hx, hid, mail, hm, h.email_eq hmem (mem_identities ha), hd⟩

/-- A step adds requests, mails and events that are as they should be. -/
theorem Sound.next (h : Sound digest lower s) (g : Grows s s')
    (ht : ActionTokens.Traced s'.tokens) (hids : (s'.accounts.map Account.id).Nodup)
    (hr : ∀ r ∈ s'.requests, r ∈ s.requests ∨ r.Ok digest lower s')
    (hm : ∀ m ∈ s'.mails, m ∈ s.mails ∨ m.Ok digest s')
    (he : ∀ e ∈ s'.history, e ∈ s.history ∨ e.Ok digest s')
    (ha : ∀ a ∈ s'.accounts, a.isEmailVerified →
      (∃ b ∈ s.accounts, b.isEmailVerified ∧ b.id = a.id ∧ b.email = a.email) ∨
        Reached digest lower s' a.id a.email)
    (ho : s'.history.Pairwise fun e e' => ∀ u p, e' = .registered u p → e.userId ≠ u) :
    Sound digest lower s' := by
  refine ⟨ht, hids, fun r hmem => ?_, fun m hmem => ?_, fun e hmem => ?_, fun a hmem hv => ?_, ho⟩
  · exact (hr r hmem).elim (fun hold => (h.requests r hold).mono g) id
  · exact (hm m hmem).elim (fun hold => (h.mails m hold).mono g) id
  · exact (he e hmem).elim (fun hold => (h.events e hold).mono g) id
  · rcases ha a hmem hv with ⟨b, hb, hbv, hid, hemail⟩ | hreached
    · exact hid ▸ hemail ▸ (h.verified b hb hbv).mono g
    · exact hreached

/-! ## Parts of steps -/

/-- An account in the tables, verified or not, is as it was. -/
theorem verified_same {a : Account} (ha : a ∈ s.accounts) :
    a.isEmailVerified → (∃ b ∈ s.accounts, b.isEmailVerified ∧ b.id = a.id ∧ b.email = a.email) ∨
      Reached digest lower s' a.id a.email :=
  fun hv => .inl ⟨a, ha, hv, rfl, rfl⟩

theorem Sound.withRequests (h : Sound digest lower s) {requests : List Request}
    (hr : ∀ r ∈ requests, r ∈ s.requests ∨ r.Ok digest lower s) :
    Sound digest lower { s with requests := requests } := by
  have g : Grows s { s with requests := requests } :=
    ⟨List.Subset.refl _, List.Subset.refl _, List.Subset.refl _, List.Subset.refl _⟩
  refine h.next g h.traced h.ids (fun r hm => (hr r hm).imp_right (Request.Ok.mono g))
    (fun _ hm => .inl hm) (fun _ hm => .inl hm) (fun a ha => verified_same ha) h.order

theorem Sound.begin (h : Sound digest lower s) {r : Request} (hr : r.Ok digest lower s) :
    Sound digest lower (s.begin r) :=
  h.withRequests (Machine.forall_snoc (fun _ hm => .inl hm) (.inr hr))

theorem Sound.goOn (h : Sound digest lower s) {i : Nat} {r : Request} (hr : r.Ok digest lower s) :
    Sound digest lower (s.goOn i r) :=
  h.withRequests (Machine.forall_set (fun _ hm => .inl hm) (.inr hr))

theorem Sound.finish (h : Sound digest lower s) (i : Nat) : Sound digest lower (s.finish i) :=
  h.withRequests fun _ hm => .inl (List.mem_of_mem_eraseIdx hm)

theorem Sound.withTokens (h : Sound digest lower s) {tokens : ActionTokens.State T}
    (ht : ActionTokens.Traced tokens)
    (hd : s.drawn ⊆ tokens.calls.map ActionTokens.Issue.issued) :
    Sound digest lower { s with tokens := tokens } := by
  have g : Grows s { s with tokens := tokens } :=
    ⟨List.Subset.refl _, hd, List.Subset.refl _, List.Subset.refl _⟩
  exact h.next g ht h.ids (fun _ hm => .inl hm) (fun _ hm => .inl hm) (fun _ hm => .inl hm)
    (fun a ha => verified_same ha) h.order

theorem Sound.withLinks (h : Sound digest lower s) (links : List OAuthAccount) :
    Sound digest lower { s with links := links } := by
  have g : Grows s { s with links := links } :=
    ⟨List.Subset.refl _, List.Subset.refl _, List.Subset.refl _, List.Subset.refl _⟩
  exact h.next g h.traced h.ids (fun _ hm => .inl hm) (fun _ hm => .inl hm) (fun _ hm => .inl hm)
    (fun a ha => verified_same ha) h.order

theorem Sound.deliver (h : Sound digest lower s) {mail : Mail} (hm : mail.Ok digest s) :
    Sound digest lower (s.deliver mail) := by
  have g : Grows s (s.deliver mail) :=
    ⟨List.Subset.refl _, List.Subset.refl _, List.subset_append_left .., List.Subset.refl _⟩
  exact h.next g h.traced h.ids (fun _ hm => .inl hm)
    (Machine.forall_snoc (fun _ hm => .inl hm) (.inr (hm.mono g))) (fun _ hm => .inl hm)
    (fun a ha => verified_same ha) h.order

theorem pairwise_log {e : Event} (h : Sound digest lower s)
    (hnew : ∀ u p, e = .registered u p → ∀ e' ∈ s.history, e'.userId ≠ u) :
    (s.log e).history.Pairwise fun e e' => ∀ u p, e' = .registered u p → e.userId ≠ u := by
  refine List.pairwise_append.mpr ⟨h.order, List.pairwise_singleton _ _, fun e' he' e'' he'' => ?_⟩
  intro u p hu
  exact hnew u p (List.mem_singleton.mp he'' ▸ hu) e' he'

/-- An event that is no registration. -/
theorem Sound.log (h : Sound digest lower s) {e : Event} (he : e.Ok digest s)
    (hne : ∀ u p, e ≠ .registered u p) : Sound digest lower (s.log e) := by
  have g : Grows s (s.log e) :=
    ⟨List.Subset.refl _, List.Subset.refl _, List.Subset.refl _, List.subset_append_left ..⟩
  exact h.next g h.traced h.ids (fun _ hm => .inl hm) (fun _ hm => .inl hm)
    (Machine.forall_snoc (fun _ hm => .inl hm) (.inr (he.mono g)))
    (fun a ha => verified_same ha) (pairwise_log h fun u p hu => absurd hu (hne u p))

/-- A Google sign-in to an account that is there. -/
theorem Sound.signedIn (h : Sound digest lower s) {userId : UUID} {email : String}
    (hid : (userId, email) ∈ s.identities) (profile : GoogleProfile) :
    Sound digest lower (s.log (.signedIn userId profile)) :=
  h.log ⟨email, hid⟩ fun _ _ he => (nomatch he)

/-- Accounts get verified, or passwords change. -/
theorem Sound.withAccounts (h : Sound digest lower s) {accounts : List Account}
    (hsame : ForkRoom.identities accounts = s.identities)
    (ha : ∀ a ∈ accounts, a.isEmailVerified →
      ∃ b ∈ s.accounts, (b.isEmailVerified ∨ Reached digest lower s b.id b.email) ∧
        b.id = a.id ∧ b.email = a.email) :
    Sound digest lower { s with accounts := accounts } := by
  have hkept : s.identities ⊆ ForkRoom.identities accounts := by
    rw [hsame]
    exact List.Subset.refl _
  have g : Grows s { s with accounts := accounts } :=
    ⟨hkept, List.Subset.refl _, List.Subset.refl _, List.Subset.refl _⟩
  refine h.next g h.traced ?_ (fun _ hm => .inl hm) (fun _ hm => .inl hm) (fun _ hm => .inl hm)
    (fun a hm hv => ?_) h.order
  · show (accounts.map Account.id).Nodup
    rw [← map_id_identities, hsame]
    exact map_id_identities ▸ h.ids
  · obtain ⟨b, hb, hbv | hreached, hid, hemail⟩ := ha a hm hv
    · exact .inl ⟨b, hb, hbv, hid, hemail⟩
    · exact .inr (hid ▸ hemail ▸ hreached.mono g)

/-- A new account, and what is logged about it. -/
theorem Sound.withNew (h : Sound digest lower s) {user : Account} (e : Event)
    (hnew : user.id ∉ s.accounts.map Account.id) (hid : e.userId = user.id)
    (hok : e.Ok digest { s.log e with accounts := s.accounts ++ [user] })
    (hv : user.isEmailVerified → e.proves digest lower s.mails user.id user.email) :
    Sound digest lower { s.log e with accounts := s.accounts ++ [user] } := by
  have g : Grows s { s.log e with accounts := s.accounts ++ [user] } := by
    refine ⟨?_, List.Subset.refl _, List.Subset.refl _, List.subset_append_left ..⟩
    show s.identities ⊆ (s.accounts ++ [user]).map _
    rw [List.map_append]
    exact List.subset_append_left ..
  have hold : ∀ e' ∈ s.history, e'.userId ≠ user.id := by
    intro e' he' hsame
    have hmem : ∃ email, (e'.userId, email) ∈ s.identities := by
      have hok' := h.events e' he'
      cases e' with
      | registered userId password => exact hok'
      | signedIn userId profile => exact hok'
      | redeemed x =>
          obtain ⟨mail, -, -, hmem⟩ := hok'
          exact ⟨_, hmem⟩
    obtain ⟨email, hmem⟩ := hmem
    refine hnew ?_
    rw [← map_id_identities, ← hsame]
    exact List.mem_map_of_mem hmem
  refine h.next g h.traced ?_ (fun _ hm => .inl hm) (fun _ hm => .inl hm)
    (Machine.forall_snoc (fun _ hm => .inl hm) (.inr hok)) ?_
    (pairwise_log h fun u p hu e' he' => ?_)
  · show ((s.accounts ++ [user]).map Account.id).Nodup
    rw [List.map_append]
    exact List.nodup_append_comm.mp (List.nodup_cons.mpr ⟨hnew, h.ids⟩)
  · refine Machine.forall_snoc (fun a ha => verified_same ha) fun hverified => .inr ?_
    exact ⟨e, List.mem_append_right _ List.mem_cons_self, hv hverified⟩
  · subst hu
    exact fun hsame => hold e' he' (hsame.trans hid)

/-- A verified account after an `UPDATE` of one row. -/
theorem Sound.withModified (h : Sound digest lower s) {user : Account}
    {f : Account → Account} (hid : ∀ a, (f a).id = a.id) (hemail : ∀ a, (f a).email = a.email)
    (hv : (∀ a, (f a).isEmailVerified = a.isEmailVerified) ∨
      ∀ a ∈ s.accounts, a.id = user.id → Reached digest lower s a.id a.email) :
    Sound digest lower { s with accounts := Rows.modify user.id f s.accounts } := by
  refine h.withAccounts ?_ fun a ha hverified => ?_
  · refine Rows.map_modify _ ?_ s.accounts
    intro a
    rw [hid, hemail]
  · obtain ⟨b, hb, hrow⟩ := Rows.mem_modify.mp ha
    split at hrow
    · rename_i hkey
      rw [← hrow] at hverified ⊢
      refine ⟨b, hb, ?_, (hid b).symm, (hemail b).symm⟩
      rcases hv with hv | hv
      · exact .inl (hv b ▸ hverified)
      · exact .inr (hv b hb hkey)
    · exact ⟨b, hb, .inl (hrow ▸ hverified), hrow ▸ rfl, hrow ▸ rfl⟩

variable {i : Nat} {credentials : Credentials} {settings : AuthSettings}

theorem Sound.create (h : Sound digest lower s) {user : Account} {accounts : List Account}
    {password : String} (hv : user.isEmailVerified = false)
    (hcreate : UserRepository.createAccount user s.accounts = .ok accounts) :
    Sound digest lower
      (State.goOn { s.log (.registered user.id password) with accounts := accounts } i
        (.issue AuthService.emailVerificationPurpose user)) := by
  obtain ⟨hnew, rfl⟩ := UserRepository.createAccount_ok hcreate
  have hmem : (user.id, user.email) ∈ ForkRoom.identities (s.accounts ++ [user]) :=
    mem_identities (List.mem_append_right _ List.mem_cons_self)
  refine Sound.goOn (h.withNew (.registered user.id password) hnew rfl ⟨_, hmem⟩
    fun hverified => ?_) hmem
  rw [hv] at hverified
  cases hverified

theorem Sound.markVerified (h : Sound digest lower s) {user : Account}
    (hr : ∃ x, .redeemed x ∈ s.history ∧ x.userId = user.id) :
    Sound digest lower
      { s with accounts := UserRepository.markEmailVerified user s.accounts } := by
  obtain ⟨x, hx, hid⟩ := hr
  exact h.withModified (fun _ => rfl) (fun _ => rfl)
    (.inr fun a ha hkey => h.reached_of_redeemed hx ha (hid.trans hkey.symm))

theorem Sound.updatePassword (h : Sound digest lower s) {user : Account} {passwordHash : String}
    {accounts : List Account}
    (hupdate : UserRepository.updatePassword user passwordHash s.accounts = some accounts) :
    Sound digest lower { s with accounts := accounts } := by
  rw [UserRepository.updatePassword_some hupdate]
  exact h.withModified (fun _ => rfl) (fun _ => rfl) (.inl fun _ => rfl)

/-- A Google sign-in is at the mailbox of the account it makes or links. -/
theorem Sound.link (h : Sound digest credentials.lower s) {user : Option Account}
    {profile : GoogleProfile} {draws : GoogleDraws} {userId : UUID} {accounts : List Account}
    {links : List OAuthAccount} (hr : (Request.link user profile).Ok digest credentials.lower s)
    (hlink : OAuthAccountRepository.link credentials profile draws user s.accounts s.links =
      some (userId, accounts, links)) :
    Sound digest credentials.lower
      { s.log (.signedIn userId profile) with accounts := accounts, links := links } := by
  rcases OAuthAccountRepository.link_some hlink with ⟨rfl, rfl, hnew, rfl⟩ | ⟨u, rfl, rfl, rfl⟩
  · have hmem : (draws.userId, profile.email) ∈ ForkRoom.identities
        (s.accounts ++ [OAuthAccountRepository.newUser credentials profile draws]) :=
      mem_identities (List.mem_append_right _ List.mem_cons_self)
    exact (h.withNew (.signedIn draws.userId profile) hnew rfl ⟨_, hmem⟩
      fun _ => ⟨rfl, rfl⟩).withLinks links
  · have hverify : Sound digest credentials.lower { s.log (.signedIn u.id profile) with
        accounts := OAuthAccountRepository.verifyUser profile u s.accounts } := by
      refine (h.signedIn hr.1 profile).withModified (fun _ => rfl) (fun _ => rfl)
        (.inr fun a ha hkey => ?_)
      have hemail : a.email = u.email := h.email_eq (mem_identities ha) (hkey ▸ hr.1)
      exact ⟨_, List.mem_append_right _ List.mem_cons_self, hkey.symm, hemail ▸ hr.2⟩
    exact hverify.withLinks links

/-! ## Steps -/

section
variable [LinearOrder T] [Add T]

/-- Whoever redeems a token has got it by mail. -/
theorem Sound.redeem (h : Sound digest lower s) {purpose token : String} {next : UUID → Request}
    (hstep : redeem digest s purpose token next = some s')
    (hnext : ∀ s₁ : State T, ∀ x, .redeemed x ∈ s₁.history →
      (next x.userId).Ok digest lower s₁) : Sound digest lower s' := by
  obtain ⟨hknown, hstep⟩ := Machine.guard_bind hstep
  have hsteps : ActionTokens.Steps s.tokens (.consume purpose token)
      (ActionTokens.consume s.tokens purpose (digest token)) :=
    ActionTokens.consume_cases purpose (digest token)
  have h₁ := h.withTokens (h.traced.step hsteps) hsteps.issued_subset
  simp only at hstep
  split at hstep
  · cases hstep
    exact h₁
  · rename_i userId hread
    cases hstep
    obtain ⟨entry, hentry, -, rfl⟩ := Expiring.Key.read_eq_some.mp hread
    obtain ⟨call, hcall, -, hissued⟩ := h.traced.tokens _ _ _ hentry
    have hdigest : call.digest = digest token := congrArg ActionTokens.Issued.digest hissued
    have hmailed : token ∈ s.mails.map Mail.token :=
      hknown.resolve_right fun hfresh => hfresh (hdigest ▸ List.mem_map_of_mem hcall)
    obtain ⟨mail, hmail, rfl⟩ := List.mem_map.mp hmailed
    -- the mail was sent for the call that the token comes from
    obtain ⟨x, hx, hxd, hid⟩ := h.mails mail hmail
    obtain ⟨call', hcall', rfl⟩ := List.mem_map.mp hx
    rw [List.inj_on_of_nodup_map h.traced.digests hcall' hcall (hxd.trans hdigest.symm),
      hissued] at hid
    have hok : Event.Ok digest { s with
        tokens := ActionTokens.consume s.tokens purpose (digest mail.token) }
        (.redeemed ⟨purpose, entry.value, digest mail.token⟩) := ⟨mail, hmail, rfl, hid⟩
    refine Sound.begin (h₁.log hok fun u p he => ?_) ?_
    · cases he
    · exact hnext _ ⟨purpose, entry.value, digest mail.token⟩
        (List.mem_append_right _ List.mem_cons_self)

theorem Sound.issue (h : Sound digest lower s) {purpose token : String} {user : Account}
    {ttlSeconds : T} {tokens : ActionTokens.State T}
    (hr : (user.id, user.email) ∈ s.identities)
    (hissue : ActionTokens.issue s.tokens purpose user.id ttlSeconds (digest token) = some tokens) :
    Sound digest lower
      (State.goOn { s with tokens := tokens } i (.send purpose user token)) := by
  have hstep : s.tokens.step digest (.issue purpose user.id ttlSeconds token) = some tokens :=
    hissue
  have hsteps := ActionTokens.State.step_cases hstep
  exact (h.withTokens (h.traced.step hsteps) hsteps.issued_subset).goOn
    ⟨hr, ActionTokens.mem_issued_of_issue hissue⟩

theorem Sound.advance [NatCast T] (h : Sound digest credentials.lower s) {draws : Draws}
    (hstep : advance credentials settings digest s i draws = some s') :
    Sound digest credentials.lower s' := by
  obtain ⟨request, hi, hstep⟩ := Option.bind_eq_some_iff.mp hstep
  have hr := h.requests request (List.mem_of_getElem? hi)
  cases request with
  | create user password =>
      simp only at hstep
      split at hstep
      · cases hstep
        exact h.finish i
      · rename_i accounts hcreate
        cases hstep
        exact h.create hr hcreate
  | issue purpose user =>
      obtain ⟨tokens, hissue, hstep⟩ := Option.bind_eq_some_iff.mp hstep
      cases hstep
      exact h.issue hr hissue
  | send purpose user token =>
      obtain ⟨-, hstep⟩ := Machine.guard_bind hstep
      cases hstep
      exact (h.deliver ⟨_, hr.2, rfl, hr.1⟩).finish i
  | verify userId =>
      simp only at hstep
      split at hstep
      · cases hstep
        exact h.finish i
      · rename_i user huser
        cases hstep
        split
        · exact h.finish i
        · obtain ⟨x, hx, hid⟩ := hr
          exact h.goOn ⟨x, hx, hid.trans (AuthService.tokenUser_ok huser).2.symm⟩
  | markVerified user =>
      cases hstep
      exact (h.markVerified hr).finish i
  | reset userId newPassword =>
      simp only at hstep
      split at hstep
      · cases hstep
        exact h.finish i
      · cases hstep
        exact h.goOn trivial
  | updatePassword user passwordHash =>
      simp only at hstep
      split at hstep
      · cases hstep
        exact h.finish i
      · rename_i accounts hupdate
        cases hstep
        exact (h.updatePassword hupdate).finish i
  | linked account user profile =>
      cases hstep
      exact ((h.signedIn hr profile).withLinks _).finish i
  | link user profile =>
      simp only at hstep
      split at hstep
      · rename_i hlink
        cases hstep
        exact (h.link hr hlink).finish i
      · split at hstep
        · cases hstep
          exact h.finish i
        · rename_i user' huser
          cases hstep
          have hmem := mem_identities (OAuthAccountRepository.relookup_ok huser)
          exact (h.signedIn hmem profile).finish i

/-- The account that a request with an email is about. -/
theorem mem_identities_of_found {email : String} {accounts : List Account} {p : Account → Bool}
    {user : Account}
    (h : (UserRepository.getAccountByEmail credentials.lower email accounts).filter p =
      some user) : (user.id, user.email) ∈ ForkRoom.identities accounts := by
  have hfound := (Option.filter_eq_some_iff.mp h).1
  exact mem_identities (UserRepository.getAccountByEmail_some hfound).1

theorem Sound.step [NatCast T] {a : Action T} (h : Sound digest credentials.lower s)
    (hstep : s.step credentials settings digest a = some s') :
    Sound digest credentials.lower s' := by
  cases a with
  | tick clock =>
      obtain ⟨tokens, htick, hstep⟩ := Option.map_eq_some_iff.mp hstep
      cases hstep
      have hsteps := ActionTokens.State.step_cases htick
      exact h.withTokens (h.traced.step hsteps) hsteps.issued_subset
  | command j =>
      obtain ⟨tokens, hcommand, hstep⟩ := Option.map_eq_some_iff.mp hstep
      cases hstep
      have hsteps := ActionTokens.advance_cases hcommand
      exact h.withTokens (h.traced.step hsteps) hsteps.issued_subset
  | register payload id salt =>
      simp only [State.step] at hstep
      split at hstep
      · cases hstep
        exact h
      · rename_i user huser
        cases hstep
        exact h.begin (AuthService.register_ok huser)
  | requestEmailVerification email =>
      simp only [State.step] at hstep
      split at hstep
      · cases hstep
        exact h
      · rename_i user huser
        cases hstep
        exact h.begin (mem_identities_of_found huser)
  | forgotPassword email =>
      simp only [State.step] at hstep
      split at hstep
      · cases hstep
        exact h
      · rename_i user huser
        cases hstep
        exact h.begin (mem_identities_of_found huser)
  | verifyEmail token => exact h.redeem hstep fun _ x hx => ⟨x, hx, rfl⟩
  | resetPassword token newPassword => exact h.redeem hstep fun _ _ _ => trivial
  | signIn profile =>
      simp only [State.step] at hstep
      split at hstep
      · cases hstep
        exact h
      · rename_i account user hfind
        cases hstep
        exact h.begin (mem_identities (OAuthAccountRepository.findGoogle_linked hfind))
      · rename_i user hfind
        cases hstep
        cases user with
        | none => exact h.begin trivial
        | some user =>
            obtain ⟨hmem, hlower⟩ := OAuthAccountRepository.findGoogle_unlinked hfind
            exact h.begin ⟨mem_identities hmem, hlower.symm⟩
  | login payload =>
      cases hstep
      exact h
  | advance j draws => exact h.advance hstep
  | stop j =>
      cases hstep
      exact h.finish j

/-! ## Runs -/

/-- Whoever signs in with a password to an account that was registered: since then a token
that was mailed to its address has been redeemed, or a Google sign-in with that address has
been completed. -/
theorem password_needs_mailbox [NatCast T] {clock : T} {before after : List Event} {userId : UUID}
    {password : String} {payload : AuthService.LoginRequest} {user : Account}
    (h : Machine.Run (State.step credentials settings digest) (fun _ _ => True) (start clock) s)
    (hregistered : s.history = before ++ .registered userId password :: after)
    (hlogin : AuthService.authenticate credentials s.accounts payload = .ok user)
    (hid : user.id = userId) :
    ∃ e ∈ after, e.proves digest credentials.lower s.mails user.id user.email := by
  have hsound : Sound digest credentials.lower s :=
    h.invariant (fun _ _ _ hi _ hstep => hi.step hstep) Sound.init
  obtain ⟨hmem, hverified⟩ := AuthService.authenticate_ok hlogin
  obtain ⟨e, he, hproves⟩ := hsound.verified user hmem hverified
  have huser : e.userId = userId := by
    cases e with
    | registered id password => exact hproves.elim
    | redeemed x => exact hproves.1.trans hid
    | signedIn id profile => exact hproves.1.trans hid
  -- nothing about the account comes before the registration
  have horder := hsound.order
  rw [hregistered, List.pairwise_append] at horder
  rw [hregistered, List.mem_append, List.mem_cons] at he
  rcases he with he | rfl | he
  · exact absurd huser (horder.2.2 e he _ List.mem_cons_self userId password rfl)
  · exact hproves.elim
  · exact ⟨e, he, hproves⟩

end

end

/-! ## A password that somebody else chose -/

open Sessions.Sample in
/-- A run of the sample accounts. -/
def Sample.play (as : List (Action ℤ)) : Option (State ℤ) :=
  Machine.play (State.step credentials settings id) (fun _ _ => True) (start 0) as

/-- The address is registered, and its mail is sent. -/
def Sample.register : List (Action ℤ) :=
  [.register ⟨"Ada@forkroom.test", "marble-quarry", "Ada"⟩ 1 "salt",
    .advance 0 ⟨⟨0, 0, "", ""⟩, "", ""⟩]

def Sample.login : AuthService.LoginRequest := ⟨"ada@forkroom.test", "marble-quarry"⟩

/-- A Google sign-in with that address. -/
def Sample.profile : GoogleProfile := ⟨"subject", "ada@forkroom.test", "Ada Lovelace", none⟩

open Sessions.Sample in
/-- The owner of the address signs in with Google; the password of whoever registered it
gets valid, and no token has been redeemed. -/
theorem google_validates_password : ∃ s : State ℤ,
    Machine.Run (State.step credentials settings id) (fun _ _ => True) (start 0) s ∧
    .registered 1 "marble-quarry" ∈ s.history ∧ (∀ x, .redeemed x ∉ s.history) ∧
    ∃ user, AuthService.authenticate credentials s.accounts Sample.login = .ok user ∧
      user.id = 1 := by
  obtain ⟨s, hplay, hs⟩ := Option.map_eq_some_iff.mp
    (show (Sample.play (Sample.register ++ [.signIn Sample.profile,
        .advance 1 ⟨⟨2, 3, "secret", "salt"⟩, "", ""⟩])).map (fun s => (s.history,
          (AuthService.authenticate credentials s.accounts Sample.login).toOption.map
            Account.id)) =
      some ([.registered 1 "marble-quarry", .signedIn 1 Sample.profile], some 1) by
        decide +kernel)
  obtain ⟨hhistory, hlogin⟩ := Prod.mk.inj hs
  refine ⟨s, Machine.Run.of_play hplay, ?_, fun x hx => ?_, ?_⟩
  · rw [hhistory]
    exact List.mem_cons_self
  · rw [hhistory] at hx
    simp at hx
  · revert hlogin
    cases AuthService.authenticate credentials s.accounts Sample.login with
    | error e => intro hlogin; cases hlogin
    | ok user => exact fun hlogin => ⟨user, rfl, Option.some.inj hlogin⟩

open Sessions.Sample in
/-- The mail is read, its token redeemed, and the password valid. -/
theorem password_needs_mailbox_sample : ∃ s : State ℤ,
    ∃ user, AuthService.authenticate credentials s.accounts Sample.login = .ok user ∧
      ∃ e ∈ s.history.drop 1, e.proves id credentials.lower s.mails user.id user.email := by
  obtain ⟨s, hplay, hs⟩ := Option.map_eq_some_iff.mp
    (show (Sample.play (Sample.register ++ [.advance 0 ⟨⟨0, 0, "", ""⟩, "fern", ""⟩, .command 0,
        .command 0, .advance 0 ⟨⟨0, 0, "", ""⟩, "", ""⟩, .verifyEmail "fern",
        .advance 0 ⟨⟨0, 0, "", ""⟩, "", ""⟩, .advance 0 ⟨⟨0, 0, "", ""⟩, "", ""⟩])).map
          (fun s => (s.history, (AuthService.authenticate credentials s.accounts
            Sample.login).toOption.map Account.id)) =
      some ([.registered 1 "marble-quarry",
        .redeemed ⟨"email-verification", 1, "fern"⟩], some 1) by decide +kernel)
  obtain ⟨hhistory, hlogin⟩ := Prod.mk.inj hs
  revert hlogin
  cases hauth : AuthService.authenticate credentials s.accounts Sample.login with
  | error e => intro hlogin; cases hlogin
  | ok user =>
      intro hlogin
      have hsplit : s.history = [] ++ .registered 1 "marble-quarry" ::
          [.redeemed ⟨"email-verification", 1, "fern"⟩] := hhistory
      refine ⟨s, user, hauth, ?_⟩
      rw [hhistory]
      exact password_needs_mailbox (Machine.Run.of_play hplay) hsplit hauth
        (Option.some.inj hlogin)

end Mailbox

end ForkRoom
