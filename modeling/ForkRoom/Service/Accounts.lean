/-
# `Service.Accounts` — accounts, mailboxes and Google

The reads and the writes of `register`, `request_email_verification`,
`forgot_password`, `verify_email` and `reset_password` of `AuthService`, and of
`authenticate_google` of `OAuthAccountRepository`.  Each of these requests reads
rows and commits later; a commit that breaks a unique constraint writes nothing.
-/
import ForkRoom.Service.Auth

namespace ForkRoom

/-! ## `UserRepository` -/

namespace UserRepository

/-- `create`: the email is unique, and so is the primary key. -/
def createAccount (user : Account) (accounts : List Account) : Except AuthError (List Account) :=
  if user.email ∈ accounts.map Account.email ∨ user.id ∈ accounts.map Account.id then
    .error .emailAlreadyRegistered
  else .ok (accounts ++ [user])

def markEmailVerified (user : Account) (accounts : List Account) : List Account :=
  Rows.modify user.id (fun stored => { stored with
    isEmailVerified := Rows.column user.isEmailVerified true stored.isEmailVerified }) accounts

end UserRepository

/-! ## `AuthService` -/

namespace AuthService

def emailVerificationPurpose : String := "email-verification"

def passwordResetPurpose : String := "password-reset"

structure RegisterRequest where
  email : String
  password : String
  displayName : String
  deriving DecidableEq

/-- `register` up to the new row: `id` and `salt` are drawn. -/
def register (credentials : Credentials) (accounts : List Account) (payload : RegisterRequest)
    (id : UUID) (salt : String) : Except AuthError Account :=
  let normalizedEmail := credentials.lower payload.email
  match UserRepository.getAccountByEmail credentials.lower normalizedEmail accounts with
  | some _ => .error .emailAlreadyRegistered
  | none => .ok
      { id := id
        email := normalizedEmail
        passwordHash := credentials.hashPassword payload.password salt
        displayName := payload.displayName
        avatarUrl := none
        isActive := true
        isEmailVerified := false
        authVersion := 0 }

/-- The account that `request_email_verification` sends a mail to, if any. -/
def requestEmailVerification (credentials : Credentials) (accounts : List Account)
    (email : String) : Option Account :=
  (UserRepository.getAccountByEmail credentials.lower (credentials.lower email) accounts).filter
    fun user => user.isActive && !user.isEmailVerified

/-- The account that `forgot_password` sends a mail to, if any. -/
def forgotPassword (credentials : Credentials) (accounts : List Account) (email : String) :
    Option Account :=
  (UserRepository.getAccountByEmail credentials.lower (credentials.lower email) accounts).filter
    Account.isActive

/-- The row that `verify_email` and `reset_password` go on with, for a token that has
been consumed. -/
def tokenUser (accounts : List Account) (userId : UUID) : Except AuthError Account :=
  match Rows.find userId accounts with
  | none => .error .invalidActionToken
  | some user => if user.isActive then .ok user else .error .inactiveAccount

end AuthService

/-! ## `OAuthAccountRepository` -/

inductive OAuthProvider where
  | google
  deriving DecidableEq, Repr

structure OAuthAccount where
  id : UUID
  userId : UUID
  provider : OAuthProvider
  providerSubject : String
  providerEmail : String
  deriving DecidableEq

instance : Rows.Keyed OAuthAccount UUID := ⟨OAuthAccount.id⟩

/-- What `exchange_code` answers: the address is verified, and in lower case. -/
structure GoogleProfile where
  subject : String
  email : String
  displayName : String
  avatarUrl : Option String
  deriving DecidableEq

inductive GoogleOAuthError where
  | inactiveAccount | accountConflict
  deriving DecidableEq, Repr

/-- What `authenticate_google` finds. -/
inductive GoogleAccount where
  | linked (account : OAuthAccount) (user : Account)
  | unlinked (user : Option Account)
  deriving DecidableEq

/-- What is drawn for a new account: its keys, and the password nobody gets to know. -/
structure GoogleDraws where
  userId : UUID
  accountId : UUID
  secret : String
  salt : String

namespace OAuthAccountRepository

/-- `_get_linked_user` -/
def getLinkedUser (provider : OAuthProvider) (subject : String) (accounts : List Account)
    (links : List OAuthAccount) : Option (OAuthAccount × Account) := do
  let account ← links.find? fun l => l.provider = provider ∧ l.providerSubject = subject
  let user ← Rows.find account.userId accounts
  pure (account, user)

/-- The reads of `authenticate_google`. -/
def findGoogle (lower : String → String) (profile : GoogleProfile) (accounts : List Account)
    (links : List OAuthAccount) : Except GoogleOAuthError GoogleAccount :=
  match getLinkedUser .google profile.subject accounts links with
  | some (account, user) =>
      if user.isActive then .ok (.linked account user) else .error .inactiveAccount
  | none =>
      match UserRepository.getAccountByEmail lower profile.email accounts with
      | none => .ok (.unlinked none)
      | some user =>
          if user.isActive then .ok (.unlinked (some user)) else .error .inactiveAccount

/-- The `UPDATE` of an account that is linked already. -/
def relink (account : OAuthAccount) (profile : GoogleProfile) (links : List OAuthAccount) :
    List OAuthAccount :=
  Rows.modify account.id (fun stored => { stored with
    providerEmail := Rows.column account.providerEmail profile.email stored.providerEmail }) links

/-- The new account of a profile. -/
def newUser (credentials : Credentials) (profile : GoogleProfile) (draws : GoogleDraws) :
    Account :=
  { id := draws.userId
    email := profile.email
    passwordHash := credentials.hashPassword draws.secret draws.salt
    displayName := profile.displayName
    avatarUrl := profile.avatarUrl
    isActive := true
    isEmailVerified := true
    authVersion := 0 }

/-- The `UPDATE` of an account with the address of the profile. -/
def verifyUser (profile : GoogleProfile) (user : Account) (accounts : List Account) :
    List Account :=
  let avatarUrl := if user.avatarUrl = none then profile.avatarUrl else user.avatarUrl
  Rows.modify user.id (fun stored => { stored with
    isEmailVerified := Rows.column user.isEmailVerified true stored.isEmailVerified
    avatarUrl := Rows.column user.avatarUrl avatarUrl stored.avatarUrl }) accounts

/-- The `INSERT` of a link; `none` is an `IntegrityError`. -/
def insertLink (account : OAuthAccount) (links : List OAuthAccount) :
    Option (List OAuthAccount) :=
  if (∃ l ∈ links, l.id = account.id ∨
      (l.provider = account.provider ∧ l.providerSubject = account.providerSubject) ∨
      (l.userId = account.userId ∧ l.provider = account.provider)) then none
  else some (links ++ [account])

/-- The account that a profile is linked to: its id, and the table with it; `none` is an
`IntegrityError`. -/
def writeUser (credentials : Credentials) (profile : GoogleProfile) (draws : GoogleDraws)
    (accounts : List Account) : Option Account → Option (UUID × List Account)
  | none =>
      let user := newUser credentials profile draws
      (UserRepository.createAccount user accounts).toOption.map fun accounts => (user.id, accounts)
  | some user => some (user.id, verifyUser profile user accounts)

/-- The transaction of `authenticate_google` for a profile that is not linked: the id of
the account, and the tables; `none` is an `IntegrityError`. -/
def link (credentials : Credentials) (profile : GoogleProfile) (draws : GoogleDraws)
    (user : Option Account) (accounts : List Account) (links : List OAuthAccount) :
    Option (UUID × List Account × List OAuthAccount) := do
  let (userId, accounts) ← writeUser credentials profile draws accounts user
  let links ← insertLink ⟨draws.accountId, userId, .google, profile.subject, profile.email⟩ links
  pure (userId, accounts, links)

/-- What `authenticate_google` answers after an `IntegrityError`. -/
def relookup (profile : GoogleProfile) (accounts : List Account) (links : List OAuthAccount) :
    Except GoogleOAuthError Account :=
  match getLinkedUser .google profile.subject accounts links with
  | none => .error .accountConflict
  | some (_, user) => if user.isActive then .ok user else .error .inactiveAccount

end OAuthAccountRepository

/-! ## Who the accounts are -/

/-- The keys and addresses of the accounts; only new rows change them. -/
def identities (accounts : List Account) : List (UUID × String) :=
  accounts.map fun a => (a.id, a.email)

section
variable {accounts accounts' : List Account} {user : Account}

theorem mem_identities {a : Account} (h : a ∈ accounts) : (a.id, a.email) ∈ identities accounts :=
  List.mem_map_of_mem h

theorem map_id_identities : (identities accounts).map Prod.fst = accounts.map Account.id := by
  rw [identities, List.map_map]
  rfl

theorem UserRepository.createAccount_ok
    (h : UserRepository.createAccount user accounts = .ok accounts') :
    user.id ∉ accounts.map Account.id ∧ accounts' = accounts ++ [user] := by
  unfold UserRepository.createAccount at h
  split at h
  · cases h
  · rename_i hnew
    cases h
    exact ⟨fun hid => hnew (.inr hid), rfl⟩

/-- The ways the transaction of a new link can go. -/
theorem OAuthAccountRepository.link_some {credentials : Credentials} {profile : GoogleProfile}
    {draws : GoogleDraws} {user : Option Account} {links links' : List OAuthAccount} {userId : UUID}
    (h : OAuthAccountRepository.link credentials profile draws user accounts links =
      some (userId, accounts', links')) :
    (user = none ∧ userId = draws.userId ∧ userId ∉ accounts.map Account.id ∧
      accounts' = accounts ++ [OAuthAccountRepository.newUser credentials profile draws]) ∨
    ∃ u, user = some u ∧ userId = u.id ∧
      accounts' = OAuthAccountRepository.verifyUser profile u accounts := by
  obtain ⟨⟨userId', written⟩, huser, h⟩ := Option.bind_eq_some_iff.mp h
  obtain ⟨links'', -, h⟩ := Option.bind_eq_some_iff.mp h
  cases h
  cases user with
  | none =>
      obtain ⟨rows, hrows, hpair⟩ := Option.map_eq_some_iff.mp huser
      cases hpair
      cases hcreate : UserRepository.createAccount
          (OAuthAccountRepository.newUser credentials profile draws) accounts with
      | error e =>
          rw [hcreate] at hrows
          cases hrows
      | ok rows' =>
          rw [hcreate] at hrows
          cases hrows
          obtain ⟨hnew, heq⟩ := UserRepository.createAccount_ok hcreate
          exact .inl ⟨rfl, rfl, hnew, heq⟩
  | some u =>
      cases huser
      exact .inr ⟨u, rfl, rfl, rfl⟩

/-! ## What the reads find -/

theorem UserRepository.getAccountByEmail_some {lower : String → String} {email : String}
    (h : UserRepository.getAccountByEmail lower email accounts = some user) :
    user ∈ accounts ∧ lower user.email = lower email :=
  ⟨List.mem_of_find?_eq_some h, by simpa using List.find?_some h⟩

theorem AuthService.register_ok {credentials : Credentials}
    {payload : AuthService.RegisterRequest} {id : UUID} {salt : String}
    (h : AuthService.register credentials accounts payload id salt = .ok user) :
    user.isEmailVerified = false := by
  simp only [AuthService.register] at h
  split at h
  · cases h
  · cases h
    rfl

theorem AuthService.tokenUser_ok {userId : UUID}
    (h : AuthService.tokenUser accounts userId = .ok user) :
    user ∈ accounts ∧ user.id = userId := by
  unfold AuthService.tokenUser at h
  split at h
  · cases h
  · rename_i user' hfind
    split at h
    · cases h
      exact Rows.find_some hfind
    · cases h

theorem AuthService.authenticate_ok {credentials : Credentials}
    {payload : AuthService.LoginRequest}
    (h : AuthService.authenticate credentials accounts payload = .ok user) :
    user ∈ accounts ∧ user.isEmailVerified := by
  unfold AuthService.authenticate at h
  split at h
  · cases h
  rename_i user' huser
  split at h
  · cases h
  split at h
  · cases h
  split at h
  · cases h
  rename_i hverified
  cases h
  exact ⟨(UserRepository.getAccountByEmail_some huser).1, not_not.mp hverified⟩

section
variable {profile : GoogleProfile} {links : List OAuthAccount} {account : OAuthAccount}

theorem OAuthAccountRepository.getLinkedUser_some {provider : OAuthProvider} {subject : String}
    (h : OAuthAccountRepository.getLinkedUser provider subject accounts links =
      some (account, user)) : user ∈ accounts := by
  obtain ⟨account', -, h⟩ := Option.bind_eq_some_iff.mp h
  obtain ⟨user', huser, h⟩ := Option.bind_eq_some_iff.mp h
  cases h
  exact (Rows.find_some huser).1

theorem OAuthAccountRepository.findGoogle_linked {lower : String → String}
    (h : OAuthAccountRepository.findGoogle lower profile accounts links =
      .ok (.linked account user)) : user ∈ accounts := by
  unfold OAuthAccountRepository.findGoogle at h
  split at h
  · rename_i account' user' hlinked
    split at h
    · cases h
      exact OAuthAccountRepository.getLinkedUser_some hlinked
    · cases h
  · split at h
    · cases h
    · split at h <;> cases h

/-- An account that a profile is not linked to has the address of the profile. -/
theorem OAuthAccountRepository.findGoogle_unlinked {lower : String → String}
    (h : OAuthAccountRepository.findGoogle lower profile accounts links =
      .ok (.unlinked (some user))) : user ∈ accounts ∧ lower user.email = lower profile.email := by
  unfold OAuthAccountRepository.findGoogle at h
  split at h
  · split at h <;> cases h
  · split at h
    · cases h
    · rename_i user' huser
      split at h
      · cases h
        exact UserRepository.getAccountByEmail_some huser
      · cases h

theorem OAuthAccountRepository.relookup_ok
    (h : OAuthAccountRepository.relookup profile accounts links = .ok user) : user ∈ accounts := by
  unfold OAuthAccountRepository.relookup at h
  split at h
  · cases h
  · rename_i account user' hlinked
    split at h
    · cases h
      exact OAuthAccountRepository.getLinkedUser_some hlinked
    · cases h

end

end

end ForkRoom
