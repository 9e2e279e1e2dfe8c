import MoneyMovement.Auth.Rows

/-!
# Accounts: registration, login and the guard of every other route

`register` creates the user and the wallet in one transaction, `login` verifies a password
whether or not the account exists, and `JwtAuthGuard` asks the database for the status of the
account on every request. Each database call is a step of its own, and accounts may be
suspended at any time.
-/

namespace MoneyMovement

open Txn Prog AuthService

section Rows

structure Account where
  user : User
  passwordHash : JsString
  deriving DecidableEq

inductive AccountAction | USER_REGISTERED | LOGIN_SUCCEEDED | LOGIN_FAILED | ACCOUNT_BLOCKED
  deriving DecidableEq

structure AccountAudit where
  actorUserId : Option Uuid
  action : AccountAction
  resourceType : ResourceType
  resourceId : Option Uuid
  metadata : Payload

structure AccountDb where
  accounts : List Account
  wallets : List Wallet
  sessions : AuthDb
  auditEvents : List AccountAudit

def AccountDb.empty : AccountDb := ⟨[], [], ⟨[], []⟩, []⟩

/-- What the environment supplies to a step: ids, a random token or salt, and whether an
audit row that need not be written is. -/
structure AccountFresh where
  fresh : Fresh
  walletId : Uuid
  audited : Bool

/-- Argon2id under a salt and its check, the check of an access token at an instant and its
life, and the form in which CITEXT columns are compared. -/
structure AccountConfig where
  auth : AuthConfig
  hash : JsString → JsString → JsString
  verify : JsString → JsString → Bool
  dummyHash : JsString
  verifyToken : JsString → Time → Option Uuid
  jwtAccessTtlSeconds : ℕ
  citext : JsString → JsString
  initialWalletBalanceMinor : ℕ

structure RegisterInput where
  email : JsString
  password : JsString
  displayName : JsString
  deriving DecidableEq

structure LoginInput where
  email : JsString
  password : JsString
  deriving DecidableEq

structure CreateUserData where
  email : JsString
  displayName : JsString
  passwordHash : JsString

end Rows

inductive AccountStmt
  | session (s : AuthStmt)
  | hash (plain : JsString)
  | verify (hash plain : JsString)
  | findByEmail (email : JsString)
  /-- One transaction; it answers `none` if the email is taken. -/
  | createUserAndWallet (data : CreateUserData) (balanceMinor : ℕ)
  | verifyAccessToken (token : JsString)
  | findStatus (userId : Uuid)
  | recordDetached (entry : AccountAudit)
  /-- Not a statement of the API: an account is suspended, closed or reactivated. -/
  | setStatus (userId : Uuid) (status : UserStatus)

abbrev AccountReply : AccountStmt → Type
  | .session s => AuthReply s
  | .hash _ => JsString
  | .verify _ _ => Bool
  | .findByEmail _ => Option Account
  | .createUserAndWallet _ _ => Option (Account × Wallet)
  | .verifyAccessToken _ => Option Uuid
  | .findStatus _ => Option UserStatus
  | .recordDetached _ => Unit
  | .setStatus _ _ => Unit

abbrev AccountM := Prog AccountReply Failure

def issue (s : AccountStmt) : AccountM (AccountReply s) := .perform s

def liftSession {α : Type} : AuthM α → AccountM α
  | .ret a => .ret a
  | .fail e => .fail e
  | .op s k => .op (.session s) fun r => liftSession (k r)

namespace AccountDb

def newAccount (data : CreateUserData) (d : Draw Time AccountFresh) : Account where
  user :=
    { id := d.id.fresh.id
      email := data.email
      displayName := data.displayName
      status := .ACTIVE
      createdAt := d.now
      verificationStatus := .UNVERIFIED }
  passwordHash := data.passwordHash

def newWallet (balanceMinor : ℕ) (d : Draw Time AccountFresh) : Wallet where
  id := d.id.walletId
  userId := d.id.fresh.id
  currency := .BDT
  balanceMinor := balanceMinor
  status := .ACTIVE

def withStatus (userId : Uuid) (status : UserStatus) (a : Account) : Account :=
  if a.user.id = userId then { a with user := { a.user with status := status } } else a

variable (cfg : AccountConfig)

def findByEmail (email : JsString) (db : AccountDb) : Option Account :=
  db.accounts.find? fun a => cfg.citext a.user.email = cfg.citext email

def findStatus (userId : Uuid) (db : AccountDb) : Option UserStatus :=
  (db.accounts.find? (·.user.id = userId)).map (·.user.status)

/-- The primary keys and the unique index on the owner of a wallet, then the one on the
email, whose violation `register` turns into an answer. -/
def createUserAndWallet (data : CreateUserData) (balanceMinor : ℕ) (d : Draw Time AccountFresh)
    (db : AccountDb) : Except Failure (Option (Account × Wallet) × AccountDb) :=
  let account := newAccount data d
  let wallet := newWallet balanceMinor d
  if (∃ a ∈ db.accounts, a.user.id = account.user.id) ∨
      ∃ w ∈ db.wallets, w.id = wallet.id ∨ w.userId = wallet.userId then
    .error (.db .uniqueViolation)
  else if ∃ a ∈ db.accounts, cfg.citext a.user.email = cfg.citext data.email then .ok (none, db)
  else
    .ok (some (account, wallet),
      { db with accounts := db.accounts ++ [account], wallets := db.wallets ++ [wallet] })

def recordDetached (entry : AccountAudit) (audited : Bool) (db : AccountDb) : AccountDb :=
  if audited then { db with auditEvents := db.auditEvents ++ [entry] } else db

end AccountDb

open AccountDb in
def accountExec (cfg : AccountConfig) : Atomic AccountReply AccountDb Failure Time AccountFresh
  | .session s, db, d =>
    (authExec cfg.auth s db.sessions ⟨d.now, d.id.fresh⟩).map fun p =>
      (p.1, { db with sessions := p.2 })
  | .hash plain, db, d => .ok (cfg.hash d.id.fresh.token plain, db)
  | .verify hash plain, db, _ => .ok (cfg.verify hash plain, db)
  | .findByEmail email, db, _ => .ok (findByEmail cfg email db, db)
  | .createUserAndWallet data balanceMinor, db, d => createUserAndWallet cfg data balanceMinor d db
  | .verifyAccessToken token, db, d => .ok (cfg.verifyToken token d.now, db)
  | .findStatus userId, db, _ => .ok (findStatus userId db, db)
  | .recordDetached entry, db, d => .ok ((), recordDetached entry d.id.audited db)
  | .setStatus userId status, db, _ =>
    .ok ((), { db with accounts := db.accounts.map (withStatus userId status) })

namespace AuthService

variable (cfg : AccountConfig)

def accountAudit (actorUserId : Option Uuid) (action : AccountAction)
    (metadata : List (JsString × Payload)) : AccountAudit where
  actorUserId := actorUserId
  action := action
  resourceType := .user
  resourceId := actorUserId
  metadata := .obj metadata

def UserStatus.text : UserStatus → JsString
  | .ACTIVE => js "ACTIVE"
  | .SUSPENDED => js "SUSPENDED"
  | .CLOSED => js "CLOSED"

def forbidden (message : String) : Failure := .app ⟨403, .FORBIDDEN, message, none⟩

def notActive (status : UserStatus) : Failure :=
  forbidden (if status = .SUSPENDED then "This account has been suspended."
    else "This account has been closed.")

def emailTaken : Failure :=
  .app ⟨409, .VALIDATION_ERROR, "An account with this email already exists.", none⟩

def invalidCredentials : Failure := unauthenticated "Invalid email or password."

def register (input : RegisterInput) : AccountM (Account × Wallet) := do
  let passwordHash ← issue (.hash input.password)
  let created ← issue (.createUserAndWallet
    { email := input.email, displayName := input.displayName, passwordHash }
    cfg.initialWalletBalanceMinor)
  match created with
  | none => .fail emailTaken
  | some (account, wallet) => do
    issue (.recordDetached (accountAudit (some account.user.id) .USER_REGISTERED
      [(js "walletId", .str wallet.id.text)]))
    return (account, wallet)

def failedLogin (user : Option Account) : AccountAudit :=
  accountAudit (user.map (·.user.id)) .LOGIN_FAILED
    [(js "reason", .str (if user.isSome then js "bad_password" else js "unknown_account"))]

def rejectLogin (user : Option Account) : AccountM Account := do
  issue (.recordDetached (failedLogin user))
  .fail invalidCredentials

def admitLogin (account : Account) : AccountM Account :=
  if account.user.status ≠ .ACTIVE then do
    issue (.recordDetached (accountAudit (some account.user.id) .LOGIN_FAILED
      [(js "reason", .str (js "account_not_active")),
        (js "status", .str (UserStatus.text account.user.status))]))
    .fail (notActive account.user.status)
  else do
    issue (.recordDetached (accountAudit (some account.user.id) .LOGIN_SUCCEEDED []))
    return account

def login (input : LoginInput) : AccountM Account := do
  let user ← issue (.findByEmail input.email)
  let hashToVerify := (user.map (·.passwordHash)).getD cfg.dummyHash
  let passwordValid ← issue (.verify hashToVerify input.password)
  match user, passwordValid with
  | some account, true => admitLogin account
  | _, _ => rejectLogin user

end AuthService

namespace JwtAuthGuard

def admitRequest (userId : Uuid) (status : UserStatus) (path : JsString) : AccountM Uuid :=
  if status ≠ .ACTIVE then do
    issue (.recordDetached (accountAudit (some userId) .ACCOUNT_BLOCKED
      [(js "status", .str (UserStatus.text status)), (js "path", .str path)]))
    .fail (notActive status)
  else return userId

def canActivate (token : Option JsString) (path : JsString) : AccountM Uuid :=
  match presented token with
  | none => .fail (unauthenticated "Authentication required.")
  | some token => do
    let payload ← issue (.verifyAccessToken token)
    match payload with
    | none => .fail (unauthenticated "Invalid or expired session.")
    | some userId => do
      let status ← issue (.findStatus userId)
      match status with
      | none => .fail (unauthenticated "Invalid or expired session.")
      | some status => admitRequest userId status path

end JwtAuthGuard

inductive AccountCall
  | register (input : RegisterInput) (userAgent : Option JsString)
  | login (input : LoginInput) (userAgent : Option JsString)
  | refresh (presentedToken : Option JsString) (userAgent : Option JsString)
  | logout (presentedToken : Option JsString)
  /-- A request to a guarded route. -/
  | request (accessToken : Option JsString) (path : JsString)
  /-- Somebody with access to the database. -/
  | setStatus (userId : Uuid) (status : UserStatus)
  deriving DecidableEq

inductive AccountResult
  | registered (account : Account) (wallet : Wallet) (session : IssuedSession)
  | loggedIn (account : Account) (session : IssuedSession)
  | refreshed (session : IssuedSession)
  | loggedOut
  | admitted (userId : Uuid)
  | changed
  deriving DecidableEq

/-- What a caller is told: a result, or the exception that ended the handler. -/
abbrev AccountAnswer := Except Failure AccountResult

/-- The handlers of `AuthController`, and what runs before any other handler. -/
def handler (cfg : AccountConfig) : AccountCall → AccountM AccountResult
  | .register input userAgent => do
    let created ← AuthService.register cfg input
    let session ← liftSession (createSession cfg.auth created.1.user.id userAgent)
    return .registered created.1 created.2 session
  | .login input userAgent => do
    let account ← login cfg input
    let session ← liftSession (createSession cfg.auth account.user.id userAgent)
    return .loggedIn account session
  | .refresh token userAgent => do
    return .refreshed (← liftSession (refresh cfg.auth token userAgent))
  | .logout token => do
    liftSession (logout cfg.auth token)
    return .loggedOut
  | .request accessToken path => do
    return .admitted (← JwtAuthGuard.canActivate accessToken path)
  | .setStatus userId status => do
    issue (.setStatus userId status)
    return .changed

/-- An exception that a handler throws is an answer too. -/
def respond {α : Type} : AccountM α → AccountM (Except Failure α)
  | .ret a => .ret (.ok a)
  | .fail e => .ret (.error e)
  | .op s k => .op s fun r => respond (k r)

def accountBody (cfg : AccountConfig) (c : AccountCall) : AccountM AccountAnswer :=
  respond (handler cfg c)

abbrev Accounts :=
  Calls AccountReply AccountDb Failure Time AccountFresh AccountCall AccountAnswer

section Samples

def sampleSign (userId : Uuid) (now : Time) : JsString := userId.text ++ decimal (now / 1000)

def sampleVerifyToken (token : JsString) (now : Time) : Option Uuid :=
  (parseUuid (token.take 36)).filter fun userId =>
    (List.range 900).any fun age => token = userId.text ++ decimal (now / 1000 - (age : ℕ))

def sampleAccounts : AccountConfig where
  auth := { sign := sampleSign, sha256 := id, refreshTokenTtlDays := 7 }
  hash _ plain := plain
  verify hash plain := hash == plain
  dummyHash := js "dummy"
  verifyToken := sampleVerifyToken
  jwtAccessTtlSeconds := 900
  citext := id
  initialWalletBalanceMinor := 10000000

def sampleInput : RegisterInput := ⟨js "ann@example.com", js "correct horse", js "Ann"⟩

def accountTurns (i n : ℕ) (k : Uuid) : List (Turn AccountCall Time AccountFresh) :=
  List.replicate n (.step i ⟨⟨k, k.text⟩, k, true⟩)

end Samples

end MoneyMovement
