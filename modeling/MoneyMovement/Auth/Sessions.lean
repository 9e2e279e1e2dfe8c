import MoneyMovement.Store.Schema
import MoneyMovement.Txn.Calls
import MoneyMovement.Txn.Rows

/-!
# Login sessions and refresh tokens

A session row keeps only the hash of its refresh token. `refresh` reads the row,
checks it, and rotates: one transaction revokes it and creates the next one. Each
database call is a step of its own, so other calls may run in between.
-/

namespace MoneyMovement

open Txn Prog

section Rows

structure AuthSession where
  id : Uuid
  userId : Uuid
  refreshTokenHash : JsString
  userAgent : Option JsString
  createdAt : Time
  expiresAt : Time
  revokedAt : Option Time
  deriving DecidableEq

structure CreateAuthSessionData where
  userId : Uuid
  refreshTokenHash : JsString
  userAgent : Option JsString
  expiresAt : Time

structure AuthDb where
  authSessions : List AuthSession
  auditEvents : List AuditEvent

/-- What the environment supplies to a step: a row id and a random token. -/
structure Fresh where
  id : Uuid
  token : JsString

/-- `JwtService.sign` at an instant, the digest of `node:crypto`, and the life of a session. -/
structure AuthConfig where
  sign : Uuid → Time → JsString
  sha256 : JsString → JsString
  refreshTokenTtlDays : ℕ

end Rows

inductive AuthStmt
  | dateNow
  | signAccessToken (userId : Uuid)
  | generateRefreshToken
  | findByTokenHash (refreshTokenHash : JsString)
  | create (data : CreateAuthSessionData)
  | revoke (id : Uuid)
  | revokeAllActiveForUser (userId : Uuid)
  /-- One transaction: revoke the session, then create its successor. -/
  | rotate (id : Uuid) (data : CreateAuthSessionData)
  | recordDetached (entry : AuditEvent)

abbrev AuthReply : AuthStmt → Type
  | .dateNow => Time
  | .signAccessToken _ => JsString
  | .generateRefreshToken => JsString
  | .findByTokenHash _ => Option AuthSession
  | .create _ => Unit
  | .revoke _ => Unit
  | .revokeAllActiveForUser _ => Unit
  | .rotate _ _ => Unit
  | .recordDetached _ => Unit

abbrev AuthM := Prog AuthReply Failure

def call (s : AuthStmt) : AuthM (AuthReply s) := .perform s

namespace AuthSessionRepository

def revokeRow (id : Uuid) (now : Time) (s : AuthSession) : AuthSession :=
  if s.id = id then { s with revokedAt := some now } else s

def revokeActiveRow (userId : Uuid) (now : Time) (s : AuthSession) : AuthSession :=
  if s.userId = userId ∧ s.revokedAt = none then { s with revokedAt := some now } else s

def newRow (data : CreateAuthSessionData) (id : Uuid) (now : Time) : AuthSession where
  id := id
  userId := data.userId
  refreshTokenHash := data.refreshTokenHash
  userAgent := data.userAgent
  createdAt := now
  expiresAt := data.expiresAt
  revokedAt := none

/-- The primary key and the unique index on the token hash. -/
def create (data : CreateAuthSessionData) (id : Uuid) (now : Time) (db : AuthDb) :
    Except Failure AuthDb :=
  if ∃ s ∈ db.authSessions, s.id = id ∨ s.refreshTokenHash = data.refreshTokenHash then
    .error (.db .uniqueViolation)
  else .ok { db with authSessions := db.authSessions ++ [newRow data id now] }

def revoke (id : Uuid) (now : Time) (db : AuthDb) : Except Failure AuthDb :=
  if ∃ s ∈ db.authSessions, s.id = id then
    .ok { db with authSessions := db.authSessions.map (revokeRow id now) }
  else .error (.db .recordNotFound)

def revokeAllActiveForUser (userId : Uuid) (now : Time) (db : AuthDb) : AuthDb :=
  { db with authSessions := db.authSessions.map (revokeActiveRow userId now) }

def findByTokenHash (refreshTokenHash : JsString) (db : AuthDb) : Option AuthSession :=
  db.authSessions.find? (·.refreshTokenHash = refreshTokenHash)

end AuthSessionRepository

open AuthSessionRepository in
def authExec (cfg : AuthConfig) : Atomic AuthReply AuthDb Failure Time Fresh
  | .dateNow, db, d => .ok (d.now, db)
  | .signAccessToken userId, db, d => .ok (cfg.sign userId d.now, db)
  | .generateRefreshToken, db, d => .ok (d.id.token, db)
  | .findByTokenHash h, db, _ => .ok (findByTokenHash h db, db)
  | .create data, db, d => (create data d.id.id d.now db).map (fun db' => ((), db'))
  | .revoke id, db, d => (revoke id d.now db).map (fun db' => ((), db'))
  | .revokeAllActiveForUser userId, db, d => .ok ((), revokeAllActiveForUser userId d.now db)
  | .rotate id data, db, d =>
    ((revoke id d.now db).bind (create data d.id.id d.now)).map (fun db' => ((), db'))
  | .recordDetached entry, db, _ =>
    .ok ((), { db with auditEvents := db.auditEvents ++ [entry] })

namespace AuthService

variable (cfg : AuthConfig)

structure IssuedSession where
  accessToken : JsString
  refreshToken : JsString
  deriving DecidableEq

def unauthenticated (message : String) : Failure := .app ⟨401, .UNAUTHENTICATED, message, none⟩

def hashRefreshToken (token : JsString) : JsString := cfg.sha256 token

def refreshTokenExpiryDate : AuthM Time := do
  let now ← call .dateNow
  return now + cfg.refreshTokenTtlDays * 24 * 60 * 60 * 1000

def sessionAudit (session : AuthSession) (action : AuditAction)
    (metadata : List (JsString × Payload)) : AuditEvent where
  actorUserId := some session.userId
  action := action
  resourceType := .session
  resourceId := some session.id
  metadata := .obj metadata

def createSession (userId : Uuid) (userAgent : Option JsString) : AuthM IssuedSession := do
  let accessToken ← call (.signAccessToken userId)
  let refreshToken ← call .generateRefreshToken
  let expiresAt ← refreshTokenExpiryDate cfg
  call (.create
    { userId, refreshTokenHash := hashRefreshToken cfg refreshToken, userAgent, expiresAt })
  return { accessToken, refreshToken }

def rejectReuse (session : AuthSession) : AuthM IssuedSession := do
  call (.revokeAllActiveForUser session.userId)
  call (.recordDetached
    (sessionAudit session .REFRESH_REUSE_DETECTED [(js "allSessionsRevoked", .bool true)]))
  .fail (unauthenticated "Invalid session.")

def rotateSession (session : AuthSession) (userAgent : Option JsString) :
    AuthM IssuedSession := do
  let accessToken ← call (.signAccessToken session.userId)
  let newRefreshToken ← call .generateRefreshToken
  let expiresAt ← refreshTokenExpiryDate cfg
  call (.rotate session.id
    { userId := session.userId, refreshTokenHash := hashRefreshToken cfg newRefreshToken,
      userAgent, expiresAt })
  call (.recordDetached (sessionAudit session .SESSION_REFRESHED []))
  return { accessToken, refreshToken := newRefreshToken }

/-- An empty token counts as missing. -/
def presented (token : Option JsString) : Option JsString := token.filter (· ≠ [])

def refresh (presentedToken : Option JsString) (userAgent : Option JsString) :
    AuthM IssuedSession :=
  match presented presentedToken with
  | none => .fail (unauthenticated "Refresh token missing.")
  | some token => do
    let found ← call (.findByTokenHash (hashRefreshToken cfg token))
    match found with
    | none => .fail (unauthenticated "Invalid session.")
    | some session =>
      if session.revokedAt.isSome then rejectReuse session
      else do
        let now ← call .dateNow
        if session.expiresAt < now then .fail (unauthenticated "Session expired.")
        else rotateSession cfg session userAgent

def logout (presentedToken : Option JsString) : AuthM Unit :=
  match presented presentedToken with
  | none => return ()
  | some token => do
    let found ← call (.findByTokenHash (hashRefreshToken cfg token))
    match found with
    | none => return ()
    | some session =>
      if session.revokedAt.isSome then return ()
      else do
        call (.revoke session.id)
        call (.recordDetached (sessionAudit session .LOGGED_OUT []))

end AuthService

open AuthService

inductive AuthCall
  /-- What login and registration end with. -/
  | createSession (userId : Uuid) (userAgent : Option JsString)
  | refresh (presentedToken : Option JsString) (userAgent : Option JsString)
  | logout (presentedToken : Option JsString)
  deriving DecidableEq

inductive AuthResult
  | issued (session : IssuedSession)
  | loggedOut
  deriving DecidableEq

def authBody (cfg : AuthConfig) : AuthCall → AuthM AuthResult
  | .createSession userId userAgent => do
    return .issued (← createSession cfg userId userAgent)
  | .refresh token userAgent => do
    return .issued (← refresh cfg token userAgent)
  | .logout token => do
    logout cfg token
    return .loggedOut

abbrev Sessions := Calls AuthReply AuthDb Failure Time Fresh AuthCall AuthResult

end MoneyMovement
