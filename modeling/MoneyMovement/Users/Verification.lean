import MoneyMovement.Basic.Money
import MoneyMovement.Store.Schema
import MoneyMovement.Txn.Calls
import MoneyMovement.Txn.Rows

/-!
# NID verification

`submitNid` reads the user, then whoever has the NID, and then writes in one
transaction, without looking at the user again. The unique index keeps two users
from one NID; nothing keeps a second submission of the same user, which has looked
before the first wrote, from overwriting what the first has verified.
-/

namespace MoneyMovement

open Txn Prog

section Rows

/-- The texts that `NID_PATTERN` matches. -/
abbrev Nid := { s : JsString // (s.length = 10 ∨ s.length = 17) ∧ s.all isDigit }

structure NidUser where
  id : Uuid
  nidHash : Option JsString
  nidMasked : Option JsString
  verificationStatus : VerificationStatus
  verifiedAt : Option Time
  deriving DecidableEq

structure VerificationData where
  nidHash : JsString
  nidMasked : JsString
  verificationStatus : VerificationStatus

structure NidDb where
  users : List NidUser
  auditEvents : List AuditEvent

end Rows

inductive NidStmt
  | findById (id : Uuid)
  | findByNidHash (nidHash : JsString)
  /-- One transaction: the row of the user, and its audit event. -/
  | setVerification (userId : Uuid) (data : VerificationData) (entry : AuditEvent)

abbrev NidReply : NidStmt → Type
  | .findById _ => Option NidUser
  | .findByNidHash _ => Option NidUser
  | .setVerification _ _ _ => Except DbError NidUser

abbrev NidM := Prog NidReply Failure

def ask (s : NidStmt) : NidM (NidReply s) := .perform s

namespace UsersRepository

def findById (id : Uuid) (db : NidDb) : Option NidUser := db.users.find? (·.id = id)

def findByNidHash (nidHash : JsString) (db : NidDb) : Option NidUser :=
  db.users.find? (·.nidHash = some nidHash)

def verified (data : VerificationData) (now : Time) (u : NidUser) : NidUser :=
  { u with
    nidHash := some data.nidHash
    nidMasked := some data.nidMasked
    verificationStatus := data.verificationStatus
    verifiedAt := if data.verificationStatus = .VERIFIED then some now else none }

def verifiedRow (userId : Uuid) (data : VerificationData) (now : Time) (u : NidUser) : NidUser :=
  if u.id = userId then verified data now u else u

def Taken (userId : Uuid) (nidHash : JsString) (db : NidDb) : Prop :=
  ∃ u ∈ db.users, u.id ≠ userId ∧ u.nidHash = some nidHash

instance (userId : Uuid) (nidHash : JsString) (db : NidDb) : Decidable (Taken userId nidHash db) :=
  inferInstanceAs (Decidable (∃ u ∈ db.users, _))

def setVerification (userId : Uuid) (data : VerificationData) (now : Time) (db : NidDb) :
    Except DbError (NidUser × NidDb) :=
  match db.users.find? (·.id = userId) with
  | none => .error .recordNotFound
  | some u =>
    if Taken userId data.nidHash db then .error .uniqueViolation
    else .ok (verified data now u, { db with users := db.users.map (verifiedRow userId data now) })

end UsersRepository

/-- What Prisma names in a violation of `users_nid_hash_key`: the column. -/
def nidHashTarget : List String := ["nid_hash"]

def isUniqueConstraintViolation (error : DbError) (target : List String) (field : String) :
    Bool :=
  error = .uniqueViolation && target.contains field

open UsersRepository in
def nidExec : Atomic NidReply NidDb Failure Time Unit
  | .findById id, db, _ => .ok (findById id db, db)
  | .findByNidHash nidHash, db, _ => .ok (findByNidHash nidHash db, db)
  | .setVerification userId data entry, db, d =>
    match setVerification userId data d.now db with
    | .ok (row, db') => .ok (.ok row, { db' with auditEvents := db'.auditEvents ++ [entry] })
    | .error e => .ok (.error e, db)

namespace VerificationService

structure NidConfig where
  sha256 : JsString → JsString

structure VerificationStatusDto where
  verificationStatus : VerificationStatus
  nidMasked : Option JsString
  verifiedAt : Option JsString
  deriving DecidableEq

def hashNid (cfg : NidConfig) (nidNumber : Nid) : JsString := cfg.sha256 nidNumber.val

def maskNid (nidNumber : Nid) : JsString :=
  let visible := nidNumber.val.drop (nidNumber.val.length - 4)
  (List.replicate (nidNumber.val.length - visible.length) (js "•")).flatten ++ visible

def simulateNidCheck (nidNumber : Nid) : Bool :=
  let digitSum := (nidNumber.val.map fun digit => (digitValue 10 digit).getD 0).sum
  digitSum % 10 ≠ 0

def toVerificationStatusDto (user : NidUser) : VerificationStatusDto where
  verificationStatus := user.verificationStatus
  nidMasked := user.nidMasked
  verifiedAt := user.verifiedAt.map toISOString

def conflict (message : String) : Failure := .app ⟨409, .VALIDATION_ERROR, message, none⟩

def nidTaken : Failure := conflict "This NID is already associated with another account."

def verificationAudit (actorUserId : Uuid) (verified : Bool) (nidMasked : JsString) :
    AuditEvent where
  actorUserId := some actorUserId
  action := if verified then .NID_VERIFIED else .NID_REJECTED
  resourceType := .user
  resourceId := some actorUserId
  metadata := .obj [(js "nidMasked", .str nidMasked)]

variable (cfg : NidConfig)

def verificationData (nidNumber : Nid) : VerificationData where
  nidHash := hashNid cfg nidNumber
  nidMasked := maskNid nidNumber
  verificationStatus := if simulateNidCheck nidNumber then .VERIFIED else .REJECTED

def writeVerification (actorUserId : Uuid) (nidNumber : Nid) : NidM VerificationStatusDto := do
  let updated ← ask (.setVerification actorUserId (verificationData cfg nidNumber)
    (verificationAudit actorUserId (simulateNidCheck nidNumber) (maskNid nidNumber)))
  match updated with
  | .ok row => return toVerificationStatusDto row
  | .error error =>
    -- The field of the model, which is not how the target spells it.
    if isUniqueConstraintViolation error nidHashTarget "nidHash" then .fail nidTaken
    else .fail (.db error)

def submitNid (actorUserId : Uuid) (nidNumber : Nid) : NidM VerificationStatusDto := do
  let found ← ask (.findById actorUserId)
  match found with
  | none => .fail (.app ⟨500, .INTERNAL_ERROR, "User not found.", none⟩)
  | some current =>
    let nidHash := hashNid cfg nidNumber
    if current.verificationStatus = .VERIFIED ∧ current.nidHash = some nidHash then
      return toVerificationStatusDto current
    else if current.verificationStatus = .VERIFIED then
      .fail (conflict "This account is already verified.")
    else do
      let existingOwner ← ask (.findByNidHash nidHash)
      if existingOwner.any (·.id ≠ actorUserId) then .fail nidTaken
      else writeVerification cfg actorUserId nidNumber

end VerificationService

open UsersRepository VerificationService

structure Submission where
  actorUserId : Uuid
  nidNumber : Nid

def nidBody (cfg : NidConfig) (c : Submission) : NidM VerificationStatusDto :=
  submitNid cfg c.actorUserId c.nidNumber

abbrev Submissions :=
  Calls NidReply NidDb Failure Time Unit Submission VerificationStatusDto

section Rows

structure NidDb.Keys (db : NidDb) : Prop where
  ids : (db.users.map NidUser.id).Nodup
  hashes : ∀ u ∈ db.users, ∀ v ∈ db.users, ∀ h, u.nidHash = some h → v.nidHash = some h →
    u.id = v.id

def nextWrite? : NidM VerificationStatusDto → Option (Uuid × JsString)
  | .op (.setVerification userId data _) _ => some (userId, data.nidHash)
  | _ => none

def unverified? (e : Done NidReply Time Unit) : Option Uuid :=
  match e with
  | ⟨_, .findById id, some u, _⟩ => if u.verificationStatus ≠ .VERIFIED then some id else none
  | _ => none

def verifies? (e : Done NidReply Time Unit) : Option Uuid :=
  match e with
  | ⟨_, .setVerification userId _ _, .ok u, _⟩ =>
    if u.verificationStatus = .VERIFIED then some userId else none
  | _ => none

variable {db db' : NidDb} {st : NidStmt} {r : NidReply st} {d : Draw Time Unit}

/-- A statement leaves the users alone, or writes the verification of one. -/
theorem nidExec_users (h : nidExec st db d = .ok (r, db')) : db'.users = db.users ∨
    ∃ userId data entry, st = .setVerification userId data entry ∧
      ¬ Taken userId data.nidHash db ∧
      db'.users = db.users.map (verifiedRow userId data d.now) ∧
      ∀ i, verifies? ⟨i, st, r, d⟩ =
        if data.verificationStatus = .VERIFIED then some userId else none := by
  cases st with
  | findById id =>
    cases h
    exact Or.inl rfl
  | findByNidHash nidHash =>
    cases h
    exact Or.inl rfl
  | setVerification userId data entry =>
    simp only [nidExec, setVerification] at h
    cases hu : db.users.find? (·.id = userId) with
    | none =>
      simp only [hu] at h
      cases h
      exact Or.inl rfl
    | some u =>
      by_cases ht : Taken userId data.nidHash db
      · simp only [hu, if_pos ht] at h
        cases h
        exact Or.inl rfl
      · simp only [hu, if_neg ht] at h
        cases h
        exact Or.inr ⟨userId, data, entry, rfl, ht, rfl, fun i => rfl⟩

@[simp] theorem verifiedRow_id (userId : Uuid) (data : VerificationData) (now : Time)
    (u : NidUser) : (verifiedRow userId data now u).id = u.id := by
  unfold verifiedRow
  split_ifs <;> rfl

theorem verifiedRow_self {userId : Uuid} {data : VerificationData} {now : Time} {u : NidUser}
    (h : u.id = userId) : (verifiedRow userId data now u).nidHash = some data.nidHash := by
  rw [verifiedRow, if_pos h]
  rfl

theorem verifiedRow_other {userId : Uuid} {data : VerificationData} {now : Time} {u : NidUser}
    (h : u.id ≠ userId) : verifiedRow userId data now u = u := if_neg h

theorem NidDb.Keys.exec (hk : db.Keys) (h : nidExec st db d = .ok (r, db')) : db'.Keys := by
  rcases nidExec_users h with heq | ⟨userId, data, entry, -, hfree, heq, -⟩
  · exact ⟨heq ▸ hk.ids, heq ▸ hk.hashes⟩
  · refine ⟨?_, fun u hu v hv hash hhu hhv => ?_⟩
    · rw [heq, List.map_map]
      simpa only [Function.comp_def, verifiedRow_id] using hk.ids
    · rw [heq] at hu hv
      obtain ⟨u, hu₀, rfl⟩ := List.mem_map.1 hu
      obtain ⟨v, hv₀, rfl⟩ := List.mem_map.1 hv
      rw [verifiedRow_id, verifiedRow_id]
      -- The written hash was nobody else's, and the others are as before.
      by_cases hui : u.id = userId
      · by_cases hvi : v.id = userId
        · exact hui.trans hvi.symm
        · rw [verifiedRow_self hui] at hhu
          rw [verifiedRow_other hvi] at hhv
          exact (hfree ⟨v, hv₀, hvi, hhv.trans hhu.symm⟩).elim
      · rw [verifiedRow_other hui] at hhu
        by_cases hvi : v.id = userId
        · rw [verifiedRow_self hvi] at hhv
          exact (hfree ⟨u, hu₀, hui, hhu.trans hhv.symm⟩).elim
        · rw [verifiedRow_other hvi] at hhv
          exact hk.hashes u hu₀ v hv₀ hash hhu hhv

/-- A lookup that found the user unverified says so of the row. -/
theorem unverified_exec (hk : db.Keys) {i : ℕ} {id : Uuid}
    (h : nidExec st db d = .ok (r, db')) (hf : unverified? ⟨i, st, r, d⟩ = some id) :
    db' = db ∧ ∀ u ∈ db.users, u.id = id → u.verificationStatus ≠ .VERIFIED := by
  unfold unverified? at hf
  split at hf
  · next j id' row d' heq =>
    cases heq
    split at hf
    · next hrow =>
      cases hf
      obtain ⟨hfind, rfl⟩ := Prod.mk.inj (Except.ok.inj h)
      obtain ⟨hm, hid⟩ := find?_spec hfind
      refine ⟨rfl, fun u hu huid => ?_⟩
      rwa [eq_of_nodup_key hk.ids hu hm (huid.trans hid.symm)]
    · cases hf
  · cases hf

/-- Nobody becomes verified but by a write that verifies him. -/
theorem unverified_kept {i : ℕ} {id : Uuid} (h : nidExec st db d = .ok (r, db'))
    (hw : verifies? ⟨i, st, r, d⟩ ≠ some id)
    (hdb : ∀ u ∈ db.users, u.id = id → u.verificationStatus ≠ .VERIFIED) :
    ∀ u ∈ db'.users, u.id = id → u.verificationStatus ≠ .VERIFIED := by
  rcases nidExec_users h with heq | ⟨userId, data, entry, -, -, heq, hwrites⟩
  · exact heq ▸ hdb
  · intro u hu huid
    rw [heq] at hu
    obtain ⟨u, hu₀, rfl⟩ := List.mem_map.1 hu
    rw [verifiedRow_id] at huid
    by_cases hid : u.id = userId
    · rw [verifiedRow, if_pos hid]
      intro hverified
      exact hw ((hwrites i).trans ((if_pos hverified).trans (congrArg some (hid.symm.trans huid))))
    · rw [verifiedRow_other hid]
      exact hdb u hu₀ huid

end Rows

section Points

variable {cfg : NidConfig}

/-- A call is about to write only for its own user, whom it has found unverified. -/
def NidPoint (c : Submission) (said : List (Exchange NidReply)) (p : NidM VerificationStatusDto) :
    Prop :=
  ∀ w, nextWrite? p = some w → w.1 = c.actorUserId ∧ ∃ u : NidUser,
    u.verificationStatus ≠ .VERIFIED ∧
      (⟨.findById c.actorUserId, some u⟩ : Exchange NidReply) ∈ said

theorem nidPoint_idle {c : Submission} {said : List (Exchange NidReply)}
    {p : NidM VerificationStatusDto} (h : nextWrite? p = none) : NidPoint c said p :=
  fun _ hw => (Option.some_ne_none _ (hw.symm.trans h)).elim

theorem nidBody_point (c : Submission) : (nidBody cfg c).Always (NidPoint c) [] := by
  simp only [nidBody, submitNid, ask, perform_bind]
  refine ⟨nidPoint_idle rfl, fun found => ?_⟩
  cases found with
  | none => trivial
  | some current =>
    by_cases hv : current.verificationStatus = .VERIFIED
    · simp only [hv, true_and, if_true]
      split_ifs
      · exact nidPoint_idle rfl
      · trivial
    · simp only [hv, false_and, if_false]
      refine ⟨nidPoint_idle rfl, fun existingOwner => ?_⟩
      dsimp only
      split_ifs
      · trivial
      · simp only [writeVerification, ask, perform_bind]
        refine ⟨fun w hw => ?_, fun updated => ?_⟩
        · cases hw
          exact ⟨rfl, current, hv, List.mem_append_left _ (List.mem_append_right _
            List.mem_cons_self)⟩
        · cases updated with
          | ok row => exact nidPoint_idle rfl
          | error error =>
            dsimp only
            split_ifs
            · trivial
            · trivial

end Points

section Runs

variable {cfg : NidConfig} {db₀ : NidDb} {clock : Time} {s s' : Submissions}
  {permits : Submissions → Turn Submission Time Unit → Prop}

/-- What has been carried out since call `i` found the user unverified. -/
def sinceLookup (i : ℕ) (id : Uuid) (past : List (Done NidReply Time Unit)) :
    List (Done NidReply Time Unit) :=
  Calls.sinceLast (fun e => e.caller = i ∧ unverified? e = some id) past

/-- A write runs only if nobody has verified the user since the call found him
unverified, unless the index refuses it. -/
def StillUnverified (s : Submissions) : Turn Submission Time Unit → Prop
  | .step i _ => ∀ p ∈ s.procs[i]?, ∀ w ∈ nextWrite? p.rest, Taken w.1 w.2 s.db ∨
      ∀ e ∈ sinceLookup i w.1 s.past, verifies? e ≠ some w.1
  | _ => True

-- The two bounds are options: the instance search would run through all ids.
instance (s : Submissions) (l : Turn Submission Time Unit) : Decidable (StillUnverified s l) :=
  match l with
  | .step i _ =>
    have (p : Proc NidReply Failure Submission VerificationStatusDto) :
        Decidable (∀ w ∈ nextWrite? p.rest, Taken w.1 w.2 s.db ∨
          ∀ e ∈ sinceLookup i w.1 s.past, verifies? e ≠ some w.1) :=
      Option.decidableForallMem (nextWrite? p.rest)
    Option.decidableForallMem s.procs[i]?
  | .tick _ => isTrue trivial
  | .start _ => isTrue trivial

/-- The calls are where they have come to, and a lookup stays true until somebody
verifies the user. -/
structure Looked (cfg : NidConfig) (s : Submissions) : Prop where
  keys : s.db.Keys
  follows : Calls.Follows NidPoint s
  fresh : ∀ i id, (∃ f ∈ s.past, f.caller = i ∧ unverified? f = some id) →
    (∀ e ∈ sinceLookup i id s.past, verifies? e ≠ some id) →
      ∀ u ∈ s.db.users, u.id = id → u.verificationStatus ≠ .VERIFIED

theorem Looked.initial (h₀ : db₀.Keys) : Looked cfg (Calls.initial db₀ clock) :=
  ⟨h₀, .initial db₀ clock, fun _ _ ⟨_, hf, _⟩ => (List.not_mem_nil hf).elim⟩

theorem Looked.step (h : Looked cfg s) {l : Turn Submission Time Unit}
    (hs : s.step? nidExec (nidBody cfg) l = some s') : Looked cfg s' := by
  have hfollows := h.follows.step nidBody_point hs
  cases Calls.step?_took _ _ hs with
  | step i fresh c st k r db' hp hx =>
    refine ⟨h.keys.exec hx, hfollows, fun j id hex hsince => ?_⟩
    rw [sinceLookup, Calls.sinceLast_snoc] at hsince
    by_cases hlast : i = j ∧ unverified? ⟨i, st, r, ⟨s.clock, fresh⟩⟩ = some id
    · obtain ⟨rfl, hrow⟩ := unverified_exec h.keys hx hlast.2
      exact hrow
    · rw [if_neg hlast] at hsince
      refine unverified_kept hx (hsince _ List.mem_cons_self) (h.fresh j id ?_ fun e he => ?_)
      · obtain ⟨f, hf, hfj⟩ := hex
        rcases List.mem_append.1 hf with hf | hf
        · exact ⟨f, hf, hfj⟩
        · obtain rfl := List.mem_singleton.1 hf
          exact (hlast hfj).elim
      · exact hsince e (List.mem_cons_of_mem _ he)
  | _ => exact ⟨h.keys, hfollows, h.fresh⟩

theorem Looked.reach (h : Looked cfg s) (hr : Calls.Reach nidExec (nidBody cfg) permits s s') :
    Looked cfg s' := by
  induction hr with
  | refl => exact h
  | tail l _ _ hs ih => exact ih.step hs

/-- A write that the condition lets through finds its user unverified. -/
theorem Looked.unverified (h : Looked cfg s) {i : ℕ} {c : Submission}
    {rest : NidM VerificationStatusDto} (hp : s.procs[i]? = some ⟨c, rest⟩) {userId : Uuid}
    {nidHash : JsString} (hw : nextWrite? rest = some (userId, nidHash))
    (hsince : ∀ e ∈ sinceLookup i userId s.past, verifies? e ≠ some userId) :
    ∀ u ∈ s.db.users, u.id = userId → u.verificationStatus ≠ .VERIFIED := by
  have hpoint := (h.follows.points i _ hp).here (by rintro e rfl; cases hw)
  obtain ⟨rfl, row, hrow, hm⟩ := hpoint _ hw
  obtain ⟨f, hf, hi, heq⟩ := Calls.mem_talk.1 hm
  subst hi
  refine h.fresh _ _ ⟨f, hf, rfl, ?_⟩ hsince
  obtain ⟨j, st, r, d⟩ := f
  cases heq
  exact if_pos hrow

/-- A row that is verified is the same after a turn that the condition lets through. -/
theorem Looked.verified (h : Looked cfg s) {l : Turn Submission Time Unit}
    (hl : StillUnverified s l) (hs : s.step? nidExec (nidBody cfg) l = some s') {u : NidUser}
    (hu : u ∈ s.db.users) (hv : u.verificationStatus = .VERIFIED) : u ∈ s'.db.users := by
  cases Calls.step?_took _ _ hs with
  | step i fresh c st k r db' hp hx =>
    rcases nidExec_users hx with heq | ⟨userId, data, entry, rfl, hfree, heq, -⟩
    · exact heq ▸ hu
    · have hother : u.id ≠ userId := by
        intro hid
        rcases hl _ hp (userId, data.nidHash) rfl with ht | hsince
        · exact hfree ht
        · exact h.unverified hp rfl hsince u hu hid hv
      exact heq ▸ List.mem_map.2 ⟨u, hu, verifiedRow_other hother⟩
  | _ => exact hu

section Sample

def sampleNid : NidConfig where
  sha256 := id

def freshUser (id : Uuid) : NidUser := ⟨id, none, none, .UNVERIFIED, none⟩

def sampleNidDb : NidDb where
  users := [freshUser 1, freshUser 2]
  auditEvents := []

theorem sampleNidDb_keys : sampleNidDb.Keys := by
  refine ⟨by decide, fun u hu v hv hash hhu hhv => ?_⟩
  have hnone : ∀ u ∈ sampleNidDb.users, u.nidHash = none := by decide
  rw [hnone u hu] at hhu
  cases hhu

def verifiable : Nid := ⟨js "1234567890", by decide⟩

def rejected : Nid := ⟨js "1111111111", by decide⟩

def crossed : List (Turn Submission Time Unit) :=
  [.start ⟨1, verifiable⟩, .start ⟨1, rejected⟩, .step 0 (), .step 0 (), .step 1 (), .step 1 (),
    .step 0 ()]

end Sample

/-- No two users ever have one NID, however many submissions overlap; and while no
call writes for a user who has been verified since it looked, what is verified stays as
it is. -/
theorem verified_is_terminal (h₀ : db₀.Keys) :
    (∀ s, Calls.Reach nidExec (nidBody cfg) (fun _ _ => True) (Calls.initial db₀ clock) s →
      ∀ u ∈ s.db.users, ∀ v ∈ s.db.users, ∀ h, u.nidHash = some h → v.nidHash = some h →
        u.id = v.id) ∧
    ∀ s, Calls.Reach nidExec (nidBody cfg) StillUnverified (Calls.initial db₀ clock) s →
      ∀ s', Calls.Reach nidExec (nidBody cfg) StillUnverified s s' →
        ∀ u ∈ s.db.users, u.verificationStatus = .VERIFIED → u ∈ s'.db.users := by
  have hinit : Looked cfg (Calls.initial db₀ clock) := .initial h₀
  refine ⟨fun s h => (hinit.reach h).keys.hashes, fun s h s' h' u hu hv => ?_⟩
  induction h' with
  | refl => exact hu
  | tail l hpast hl hs ih => exact ((hinit.reach h).reach hpast).verified hl hs ih hv

theorem verified_is_terminal_sample : ∃ s : Submissions,
    Calls.Reach nidExec (nidBody sampleNid) StillUnverified (Calls.initial sampleNidDb 0) s ∧
    (∃ u ∈ s.db.users, u.verificationStatus = .VERIFIED) ∧
    ∀ s', Calls.Reach nidExec (nidBody sampleNid) StillUnverified s s' →
      ∀ u ∈ s.db.users, u.verificationStatus = .VERIFIED → u ∈ s'.db.users := by
  have hrun : ((Calls.initial sampleNidDb 0).run nidExec (nidBody sampleNid) StillUnverified
      crossed).any (fun s => ∃ u ∈ s.db.users, u.verificationStatus = .VERIFIED) := by
    decide +kernel
  obtain ⟨s, hs, hverified⟩ := (Option.any_eq_true _ _).1 hrun
  have hreach := Calls.reach_of_run _ _ hs
  exact ⟨s, hreach, of_decide_eq_true hverified,
    (verified_is_terminal sampleNidDb_keys).2 s hreach⟩

/-- The second submission then overwrites what the first has verified. -/
theorem verified_is_overwritten : ∃ s s' : Submissions,
    Calls.Reach nidExec (nidBody sampleNid) (fun _ _ => True) (Calls.initial sampleNidDb 0) s ∧
    Calls.Reach nidExec (nidBody sampleNid) (fun _ _ => True) s s' ∧
    ∃ u ∈ s.db.users, u.verificationStatus = .VERIFIED ∧
      ∃ u' ∈ s'.db.users, u'.id = u.id ∧ u'.verificationStatus = .REJECTED ∧
        u'.nidHash ≠ u.nidHash ∧ u'.nidMasked ≠ u.nidMasked ∧ u'.verifiedAt = none := by
  have hrun : ((Calls.initial sampleNidDb 0).run nidExec (nidBody sampleNid) (fun _ _ => True)
      crossed).any (fun s =>
        (s.run nidExec (nidBody sampleNid) (fun _ _ => True) [.step 1 ()]).any (fun s' =>
          ∃ u ∈ s.db.users, u.verificationStatus = .VERIFIED ∧
            ∃ u' ∈ s'.db.users, u'.id = u.id ∧ u'.verificationStatus = .REJECTED ∧
              u'.nidHash ≠ u.nidHash ∧ u'.nidMasked ≠ u.nidMasked ∧ u'.verifiedAt = none)) := by
    decide +kernel
  obtain ⟨s, hs, hnext⟩ := (Option.any_eq_true _ _).1 hrun
  obtain ⟨s', hs', hall⟩ := (Option.any_eq_true _ _).1 hnext
  exact ⟨s, s', Calls.reach_of_run _ _ hs, Calls.reach_of_run _ _ hs', of_decide_eq_true hall⟩

end Runs

end MoneyMovement
