import MoneyMovement.Auth.Rows
import Mathlib.Logic.Relation

/-!
# Single use of refresh tokens

A refresh rotates a session that it has read as unrevoked, but the rotating write
does not look again. A token buys one session as long as no other call rotates the
session between that read and the write; two overlapping calls both succeed.
-/

namespace MoneyMovement

open Txn Prog AuthService AuthSessionRepository

section Points

variable (cfg : AuthConfig)

def rotating? : AuthM AuthResult → Option Uuid
  | .op (.rotate id _) _ => some id
  | _ => none

structure Chose (token : Option JsString) (session : AuthSession)
    (said : List (Exchange AuthReply)) : Prop where
  active : session.revokedAt = none
  found : ∃ t, presented token = some t ∧
    (⟨.findByTokenHash (hashRefreshToken cfg t), some session⟩ : Exchange AuthReply) ∈ said

def Point : AuthCall → List (Exchange AuthReply) → AuthM AuthResult → Prop
  | .refresh token _, said, p =>
    (∀ id, rotating? p = some id → ∃ session, Chose cfg token session said ∧ session.id = id) ∧
    (∀ a, p = .ret a → ∃ session data, Chose cfg token session said ∧
      (⟨.rotate session.id data, ()⟩ : Exchange AuthReply) ∈ said)
  | _, _, p => rotating? p = none

variable {cfg} {token : Option JsString} {session : AuthSession} {userAgent : Option JsString}
  {said said' : List (Exchange AuthReply)}

theorem Chose.append (h : Chose cfg token session said) :
    Chose cfg token session (said ++ said') :=
  ⟨h.active, by
    obtain ⟨t, ht, hm⟩ := h.found
    exact ⟨t, ht, List.mem_append_left _ hm⟩⟩

theorem point_idle {c : AuthCall} {p : AuthM AuthResult} (hi : rotating? p = none)
    (hp : ∀ a, p ≠ .ret a) : Point cfg c said p := by
  cases c with
  | refresh token userAgent =>
    exact ⟨fun id hid => (Option.some_ne_none id (hid.symm.trans hi)).elim,
      fun a ha => (hp a ha).elim⟩
  | _ => exact hi

/-- Where a call can be: a refresh is about to rotate only a session it has chosen,
for the user of that session, and returns only after it has. -/
theorem body_always {P : AuthCall → List (Exchange AuthReply) → AuthM AuthResult → Prop}
    (hidle : ∀ c said p, rotating? p = none → (∀ a, p ≠ .ret a) → P c said p)
    (hdone : ∀ c said a, (∀ token userAgent, c ≠ .refresh token userAgent) → P c said (.ret a))
    (hrotate : ∀ token userAgent session said data k, Chose cfg token session said →
      data.userId = session.userId →
      P (.refresh token userAgent) said (.op (.rotate session.id data) k))
    (hreturn : ∀ token userAgent session said data a, Chose cfg token session said →
      (⟨.rotate session.id data, ()⟩ : Exchange AuthReply) ∈ said →
      P (.refresh token userAgent) said (.ret a)) (c : AuthCall) :
    (authBody cfg c).Always (P c) [] := by
  cases c with
  | createSession userId userAgent =>
    refine ⟨hidle _ _ _ rfl nofun, fun _ => ⟨hidle _ _ _ rfl nofun, fun _ => ?_⟩⟩
    refine ⟨hidle _ _ _ rfl nofun, fun _ => ⟨hidle _ _ _ rfl nofun, fun _ => ?_⟩⟩
    exact hdone _ _ _ nofun
  | refresh token userAgent =>
    cases ht : presented token with
    | none =>
      simp only [authBody, refresh, ht]
      trivial
    | some t =>
      simp only [authBody, refresh, ht, call, perform_bind, op_bind]
      refine ⟨hidle _ _ _ rfl nofun, fun found => ?_⟩
      cases found with
      | none => trivial
      | some session =>
        cases hr : session.revokedAt with
        | some now =>
          simp only [hr, Option.isSome_some, if_true]
          exact ⟨hidle _ _ _ rfl nofun, fun _ => ⟨hidle _ _ _ rfl nofun, fun _ => trivial⟩⟩
        | none =>
          simp only [hr, Option.isSome_none, Bool.false_eq_true, if_false, op_bind]
          refine ⟨hidle _ _ _ rfl nofun, fun now => ?_⟩
          have hc : Chose cfg token session
              [⟨.findByTokenHash (hashRefreshToken cfg t), some session⟩] :=
            ⟨hr, t, ht, List.mem_cons_self⟩
          by_cases hlt : session.expiresAt < now
          · simp only [hlt, if_true]
            trivial
          · simp only [hlt, if_false]
            refine ⟨hidle _ _ _ rfl nofun, fun _ => ⟨hidle _ _ _ rfl nofun, fun _ => ?_⟩⟩
            refine ⟨hidle _ _ _ rfl nofun, fun _ => ?_⟩
            refine ⟨hrotate _ _ _ _ _ _ hc.append.append.append.append rfl, fun _ => ?_⟩
            refine ⟨hidle _ _ _ rfl nofun, fun _ => ?_⟩
            exact hreturn _ _ _ _ _ _ hc.append.append.append.append.append.append
              (List.mem_append_left _ List.mem_concat_self)
  | logout token =>
    cases ht : presented token with
    | none =>
      simp only [authBody, logout, ht]
      exact hdone _ _ _ nofun
    | some t =>
      simp only [authBody, logout, ht, call, perform_bind, op_bind]
      refine ⟨hidle _ _ _ rfl nofun, fun found => ?_⟩
      cases found with
      | none => exact hdone _ _ _ nofun
      | some session =>
        cases hr : session.revokedAt with
        | some now =>
          simp only [hr, Option.isSome_some, if_true]
          exact hdone _ _ _ nofun
        | none =>
          simp only [hr, Option.isSome_none, Bool.false_eq_true, if_false, op_bind]
          refine ⟨hidle _ _ _ rfl nofun, fun _ => ⟨hidle _ _ _ rfl nofun, fun _ => ?_⟩⟩
          exact hdone _ _ _ nofun

theorem body_point (c : AuthCall) : (authBody cfg c).Always (Point cfg c) [] := by
  refine body_always (P := Point cfg) (fun c said p hi hp => point_idle hi hp) ?_ ?_ ?_ c
  · intro c said a hc
    cases c with
    | refresh token userAgent => exact (hc token userAgent rfl).elim
    | _ => rfl
  · intro token userAgent session said data k hchose _
    exact ⟨fun id hid => ⟨session, hchose, Option.some.inj hid⟩, nofun⟩
  · intro token userAgent session said data a hchose hm
    exact ⟨nofun, fun _ _ => ⟨session, data, hchose, hm⟩⟩

end Points

section History

def rotated? (e : Done AuthReply Time Fresh) : Option Uuid :=
  match e.stmt with
  | .rotate id _ => some id
  | _ => none

def found? : Done AuthReply Time Fresh → Option (JsString × AuthSession)
  | ⟨_, .findByTokenHash hash, some session, _⟩ => some (hash, session)
  | _ => none

/-- The past agrees with the rows: what a lookup returned is still there, what a
rotation revoked still is, and no lookup since has returned it as unrevoked. -/
structure Remembers (db : AuthDb) (past : List (Done AuthReply Time Fresh)) : Prop where
  keys : db.Keys
  found : ∀ e ∈ past, ∀ hash session, found? e = some (hash, session) →
    ∃ row ∈ db.authSessions, row.id = session.id ∧ row.refreshTokenHash = hash
  rotated : ∀ e ∈ past, ∀ id, rotated? e = some id →
    (∃ row ∈ db.authSessions, row.id = id) ∧
      ∀ row ∈ db.authSessions, row.id = id → row.revokedAt ≠ none
  order : past.Pairwise fun e f => ∀ hash session, found? f = some (hash, session) →
    rotated? e = some session.id → session.revokedAt ≠ none

variable {cfg : AuthConfig} {db db' : AuthDb} {past : List (Done AuthReply Time Fresh)}

theorem found_exec {i : ℕ} {st : AuthStmt} {r : AuthReply st} {d : Draw Time Fresh}
    {hash : JsString} {session : AuthSession} (hx : authExec cfg st db d = .ok (r, db'))
    (h : found? ⟨i, st, r, d⟩ = some (hash, session)) :
    db' = db ∧ session ∈ db.authSessions ∧ session.refreshTokenHash = hash := by
  unfold found? at h
  split at h
  · next j hash' session' d' heq =>
    cases heq
    cases h
    obtain ⟨hfind, rfl⟩ := Prod.mk.inj (Except.ok.inj hx)
    exact ⟨rfl, find_spec hfind⟩
  · cases h

theorem rotated_exec {i : ℕ} {st : AuthStmt} {r : AuthReply st} {d : Draw Time Fresh} {id : Uuid}
    (hx : authExec cfg st db d = .ok (r, db')) (h : rotated? ⟨i, st, r, d⟩ = some id) :
    (∃ row ∈ db'.authSessions, row.id = id) ∧
      ∀ row ∈ db'.authSessions, row.id = id → row.revokedAt ≠ none := by
  unfold rotated? at h
  split at h
  · next id' data heq =>
    cases heq
    cases h
    exact rotate_revokes hx
  · cases h

theorem Remembers.snoc (h : Remembers db past) {i : ℕ} {st : AuthStmt} {r : AuthReply st}
    {d : Draw Time Fresh} (hx : authExec cfg st db d = .ok (r, db')) :
    Remembers db' (past ++ [⟨i, st, r, d⟩]) := by
  obtain ⟨hkeys, hev⟩ := exec_evolves h.keys hx
  refine ⟨hkeys, fun e he hash session hf => ?_, fun e he id hr => ?_, ?_⟩
  · rcases List.mem_append.1 he with he | he
    · obtain ⟨row, hrow, hid, hhash⟩ := h.found e he hash session hf
      obtain ⟨row', hrow', hid', hhash'⟩ := hev.kept row hrow
      exact ⟨row', hrow', hid'.trans hid, hhash'.trans hhash⟩
    · rw [List.mem_singleton.1 he] at hf
      obtain ⟨rfl, hm, hhash⟩ := found_exec hx hf
      exact ⟨session, hm, rfl, hhash⟩
  · rcases List.mem_append.1 he with he | he
    · obtain ⟨⟨row, hrow, hid⟩, hrev⟩ := h.rotated e he id hr
      obtain ⟨row', hrow', hid', -⟩ := hev.kept row hrow
      refine ⟨⟨row', hrow', hid'.trans hid⟩, fun t ht htid => ?_⟩
      rcases hev.origin t ht with ⟨s, hs, hsid, hkept⟩ | hnew
      · exact hkept (hrev s hs (hsid.trans htid))
      · exact (hnew row hrow (hid.trans htid.symm)).elim
    · rw [List.mem_singleton.1 he] at hr
      exact rotated_exec hx hr
  · refine List.pairwise_append.2 ⟨h.order, List.pairwise_singleton _ _, ?_⟩
    intro e he f hf hash session hfound hrot
    rw [List.mem_singleton.1 hf] at hfound
    obtain ⟨-, hm, -⟩ := found_exec hx hfound
    exact (h.rotated e he session.id hrot).2 session hm rfl

end History

section Single

variable {cfg : AuthConfig} {db₀ : AuthDb} {clock : Time} {s s' : Sessions}

def chosen? (i : ℕ) (e : Done AuthReply Time Fresh) : Option Uuid :=
  if e.caller = i then (found? e).bind fun f => if f.2.revokedAt = none then some f.2.id else none
  else none

/-- What has been carried out since call `i` last found the session unrevoked. -/
def since (i : ℕ) (id : Uuid) (past : List (Done AuthReply Time Fresh)) :
    List (Done AuthReply Time Fresh) :=
  Calls.sinceLast (chosen? i · = some id) past

/-- A rotating write runs only if no rotation of the same session has been carried out
since the call found it unrevoked. -/
def Undisturbed (s : Sessions) : Turn AuthCall Time Fresh → Prop
  | .step i _ => ∀ p ∈ s.procs[i]?, ∀ id ∈ rotating? p.rest,
      ∀ e ∈ since i id s.past, rotated? e ≠ some id
  | _ => True

-- The two bounds are options: the instance search would run through all ids.
instance (s : Sessions) (l : Turn AuthCall Time Fresh) : Decidable (Undisturbed s l) :=
  match l with
  | .step i _ =>
    have (p : Proc AuthReply Failure AuthCall AuthResult) : Decidable (∀ id ∈ rotating? p.rest,
        ∀ e ∈ since i id s.past, rotated? e ≠ some id) :=
      Option.decidableForallMem (rotating? p.rest)
    Option.decidableForallMem s.procs[i]?
  | .tick _ => isTrue trivial
  | .start _ => isTrue trivial

theorem chosen_spec {i : ℕ} {e : Done AuthReply Time Fresh} {id : Uuid}
    (h : chosen? i e = some id) :
    ∃ hash session, found? e = some (hash, session) ∧ session.id = id ∧
      session.revokedAt = none := by
  unfold chosen? at h
  split at h
  · obtain ⟨⟨hash, session⟩, hf, hs⟩ := Option.bind_eq_some_iff.1 h
    split at hs
    · next hr =>
      cases hs
      exact ⟨hash, session, hf, rfl, hr⟩
    · cases hs
  · cases h

theorem found?_rotated {e : Done AuthReply Time Fresh} {id : Uuid} (h : rotated? e = some id) :
    found? e = none := by
  obtain ⟨i, st, r, d⟩ := e
  cases st with
  | rotate id data => rfl
  | _ => cases h

structure Single (cfg : AuthConfig) (s : Sessions) : Prop where
  follows : Calls.Follows (Point cfg) s
  remembers : Remembers s.db s.past
  once : s.past.Pairwise fun e f => ∀ id, rotated? e = some id → rotated? f ≠ some id

/-- A call about to rotate a session has found it unrevoked. -/
theorem Single.chose (h : Single cfg s) {i : ℕ} {c : AuthCall} {rest : AuthM AuthResult}
    (hp : s.procs[i]? = some ⟨c, rest⟩) {id : Uuid} (hr : rotating? rest = some id) :
    ∃ f ∈ s.past, chosen? i f = some id := by
  have hpoint := (h.follows.points i _ hp).here (by rintro e rfl; cases hr)
  cases c with
  | refresh token userAgent =>
    obtain ⟨session, ⟨hactive, t, -, hm⟩, rfl⟩ := hpoint.1 id hr
    obtain ⟨f, hf, rfl, heq⟩ := Calls.mem_talk.1 hm
    refine ⟨f, hf, ?_⟩
    obtain ⟨i, st, r, d⟩ := f
    cases heq
    simp [chosen?, found?, hactive]
  | createSession userId userAgent => exact (Option.some_ne_none id (hr.symm.trans hpoint)).elim
  | logout token => exact (Option.some_ne_none id (hr.symm.trans hpoint)).elim

/-- It rotates the session for the first time. -/
theorem Single.unrotated (h : Single cfg s) {i : ℕ} {fresh : Fresh} {c : AuthCall}
    {rest : AuthM AuthResult} (hp : s.procs[i]? = some ⟨c, rest⟩) {id : Uuid}
    (hr : rotating? rest = some id) (ho : Undisturbed s (.step i fresh)) :
    ∀ e ∈ s.past, rotated? e ≠ some id := by
  intro e he hrot
  obtain ⟨before, f, after, hsplit, hc, hafter⟩ := Calls.split_sinceLast (h.chose hp hr)
  obtain ⟨hash, session, hfound, rfl, hactive⟩ := chosen_spec hc
  have horder := h.remembers.order
  rw [hsplit] at horder he
  rcases List.mem_append.1 he with he | he
  · have := (List.pairwise_append.1 horder).2.2 e he f List.mem_cons_self
    exact this hash session hfound hrot hactive
  · rcases List.mem_cons.1 he with rfl | he
    · rw [found?_rotated hrot] at hfound
      cases hfound
    · exact ho _ hp _ hr e (hafter e he) hrot

theorem Single.step (h : Single cfg s) {l : Turn AuthCall Time Fresh} (ho : Undisturbed s l)
    (hs : s.step? (authExec cfg) (authBody cfg) l = some s') : Single cfg s' := by
  have hfollows := h.follows.step body_point hs
  cases Calls.step?_took _ _ hs with
  | step i fresh c st k r db' hp hx =>
    refine ⟨hfollows, h.remembers.snoc hx, ?_⟩
    refine List.pairwise_append.2 ⟨h.once, List.pairwise_singleton _ _, ?_⟩
    intro e he f hf id hrot hrot'
    rw [List.mem_singleton.1 hf] at hrot'
    have hrotates : rotating? (.op st k) = some id := by
      cases st with
      | rotate id' data => exact hrot'
      | _ => cases hrot'
    exact h.unrotated hp hrotates ho e he hrot
  | _ => exact ⟨hfollows, h.remembers, h.once⟩

theorem Single.reach (h₀ : db₀.Keys)
    (h : Calls.Reach (authExec cfg) (authBody cfg) Undisturbed (Calls.initial db₀ clock) s) :
    Single cfg s := by
  induction h with
  | refl =>
    refine ⟨.initial db₀ clock, ⟨h₀, ?_, ?_, List.Pairwise.nil⟩, List.Pairwise.nil⟩
    · exact fun e he => (List.not_mem_nil he).elim
    · exact fun e he => (List.not_mem_nil he).elim
  | tail l _ ho hs ih => exact ih.step ho hs

theorem Single.eq_of_rotated (h : Single cfg s) {e f : Done AuthReply Time Fresh} (he : e ∈ s.past)
    (hf : f ∈ s.past) {id : Uuid} (hre : rotated? e = some id) (hrf : rotated? f = some id) :
    e = f := by
  obtain ⟨i, hi, rfl⟩ := List.getElem_of_mem he
  obtain ⟨j, hj, rfl⟩ := List.getElem_of_mem hf
  have honce := List.pairwise_iff_getElem.1 h.once
  rcases Nat.lt_trichotomy i j with hij | rfl | hij
  · exact (honce i j hi hj hij id hre hrf).elim
  · rfl
  · exact (honce j i hj hi hij id hrf hre).elim

/-- A call that has returned has rotated the session its token was for. -/
theorem Single.returned (h : Single cfg s) {i : ℕ} {token userAgent : Option JsString}
    {a : AuthResult} (hr : s.returned? i = some (.refresh token userAgent, a)) :
    ∃ t row, presented token = some t ∧ row ∈ s.db.authSessions ∧
      row.refreshTokenHash = hashRefreshToken cfg t ∧
      ∃ e ∈ s.past, e.caller = i ∧ rotated? e = some row.id := by
  have hpoint := (h.follows.points i _ (Calls.proc_of_returned hr)).here nofun
  obtain ⟨session, data, ⟨-, t, ht, hfound⟩, hrotated⟩ := hpoint.2 a rfl
  obtain ⟨f, hf, -, hfeq⟩ := Calls.mem_talk.1 hfound
  obtain ⟨e, he, hi, heeq⟩ := Calls.mem_talk.1 hrotated
  obtain ⟨row, hrow, hid, hhash⟩ := h.remembers.found f hf (hashRefreshToken cfg t) session (by
    obtain ⟨j, st, r, d⟩ := f
    cases hfeq
    rfl)
  refine ⟨t, row, ht, hrow, hhash, e, he, hi, ?_⟩
  obtain ⟨j, st, r, d⟩ := e
  cases heeq
  rw [hid]
  rfl

def Successor (s : Sessions) (x y : Uuid) : Prop :=
  ∃ e ∈ s.past, rotated? e = some x ∧ e.draw.id.id = y

def Descends (s : Sessions) : Uuid → Uuid → Prop := Relation.ReflTransGen (Successor s)

def Active (s : Sessions) (id : Uuid) : Prop :=
  ∃ row ∈ s.db.authSessions, row.id = id ∧ row.revokedAt = none

theorem Single.successor_unique (h : Single cfg s) :
    Relator.RightUnique (Successor s) := by
  rintro x y z ⟨e, he, hre, rfl⟩ ⟨f, hf, hrf, rfl⟩
  rw [h.eq_of_rotated he hf hre hrf]

/-- A session that has been rotated on is not active. -/
theorem Single.eq_of_active (h : Single cfg s) {y z : Uuid} (hd : Descends s y z)
    (hy : Active s y) : y = z := by
  rcases Relation.ReflTransGen.cases_head hd with rfl | ⟨_, ⟨e, he, hr, -⟩, -⟩
  · rfl
  · obtain ⟨row, hrow, hid, hactive⟩ := hy
    exact ((h.remembers.rotated e he y hr).2 row hrow hid hactive).elim

/-- A refresh token buys one session, and a login has one active descendant. -/
structure SingleUse (s : Sessions) : Prop where
  token : ∀ i j token userAgent userAgent' a b,
    s.returned? i = some (.refresh token userAgent, a) →
    s.returned? j = some (.refresh token userAgent', b) → i = j
  descendant : ∀ x y z, Descends s x y → Descends s x z → Active s y → Active s z → y = z

section Sample

def sampleAuth : AuthConfig where
  sign _ _ := js "jwt"
  sha256 := id
  refreshTokenTtlDays := 7

def sampleLogin : AuthDb where
  authSessions := [⟨21, 1, js "first", none, 0, 1000, none⟩]
  auditEvents := []

theorem sampleLogin_keys : sampleLogin.Keys := ⟨by decide, by decide⟩

def refreshFirst : AuthCall := .refresh (some (js "first")) none

def turns (i n : ℕ) (id : Uuid) (token : String) : List (Turn AuthCall Time Fresh) :=
  List.replicate n (.step i ⟨id, js token⟩)

def reuse : List (Turn AuthCall Time Fresh) :=
  .start refreshFirst :: turns 0 7 31 "second" ++ .start refreshFirst :: turns 1 3 32 "third"

/-- Two refreshes that both look the session up before either rotates it. -/
def overlap : List (Turn AuthCall Time Fresh) :=
  [.start refreshFirst, .start refreshFirst] ++ turns 0 2 31 "second" ++ turns 1 2 32 "third" ++
    turns 0 5 31 "second" ++ turns 1 5 32 "third"

end Sample

/-- Refresh tokens are single-use as long as no call rotates a session between the
lookup and the rotating write of another. -/
theorem refresh_token_single_use (h₀ : db₀.Keys)
    (h : Calls.Reach (authExec cfg) (authBody cfg) Undisturbed (Calls.initial db₀ clock) s) :
    SingleUse s := by
  have hs := Single.reach h₀ h
  refine ⟨fun i j token userAgent userAgent' a b hi hj => ?_, fun x y z hy hz hay haz => ?_⟩
  · obtain ⟨t, row, ht, hrow, hhash, e, he, rfl, hre⟩ := hs.returned hi
    obtain ⟨t', row', ht', hrow', hhash', f, hf, rfl, hrf⟩ := hs.returned hj
    obtain rfl := Option.some.inj (ht.symm.trans ht')
    obtain rfl := eq_of_nodup_key hs.remembers.keys.hashes hrow hrow' (hhash.trans hhash'.symm)
    rw [hs.eq_of_rotated he hf hre hrf]
  · rcases Relation.ReflTransGen.total_of_right_unique hs.successor_unique hy hz with hyz | hzy
    · exact hs.eq_of_active hyz hay
    · exact (hs.eq_of_active hzy haz).symm

theorem refresh_token_single_use_reuse : ∃ s : Sessions,
    s.returned? 0 = some (refreshFirst, .issued ⟨js "jwt", js "second"⟩) ∧ SingleUse s := by
  have hrun : ((Calls.initial sampleLogin 0).run (authExec sampleAuth) (authBody sampleAuth)
      Undisturbed reuse).any (fun s =>
        s.returned? 0 = some (refreshFirst, .issued ⟨js "jwt", js "second"⟩)) := by
    decide +kernel
  obtain ⟨s, hs, hreturned⟩ := (Option.any_eq_true _ _).1 hrun
  exact ⟨s, by simpa using hreturned,
    refresh_token_single_use sampleLogin_keys (Calls.reach_of_run _ _ hs)⟩

/-- Without that condition both calls succeed. -/
theorem overlapping_refreshes_succeed : ∃ s : Sessions,
    Calls.Reach (authExec sampleAuth) (authBody sampleAuth) (fun _ _ => True)
      (Calls.initial sampleLogin 0) s ∧ ¬ SingleUse s := by
  have hrun : ((Calls.initial sampleLogin 0).run (authExec sampleAuth) (authBody sampleAuth)
      (fun _ _ => True) overlap).any (fun s =>
        s.returned? 0 = some (refreshFirst, .issued ⟨js "jwt", js "second"⟩) ∧
        s.returned? 1 = some (refreshFirst, .issued ⟨js "jwt", js "third"⟩)) := by
    decide +kernel
  obtain ⟨s, hs, hreturned⟩ := (Option.any_eq_true _ _).1 hrun
  obtain ⟨h₀, h₁⟩ := of_decide_eq_true hreturned
  refine ⟨s, Calls.reach_of_run _ _ hs, fun h => ?_⟩
  exact Nat.zero_ne_one (h.token 0 1 _ _ _ _ _ h₀ h₁)

end Single

end MoneyMovement
