import MoneyMovement.Auth.Login

/-!
# Whom the guard admits

An access token outlives what it was issued for, so the guard reads the status of the account
on every request. Whoever is not active stays out until the status is set again: a refresh
still hands out tokens, but no request with them is admitted. Whoever is admitted holds a
token that descends from a registration or a login, through refreshes that each presented the
token of the session before.
-/

namespace MoneyMovement

open Txn Prog AuthService AccountDb

section Condition

def nextStmt? : AccountM AccountAnswer → Option AccountStmt
  | .op st _ => some st
  | _ => none

def KeepsStatus (userId : Uuid) (s : Accounts) : Turn AccountCall Time AccountFresh → Prop
  | .step i _ => ∀ p ∈ s.procs[i]?, (nextStmt? p.rest).bind AccountStmt.sets? ≠ some userId
  | _ => True

-- As for `Trusted`: the instance search would run through all processes.
instance (userId : Uuid) (s : Accounts) (l : Turn AccountCall Time AccountFresh) :
    Decidable (KeepsStatus userId s l) :=
  match l with
  | .step i _ => Option.decidableForallMem s.procs[i]?
  | .tick _ => isTrue trivial
  | .start _ => isTrue trivial

def SeenActive (userId : Uuid) (said : List (Exchange AccountReply)) : Prop :=
  ⟨.findStatus userId, some .ACTIVE⟩ ∈ said ∨ ∃ email a,
    ⟨.findByEmail email, some a⟩ ∈ said ∧ a.user.id = userId ∧ a.user.status = .ACTIVE

end Condition

section Status

variable {cfg : AccountConfig} {clock : Time} {s s' : Accounts} {userId : Uuid}
  {status : UserStatus} {permits : Accounts → Turn AccountCall Time AccountFresh → Prop}

theorem findStatus_mem {db : AccountDb} (hc : db.Consistent cfg) {a : Account}
    (ha : a ∈ db.accounts) : findStatus a.user.id db = some a.user.status := by
  have hfound : db.accounts.find? (fun b => b.user.id = a.user.id) = some a :=
    find?_eq_of_nodup hc.ids ha
  rw [findStatus, hfound, Option.map_some]

theorem find?_withStatus {table : List Account} {other : Uuid} (hne : other ≠ userId)
    (status : UserStatus) :
    ((table.map (withStatus other status)).find? (·.user.id = userId)).map (·.user.status) =
      (table.find? (·.user.id = userId)).map (·.user.status) := by
  induction table with
  | nil => rfl
  | cons a table ih =>
    rw [List.map_cons, List.find?_cons, List.find?_cons, (withStatus_same other status a).id]
    by_cases ha : a.user.id = userId
    · have hsame : withStatus other status a = a := if_neg fun h => hne (h.symm.trans ha)
      simp [ha, hsame]
    · simpa [ha] using ih

/-- Only a statement that sets the status of the user changes it. -/
theorem findStatus_exec {db db' : AccountDb} {st : AccountStmt} {r : AccountReply st}
    {d : Draw Time AccountFresh} (hx : accountExec cfg st db d = .ok (r, db'))
    (hst : st.sets? ≠ some userId) (h : findStatus userId db = some status) :
    findStatus userId db' = some status := by
  rcases accountExec_cases hx with ⟨heq, -⟩ | ⟨data, balanceMinor, -, -, -, -, heq, -⟩ |
    ⟨other, status', rfl, heq, -⟩
  · unfold findStatus at h ⊢
    rwa [heq]
  · unfold findStatus at h ⊢
    obtain ⟨a, ha, hstatus⟩ := Option.map_eq_some_iff.1 h
    rw [heq, List.find?_append, ha, Option.some_or, Option.map_some, hstatus]
  · have hne : other ≠ userId := fun he => hst (congrArg some he)
    unfold findStatus at h ⊢
    rw [heq, find?_withStatus hne]
    exact h

/-- What a call reads of a user who is not active does not say that he is. -/
theorem not_seenActive_exec {db db' : AccountDb} {st : AccountStmt} {r : AccountReply st}
    {d : Draw Time AccountFresh} (hc : db.Consistent cfg)
    (hx : accountExec cfg st db d = .ok (r, db')) (h : findStatus userId db = some status)
    (hstatus : status ≠ .ACTIVE) : ¬ SeenActive userId [⟨st, r⟩] := by
  rintro (hm | ⟨email, a, hm, rfl, hactive⟩)
  · cases List.mem_singleton.1 hm
    obtain ⟨hr, -⟩ := Prod.mk.inj (Except.ok.inj hx)
    exact hstatus (Option.some.inj (h.symm.trans hr))
  · cases List.mem_singleton.1 hm
    obtain ⟨ha, -⟩ := foundAccount_exec (i := 0) hx rfl
    rw [findStatus_mem hc ha, hactive] at h
    exact hstatus (Option.some.inj h).symm

theorem SeenActive.of_append {said more : List (Exchange AccountReply)}
    (h : SeenActive userId (said ++ more)) : SeenActive userId said ∨ SeenActive userId more := by
  rcases h with hm | ⟨email, a, hm, ha⟩
  · exact (List.mem_append.1 hm).imp Or.inl Or.inl
  · exact (List.mem_append.1 hm).imp (fun hm => Or.inr ⟨email, a, hm, ha⟩)
      fun hm => Or.inr ⟨email, a, hm, ha⟩

/-- The user is not active, and the call has not read that he is. -/
structure ShutOut (cfg : AccountConfig) (userId : Uuid) (status : UserStatus) (i : ℕ)
    (s : Accounts) : Prop where
  kept : AccountsKept cfg s
  found : findStatus userId s.db = some status
  unseen : ¬ SeenActive userId (s.said i)

theorem ShutOut.step {i : ℕ} (h : ShutOut cfg userId status i s) (hstatus : status ≠ .ACTIVE)
    {l : Turn AccountCall Time AccountFresh} (hl : KeepsStatus userId s l)
    (hs : s.step? (accountExec cfg) (accountBody cfg) l = some s') :
    ShutOut cfg userId status i s' := by
  have hkept := h.kept.step hs
  cases Calls.step?_took _ _ hs with
  | step j id c st k r db' hp hx =>
    refine ⟨hkept, findStatus_exec hx (hl _ hp) h.found, fun hseen => ?_⟩
    rw [Calls.said, Calls.talk_snoc] at hseen
    split_ifs at hseen with hij
    · rcases hseen.of_append with hold | hnew
      · exact h.unseen hold
      · exact not_seenActive_exec h.kept.recorded.rows hx h.found hstatus hnew
    · exact h.unseen hseen
  | _ => exact ⟨hkept, h.found, h.unseen⟩

theorem ShutOut.later {i : ℕ} (h : ShutOut cfg userId status i s) (hstatus : status ≠ .ACTIVE)
    (hlater : Calls.Reach (accountExec cfg) (accountBody cfg) (KeepsStatus userId) s s') :
    ShutOut cfg userId status i s' := by
  induction hlater with
  | refl => exact h
  | tail l _ hl hs ih => exact ih.step hstatus hl hs

/-- As whom a call enters has been read to be active. -/
theorem AccountsKept.seenActive (h : AccountsKept cfg s) {i : ℕ} {c : AccountCall}
    {answer : AccountAnswer} (hr : s.returned? i = some (c, answer))
    (hin : EntersAs userId answer) : SeenActive userId (s.said i) := by
  have htold := h.told hr
  cases c with
  | request accessToken path =>
    obtain ⟨token, -, -, hactive⟩ := htold userId hin
    exact Or.inl hactive
  | login input userAgent =>
    rcases htold with ⟨rfl, -⟩ | ⟨a, hfound, -, ⟨hactive, session, rfl⟩ | ⟨-, rfl⟩⟩
    · exact hin.elim
    · exact Or.inr ⟨input.email, a, hfound, hin, hactive⟩
    · exact hin.elim
  | register input userAgent =>
    rcases htold with ⟨data, a, w, session, rfl, -⟩ | ⟨data, rfl, -⟩
    · exact hin.elim
    · exact hin.elim
  | _ => exact (htold userId hin).elim

/-- While an account is suspended or closed, no request that has not read it as active before
is admitted as its user, and no such login succeeds, whatever tokens and passwords it
presents. -/
theorem shut_out_until_reset
    (h : Calls.Reach (accountExec cfg) (accountBody cfg) permits (Calls.initial .empty clock) s)
    (hfound : findStatus userId s.db = some status) (hstatus : status ≠ .ACTIVE)
    (hlater : Calls.Reach (accountExec cfg) (accountBody cfg) (KeepsStatus userId) s s') {i : ℕ}
    (hunseen : ¬ SeenActive userId (s.said i)) {c : AccountCall} {answer : AccountAnswer}
    (hr : s'.returned? i = some (c, answer)) : ¬ EntersAs userId answer := by
  have hout : ShutOut cfg userId status i s' :=
    ShutOut.later ⟨.reach h, hfound, hunseen⟩ hstatus hlater
  exact fun hin => hout.unseen (hout.kept.seenActive hr hin)

def suspension : List (Turn AccountCall Time AccountFresh) :=
  .start (.register sampleInput none) :: accountTurns 0 7 11 ++
    .start (.setStatus 11 .SUSPENDED) :: accountTurns 1 1 12

/-- An hour later the refresh token is good for another pair of tokens, and a request presents
the new access token. -/
def bearer : AccountCall := .request (some (sampleSign 11 3600000)) (js "/wallet")

def afterSuspension : List (Turn AccountCall Time AccountFresh) :=
  .tick 3600000 :: .start (.refresh (some (Uuid.text 11)) none) :: accountTurns 2 7 13 ++
    .start bearer :: accountTurns 3 3 14

def isRefreshed : Option (AccountCall × AccountAnswer) → Bool
  | some (.refresh _ _, .ok (.refreshed session)) => session.accessToken = sampleSign 11 3600000
  | _ => false

theorem shut_out_until_reset_suspended : ∃ s s' : Accounts,
    findStatus 11 s.db = some .SUSPENDED ∧ isRefreshed (s'.returned? 2) = true ∧
    s'.returned? 3 = some (bearer, .error (notActive .SUSPENDED)) ∧
    ¬ EntersAs 11 (.error (notActive .SUSPENDED)) := by
  have hrun : ((Calls.initial .empty 0).run (accountExec sampleAccounts)
      (accountBody sampleAccounts) (fun _ _ => True) suspension).any (fun s =>
        (findStatus 11 s.db = some .SUSPENDED ∧ s.procs.length = 2) ∧
        (s.run (accountExec sampleAccounts) (accountBody sampleAccounts) (KeepsStatus 11)
          afterSuspension).any (fun s' => isRefreshed (s'.returned? 2) ∧
            s'.returned? 3 = some (bearer, .error (notActive .SUSPENDED)))) := by
    decide +kernel
  obtain ⟨s, hs, hend⟩ := (Option.any_eq_true _ _).1 hrun
  obtain ⟨⟨hfound, hlength⟩, hlater⟩ := of_decide_eq_true hend
  obtain ⟨s', hs', hr⟩ := (Option.any_eq_true _ _).1 hlater
  obtain ⟨hrefreshed, hrefused⟩ := of_decide_eq_true hr
  have hreach := Calls.reach_of_run _ _ hs
  have hsaid : s.said 3 = [] :=
    (AccountsKept.reach hreach).follows.said_new (by rw [hlength]; decide)
  have hunseen : ¬ SeenActive 11 (s.said 3) := by
    rw [hsaid]
    rintro (hm | ⟨email, a, hm, -⟩)
    · exact List.not_mem_nil hm
    · exact List.not_mem_nil hm
  refine ⟨s, s', hfound, hrefreshed, hrefused, ?_⟩
  exact shut_out_until_reset hreach hfound (by decide) (Calls.reach_of_run _ _ hs') hunseen
    hrefused

section Refreshing

def AccountStmt.OfSession (st : AccountStmt) : Prop := ∃ s, st = .session s

theorem liftSession_issues {α : Type} (p : AuthM α) :
    (liftSession p).Issues AccountStmt.OfSession := by
  induction p with
  | ret a => trivial
  | fail e => trivial
  | op s k ih => exact ⟨⟨s, rfl⟩, ih⟩

theorem respond_issues {α : Type} {S : AccountStmt → Prop} {p : AccountM α} (h : p.Issues S) :
    (respond p).Issues S := by
  induction p with
  | ret a => trivial
  | fail e => trivial
  | op s k ih => exact ⟨h.1, fun r => ih r (h.2 r)⟩

/-- A refresh asks for no account, so it does not learn that one is suspended. -/
theorem refresh_asks_sessions (token userAgent : Option JsString) :
    (accountBody cfg (.refresh token userAgent)).Issues AccountStmt.OfSession :=
  respond_issues ((liftSession_issues _).bind fun _ => trivial)

end Refreshing

end Status

section History

def signed? : Done AccountReply Time AccountFresh → Option (Uuid × JsString)
  | ⟨_, .session (.signAccessToken userId), token, _⟩ => some (userId, token)
  | _ => none

def verified? : Done AccountReply Time AccountFresh → Option (JsString × Uuid)
  | ⟨_, .verifyAccessToken token, some userId, _⟩ => some (token, userId)
  | _ => none

def foundSession? : Done AccountReply Time AccountFresh → Option (JsString × AuthSession)
  | ⟨_, .session (.findByTokenHash refreshTokenHash), some session, _⟩ =>
    some (refreshTokenHash, session)
  | _ => none

def nextVerified? : AccountM AccountAnswer → Option JsString
  | .op (.verifyAccessToken token) _ => some token
  | _ => none

/-- Nobody presents a token that passes the check and was not signed before. -/
def Unforged (cfg : AccountConfig) (s : Accounts) : Turn AccountCall Time AccountFresh → Prop
  | .step i _ => ∀ p ∈ s.procs[i]?, ∀ token ∈ nextVerified? p.rest,
      (cfg.verifyToken token s.clock).isSome → ∃ e ∈ s.past, (signed? e).map Prod.snd = some token
  | _ => True

instance (cfg : AccountConfig) (s : Accounts) (l : Turn AccountCall Time AccountFresh) :
    Decidable (Unforged cfg s l) :=
  match l with
  | .step i _ =>
    have (p : Proc AccountReply Failure AccountCall AccountAnswer) :
        Decidable (∀ token ∈ nextVerified? p.rest, (cfg.verifyToken token s.clock).isSome →
          ∃ e ∈ s.past, (signed? e).map Prod.snd = some token) :=
      Option.decidableForallMem (nextVerified? p.rest)
    Option.decidableForallMem s.procs[i]?
  | .tick _ => isTrue trivial
  | .start _ => isTrue trivial

def Started (s : Accounts) (i : ℕ) (c : AccountCall) : Prop := ∃ rest, s.procs[i]? = some ⟨c, rest⟩

/-- Why a call may act as a user: it registered the account, it logged in with the password
the account was opened with, or it presented a refresh token whose digest is that of a token
drawn by a call that might, for a session that it wrote. -/
inductive Entrusted (cfg : AccountConfig) (s : Accounts) : ℕ → Uuid → Prop
  | registered {e : Done AccountReply Time AccountFresh} {input : RegisterInput}
    {userAgent : Option JsString} {a : Account} {w : Wallet} (he : e ∈ s.past)
    (hc : created? e = some (a, w)) (hi : Started s e.caller (.register input userAgent)) :
    Entrusted cfg s e.caller a.user.id
  | loggedIn {i : ℕ} {input : LoginInput} {userAgent : Option JsString}
    {opening : RegisterInput} {a : Account} (hi : Started s i (.login input userAgent))
    (hopened : Opened s opening a) (hemail : cfg.citext opening.email = cfg.citext input.email)
    (hpassword : utf8 opening.password = utf8 input.password) : Entrusted cfg s i a.user.id
  | refreshed {i : ℕ} {presentedToken userAgent : Option JsString} {t drawn : JsString}
    {userId : Uuid} {e : Done AccountReply Time AccountFresh}
    (hi : Started s i (.refresh presentedToken userAgent)) (hp : presented presentedToken = some t)
    (he : e ∈ s.past) (hw : e.stmt.writes? = some (userId, hashRefreshToken cfg.auth drawn))
    (hdrawn : ⟨.session .generateRefreshToken, drawn⟩ ∈ s.said e.caller)
    (hsame : hashRefreshToken cfg.auth drawn = hashRefreshToken cfg.auth t)
    (hv : Entrusted cfg s e.caller userId) : Entrusted cfg s i userId

variable {cfg : AccountConfig} {clock : Time} {s s' : Accounts}

structure Onwards (s s' : Accounts) : Prop where
  past : ∃ more, s'.past = s.past ++ more
  started : ∀ {i c}, Started s i c → Started s' i c

theorem Onwards.of_step {l : Turn AccountCall Time AccountFresh}
    (hs : s.step? (accountExec cfg) (accountBody cfg) l = some s') : Onwards s s' where
  past := Calls.past_kept hs
  started h := by
    obtain ⟨rest, hp⟩ := h
    obtain ⟨⟨c, rest'⟩, hp', rfl⟩ := Calls.call_kept hs hp
    exact ⟨rest', hp'⟩

theorem Onwards.mem (h : Onwards s s') {e : Done AccountReply Time AccountFresh} (he : e ∈ s.past) :
    e ∈ s'.past := by
  obtain ⟨more, hmore⟩ := h.past
  rw [hmore]
  exact List.mem_append_left _ he

theorem Onwards.said (h : Onwards s s') {i : ℕ} {x : Exchange AccountReply} (hx : x ∈ s.said i) :
    x ∈ s'.said i := by
  obtain ⟨e, he, hcaller, heq⟩ := Calls.mem_talk.1 hx
  exact Calls.mem_talk.2 ⟨e, h.mem he, hcaller, heq⟩

theorem Opened.later (h : Onwards s s') {input : RegisterInput} {a : Account}
    (ho : Opened s input a) : Opened s' input a := by
  obtain ⟨e, he, w, userAgent, rest, hc, hp⟩ := ho
  obtain ⟨rest', hp'⟩ := h.started ⟨rest, hp⟩
  exact ⟨e, h.mem he, w, userAgent, rest', hc, hp'⟩

theorem Entrusted.later (h : Onwards s s') {i : ℕ} {userId : Uuid} (hv : Entrusted cfg s i userId) :
    Entrusted cfg s' i userId := by
  induction hv with
  | registered he hc hi => exact .registered (h.mem he) hc (h.started hi)
  | loggedIn hi hopened hemail hpassword =>
    exact .loggedIn (h.started hi) (hopened.later h) hemail hpassword
  | refreshed hi hp he hw hdrawn hsame _ ih =>
    exact .refreshed (h.started hi) hp (h.mem he) hw (h.said hdrawn) hsame ih

/-- A session of this user under this hash was written by a call that might. -/
def Written (cfg : AccountConfig) (s : Accounts) (userId : Uuid) (refreshTokenHash : JsString) :
    Prop :=
  ∃ e ∈ s.past, ∃ drawn, e.stmt.writes? = some (userId, hashRefreshToken cfg.auth drawn) ∧
    ⟨.session .generateRefreshToken, drawn⟩ ∈ s.said e.caller ∧
    refreshTokenHash = hashRefreshToken cfg.auth drawn ∧ Entrusted cfg s e.caller userId

theorem Written.later (h : Onwards s s') {userId : Uuid} {refreshTokenHash : JsString}
    (hw : Written cfg s userId refreshTokenHash) : Written cfg s' userId refreshTokenHash := by
  obtain ⟨e, he, drawn, hwrites, hdrawn, hhash, hv⟩ := hw
  exact ⟨e, h.mem he, drawn, hwrites, h.said hdrawn, hhash, hv.later h⟩

section Rows

open AuthSessionRepository

variable {cfg : AuthConfig} {db db' : AuthDb} {now : Time} {id : Uuid} {t : AuthSession}

theorem create_origin {data : CreateAuthSessionData} (h : create data id now db = .ok db')
    (ht : t ∈ db'.authSessions) : t ∈ db.authSessions ∨
      (data.userId, data.refreshTokenHash) = (t.userId, t.refreshTokenHash) := by
  unfold create at h
  split_ifs at h
  cases h
  rcases List.mem_append.1 ht with ht | ht
  · exact Or.inl ht
  · rw [List.mem_singleton.1 ht]
    exact Or.inr rfl

theorem revoke_origin (h : revoke id now db = .ok db') (ht : t ∈ db'.authSessions) :
    ∃ t₀ ∈ db.authSessions, t₀.userId = t.userId ∧ t₀.refreshTokenHash = t.refreshTokenHash := by
  unfold revoke at h
  split_ifs at h
  cases h
  obtain ⟨t₀, ht₀, rfl⟩ := List.mem_map.1 ht
  refine ⟨t₀, ht₀, ?_, ?_⟩ <;> unfold revokeRow <;> split_ifs <;> rfl

/-- A row of `auth_sessions` was there, but for its revocation, or it is what was written. -/
theorem authExec_origin {st : AuthStmt} {r : AuthReply st} {d : Draw Time Fresh}
    (h : authExec cfg st db d = .ok (r, db')) (ht : t ∈ db'.authSessions) :
    (∃ t₀ ∈ db.authSessions, t₀.userId = t.userId ∧ t₀.refreshTokenHash = t.refreshTokenHash) ∨
      (AccountStmt.session st).writes? = some (t.userId, t.refreshTokenHash) := by
  cases st with
  | create data =>
    obtain ⟨db₁, hc, heq⟩ := map_ok h
    cases heq
    exact (create_origin hc ht).imp (fun ht => ⟨t, ht, rfl, rfl⟩) (congrArg some)
  | revoke id =>
    obtain ⟨db₁, hr, heq⟩ := map_ok h
    cases heq
    exact Or.inl (revoke_origin hr ht)
  | revokeAllActiveForUser userId =>
    cases h
    obtain ⟨t₀, ht₀, rfl⟩ := List.mem_map.1 ht
    refine Or.inl ⟨t₀, ht₀, ?_, ?_⟩ <;> unfold revokeActiveRow <;> split_ifs <;> rfl
  | rotate id data =>
    obtain ⟨db₂, hb, heq⟩ := map_ok h
    obtain ⟨db₁, hr, hc⟩ := bind_ok hb
    cases heq
    exact (create_origin hc ht).imp (revoke_origin hr) (congrArg some)
  | _ =>
    cases h
    exact Or.inl ⟨t, ht, rfl, rfl⟩

end Rows

theorem accountExec_origin {db db' : AccountDb} {st : AccountStmt} {r : AccountReply st}
    {d : Draw Time AccountFresh} (h : accountExec cfg st db d = .ok (r, db')) {t : AuthSession}
    (ht : t ∈ db'.sessions.authSessions) :
    (∃ t₀ ∈ db.sessions.authSessions,
      t₀.userId = t.userId ∧ t₀.refreshTokenHash = t.refreshTokenHash) ∨
      st.writes? = some (t.userId, t.refreshTokenHash) := by
  have hsame (heq : db'.sessions = db.sessions) : ∃ t₀ ∈ db.sessions.authSessions,
      t₀.userId = t.userId ∧ t₀.refreshTokenHash = t.refreshTokenHash := ⟨t, heq ▸ ht, rfl, rfl⟩
  cases st with
  | session st =>
    obtain ⟨p, hp, heq⟩ := map_ok h
    cases heq
    exact authExec_origin hp ht
  | createUserAndWallet data balanceMinor =>
    simp only [accountExec, createUserAndWallet] at h
    split_ifs at h <;> cases h <;> exact Or.inl (hsame rfl)
  | recordDetached entry =>
    cases h
    refine Or.inl (hsame ?_)
    unfold AccountDb.recordDetached
    split_ifs <;> rfl
  | _ =>
    cases h
    exact Or.inl (hsame rfl)

structure WellEntrusted (cfg : AccountConfig) (s : Accounts) : Prop where
  kept : AccountsKept cfg s
  rows : ∀ t ∈ s.db.sessions.authSessions, Written cfg s t.userId t.refreshTokenHash
  found : ∀ e ∈ s.past, ∀ refreshTokenHash t, foundSession? e = some (refreshTokenHash, t) →
    Written cfg s t.userId refreshTokenHash
  verified : ∀ e ∈ s.past, ∀ token userId, verified? e = some (token, userId) →
    ∃ f ∈ s.past, signed? f = some (userId, token) ∧
      e.draw.now / 1000 < f.draw.now / 1000 + cfg.jwtAccessTtlSeconds

/-- What a call has been told is why it may act as the user. -/
theorem Entitled.entrusted (hlaw : cfg.Lawful) (hk : AccountsKept cfg s)
    (hfound : ∀ e ∈ s.past, ∀ refreshTokenHash t, foundSession? e = some (refreshTokenHash, t) →
      Written cfg s t.userId refreshTokenHash)
    {i : ℕ} {c : AccountCall} (hi : Started s i c) {userId : Uuid}
    (h : Entitled cfg c (s.said i) userId) : Entrusted cfg s i userId := by
  cases h with
  | registered hemail hcreated =>
    obtain ⟨⟨e, he, rfl, hc⟩, -⟩ := hk.inserted hcreated
    exact .registered he hc hi
  | loggedIn hf hverified hactive =>
    obtain ⟨opening, a₀, hopened, hid, hemail, hpassword⟩ := hk.known hlaw.toHashLawful hf hverified
    exact hid ▸ .loggedIn hi hopened hemail hpassword
  | refreshed hpresented hf =>
    obtain ⟨⟨j, st, r, d⟩, he, hcaller, heq⟩ := Calls.mem_talk.1 hf
    cases heq
    obtain ⟨e, he', drawn, hw, hdrawn, hsame, hv⟩ := hfound _ he _ _ rfl
    exact .refreshed hi hpresented he' hw hdrawn hsame.symm hv

/-- A token that the check accepts was signed for its user, within its life. -/
theorem AccountsKept.signed (hk : AccountsKept cfg s) (hlaw : cfg.Lawful) {token : JsString}
    {userId : Uuid} {now : Time} (hgood : cfg.verifyToken token now = some userId)
    (hsigned : ∃ f ∈ s.past, (signed? f).map Prod.snd = some token) :
    ∃ f ∈ s.past, signed? f = some (userId, token) ∧
      now / 1000 < f.draw.now / 1000 + cfg.jwtAccessTtlSeconds := by
  obtain ⟨f, hf, htoken⟩ := hsigned
  obtain ⟨⟨signer, token'⟩, hsign, rfl⟩ := Option.map_eq_some_iff.1 htoken
  have htrue := hk.truthful f hf
  have hsign' := hsign
  unfold signed? at hsign'
  split at hsign'
  · cases hsign'
    obtain ⟨rfl, hlife⟩ := hlaw.verify_sign _ _ _ _ (htrue ▸ hgood)
    exact ⟨_, hf, hsign, hlife⟩
  · cases hsign'

theorem foundSession_exec {i : ℕ} {db db' : AccountDb} {st : AccountStmt} {r : AccountReply st}
    {d : Draw Time AccountFresh} {refreshTokenHash : JsString} {t : AuthSession}
    (hx : accountExec cfg st db d = .ok (r, db'))
    (h : foundSession? ⟨i, st, r, d⟩ = some (refreshTokenHash, t)) :
    t ∈ db.sessions.authSessions ∧ t.refreshTokenHash = refreshTokenHash := by
  unfold foundSession? at h
  split at h
  · next heq =>
    cases heq
    cases h
    exact find_spec (congrArg Prod.fst (Except.ok.inj hx))
  · cases h

theorem WellEntrusted.found_later (h : WellEntrusted cfg s) {l : Turn AccountCall Time AccountFresh}
    (hs : s.step? (accountExec cfg) (accountBody cfg) l = some s') :
    ∀ e ∈ s'.past, ∀ refreshTokenHash t, foundSession? e = some (refreshTokenHash, t) →
      Written cfg s' t.userId refreshTokenHash := by
  have hlater := Onwards.of_step hs
  intro e he refreshTokenHash t ht
  cases Calls.step?_took _ _ hs with
  | step i id c st k r db' hp hx =>
    rcases List.mem_append.1 he with he | he
    · exact (h.found e he refreshTokenHash t ht).later hlater
    · rw [List.mem_singleton.1 he] at ht
      obtain ⟨hrow, rfl⟩ := foundSession_exec hx ht
      exact (h.rows t hrow).later hlater
  | _ => exact (h.found e he refreshTokenHash t ht).later hlater

theorem WellEntrusted.verified_later (hlaw : cfg.Lawful) (h : WellEntrusted cfg s)
    {l : Turn AccountCall Time AccountFresh} (hl : Unforged cfg s l)
    (hs : s.step? (accountExec cfg) (accountBody cfg) l = some s') :
    ∀ e ∈ s'.past, ∀ token userId, verified? e = some (token, userId) →
      ∃ f ∈ s'.past, signed? f = some (userId, token) ∧
        e.draw.now / 1000 < f.draw.now / 1000 + cfg.jwtAccessTtlSeconds := by
  intro e he token userId ht
  cases Calls.step?_took _ _ hs with
  | step i id c st k r db' hp hx =>
    have hold (h : ∃ f ∈ s.past, signed? f = some (userId, token) ∧
        e.draw.now / 1000 < f.draw.now / 1000 + cfg.jwtAccessTtlSeconds) :
        ∃ f ∈ s.past ++ [⟨i, st, r, ⟨s.clock, id⟩⟩], signed? f = some (userId, token) ∧
          e.draw.now / 1000 < f.draw.now / 1000 + cfg.jwtAccessTtlSeconds := by
      obtain ⟨f, hf, hsign⟩ := h
      exact ⟨f, List.mem_append_left _ hf, hsign⟩
    rcases List.mem_append.1 he with he | he
    · exact hold (h.verified e he token userId ht)
    · refine hold ?_
      rw [List.mem_singleton.1 he] at ht ⊢
      have hgood := truthful_exec (i := i) hx
      unfold verified? at ht
      split at ht
      · next heq =>
        cases heq
        cases ht
        refine h.kept.signed hlaw hgood.symm (hl _ hp token rfl ?_)
        exact Option.isSome_iff_exists.2 ⟨userId, hgood.symm⟩
      · cases ht
  | _ => exact h.verified e he token userId ht

theorem WellEntrusted.step (hlaw : cfg.Lawful) (h : WellEntrusted cfg s)
    {l : Turn AccountCall Time AccountFresh} (hl : Unforged cfg s l)
    (hs : s.step? (accountExec cfg) (accountBody cfg) l = some s') : WellEntrusted cfg s' := by
  have hkept := h.kept.step hs
  have hlater := Onwards.of_step hs
  have hfound := h.found_later hs
  refine ⟨hkept, fun t ht => ?_, hfound, h.verified_later hlaw hl hs⟩
  cases Calls.step?_took _ _ hs with
  | step i id c st k r db' hp hx =>
    rcases accountExec_origin hx ht with ⟨t₀, ht₀, huser, hhash⟩ | hwrites
    · exact huser ▸ hhash ▸ (h.rows t₀ ht₀).later hlater
    · obtain ⟨⟨c', rest⟩, hp', hallowed⟩ := hkept.traced _ List.mem_concat_self
      obtain ⟨hgrant, drawn, hdrawn, hhash⟩ := hallowed.writes _ _ hwrites
      refine ⟨_, List.mem_concat_self, drawn, hhash ▸ hwrites, hdrawn, hhash, ?_⟩
      exact (hallowed.grants _ hgrant).entrusted hlaw hkept hfound ⟨rest, hp'⟩
  | _ => exact (h.rows t ht).later hlater

theorem WellEntrusted.reach (hlaw : cfg.Lawful) (h : Calls.Reach (accountExec cfg) (accountBody cfg)
    (Unforged cfg) (Calls.initial .empty clock) s) : WellEntrusted cfg s := by
  induction h with
  | refl =>
    have hstart : Calls.Reach (accountExec cfg) (accountBody cfg) (Unforged cfg)
        (Calls.initial .empty clock) (Calls.initial .empty clock) := .refl
    exact ⟨.reach hstart, fun _ ht => (List.not_mem_nil ht).elim,
      fun _ he => (List.not_mem_nil he).elim, fun _ he => (List.not_mem_nil he).elim⟩
  | tail l _ hl hs ih => exact ih.step hlaw hl hs

/-- The request presented a token that was good when it was verified, the account was found
active after that, and the token was signed by a call that might act as the user. -/
structure Admissible (cfg : AccountConfig) (s : Accounts) (i : ℕ) (accessToken : Option JsString)
    (userId : Uuid) : Prop where
  active : ⟨.findStatus userId, some .ACTIVE⟩ ∈ s.said i
  signed : ∃ token, presented accessToken = some token ∧
    ∃ e ∈ s.past, e.caller = i ∧ verified? e = some (token, userId) ∧
    ∃ f ∈ s.past, signed? f = some (userId, token) ∧ Entrusted cfg s f.caller userId ∧
      e.draw.now / 1000 < f.draw.now / 1000 + cfg.jwtAccessTtlSeconds

/-- Every admission descends from a registration or a login of the same user. -/
theorem admission_descends (hlaw : cfg.Lawful)
    (h : Calls.Reach (accountExec cfg) (accountBody cfg) (Unforged cfg)
      (Calls.initial .empty clock) s)
    {i : ℕ} {accessToken : Option JsString} {path : JsString} {userId : Uuid}
    (hr : s.returned? i = some (.request accessToken path, .ok (.admitted userId))) :
    Admissible cfg s i accessToken userId := by
  have hw := WellEntrusted.reach hlaw h
  obtain ⟨token, hpresented, hverified, hactive⟩ := hw.kept.told hr userId rfl
  obtain ⟨⟨j, st, r, d⟩, he, hcaller, heq⟩ := Calls.mem_talk.1 hverified
  cases heq
  obtain ⟨f, hf, hsign, hlife⟩ := hw.verified _ he token userId rfl
  refine ⟨hactive, token, hpresented, _, he, hcaller, rfl, f, hf, hsign, ?_, hlife⟩
  obtain ⟨⟨c, rest⟩, hp, hallowed⟩ := hw.kept.traced f hf
  have hgrant : f.stmt.grantee? = some userId := by
    unfold signed? at hsign
    split at hsign
    · cases hsign
      rfl
    · cases hsign
  exact (hallowed.grants userId hgrant).entrusted hlaw hw.kept hw.found ⟨rest, hp⟩

def refreshedAdmission : List (Turn AccountCall Time AccountFresh) :=
  .start (.register sampleInput none) :: accountTurns 0 7 11 ++ .tick 3600000 ::
    .start (.refresh (some (Uuid.text 11)) none) :: accountTurns 1 7 12 ++
      .start (.request (some (sampleSign 11 3600000)) (js "/wallet")) :: accountTurns 2 2 13

theorem admission_descends_refreshed : ∃ s : Accounts,
    s.returned? 2 = some (.request (some (sampleSign 11 3600000)) (js "/wallet"),
      .ok (.admitted 11)) ∧
    Admissible sampleAccounts s 2 (some (sampleSign 11 3600000)) 11 := by
  have hrun : ((Calls.initial .empty 0).run (accountExec sampleAccounts)
      (accountBody sampleAccounts) (Unforged sampleAccounts) refreshedAdmission).any (fun s =>
        s.returned? 2 = some (.request (some (sampleSign 11 3600000)) (js "/wallet"),
          .ok (.admitted 11))) := by
    decide +kernel
  obtain ⟨s, hs, hr⟩ := (Option.any_eq_true _ _).1 hrun
  exact ⟨s, of_decide_eq_true hr, admission_descends sampleAccounts_lawful
    (Calls.reach_of_run _ _ hs) (of_decide_eq_true hr)⟩

end History

end MoneyMovement
