import MoneyMovement.Auth.Accounts

/-!
# What a call knows when it acts

A call signs a token or writes a session only for a user it has been told of: the one it has
created, the one whose password it has verified, or the one whose session it has found. What
it answers says what it has been told.
-/

namespace MoneyMovement

open Txn Prog AuthService AccountDb

section Points

variable (cfg : AccountConfig)

/-- What a call has been told lets it act as a user. -/
inductive Entitled : AccountCall → List (Exchange AccountReply) → Uuid → Prop
  | registered {input : RegisterInput} {userAgent : Option JsString}
    {said : List (Exchange AccountReply)} {data : CreateUserData} {a : Account} {w : Wallet}
    (hemail : data.email = input.email)
    (hcreated : ⟨.createUserAndWallet data cfg.initialWalletBalanceMinor, some (a, w)⟩ ∈ said) :
    Entitled (.register input userAgent) said a.user.id
  | loggedIn {input : LoginInput} {userAgent : Option JsString}
    {said : List (Exchange AccountReply)} {a : Account}
    (hfound : ⟨.findByEmail input.email, some a⟩ ∈ said)
    (hverified : ⟨.verify a.passwordHash input.password, true⟩ ∈ said)
    (hactive : a.user.status = .ACTIVE) :
    Entitled (.login input userAgent) said a.user.id
  | refreshed {token userAgent : Option JsString} {said : List (Exchange AccountReply)}
    {t : JsString} {session : AuthSession} (hpresented : presented token = some t)
    (hfound : ⟨.session (.findByTokenHash (hashRefreshToken cfg.auth t)), some session⟩ ∈ said) :
    Entitled (.refresh token userAgent) said session.userId

def RejectedTalk (input : LoginInput) (said : List (Exchange AccountReply)) : Prop :=
  ∃ user valid, (∀ a ∈ user, valid = false) ∧ said =
    [⟨.findByEmail input.email, user⟩,
      ⟨.verify ((user.map (·.passwordHash)).getD cfg.dummyHash) input.password, valid⟩,
      ⟨.recordDetached (failedLogin user), ()⟩]

/-- The request is admitted, or the login succeeds, as the user. -/
def EntersAs (userId : Uuid) : AccountAnswer → Prop
  | .ok (.admitted admitted) => admitted = userId
  | .ok (.loggedIn a _) => a.user.id = userId
  | _ => False

def Told : AccountCall → List (Exchange AccountReply) → AccountAnswer → Prop
  | .register input _, said, answer =>
    (∃ data a w session, answer = .ok (.registered a w session) ∧ data.email = input.email ∧
      ⟨.createUserAndWallet data cfg.initialWalletBalanceMinor, some (a, w)⟩ ∈ said) ∨
    ∃ data, answer = .error emailTaken ∧ data.email = input.email ∧
      ⟨.createUserAndWallet data cfg.initialWalletBalanceMinor, none⟩ ∈ said
  | .login input _, said, answer =>
    (answer = .error invalidCredentials ∧ RejectedTalk cfg input said) ∨
    ∃ a, ⟨.findByEmail input.email, some a⟩ ∈ said ∧
      ⟨.verify a.passwordHash input.password, true⟩ ∈ said ∧
      ((a.user.status = .ACTIVE ∧ ∃ session, answer = .ok (.loggedIn a session)) ∨
        (a.user.status ≠ .ACTIVE ∧ answer = .error (notActive a.user.status)))
  | .request accessToken _, said, answer =>
    ∀ userId, EntersAs userId answer → ∃ token, presented accessToken = some token ∧
      ⟨.verifyAccessToken token, some userId⟩ ∈ said ∧ ⟨.findStatus userId, some .ACTIVE⟩ ∈ said
  | _, _, answer => ∀ userId, ¬ EntersAs userId answer

def AccountStmt.grantee? : AccountStmt → Option Uuid
  | .session (.signAccessToken userId) => some userId
  | .session (.create data) => some data.userId
  | .session (.rotate _ data) => some data.userId
  | _ => none

def AccountStmt.writes? : AccountStmt → Option (Uuid × JsString)
  | .session (.create data) => some (data.userId, data.refreshTokenHash)
  | .session (.rotate _ data) => some (data.userId, data.refreshTokenHash)
  | _ => none

def AccountStmt.creates? : AccountStmt → Option (CreateUserData × ℕ)
  | .createUserAndWallet data balanceMinor => some (data, balanceMinor)
  | _ => none

def AccountStmt.sets? : AccountStmt → Option Uuid
  | .setStatus userId _ => some userId
  | _ => none

/-- A statement that a call issues after what it has been told. -/
structure Allowed (c : AccountCall) (said : List (Exchange AccountReply)) (st : AccountStmt) :
    Prop where
  grants : ∀ userId, st.grantee? = some userId → Entitled cfg c said userId
  writes : ∀ userId refreshTokenHash, st.writes? = some (userId, refreshTokenHash) →
    st.grantee? = some userId ∧ ∃ token, ⟨.session .generateRefreshToken, token⟩ ∈ said ∧
      refreshTokenHash = hashRefreshToken cfg.auth token
  creates : ∀ data balanceMinor, st.creates? = some (data, balanceMinor) →
    balanceMinor = cfg.initialWalletBalanceMinor ∧ ∃ input userAgent,
      c = .register input userAgent ∧ data.email = input.email ∧
        ⟨.hash input.password, data.passwordHash⟩ ∈ said
  sets : ∀ userId, st.sets? = some userId → ∃ status, c = .setStatus userId status

/-- Where a call can be after what it has been told. -/
def AccountPoint (c : AccountCall) (said : List (Exchange AccountReply)) :
    AccountM AccountAnswer → Prop
  | .op st _ => Allowed cfg c said st
  | .ret answer => Told cfg c said answer
  | .fail _ => True

variable {cfg} {c : AccountCall} {said : List (Exchange AccountReply)}

theorem grantee_of_writes {st : AccountStmt} {u : Uuid} {refreshTokenHash : JsString}
    (h : st.writes? = some (u, refreshTokenHash)) : st.grantee? = some u := by
  unfold AccountStmt.writes? at h
  split at h <;> cases h <;> rfl

/-- Nothing hangs on the statement that comes next. -/
theorem allowed_quiet {st : AccountStmt} (hg : st.grantee? = none) (hc : st.creates? = none)
    (hs : st.sets? = none) : Allowed cfg c said st where
  grants _ h := (Option.some_ne_none _ (h.symm.trans hg)).elim
  writes _ _ h := (Option.some_ne_none _ ((grantee_of_writes h).symm.trans hg)).elim
  creates _ _ h := (Option.some_ne_none _ (h.symm.trans hc)).elim
  sets _ h := (Option.some_ne_none _ (h.symm.trans hs)).elim

/-- A token for a user that the call is entitled to. -/
theorem allowed_sign {u : Uuid} (h : Entitled cfg c said u) :
    Allowed cfg c said (.session (.signAccessToken u)) where
  grants _ hu := Option.some.inj hu ▸ h
  writes := nofun
  creates := nofun
  sets := nofun

/-- A session for a user that the call is entitled to, under a token that it has drawn. -/
theorem allowed_write {st : AuthStmt} {u : Uuid} {token : JsString} (h : Entitled cfg c said u)
    (hw : (AccountStmt.session st).writes? = some (u, hashRefreshToken cfg.auth token))
    (hm : ⟨.session .generateRefreshToken, token⟩ ∈ said) :
    Allowed cfg c said (.session st) where
  grants _ hu := Option.some.inj ((grantee_of_writes hw).symm.trans hu) ▸ h
  writes _ _ hu := by
    obtain ⟨rfl, rfl⟩ := Prod.mk.inj (Option.some.inj (hw.symm.trans hu))
    exact ⟨grantee_of_writes hw, token, hm, rfl⟩
  creates := nofun
  sets := nofun

theorem Entitled.append {u : Uuid} (h : Entitled cfg c said u)
    (said' : List (Exchange AccountReply)) : Entitled cfg c (said ++ said') u := by
  cases h with
  | registered hemail hcreated => exact .registered hemail (List.mem_append_left _ hcreated)
  | loggedIn hfound hverified hactive =>
    exact .loggedIn (List.mem_append_left _ hfound) (List.mem_append_left _ hverified) hactive
  | refreshed hpresented hfound => exact .refreshed hpresented (List.mem_append_left _ hfound)

theorem Allowed.append {st : AccountStmt} (h : Allowed cfg c said st)
    (said' : List (Exchange AccountReply)) : Allowed cfg c (said ++ said') st where
  grants u hu := (h.grants u hu).append said'
  writes u refreshTokenHash hu := by
    obtain ⟨hg, token, hm, hhash⟩ := h.writes u refreshTokenHash hu
    exact ⟨hg, token, List.mem_append_left _ hm, hhash⟩
  creates data balanceMinor hd := by
    obtain ⟨hseed, input, userAgent, hc, hemail, hm⟩ := h.creates data balanceMinor hd
    exact ⟨hseed, input, userAgent, hc, hemail, List.mem_append_left _ hm⟩
  sets := h.sets

/-- A new session is written for a user that the call is entitled to. -/
theorem createSession_always {u : Uuid} {userAgent : Option JsString}
    {f : IssuedSession → AccountResult} (h : Entitled cfg c said u)
    (hdone : ∀ session said', Told cfg c (said ++ said') (.ok (f session))) :
    Prog.Always (AccountPoint cfg c) said
      (respond (liftSession (createSession cfg.auth u userAgent) >>= fun s => .ret (f s))) := by
  refine ⟨allowed_sign h, fun _ => ⟨allowed_quiet rfl rfl rfl, fun token => ?_⟩⟩
  refine ⟨allowed_quiet rfl rfl rfl, fun now => ⟨?_, fun _ => ?_⟩⟩
  · exact allowed_write (((h.append _).append _).append _) rfl
      (List.mem_append_left _ List.mem_concat_self)
  · simp only [List.append_assoc]
    exact hdone _ _

theorem register_always (input : RegisterInput) (userAgent : Option JsString) :
    (accountBody cfg (.register input userAgent)).Always
      (AccountPoint cfg (.register input userAgent)) [] := by
  refine ⟨allowed_quiet rfl rfl rfl, fun passwordHash => ⟨?_, fun created => ?_⟩⟩
  · refine ⟨nofun, nofun, fun data balanceMinor h => ?_, nofun⟩
    obtain ⟨rfl, rfl⟩ := Prod.mk.inj (Option.some.inj h)
    exact ⟨rfl, input, userAgent, rfl, rfl, List.mem_cons_self⟩
  · have hmem {said' : List (Exchange AccountReply)} {x : Exchange AccountReply}
        {said : List (Exchange AccountReply)} : x ∈ said ++ [x] ++ said' :=
      List.mem_append_left _ List.mem_concat_self
    cases created with
    | none => exact Or.inr ⟨_, rfl, rfl, List.mem_concat_self⟩
    | some p =>
      refine ⟨allowed_quiet rfl rfl rfl, fun _ => ?_⟩
      refine createSession_always (.registered rfl hmem) fun session said' => ?_
      refine Or.inl ⟨⟨input.email, input.displayName, passwordHash⟩, p.1, p.2, session, rfl, rfl,
        ?_⟩
      rw [List.append_assoc]
      exact hmem

theorem login_always (input : LoginInput) (userAgent : Option JsString) :
    (accountBody cfg (.login input userAgent)).Always
      (AccountPoint cfg (.login input userAgent)) [] := by
  refine ⟨allowed_quiet rfl rfl rfl, fun user => ⟨allowed_quiet rfl rfl rfl, fun valid => ?_⟩⟩
  have hrejected (h : ∀ a ∈ user, valid = false) : RejectedTalk cfg input
      ([⟨.findByEmail input.email, user⟩] ++
        [⟨.verify ((user.map (·.passwordHash)).getD cfg.dummyHash) input.password, valid⟩] ++
          [⟨.recordDetached (failedLogin user), ()⟩]) := ⟨user, valid, h, rfl⟩
  cases user with
  | none =>
    refine ⟨allowed_quiet rfl rfl rfl, fun _ => Or.inl ⟨rfl, hrejected fun a ha => ?_⟩⟩
    cases ha
  | some a =>
    cases valid with
    | false =>
      exact ⟨allowed_quiet rfl rfl rfl, fun _ => Or.inl ⟨rfl, hrejected fun _ _ => rfl⟩⟩
    | true =>
      have hfound (x y : List (Exchange AccountReply)) :
          (⟨.findByEmail input.email, some a⟩ : Exchange AccountReply) ∈
            [] ++ [⟨.findByEmail input.email, some a⟩] ++ x ++ y :=
        List.mem_append_left _ (List.mem_append_left _ List.mem_cons_self)
      have hverified (x y : List (Exchange AccountReply)) :
          (⟨.verify a.passwordHash input.password, true⟩ : Exchange AccountReply) ∈
            x ++ [⟨.verify a.passwordHash input.password, true⟩] ++ y :=
        List.mem_append_left _ List.mem_concat_self
      change Prog.Always _ _ (respond (admitLogin a >>= fun account =>
        liftSession (createSession cfg.auth account.user.id userAgent) >>= fun session =>
          .ret (AccountResult.loggedIn account session)))
      unfold admitLogin
      by_cases hactive : a.user.status = .ACTIVE
      · rw [if_neg (not_not_intro hactive)]
        refine ⟨allowed_quiet rfl rfl rfl, fun _ => ?_⟩
        refine createSession_always (.loggedIn (hfound _ _) (hverified _ _) hactive)
          fun session said' => Or.inr ⟨a, ?_, ?_, Or.inl ⟨hactive, session, rfl⟩⟩
        · exact List.mem_append_left _ (hfound _ _)
        · exact List.mem_append_left _ (hverified _ _)
      · rw [if_pos hactive]
        refine ⟨allowed_quiet rfl rfl rfl, fun _ => Or.inr ⟨a, ?_, ?_, Or.inr ?_⟩⟩
        · exact hfound _ _
        · exact hverified _ _
        · exact ⟨hactive, rfl⟩

theorem refresh_always (token userAgent : Option JsString) :
    (accountBody cfg (.refresh token userAgent)).Always
      (AccountPoint cfg (.refresh token userAgent)) [] := by
  have hanswer {said : List (Exchange AccountReply)} {answer : AccountAnswer}
      (h : ∀ u, ¬ EntersAs u answer) :
      AccountPoint cfg (.refresh token userAgent) said (.ret answer) := h
  change Prog.Always _ _ (respond (liftSession (refresh cfg.auth token userAgent) >>= _))
  unfold refresh
  cases ht : presented token with
  | none => exact hanswer fun _ => id
  | some t =>
    refine ⟨allowed_quiet rfl rfl rfl, fun found => ?_⟩
    cases found with
    | none => exact hanswer fun _ => id
    | some session =>
      change Prog.Always _ _
        (respond (liftSession (if session.revokedAt.isSome then _ else _) >>= _))
      by_cases hrevoked : session.revokedAt.isSome
      · rw [if_pos hrevoked]
        refine ⟨allowed_quiet rfl rfl rfl, fun _ => ⟨allowed_quiet rfl rfl rfl, fun _ => ?_⟩⟩
        exact hanswer fun _ => id
      · rw [if_neg hrevoked]
        refine ⟨allowed_quiet rfl rfl rfl, fun now => ?_⟩
        change Prog.Always _ _
          (respond (liftSession (if session.expiresAt < now then _ else _) >>= _))
        by_cases hexpired : session.expiresAt < now
        · rw [if_pos hexpired]
          exact hanswer fun _ => id
        · rw [if_neg hexpired]
          have hentitled : Entitled cfg (.refresh token userAgent)
              ([] ++ [⟨.session (.findByTokenHash (hashRefreshToken cfg.auth t)), some session⟩])
              session.userId := .refreshed ht List.mem_cons_self
          refine ⟨allowed_sign (hentitled.append _), fun _ => ?_⟩
          refine ⟨allowed_quiet rfl rfl rfl, fun _ => ⟨allowed_quiet rfl rfl rfl, fun _ => ?_⟩⟩
          refine ⟨allowed_write ?_ rfl (List.mem_append_left _ List.mem_concat_self), fun _ =>
            ⟨allowed_quiet rfl rfl rfl, fun _ => ?_⟩⟩
          · exact (((hentitled.append _).append _).append _).append _
          · exact hanswer fun _ => id

theorem logout_always (token : Option JsString) :
    (accountBody cfg (.logout token)).Always (AccountPoint cfg (.logout token)) [] := by
  have hanswer {said : List (Exchange AccountReply)} {answer : AccountAnswer}
      (h : ∀ u, ¬ EntersAs u answer) :
      AccountPoint cfg (.logout token) said (.ret answer) := h
  change Prog.Always _ _ (respond (liftSession (logout cfg.auth token) >>= _))
  unfold logout
  cases presented token with
  | none => exact hanswer fun _ => id
  | some t =>
    refine ⟨allowed_quiet rfl rfl rfl, fun found => ?_⟩
    cases found with
    | none => exact hanswer fun _ => id
    | some session =>
      change Prog.Always _ _
        (respond (liftSession (if session.revokedAt.isSome then _ else _) >>= _))
      by_cases hrevoked : session.revokedAt.isSome
      · rw [if_pos hrevoked]
        exact hanswer fun _ => id
      · rw [if_neg hrevoked]
        refine ⟨allowed_quiet rfl rfl rfl, fun _ => ⟨allowed_quiet rfl rfl rfl, fun _ => ?_⟩⟩
        exact hanswer fun _ => id

theorem request_always (accessToken : Option JsString) (path : JsString) :
    (accountBody cfg (.request accessToken path)).Always
      (AccountPoint cfg (.request accessToken path)) [] := by
  have hrefused {said : List (Exchange AccountReply)} {e : Failure} :
      AccountPoint cfg (.request accessToken path) said (.ret (.error e)) :=
    id fun u h => by cases h
  change Prog.Always _ _ (respond (JwtAuthGuard.canActivate accessToken path >>= _))
  unfold JwtAuthGuard.canActivate
  cases ht : presented accessToken with
  | none => exact hrefused
  | some token =>
    refine ⟨allowed_quiet rfl rfl rfl, fun payload => ?_⟩
    cases payload with
    | none => exact hrefused
    | some userId =>
      refine ⟨allowed_quiet rfl rfl rfl, fun status => ?_⟩
      cases status with
      | none => exact hrefused
      | some status =>
        change Prog.Always _ _ (respond (JwtAuthGuard.admitRequest userId status path >>= _))
        unfold JwtAuthGuard.admitRequest
        by_cases hactive : status = .ACTIVE
        · rw [if_neg (not_not_intro hactive)]
          subst hactive
          refine id fun u hu => ?_
          cases hu
          exact ⟨token, ht, List.mem_append_left _ List.mem_cons_self, List.mem_concat_self⟩
        · rw [if_pos hactive]
          exact ⟨allowed_quiet rfl rfl rfl, fun _ => hrefused⟩

theorem account_point (c : AccountCall) :
    (accountBody cfg c).Always (AccountPoint cfg c) [] := by
  cases c with
  | register input userAgent => exact register_always input userAgent
  | login input userAgent => exact login_always input userAgent
  | refresh token userAgent => exact refresh_always token userAgent
  | logout token => exact logout_always token
  | request accessToken path => exact request_always accessToken path
  | setStatus userId status =>
    refine ⟨⟨nofun, nofun, nofun, fun u hu => ?_⟩, fun _ _ => id⟩
    cases hu
    exact ⟨status, rfl⟩

end Points

end MoneyMovement
