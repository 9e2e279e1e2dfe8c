import MoneyMovement.Auth.Rotation

/-!
# Revocation is final

A replayed token revokes all sessions of its user, and a logout revokes one. Both
reach only what is there: a refresh that has looked its session up before and
rotates it afterwards creates a session that nobody has revoked. When no refresh
does, what is revoked stays so, and so does all that comes of it.
-/

namespace MoneyMovement

open Txn Prog AuthService AuthSessionRepository

section Writes

def revoking (now : Time) : AuthStmt → AuthSession → AuthSession
  | .revoke id | .rotate id _ => revokeRow id now
  | .revokeAllActiveForUser userId => revokeActiveRow userId now
  | _ => id

def added? (d : Draw Time Fresh) : AuthStmt → Option AuthSession
  | .create data | .rotate _ data => some (newRow data d.id.id d.now)
  | _ => none

variable {cfg : AuthConfig} {db db' : AuthDb} {st : AuthStmt} {r : AuthReply st}
  {d : Draw Time Fresh}

theorem revoking_revokes (now : Time) (st : AuthStmt) : Revokes (revoking now st) := by
  cases st with
  | revoke id => exact revokes_row id now
  | rotate id data => exact revokes_row id now
  | revokeAllActiveForUser userId => exact revokes_activeRow userId now
  | _ => exact ⟨fun _ => rfl, fun _ => rfl, fun _ h => h⟩

theorem revoking_userId (now : Time) (st : AuthStmt) (s : AuthSession) :
    (revoking now st s).userId = s.userId := by
  have hrow (id : Uuid) : (revokeRow id now s).userId = s.userId := by
    unfold revokeRow
    split <;> rfl
  cases st with
  | revoke id => exact hrow id
  | rotate id data => exact hrow id
  | revokeAllActiveForUser userId =>
    simp only [revoking, revokeActiveRow]
    split <;> rfl
  | _ => rfl

/-- All that a statement does to the table. -/
theorem exec_sessions (h : authExec cfg st db d = .ok (r, db')) :
    db'.authSessions = db.authSessions.map (revoking d.now st) ++ (added? d st).toList ∧
      ∀ row, added? d st = some row → ∀ s ∈ db.authSessions, s.id ≠ row.id := by
  have hcreate {data : CreateAuthSessionData} {v v' : AuthDb}
      (hc : create data d.id.id d.now v = .ok v') :
      v'.authSessions = v.authSessions ++ [newRow data d.id.id d.now] ∧
        ∀ s ∈ v.authSessions, s.id ≠ d.id.id := by
    unfold create at hc
    split at hc
    · cases hc
    · next hnew =>
      cases hc
      simp only [not_exists, not_and, not_or] at hnew
      exact ⟨rfl, fun s hs => (hnew s hs).1⟩
  have hrevoke {id : Uuid} {v : AuthDb} (hr : revoke id d.now db = .ok v) :
      v.authSessions = db.authSessions.map (revokeRow id d.now) := by
    unfold revoke at hr
    split at hr
    · cases hr
      rfl
    · cases hr
  cases st with
  | create data =>
    obtain ⟨v, hc, heq⟩ := map_ok h
    cases heq
    obtain ⟨hrows, hnew⟩ := hcreate hc
    refine ⟨by simpa [revoking, added?] using hrows, fun row hrow => ?_⟩
    cases hrow
    exact hnew
  | revoke id =>
    obtain ⟨v, hr, heq⟩ := map_ok h
    cases heq
    exact ⟨by simpa [revoking, added?] using hrevoke hr, fun row hrow => by cases hrow⟩
  | revokeAllActiveForUser userId =>
    cases h
    exact ⟨(List.append_nil _).symm, fun row hrow => by cases hrow⟩
  | rotate id data =>
    obtain ⟨v, hb, heq⟩ := map_ok h
    obtain ⟨v₁, hr, hc⟩ := bind_ok hb
    cases heq
    obtain ⟨hrows, hnew⟩ := hcreate hc
    rw [hrevoke hr] at hrows hnew
    refine ⟨hrows, fun row hrow s hs => ?_⟩
    cases hrow
    exact (revokes_row id d.now).id s ▸ hnew _ (List.mem_map_of_mem hs)
  | _ =>
    cases h
    exact ⟨by simp [revoking, added?], fun row hrow => by cases hrow⟩

end Writes

section Condition

def rotation? : AuthStmt → Option (Uuid × Uuid)
  | .rotate id data => some (id, data.userId)
  | _ => none

/-- The statement revokes the session by itself or with all of its user. -/
def Distrusts (id userId : Uuid) : AuthStmt → Prop
  | .revoke id' => id' = id
  | .revokeAllActiveForUser userId' => userId' = userId
  | _ => False

instance (id userId : Uuid) : DecidablePred (Distrusts id userId) := fun st => by
  unfold Distrusts
  split <;> infer_instance

def nextRotation? : AuthM AuthResult → Option (Uuid × Uuid)
  | .op st _ => rotation? st
  | _ => none

/-- A rotating write runs only if, since the call found the session unrevoked, nobody
has revoked it on a logout or with all sessions of its user. -/
def Trusted (s : Sessions) : Turn AuthCall Time Fresh → Prop
  | .step i _ => ∀ p ∈ s.procs[i]?, ∀ r ∈ nextRotation? p.rest,
      ∀ e ∈ since i r.1 s.past, ¬ Distrusts r.1 r.2 e.stmt
  | _ => True

-- As for `Undisturbed`: the instance search would run through all ids.
instance (s : Sessions) (l : Turn AuthCall Time Fresh) : Decidable (Trusted s l) :=
  match l with
  | .step i _ =>
    have (p : Proc AuthReply Failure AuthCall AuthResult) : Decidable (∀ r ∈ nextRotation? p.rest,
        ∀ e ∈ since i r.1 s.past, ¬ Distrusts r.1 r.2 e.stmt) :=
      Option.decidableForallMem (nextRotation? p.rest)
    Option.decidableForallMem s.procs[i]?
  | .tick _ => isTrue trivial
  | .start _ => isTrue trivial

def nextLogin? : AuthM AuthResult → Option Uuid
  | .op (.create data) _ => some data.userId
  | _ => none

def LogsIn (userId : Uuid) (s : Sessions) : Turn AuthCall Time Fresh → Prop
  | .step i _ => (s.procs[i]?.bind fun p => nextLogin? p.rest) = some userId
  | _ => False

instance (userId : Uuid) (s : Sessions) : DecidablePred (LogsIn userId s) := fun l => by
  unfold LogsIn
  split <;> infer_instance

end Condition

variable {cfg : AuthConfig} {db₀ : AuthDb} {clock : Time} {s s' s₁ s₂ : Sessions}
  {permits : Sessions → Turn AuthCall Time Fresh → Prop}

section History

def Aims (cfg : AuthConfig) : AuthCall → List (Exchange AuthReply) → AuthM AuthResult → Prop
  | .refresh token _, said, p =>
    (∀ r, nextRotation? p = some r → ∃ session, Chose cfg token session said ∧
      (session.id, session.userId) = r) ∧
    ∀ a, p = .ret a → ∃ session, Chose cfg token session said
  | _, _, p => nextRotation? p = none

theorem nextRotation?_of_rotating? {p : AuthM AuthResult} (h : rotating? p = none) :
    nextRotation? p = none := by
  cases p with
  | op st k =>
    cases st with
    | rotate id data => cases h
    | _ => rfl
  | _ => rfl

theorem body_aims (c : AuthCall) : (authBody cfg c).Always (Aims cfg c) [] := by
  refine body_always (P := Aims cfg) ?_ ?_ ?_ ?_ c
  · intro c said p hi hp
    have hn := nextRotation?_of_rotating? hi
    cases c with
    | refresh token userAgent =>
      exact ⟨fun r hr => (Option.some_ne_none r (hr.symm.trans hn)).elim,
        fun a ha => (hp a ha).elim⟩
    | _ => exact hn
  · intro c said a hc
    cases c with
    | refresh token userAgent => exact (hc token userAgent rfl).elim
    | _ => rfl
  · intro token userAgent session said data k hchose huser
    refine ⟨fun r hr => ⟨session, hchose, ?_⟩, nofun⟩
    rw [← huser]
    exact Option.some.inj hr
  · intro token userAgent session said data a hchose _
    exact ⟨nofun, fun _ _ => ⟨session, hchose⟩⟩

structure Informed (cfg : AuthConfig) (s : Sessions) : Prop where
  aims : Calls.Follows (Aims cfg) s
  remembers : Remembers s.db s.past
  found : ∀ e ∈ s.past, ∀ hash session, found? e = some (hash, session) →
    ∃ row ∈ s.db.authSessions,
      row.id = session.id ∧ row.userId = session.userId ∧ row.refreshTokenHash = hash

theorem Informed.step (h : Informed cfg s) {l : Turn AuthCall Time Fresh}
    (hs : s.step? (authExec cfg) (authBody cfg) l = some s') : Informed cfg s' := by
  have haims := h.aims.step body_aims hs
  cases Calls.step?_took _ _ hs with
  | step i fresh c st k r db' hp hx =>
    refine ⟨haims, h.remembers.snoc hx, fun e he hash session hf => ?_⟩
    rcases List.mem_append.1 he with he | he
    · obtain ⟨row, hrow, hid, huser, hhash⟩ := h.found e he hash session hf
      have hrevokes := revoking_revokes s.clock st
      refine ⟨revoking s.clock st row, ?_, (hrevokes.id row).trans hid,
        (revoking_userId s.clock st row).trans huser, (hrevokes.hash row).trans hhash⟩
      rw [(exec_sessions hx).1]
      exact List.mem_append_left _ (List.mem_map_of_mem hrow)
    · rw [List.mem_singleton.1 he] at hf
      obtain ⟨rfl, hm, hhash⟩ := found_exec hx hf
      exact ⟨session, hm, rfl, rfl, hhash⟩
  | _ => exact ⟨haims, h.remembers, h.found⟩

theorem informed (h₀ : db₀.Keys)
    (h : Calls.Reach (authExec cfg) (authBody cfg) permits (Calls.initial db₀ clock) s) :
    Informed cfg s := by
  induction h with
  | refl =>
    refine ⟨.initial db₀ clock, ⟨h₀, ?_, ?_, List.Pairwise.nil⟩, ?_⟩
    · exact fun e he => (List.not_mem_nil he).elim
    · exact fun e he => (List.not_mem_nil he).elim
    · exact fun e he => (List.not_mem_nil he).elim
  | tail l _ _ hs ih => exact ih.step hs

theorem Informed.unique (h : Informed cfg s) {e f : Done AuthReply Time Fresh}
    {hash hash' : JsString}
    {session session' : AuthSession} (he : e ∈ s.past) (hf : f ∈ s.past)
    (hfe : found? e = some (hash, session)) (hff : found? f = some (hash', session'))
    (hid : session.id = session'.id) : session.userId = session'.userId := by
  obtain ⟨row, hrow, hrid, hruser, -⟩ := h.found e he hash session hfe
  obtain ⟨row', hrow', hrid', hruser', -⟩ := h.found f hf hash' session' hff
  obtain rfl := eq_of_nodup_key h.remembers.keys.ids hrow hrow' (by rw [hrid, hrid', hid])
  exact hruser.symm.trans hruser'

/-- Of two entries of a list one comes after the other. -/
theorem mem_or_mem {α : Type} {past new before after : List α} {e f : α}
    (h : past ++ [e] ++ new = before ++ f :: after) (hne : f ≠ e) : f ∈ new ∨ e ∈ after := by
  induction before generalizing past with
  | nil =>
    cases past with
    | nil => exact (hne (List.cons.inj h).1.symm).elim
    | cons a past =>
      have hafter : past ++ [e] ++ new = after := (List.cons.inj h).2
      exact Or.inr (hafter ▸ List.mem_append_left _ List.mem_concat_self)
  | cons b before ih =>
    cases past with
    | nil =>
      have hnew : new = before ++ f :: after := (List.cons.inj h).2
      exact Or.inl (hnew ▸ List.mem_append_right _ List.mem_cons_self)
    | cons a past => exact ih (List.cons.inj h).2

/-- The lookup that a trusted rotation goes by comes after any revocation. -/
theorem Informed.looked_up (h : Informed cfg s) {i : ℕ} {c : AuthCall} {rest : AuthM AuthResult}
    (hp : s.procs[i]? = some ⟨c, rest⟩) {r : Uuid × Uuid} (hr : nextRotation? rest = some r)
    {fresh : Fresh} (hl : Trusted s (.step i fresh)) {past new : List (Done AuthReply Time Fresh)}
    {e : Done AuthReply Time Fresh} (hpast : s.past = past ++ [e] ++ new)
    (he : Distrusts r.1 r.2 e.stmt) :
    ∃ f ∈ new, ∃ hash session, found? f = some (hash, session) ∧ session.id = r.1 ∧
      session.userId = r.2 ∧ session.revokedAt = none := by
  have haims := (h.aims.points i _ hp).here (by rintro x rfl; cases hr)
  cases c with
  | refresh token userAgent =>
    obtain ⟨session, ⟨hactive, t, -, hm⟩, rfl⟩ := haims.1 r hr
    obtain ⟨g, hg, rfl, heq⟩ := Calls.mem_talk.1 hm
    have hfound : found? g = some (hashRefreshToken cfg t, session) := by
      obtain ⟨j, st, x, d⟩ := g
      cases heq
      rfl
    have hchose : chosen? g.caller g = some session.id := by
      simp [chosen?, hfound, hactive]
    obtain ⟨before, f, after, hsplit, hc, hafter⟩ :=
      Calls.split_sinceLast (p := (chosen? g.caller · = some session.id)) ⟨g, hg, hchose⟩
    obtain ⟨hash, session', hf, hid, hactive'⟩ := chosen_spec hc
    have hfm : f ∈ s.past := hsplit ▸ List.mem_append_right _ List.mem_cons_self
    have huser : session'.userId = session.userId := h.unique hfm hg hf hfound hid
    refine ⟨f, ?_, hash, session', hf, hid, huser, hactive'⟩
    -- Otherwise the revocation has been carried out since.
    have hne : f ≠ e := by
      rintro rfl
      obtain ⟨j, st, x, d⟩ := f
      cases st with
      | findByTokenHash hash => exact he
      | _ => cases hf
    rcases mem_or_mem (hpast.symm.trans hsplit) hne with hnew | hmem
    · exact hnew
    · exact (hl _ hp _ hr e (hafter e hmem) he).elim
  | createSession userId userAgent => exact (Option.some_ne_none r (hr.symm.trans haims)).elim
  | logout token => exact (Option.some_ne_none r (hr.symm.trans haims)).elim

end History

section Out

/-- Since `past`, the sessions of a kind are all revoked: no lookup has found one of
them active, and none has been rotated. -/
structure Out (kind : Uuid → Uuid → Prop) (past new : List (Done AuthReply Time Fresh))
    (s : Sessions) : Prop where
  past : s.past = past ++ new
  rows : ∀ row ∈ s.db.authSessions, kind row.id row.userId → row.revokedAt ≠ none
  found : ∀ f ∈ new, ∀ hash session, found? f = some (hash, session) →
    kind session.id session.userId → session.revokedAt ≠ none
  rotated : ∀ f ∈ new, ∀ r, rotation? f.stmt = some r → ¬ kind r.1 r.2

variable {kind : Uuid → Uuid → Prop} {past new : List (Done AuthReply Time Fresh)}
  {e : Done AuthReply Time Fresh}

def KeepsOut (kind : Uuid → Uuid → Prop) (s : Sessions) : Turn AuthCall Time Fresh → Prop
  | .step i fresh => ∀ c st k row, s.procs[i]? = some ⟨c, .op st k⟩ →
    added? ⟨s.clock, fresh⟩ st = some row → (∀ x ∈ s.db.authSessions, x.id ≠ row.id) →
    kind row.id row.userId → ∃ r, rotation? st = some r ∧ kind r.1 r.2
  | _ => True

theorem Out.step (h : Out kind (past ++ [e]) new s) (hk : Informed cfg s)
    (he : ∀ id userId, kind id userId → Distrusts id userId e.stmt)
    {l : Turn AuthCall Time Fresh} (hl : Trusted s l) (hkeeps : KeepsOut kind s l)
    (hs : s.step? (authExec cfg) (authBody cfg) l = some s') :
    ∃ new', Out kind (past ++ [e]) new' s' := by
  cases Calls.step?_took _ _ hs with
  | step i fresh c st k r db' hp hx =>
    obtain ⟨hrows, hnew⟩ := exec_sessions hx
    -- A rotation goes by a lookup since then, which has found no session of the kind.
    have hrotates (x : Uuid × Uuid) (hst : rotation? st = some x) : ¬ kind x.1 x.2 := by
      intro hkind
      obtain ⟨f, hf, hash, session, hfound, hid, huser, hactive⟩ :=
        hk.looked_up hp (r := x) hst hl h.past (he _ _ hkind)
      exact h.found f hf hash session hfound (by rw [hid, huser]; exact hkind) hactive
    refine ⟨new ++ [⟨i, st, r, ⟨s.clock, fresh⟩⟩], ?_, fun row hrow hkind => ?_,
      fun f hf hash session hfound hkind => ?_, fun f hf x hst => ?_⟩
    · rw [← List.append_assoc, ← h.past]
    · rw [hrows] at hrow
      rcases List.mem_append.1 hrow with hrow | hrow
      · obtain ⟨row₀, hrow₀, rfl⟩ := List.mem_map.1 hrow
        have hrevokes := revoking_revokes s.clock st
        rw [hrevokes.id, revoking_userId] at hkind
        exact hrevokes.revoked row₀ (h.rows row₀ hrow₀ hkind)
      · have hadded := Option.mem_toList.1 hrow
        obtain ⟨x, hst, hx'⟩ := hkeeps c st k row hp hadded (hnew row hadded) hkind
        exact (hrotates x hst hx').elim
    · rcases List.mem_append.1 hf with hf | hf
      · exact h.found f hf hash session hfound hkind
      · rw [List.mem_singleton.1 hf] at hfound
        obtain ⟨-, hm, -⟩ := found_exec hx hfound
        exact h.rows session hm hkind
    · rcases List.mem_append.1 hf with hf | hf
      · exact h.rotated f hf x hst
      · rw [List.mem_singleton.1 hf] at hst
        exact hrotates x hst
  | _ => exact ⟨new, h.past, h.rows, h.found, h.rotated⟩

/-- What `e` has revoked stays so. -/
theorem out (kind : Uuid → Uuid → Prop) (h₀ : db₀.Keys)
    (h : Calls.Reach (authExec cfg) (authBody cfg) Trusted (Calls.initial db₀ clock) s₁)
    (hpast : s₁.past = past ++ [e]) (he : ∀ id userId, kind id userId → Distrusts id userId e.stmt)
    (hrows : ∀ row ∈ s₁.db.authSessions, kind row.id row.userId → row.revokedAt ≠ none)
    (hkeeps : ∀ s l, permits s l → Trusted s l ∧ (s₁.db.Evolves s.db → KeepsOut kind s l))
    (h' : Calls.Reach (authExec cfg) (authBody cfg) permits s₁ s₂) :
    Informed cfg s₂ ∧ s₁.db.Evolves s₂.db ∧ ∃ new, Out kind (past ++ [e]) new s₂ := by
  induction h' with
  | refl =>
    refine ⟨informed h₀ h, .same rfl, [], by simpa using hpast, hrows, ?_, ?_⟩
    · exact fun f hf => (List.not_mem_nil hf).elim
    · exact fun f hf => (List.not_mem_nil hf).elim
  | @tail s s' l _ hl hs ih =>
    obtain ⟨hinformed, hev, new, hout⟩ := ih
    obtain ⟨htrusted, hkeep⟩ := hkeeps s l hl
    refine ⟨hinformed.step hs, ?_, hout.step hinformed he htrusted (hkeep hev) hs⟩
    cases Calls.step?_took _ _ hs with
    | step i fresh c st k r db' hp hx =>
      exact hev.trans (exec_evolves hinformed.remembers.keys hx).2
    | _ => exact hev

end Out

section Claims

/-- Whatever runs from here without a login of the user: all sessions of the user stay
revoked, and a refresh that starts from here on returns nothing for one of them. -/
def ReplayFinal (cfg : AuthConfig) (permits : Sessions → Turn AuthCall Time Fresh → Prop)
    (s₁ : Sessions) (userId : Uuid) : Prop :=
  ∀ s₂, Calls.Reach (authExec cfg) (authBody cfg) (fun s l => permits s l ∧ ¬ LogsIn userId s l)
    s₁ s₂ →
    (∀ row ∈ s₂.db.authSessions, row.userId = userId → row.revokedAt ≠ none) ∧
    ∀ i token userAgent a, s₁.procs.length ≤ i →
      s₂.returned? i = some (.refresh token userAgent, a) → ∀ t row, presented token = some t →
        row ∈ s₂.db.authSessions → row.refreshTokenHash = hashRefreshToken cfg t →
          row.userId ≠ userId

/-- Whatever runs from here: nothing that descends from the session is active. -/
def LogoutFinal (cfg : AuthConfig) (permits : Sessions → Turn AuthCall Time Fresh → Prop)
    (s₁ : Sessions) (id : Uuid) : Prop :=
  ∀ s₂, Calls.Reach (authExec cfg) (authBody cfg) permits s₁ s₂ →
    ∀ id', Descends s₂ id id' → ¬ Active s₂ id'

/-- The turn has carried out the statement that the past ends with. -/
theorem carried_out {l : Turn AuthCall Time Fresh} {e : Done AuthReply Time Fresh}
    (hs : s.step? (authExec cfg) (authBody cfg) l = some s₁) (he : s₁.past = s.past ++ [e]) :
    authExec cfg e.stmt s.db e.draw = .ok (e.reply, s₁.db) := by
  have hlonger (hsame : s.past = s.past ++ [e]) : False := by
    have hlen := congrArg List.length hsame
    rw [List.length_append, List.length_singleton] at hlen
    omega
  cases Calls.step?_took _ _ hs with
  | step i fresh c st k r db' hp hx =>
    obtain rfl := List.singleton_injective (List.append_cancel_left he)
    exact hx
  | tick t hle => exact (hlonger he).elim
  | start c => exact (hlonger he).elim
  | fail i fresh c st k x hp hx => exact (hlonger he).elim

/-- A refresh that has started later has returned nothing for a session of the kind. -/
theorem Out.returned {kind : Uuid → Uuid → Prop} {past new : List (Done AuthReply Time Fresh)}
    (h : Out kind past new s₂) (hk : Informed cfg s₂) {i : ℕ}
    (hlater : ∀ f ∈ past, f.caller ≠ i) {token userAgent : Option JsString} {a : AuthResult}
    (hr : s₂.returned? i = some (.refresh token userAgent, a)) {t : JsString} {row : AuthSession}
    (ht : presented token = some t) (hrow : row ∈ s₂.db.authSessions)
    (hhash : row.refreshTokenHash = hashRefreshToken cfg t) : ¬ kind row.id row.userId := by
  obtain ⟨session, hactive, t', ht', hm⟩ :=
    ((hk.aims.points i _ (Calls.proc_of_returned hr)).here nofun).2 a rfl
  obtain rfl := Option.some.inj (ht.symm.trans ht')
  obtain ⟨f, hf, hi, heq⟩ := Calls.mem_talk.1 hm
  have hfound : found? f = some (hashRefreshToken cfg t, session) := by
    obtain ⟨j, st, x, d⟩ := f
    cases heq
    rfl
  obtain ⟨row', hrow', hid, huser, hhash'⟩ := hk.found f hf _ _ hfound
  obtain rfl := eq_of_nodup_key hk.remembers.keys.hashes hrow hrow' (hhash.trans hhash'.symm)
  rw [h.past] at hf
  rcases List.mem_append.1 hf with hf | hf
  · exact (hlater f hf hi).elim
  · intro hkind
    rw [hid, huser] at hkind
    exact h.found f hf _ _ hfound hkind hactive

/-- After a replay no session of the user is active, nor is any refreshed. -/
theorem replay_is_final (h₀ : db₀.Keys)
    (h : Calls.Reach (authExec cfg) (authBody cfg) Trusted (Calls.initial db₀ clock) s₁)
    {e : Done AuthReply Time Fresh} (he : s₁.past = s.past ++ [e])
    (hx : authExec cfg e.stmt s.db e.draw = .ok (e.reply, s₁.db)) {userId : Uuid}
    (hst : e.stmt = .revokeAllActiveForUser userId) : ReplayFinal cfg Trusted s₁ userId := by
  intro s₂ h'
  have hrows := (exec_sessions hx).1
  have hdistrusts (id user : Uuid) (huser : user = userId) : Distrusts id user e.stmt := by
    rw [hst, huser, Distrusts]
  have hrevoked : ∀ row ∈ s₁.db.authSessions, row.userId = userId → row.revokedAt ≠ none := by
    intro row hrow huser
    simp only [hrows, hst, added?, Option.toList_none, List.append_nil] at hrow
    obtain ⟨row₀, -, rfl⟩ := List.mem_map.1 hrow
    simp only [revoking, revokeActiveRow] at huser ⊢
    split_ifs at huser ⊢ with hif
    · exact Option.some_ne_none _
    · exact fun hnone => hif ⟨huser, hnone⟩
  have hkeeps (s : Sessions) (l : Turn AuthCall Time Fresh) (hno : ¬ LogsIn userId s l) :
      KeepsOut (fun _ user => user = userId) s l := by
    cases l with
    | step i fresh =>
      intro c st k row hp hadded _ huser
      cases st with
      | create data =>
        cases hadded
        refine (hno ?_).elim
        simp only [LogsIn, hp]
        exact congrArg some huser
      | rotate id data =>
        cases hadded
        exact ⟨(id, data.userId), rfl, huser⟩
      | _ => cases hadded
    | _ => trivial
  obtain ⟨hinformed, -, new, hout⟩ := out (fun _ user => user = userId) h₀ h he hdistrusts hrevoked
    (fun s l hl => ⟨hl.1, fun _ => hkeeps s l hl.2⟩) h'
  refine ⟨hout.rows, fun i token userAgent a hi hr t row ht hrow hhash => ?_⟩
  refine hout.returned hinformed (fun f hf => ?_) hr ht hrow hhash
  have hcaller := (informed h₀ h).aims.callers f (he ▸ hf)
  omega

/-- After a logout nothing that descends from the session is active. -/
theorem logout_is_final (h₀ : db₀.Keys)
    (h : Calls.Reach (authExec cfg) (authBody cfg) Trusted (Calls.initial db₀ clock) s)
    (h₁ : Calls.Reach (authExec cfg) (authBody cfg) Trusted (Calls.initial db₀ clock) s₁)
    {e : Done AuthReply Time Fresh} (he : s₁.past = s.past ++ [e])
    (hx : authExec cfg e.stmt s.db e.draw = .ok (e.reply, s₁.db)) {id : Uuid}
    (hst : e.stmt = .revoke id) (hactive : Active s id) : LogoutFinal cfg Trusted s₁ id := by
  intro s₂ h'
  have hrows := (exec_sessions hx).1
  obtain ⟨row₀, hrow₀, hid₀, hactive₀⟩ := hactive
  have hunrotated : ∀ f ∈ s.past, rotated? f ≠ some id := fun f hf hrot =>
    ((informed h₀ h).remembers.rotated f hf id hrot).2 row₀ hrow₀ hid₀ hactive₀
  have hmem : revokeRow id e.draw.now row₀ ∈ s₁.db.authSessions := by
    rw [hrows, hst]
    exact List.mem_append_left _ (List.mem_map_of_mem hrow₀)
  have hdistrusts (id' user : Uuid) (hid : id' = id) : Distrusts id' user e.stmt := by
    rw [hst, hid, Distrusts]
  have hrevoked : ∀ row ∈ s₁.db.authSessions, row.id = id → row.revokedAt ≠ none := by
    intro row hrow hid
    simp only [hrows, hst, added?, Option.toList_none, List.append_nil] at hrow
    obtain ⟨row₁, -, rfl⟩ := List.mem_map.1 hrow
    have hid₁ : row₁.id = id := ((revokes_row id e.draw.now).id row₁).symm.trans hid
    simp [revoking, revokeRow, hid₁]
  have hkeeps (s : Sessions) (l : Turn AuthCall Time Fresh) (hev : s₁.db.Evolves s.db) :
      KeepsOut (fun id' _ => id' = id) s l := by
    cases l with
    | step i fresh =>
      intro c st k row _ _ hnew hid
      obtain ⟨row', hrow', hid', -⟩ := hev.kept _ hmem
      have hid₁ := ((revokes_row id e.draw.now).id row₀).trans hid₀
      exact (hnew row' hrow' (hid'.trans (hid₁.trans hid.symm))).elim
    | _ => trivial
  obtain ⟨hinformed, -, new, hout⟩ := out (fun id' _ => id' = id) h₀ h₁ he hdistrusts hrevoked
    (fun s l hl => ⟨hl, hkeeps s l⟩) h'
  -- The session has not been rotated, neither before the logout nor after.
  have hnever (f : Done AuthReply Time Fresh) (hf : f ∈ s₂.past) : rotated? f ≠ some id := by
    intro hrot
    rw [hout.past] at hf
    rcases List.mem_append.1 hf with hf | hf
    · rcases List.mem_append.1 hf with hf | hf
      · exact hunrotated f hf hrot
      · rw [List.mem_singleton.1 hf, rotated?, hst] at hrot
        cases hrot
    · obtain ⟨i, st, r, d⟩ := f
      cases st with
      | rotate id₁ data =>
        cases hrot
        exact hout.rotated _ hf _ rfl rfl
      | _ => cases hrot
  intro id' hd
  rcases Relation.ReflTransGen.cases_head hd with rfl | ⟨_, ⟨f, hf, hrot, -⟩, -⟩
  · rintro ⟨row, hrow, hid, hnone⟩
    exact hout.rows row hrow hid hnone
  · exact (hnever f hf hrot).elim

/-- As long as no refresh rotates a session that has been revoked since it looked:
after a replay no session of the user is ever active again, and no refresh that
starts later succeeds, until somebody logs in; after a logout no descendant of the
session is ever active. -/
theorem revocation_is_final (h₀ : db₀.Keys)
    (h : Calls.Reach (authExec cfg) (authBody cfg) Trusted (Calls.initial db₀ clock) s)
    {l : Turn AuthCall Time Fresh} (hl : Trusted s l) {e : Done AuthReply Time Fresh}
    (hs : s.step? (authExec cfg) (authBody cfg) l = some s₁) (he : s₁.past = s.past ++ [e]) :
    (∀ userId, e.stmt = .revokeAllActiveForUser userId → ReplayFinal cfg Trusted s₁ userId) ∧
    ∀ id, e.stmt = .revoke id → Active s id → LogoutFinal cfg Trusted s₁ id := by
  have h₁ := h.tail l hl hs
  have hx := carried_out hs he
  exact ⟨fun userId hst => replay_is_final h₀ h₁ he hx hst,
    fun id hst hactive => logout_is_final h₀ h h₁ he hx hst hactive⟩

section Sample

def refreshSecond : AuthCall := .refresh (some (js "second")) none

def replaying : List (Turn AuthCall Time Fresh) :=
  .start refreshFirst :: turns 0 7 31 "second" ++ .start refreshFirst :: turns 1 1 32 "third"

/-- A rotation, a lookup of the new session by a refresh, and a replay of the old token. -/
def overtaken : List (Turn AuthCall Time Fresh) :=
  .start refreshFirst :: turns 0 7 31 "second" ++ .start refreshSecond :: turns 1 2 32 "third" ++
    .start refreshFirst :: turns 2 1 33 "fourth"

def loggingOut : List (Turn AuthCall Time Fresh) :=
  .start refreshFirst :: turns 0 2 31 "second" ++
    .start (.logout (some (js "first"))) :: turns 1 1 32 "third"

def revocation? : AuthStmt → Option (Uuid ⊕ Uuid)
  | .revokeAllActiveForUser userId => some (.inl userId)
  | .revoke id => some (.inr id)
  | _ => none

def revoked? (s s₁ : Sessions) : Option (Uuid ⊕ Uuid) :=
  if s.past.length < s₁.past.length then s₁.past.getLast?.bind (fun e => revocation? e.stmt)
  else none

theorem revoked?_spec {l : Turn AuthCall Time Fresh} {r : Uuid ⊕ Uuid}
    (hs : s.step? (authExec cfg) (authBody cfg) l = some s₁) (h : revoked? s s₁ = some r) :
    ∃ e, s₁.past = s.past ++ [e] ∧ e.stmt = r.elim .revokeAllActiveForUser .revoke := by
  unfold revoked? at h
  split_ifs at h with hlt
  cases Calls.step?_took _ _ hs with
  | step i fresh c st k reply db' hp hx =>
    refine ⟨_, rfl, ?_⟩
    simp only [List.getLast?_concat, Option.bind_some] at h
    cases st with
    | revoke id =>
      cases h
      rfl
    | revokeAllActiveForUser userId =>
      cases h
      rfl
    | _ => cases h
  | tick t hle => exact (Nat.lt_irrefl _ hlt).elim
  | start c => exact (Nat.lt_irrefl _ hlt).elim
  | fail i fresh c st k x hp hx => exact (Nat.lt_irrefl _ hlt).elim

end Sample

theorem revocation_is_final_replay : ∃ s₁ : Sessions, s₁.db.authSessions.length = 2 ∧
    ReplayFinal sampleAuth Trusted s₁ 1 := by
  have hrun : ((Calls.initial sampleLogin 0).run (authExec sampleAuth) (authBody sampleAuth)
      Trusted replaying).any (fun s => Trusted s (.step 1 ⟨32, js "third"⟩) ∧
        (s.step? (authExec sampleAuth) (authBody sampleAuth) (.step 1 ⟨32, js "third"⟩)).any
          (fun s₁ => revoked? s s₁ = some (.inl 1) ∧ s₁.db.authSessions.length = 2)) := by
    decide +kernel
  obtain ⟨s, hs, hnext⟩ := (Option.any_eq_true _ _).1 hrun
  obtain ⟨hl, hstep⟩ := of_decide_eq_true hnext
  obtain ⟨s₁, hs₁, hlast⟩ := (Option.any_eq_true _ _).1 hstep
  obtain ⟨hrevoked, hlength⟩ := of_decide_eq_true hlast
  obtain ⟨e, he, hst⟩ := revoked?_spec hs₁ hrevoked
  exact ⟨s₁, hlength, (revocation_is_final sampleLogin_keys (Calls.reach_of_run _ _ hs) hl hs₁
    he).1 1 hst⟩

/-- A refresh that has looked its session up before creates an active one. -/
theorem late_rotation_survives :
    (∃ s l s₁ e, Calls.Reach (authExec sampleAuth) (authBody sampleAuth) (fun _ _ => True)
      (Calls.initial sampleLogin 0) s ∧
      s.step? (authExec sampleAuth) (authBody sampleAuth) l = some s₁ ∧ s₁.past = s.past ++ [e] ∧
      e.stmt = .revokeAllActiveForUser 1 ∧
      ¬ ReplayFinal sampleAuth (fun _ _ => True) s₁ 1) ∧
    ∃ s l s₁ e, Calls.Reach (authExec sampleAuth) (authBody sampleAuth) (fun _ _ => True)
      (Calls.initial sampleLogin 0) s ∧
      s.step? (authExec sampleAuth) (authBody sampleAuth) l = some s₁ ∧ s₁.past = s.past ++ [e] ∧
      e.stmt = .revoke 21 ∧ Active s 21 ∧ ¬ LogoutFinal sampleAuth (fun _ _ => True) s₁ 21 := by
  constructor
  · have hrun : ((Calls.initial sampleLogin 0).run (authExec sampleAuth) (authBody sampleAuth)
        (fun _ _ => True) overtaken).any (fun s =>
          (s.step? (authExec sampleAuth) (authBody sampleAuth) (.step 2 ⟨33, []⟩)).any (fun s₁ =>
            revoked? s s₁ = some (.inl 1) ∧
            (s₁.run (authExec sampleAuth) (authBody sampleAuth) (fun s l => True ∧ ¬ LogsIn 1 s l)
              (turns 1 5 32 "third")).any (fun s₂ =>
                ∃ row ∈ s₂.db.authSessions, row.userId = 1 ∧ row.revokedAt = none))) := by
      decide +kernel
    obtain ⟨s, hs, hnext⟩ := (Option.any_eq_true _ _).1 hrun
    obtain ⟨s₁, hs₁, hlast⟩ := (Option.any_eq_true _ _).1 hnext
    obtain ⟨hrevoked, hlater⟩ := of_decide_eq_true hlast
    obtain ⟨s₂, hs₂, hactive⟩ := (Option.any_eq_true _ _).1 hlater
    obtain ⟨row, hrow, huser, hnone⟩ := of_decide_eq_true hactive
    obtain ⟨e, he, hst⟩ := revoked?_spec hs₁ hrevoked
    refine ⟨s, _, s₁, e, Calls.reach_of_run _ _ hs, hs₁, he, hst, fun hfinal => ?_⟩
    exact (hfinal s₂ (Calls.reach_of_run _ _ hs₂)).1 row hrow huser hnone
  · have hrun : ((Calls.initial sampleLogin 0).run (authExec sampleAuth) (authBody sampleAuth)
        (fun _ _ => True) loggingOut).any (fun s =>
          (∃ row ∈ s.db.authSessions, row.id = 21 ∧ row.revokedAt = none) ∧
          (s.step? (authExec sampleAuth) (authBody sampleAuth) (.step 1 ⟨32, []⟩)).any (fun s₁ =>
            revoked? s s₁ = some (.inr 21) ∧
            (s₁.run (authExec sampleAuth) (authBody sampleAuth) (fun _ _ => True)
              (turns 0 5 31 "second")).any (fun s₂ =>
                (∃ e ∈ s₂.past, rotated? e = some 21 ∧ e.draw.id.id = 31) ∧
                ∃ row ∈ s₂.db.authSessions, row.id = 31 ∧ row.revokedAt = none))) := by
      decide +kernel
    obtain ⟨s, hs, hnext⟩ := (Option.any_eq_true _ _).1 hrun
    obtain ⟨hbefore, hstep⟩ := of_decide_eq_true hnext
    obtain ⟨s₁, hs₁, hlast⟩ := (Option.any_eq_true _ _).1 hstep
    obtain ⟨hrevoked, hlater⟩ := of_decide_eq_true hlast
    obtain ⟨s₂, hs₂, hafter⟩ := (Option.any_eq_true _ _).1 hlater
    obtain ⟨hrotated, hactive⟩ := of_decide_eq_true hafter
    obtain ⟨e, he, hst⟩ := revoked?_spec hs₁ hrevoked
    refine ⟨s, _, s₁, e, Calls.reach_of_run _ _ hs, hs₁, he, hst, hbefore, fun hfinal => ?_⟩
    exact hfinal s₂ (Calls.reach_of_run _ _ hs₂) 31 (.single hrotated) hactive

end Claims

end MoneyMovement
