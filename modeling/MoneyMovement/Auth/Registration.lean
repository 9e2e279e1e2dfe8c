import MoneyMovement.Auth.Points
import MoneyMovement.Txn.Traces

/-!
# Accounts come with a wallet

A user and the wallet are inserted in one transaction under unique indexes. So every account
has one wallet and no two accounts share an email, whatever registrations overlap, and
whoever loses such a race is told so.
-/

namespace MoneyMovement

open Txn Prog AuthService AccountDb

section Rows

variable {cfg : AccountConfig} {db db' : AccountDb} {st : AccountStmt} {r : AccountReply st}
  {d : Draw Time AccountFresh}

/-- The unique indexes, and a wallet for every user. -/
structure AccountDb.Consistent (cfg : AccountConfig) (db : AccountDb) : Prop where
  ids : (db.accounts.map (·.user.id)).Nodup
  emails : (db.accounts.map fun a => cfg.citext a.user.email).Nodup
  walletIds : (db.wallets.map Wallet.id).Nodup
  paired : db.wallets.map Wallet.userId = db.accounts.map (·.user.id)

structure SameAccount (a a' : Account) : Prop where
  id : a'.user.id = a.user.id
  email : a'.user.email = a.user.email
  passwordHash : a'.passwordHash = a.passwordHash

theorem SameAccount.refl (a : Account) : SameAccount a a := ⟨rfl, rfl, rfl⟩

theorem SameAccount.trans {a a' a'' : Account} (h : SameAccount a a') (h' : SameAccount a' a'') :
    SameAccount a a'' :=
  ⟨h'.id.trans h.id, h'.email.trans h.email, h'.passwordHash.trans h.passwordHash⟩

theorem withStatus_same (userId : Uuid) (status : UserStatus) (a : Account) :
    SameAccount a (withStatus userId status a) := by
  unfold withStatus
  split_ifs <;> exact ⟨rfl, rfl, rfl⟩

/-- A statement leaves users and wallets alone, inserts one of each, or sets a status. -/
theorem accountExec_cases (h : accountExec cfg st db d = .ok (r, db')) :
    (db'.accounts = db.accounts ∧ db'.wallets = db.wallets ∧
      ∀ userId status, st ≠ .setStatus userId status) ∨
    (∃ data balanceMinor, (⟨st, r⟩ : Exchange AccountReply) =
        ⟨.createUserAndWallet data balanceMinor,
          some (newAccount data d, newWallet balanceMinor d)⟩ ∧
      (∀ a ∈ db.accounts, a.user.id ≠ d.id.fresh.id) ∧
      (∀ w ∈ db.wallets, w.id ≠ d.id.walletId) ∧
      (∀ a ∈ db.accounts, cfg.citext a.user.email ≠ cfg.citext data.email) ∧
      db'.accounts = db.accounts ++ [newAccount data d] ∧
      db'.wallets = db.wallets ++ [newWallet balanceMinor d]) ∨
    ∃ userId status, st = .setStatus userId status ∧
      db'.accounts = db.accounts.map (withStatus userId status) ∧ db'.wallets = db.wallets := by
  cases st with
  | session s =>
    obtain ⟨p, -, hp⟩ := map_ok h
    cases hp
    exact Or.inl ⟨rfl, rfl, nofun⟩
  | createUserAndWallet data balanceMinor =>
    simp only [accountExec, createUserAndWallet] at h
    split_ifs at h with hids hemail
    · cases h
      exact Or.inl ⟨rfl, rfl, nofun⟩
    · cases h
      simp only [not_or, not_exists, not_and] at hids hemail
      exact Or.inr (Or.inl ⟨data, balanceMinor, rfl, hids.1, fun w hw => (hids.2 w hw).1, hemail,
        rfl, rfl⟩)
  | recordDetached entry =>
    cases h
    unfold AccountDb.recordDetached
    split_ifs <;> exact Or.inl ⟨rfl, rfl, nofun⟩
  | setStatus userId status =>
    cases h
    exact Or.inr (Or.inr ⟨userId, status, rfl, rfl, rfl⟩)
  | _ =>
    cases h
    exact Or.inl ⟨rfl, rfl, nofun⟩

theorem AccountDb.Consistent.exec (hc : db.Consistent cfg)
    (h : accountExec cfg st db d = .ok (r, db')) : db'.Consistent cfg := by
  rcases accountExec_cases h with ⟨ha, hw, -⟩ |
    ⟨data, balanceMinor, -, hid, hwallet, hemail, ha, hw⟩ | ⟨userId, status, -, ha, hw⟩
  · exact ⟨ha ▸ hc.ids, ha ▸ hc.emails, hw ▸ hc.walletIds, by rw [ha, hw]; exact hc.paired⟩
  · have snoc {α : Type} {l : List α} {x : α} (hl : l.Nodup) (hx : ∀ y ∈ l, y ≠ x) :
        (l ++ [x]).Nodup :=
      List.nodup_append.2 ⟨hl, List.nodup_singleton x, fun y hy z hz =>
        List.mem_singleton.1 hz ▸ hx y hy⟩
    constructor
    · rw [ha, List.map_append]
      exact snoc hc.ids (List.forall_mem_map.2 hid)
    · rw [ha, List.map_append]
      exact snoc hc.emails (List.forall_mem_map.2 hemail)
    · rw [hw, List.map_append]
      exact snoc hc.walletIds (List.forall_mem_map.2 hwallet)
    · rw [ha, hw, List.map_append, List.map_append, hc.paired]
      rfl
  · have hid : (·.user.id) ∘ withStatus userId status = (·.user.id) :=
      funext fun a => (withStatus_same userId status a).id
    have hemail : (fun a => cfg.citext a.user.email) ∘ withStatus userId status =
        fun a => cfg.citext a.user.email :=
      funext fun a => congrArg cfg.citext (withStatus_same userId status a).email
    constructor
    · rw [ha, List.map_map, hid]
      exact hc.ids
    · rw [ha, List.map_map, hemail]
      exact hc.emails
    · exact hw ▸ hc.walletIds
    · rw [ha, hw, List.map_map, hid]
      exact hc.paired

/-- No account is ever deleted. -/
theorem accountExec_kept (h : accountExec cfg st db d = .ok (r, db')) {a : Account}
    (ha : a ∈ db.accounts) : ∃ a' ∈ db'.accounts, SameAccount a a' := by
  rcases accountExec_cases h with ⟨heq, -⟩ | ⟨data, balanceMinor, -, -, -, -, heq, -⟩ |
    ⟨userId, status, -, heq, -⟩
  · exact ⟨a, heq ▸ ha, .refl a⟩
  · exact ⟨a, heq ▸ List.mem_append_left _ ha, .refl a⟩
  · exact ⟨_, heq ▸ List.mem_map_of_mem ha, withStatus_same userId status a⟩

end Rows

section History

def created? : Done AccountReply Time AccountFresh → Option (Account × Wallet)
  | ⟨_, .createUserAndWallet _ _, some created, _⟩ => some created
  | _ => none

def foundAccount? : Done AccountReply Time AccountFresh → Option (JsString × Account)
  | ⟨_, .findByEmail email, some a, _⟩ => some (email, a)
  | _ => none

def refused? : Done AccountReply Time AccountFresh → Option JsString
  | ⟨_, .createUserAndWallet data _, none, _⟩ => some data.email
  | _ => none

def AccountDb.Has (db : AccountDb) (a : Account) : Prop := ∃ a' ∈ db.accounts, SameAccount a a'

/-- The past agrees with the rows: what was inserted is there, and nothing else; what was
found or refused had been inserted. -/
structure AccountsRecorded (cfg : AccountConfig) (db : AccountDb)
    (past : List (Done AccountReply Time AccountFresh)) : Prop where
  rows : db.Consistent cfg
  created : ∀ e ∈ past, ∀ a w, created? e = some (a, w) →
    db.Has a ∧ w ∈ db.wallets ∧ w.userId = a.user.id
  origin : ∀ a' ∈ db.accounts, ∃ e ∈ past, ∃ a w, created? e = some (a, w) ∧ SameAccount a a'
  distinct : past.Pairwise fun e f => ∀ a w a' w', created? e = some (a, w) →
    created? f = some (a', w') → cfg.citext a.user.email ≠ cfg.citext a'.user.email
  found : ∀ e ∈ past, ∀ email a, foundAccount? e = some (email, a) →
    cfg.citext a.user.email = cfg.citext email ∧ ∃ a₀, db.Has a₀ ∧ SameAccount a₀ a
  refused : ∀ e ∈ past, ∀ email, refused? e = some email →
    ∃ a ∈ db.accounts, cfg.citext a.user.email = cfg.citext email

variable {cfg : AccountConfig} {db db' : AccountDb}
  {past : List (Done AccountReply Time AccountFresh)}

theorem AccountsRecorded.empty : AccountsRecorded cfg .empty [] where
  rows := ⟨List.nodup_nil, List.nodup_nil, List.nodup_nil, rfl⟩
  created _ he := (List.not_mem_nil he).elim
  origin _ ha := (List.not_mem_nil ha).elim
  distinct := List.Pairwise.nil
  found _ he := (List.not_mem_nil he).elim
  refused _ he := (List.not_mem_nil he).elim

theorem AccountDb.Has.exec {st : AccountStmt} {r : AccountReply st} {d : Draw Time AccountFresh}
    {a : Account} (h : db.Has a) (hx : accountExec cfg st db d = .ok (r, db')) : db'.Has a := by
  obtain ⟨b, hb, hab⟩ := h
  obtain ⟨b', hb', hbb⟩ := accountExec_kept hx hb
  exact ⟨b', hb', hab.trans hbb⟩

theorem foundAccount_exec {i : ℕ} {st : AccountStmt} {r : AccountReply st}
    {d : Draw Time AccountFresh} {email : JsString} {a : Account}
    (hx : accountExec cfg st db d = .ok (r, db'))
    (h : foundAccount? ⟨i, st, r, d⟩ = some (email, a)) :
    a ∈ db.accounts ∧ cfg.citext a.user.email = cfg.citext email := by
  unfold foundAccount? at h
  split at h
  · next heq =>
    cases heq
    cases h
    exact find?_spec (congrArg Prod.fst (Except.ok.inj hx))
  · cases h

theorem refused_exec {i : ℕ} {st : AccountStmt} {r : AccountReply st} {d : Draw Time AccountFresh}
    {email : JsString} (hx : accountExec cfg st db d = .ok (r, db'))
    (h : refused? ⟨i, st, r, d⟩ = some email) :
    ∃ a ∈ db.accounts, cfg.citext a.user.email = cfg.citext email := by
  unfold refused? at h
  split at h
  · next heq =>
    cases heq
    cases h
    simp only [accountExec, createUserAndWallet] at hx
    split_ifs at hx with hids hemail
    · exact hemail
    · cases hx
  · cases h

theorem created_exec {i : ℕ} {st : AccountStmt} {r : AccountReply st} {d : Draw Time AccountFresh}
    {a : Account} {w : Wallet} (hx : accountExec cfg st db d = .ok (r, db'))
    (h : created? ⟨i, st, r, d⟩ = some (a, w)) :
    (∀ b ∈ db.accounts, cfg.citext b.user.email ≠ cfg.citext a.user.email) ∧
      a ∈ db'.accounts ∧ w ∈ db'.wallets ∧ w.userId = a.user.id := by
  unfold created? at h
  split at h
  · next heq =>
    cases heq
    cases h
    simp only [accountExec, createUserAndWallet] at hx
    split_ifs at hx with hids hemail
    · cases hx
    · cases hx
      simp only [not_exists, not_and] at hemail
      exact ⟨hemail, List.mem_concat_self, List.mem_concat_self, rfl⟩
  · cases h

theorem AccountsRecorded.snoc (h : AccountsRecorded cfg db past) {i : ℕ} {st : AccountStmt}
    {r : AccountReply st} {d : Draw Time AccountFresh}
    (hx : accountExec cfg st db d = .ok (r, db')) :
    AccountsRecorded cfg db' (past ++ [⟨i, st, r, d⟩]) := by
  have hwallets {w : Wallet} (hw : w ∈ db.wallets) : w ∈ db'.wallets := by
    rcases accountExec_cases hx with ⟨-, heq, -⟩ | ⟨data, balanceMinor, -, -, -, -, -, heq⟩ |
      ⟨userId, status, -, -, heq⟩
    · exact heq ▸ hw
    · exact heq ▸ List.mem_append_left _ hw
    · exact heq ▸ hw
  have hmem {e : Done AccountReply Time AccountFresh} (he : e ∈ past ++ [⟨i, st, r, d⟩]) :
      e ∈ past ∨ e = ⟨i, st, r, d⟩ := (List.mem_append.1 he).imp_right List.mem_singleton.1
  refine ⟨h.rows.exec hx, fun e he a w hc => ?_, fun a' ha' => ?_, ?_, fun e he email a hf => ?_,
    fun e he email hf => ?_⟩
  · rcases hmem he with he | rfl
    · obtain ⟨ha, hw, howner⟩ := h.created e he a w hc
      exact ⟨ha.exec hx, hwallets hw, howner⟩
    · obtain ⟨-, ha, hw, howner⟩ := created_exec hx hc
      exact ⟨⟨a, ha, .refl a⟩, hw, howner⟩
  · have hold {b : Account} (hb : b ∈ db.accounts) (hsame : SameAccount b a') :
        ∃ e ∈ past ++ [⟨i, st, r, d⟩], ∃ a w, created? e = some (a, w) ∧ SameAccount a a' := by
      obtain ⟨e, he, a, w, hc, ha⟩ := h.origin b hb
      exact ⟨e, List.mem_append_left _ he, a, w, hc, ha.trans hsame⟩
    rcases accountExec_cases hx with ⟨heq, -⟩ | ⟨data, balanceMinor, hst, -, -, -, heq, -⟩ |
      ⟨userId, status, -, heq, -⟩
    · exact hold (heq ▸ ha') (.refl a')
    · rw [heq] at ha'
      rcases List.mem_append.1 ha' with ha' | ha'
      · exact hold ha' (.refl a')
      · refine ⟨_, List.mem_concat_self, newAccount data d, newWallet balanceMinor d, ?_, ?_⟩
        · cases hst
          rfl
        · rw [List.mem_singleton.1 ha']
          exact .refl _
    · rw [heq] at ha'
      obtain ⟨b, hb, rfl⟩ := List.mem_map.1 ha'
      exact hold hb (withStatus_same userId status b)
  · refine List.pairwise_append.2 ⟨h.distinct, List.pairwise_singleton _ _, ?_⟩
    intro e he f hf a w a' w' hc hc'
    rw [List.mem_singleton.1 hf] at hc'
    obtain ⟨⟨b, hb, hab⟩, -⟩ := h.created e he a w hc
    rw [← hab.email]
    exact (created_exec hx hc').1 b hb
  · rcases hmem he with he | rfl
    · obtain ⟨hemail, a₀, ha₀, hsame⟩ := h.found e he email a hf
      exact ⟨hemail, a₀, ha₀.exec hx, hsame⟩
    · obtain ⟨ha, hemail⟩ := foundAccount_exec hx hf
      obtain ⟨a', ha', hsame⟩ := accountExec_kept hx ha
      exact ⟨hemail, a, ⟨a', ha', hsame⟩, .refl a⟩
  · have hkept {a : Account} (ha : a ∈ db.accounts)
        (hemail : cfg.citext a.user.email = cfg.citext email) :
        ∃ a' ∈ db'.accounts, cfg.citext a'.user.email = cfg.citext email := by
      obtain ⟨a', ha', hsame⟩ := accountExec_kept hx ha
      exact ⟨a', ha', hsame.email ▸ hemail⟩
    rcases hmem he with he | rfl
    · obtain ⟨a, ha, hemail⟩ := h.refused e he email hf
      exact hkept ha hemail
    · obtain ⟨a, ha, hemail⟩ := refused_exec hx hf
      exact hkept ha hemail

def Truthful (cfg : AccountConfig) : Done AccountReply Time AccountFresh → Prop
  | ⟨_, .createUserAndWallet data balanceMinor, some created, d⟩ =>
    created = (newAccount data d, newWallet balanceMinor d)
  | ⟨_, .hash plain, hash, d⟩ => hash = cfg.hash d.id.fresh.token plain
  | ⟨_, .verify hash plain, valid, _⟩ => valid = cfg.verify hash plain
  | ⟨_, .verifyAccessToken token, payload, d⟩ => payload = cfg.verifyToken token d.now
  | ⟨_, .session (.signAccessToken userId), token, d⟩ => token = cfg.auth.sign userId d.now
  | _ => True

theorem truthful_exec {i : ℕ} {st : AccountStmt} {r : AccountReply st} {d : Draw Time AccountFresh}
    (hx : accountExec cfg st db d = .ok (r, db')) : Truthful cfg ⟨i, st, r, d⟩ := by
  unfold Truthful
  split
  · next heq =>
    cases heq
    rcases accountExec_cases hx with ⟨hsame, -⟩ | ⟨data, balanceMinor, hst, -⟩ |
      ⟨userId, status, hst, -⟩
    · simp only [accountExec, createUserAndWallet] at hx
      split_ifs at hx with hids hemail
      · cases hx
      · cases hx
        rfl
    · cases hst
      rfl
    · cases hst
  · next heq =>
    cases heq
    exact (congrArg Prod.fst (Except.ok.inj hx)).symm
  · next heq =>
    cases heq
    exact (congrArg Prod.fst (Except.ok.inj hx)).symm
  · next heq =>
    cases heq
    exact (congrArg Prod.fst (Except.ok.inj hx)).symm
  · next heq =>
    cases heq
    exact (congrArg Prod.fst (Except.ok.inj hx)).symm
  · trivial

end History

section Runs

variable {cfg : AccountConfig} {clock : Time} {s s' : Accounts}
  {permits : Accounts → Turn AccountCall Time AccountFresh → Prop}

structure AccountsKept (cfg : AccountConfig) (s : Accounts) : Prop where
  follows : Calls.Follows (AccountPoint cfg) s
  traced : Calls.Traced (Allowed cfg) s
  recorded : AccountsRecorded cfg s.db s.past
  truthful : ∀ e ∈ s.past, Truthful cfg e

theorem AccountsKept.step (h : AccountsKept cfg s) {l : Turn AccountCall Time AccountFresh}
    (hs : s.step? (accountExec cfg) (accountBody cfg) l = some s') : AccountsKept cfg s' := by
  have hfollows := h.follows.step account_point hs
  have hmono (c : AccountCall) (said more : List (Exchange AccountReply)) (st : AccountStmt)
      (hq : Allowed cfg c said st) : Allowed cfg c (said ++ more) st := hq.append more
  have htraced := h.traced.step hmono (fun _ _ _ _ hp => hp) h.follows hs
  cases Calls.step?_took _ _ hs with
  | step i id c st k r db' hp hx =>
    refine ⟨hfollows, htraced, h.recorded.snoc hx, fun e he => ?_⟩
    rcases List.mem_append.1 he with he | he
    · exact h.truthful e he
    · rw [List.mem_singleton.1 he]
      exact truthful_exec hx
  | _ => exact ⟨hfollows, htraced, h.recorded, h.truthful⟩

theorem AccountsKept.reach (h : Calls.Reach (accountExec cfg) (accountBody cfg) permits
    (Calls.initial .empty clock) s) : AccountsKept cfg s := by
  induction h with
  | refl => exact ⟨.initial _ _, .initial _ _, .empty, fun e he => (List.not_mem_nil he).elim⟩
  | tail l _ _ hs ih => exact ih.step hs

/-- The answer of a call says what it has been told. -/
theorem AccountsKept.told (h : AccountsKept cfg s) {i : ℕ} {c : AccountCall} {a : AccountAnswer}
    (hr : s.returned? i = some (c, a)) : Told cfg c (s.said i) a :=
  h.follows.points i _ (Calls.proc_of_returned hr)

/-- What a registration that has been told of its account has inserted. -/
theorem AccountsKept.inserted (h : AccountsKept cfg s) {i : ℕ} {data : CreateUserData}
    {balanceMinor : ℕ} {a : Account} {w : Wallet}
    (hm : ⟨.createUserAndWallet data balanceMinor, some (a, w)⟩ ∈ s.said i) :
    (∃ e ∈ s.past, e.caller = i ∧ created? e = some (a, w)) ∧ a.user.email = data.email ∧
      a.passwordHash = data.passwordHash ∧ w.balanceMinor = balanceMinor := by
  obtain ⟨⟨j, st, r, d⟩, he, hcaller, heq⟩ := Calls.mem_talk.1 hm
  have htrue := h.truthful _ he
  cases heq
  obtain ⟨rfl, rfl⟩ := Prod.mk.inj (show (a, w) = (newAccount data d, newWallet balanceMinor d)
    from htrue)
  exact ⟨⟨_, he, hcaller, rfl⟩, rfl, rfl, rfl⟩

def Registered (s : Accounts) (i : ℕ) (input : RegisterInput) (a : Account) (w : Wallet) : Prop :=
  ∃ userAgent session, s.returned? i =
    some (.register input userAgent, .ok (.registered a w session))

/-- Every registration that succeeds makes its account and a wallet with the seed, no other
has its email, and every one that is refused is refused an email that somebody has. -/
structure RegistersOnce (cfg : AccountConfig) (s : Accounts) : Prop where
  rows : s.db.Consistent cfg
  made : ∀ i input a w, Registered s i input a w → a.user.email = input.email ∧ s.db.Has a ∧
    w ∈ s.db.wallets ∧ w.userId = a.user.id ∧ w.balanceMinor = cfg.initialWalletBalanceMinor
  once : ∀ i j input input' a a' w w', Registered s i input a w → Registered s j input' a' w' →
    cfg.citext input.email = cfg.citext input'.email → i = j
  taken : ∀ i input userAgent e, s.returned? i = some (.register input userAgent, .error e) →
    e = emailTaken ∧ ∃ a ∈ s.db.accounts, cfg.citext a.user.email = cfg.citext input.email

/-- What the answer of a successful registration says it was told. -/
theorem AccountsKept.registered (h : AccountsKept cfg s) {i : ℕ} {input : RegisterInput}
    {a : Account} {w : Wallet} (hr : Registered s i input a w) :
    ∃ data, data.email = input.email ∧
      ⟨.createUserAndWallet data cfg.initialWalletBalanceMinor, some (a, w)⟩ ∈ s.said i := by
  obtain ⟨userAgent, session, hr⟩ := hr
  rcases h.told hr with ⟨data, a', w', session', hok, hemail, hm⟩ | ⟨data, herror, -⟩
  · cases hok
    exact ⟨data, hemail, hm⟩
  · cases herror

theorem registers_once (h : Calls.Reach (accountExec cfg) (accountBody cfg) permits
    (Calls.initial .empty clock) s) : RegistersOnce cfg s := by
  have hk := AccountsKept.reach h
  refine ⟨hk.recorded.rows, fun i input a w hr => ?_,
    fun i j input input' a a' w w' hi hj hsame => ?_, fun i input userAgent e hr => ?_⟩
  · obtain ⟨data, hemail, hm⟩ := hk.registered hr
    obtain ⟨⟨e, he, -, hc⟩, hae, -, hbalance⟩ := hk.inserted hm
    obtain ⟨hhas, hw, howner⟩ := hk.recorded.created e he a w hc
    exact ⟨hae.trans hemail, hhas, hw, howner, hbalance⟩
  · obtain ⟨data, hemail, hm⟩ := hk.registered hi
    obtain ⟨data', hemail', hm'⟩ := hk.registered hj
    obtain ⟨⟨e, he, rfl, hc⟩, hae, -⟩ := hk.inserted hm
    obtain ⟨⟨f, hf, rfl, hc'⟩, hae', -⟩ := hk.inserted hm'
    rw [← hemail, ← hae, ← hemail', ← hae'] at hsame
    -- Two insertions of one email are one insertion.
    have hdistinct := List.pairwise_iff_getElem.1 hk.recorded.distinct
    obtain ⟨m, hlt, rfl⟩ := List.getElem_of_mem he
    obtain ⟨n, hlt', rfl⟩ := List.getElem_of_mem hf
    rcases Nat.lt_trichotomy m n with hmn | rfl | hnm
    · exact (hdistinct m n hlt hlt' hmn a w a' w' hc hc' hsame).elim
    · rfl
    · exact (hdistinct n m hlt' hlt hnm a' w' a w hc' hc hsame.symm).elim
  · rcases hk.told hr with ⟨data, a, w, session, hok, -⟩ | ⟨data, herror, hemail, hm⟩
    · cases hok
    · cases herror
      obtain ⟨⟨j, st, r, d⟩, he, -, heq⟩ := Calls.mem_talk.1 hm
      refine ⟨rfl, ?_⟩
      rw [← hemail]
      refine hk.recorded.refused _ he data.email ?_
      cases heq
      rfl

def crossedRegistrations : List (Turn AccountCall Time AccountFresh) :=
  [.start (.register sampleInput none), .start (.register sampleInput none)] ++
    accountTurns 0 1 11 ++ accountTurns 1 7 12 ++ accountTurns 0 1 11

/-- The first is refused, and there is one account. -/
theorem registers_once_crossed : ∃ s : Accounts,
    s.returned? 0 = some (.register sampleInput none, .error emailTaken) ∧
    s.db.accounts.length = 1 ∧ (∃ a w, Registered s 1 sampleInput a w) ∧
    RegistersOnce sampleAccounts s := by
  have hrun : ((Calls.initial .empty 0).run (accountExec sampleAccounts)
      (accountBody sampleAccounts) (fun _ _ => True) crossedRegistrations).any (fun s =>
        s.returned? 0 = some (.register sampleInput none, .error emailTaken) ∧
        s.db.accounts.length = 1 ∧
        ∃ a ∈ s.db.accounts, ∃ w ∈ s.db.wallets, ∃ t ∈ s.db.sessions.authSessions,
          s.returned? 1 = some (.register sampleInput none,
            .ok (.registered a w ⟨sampleSign 12 0, t.refreshTokenHash⟩))) := by
    decide +kernel
  obtain ⟨s, hs, hend⟩ := (Option.any_eq_true _ _).1 hrun
  obtain ⟨hrefused, hone, a, -, w, -, t, -, hr⟩ := of_decide_eq_true hend
  exact ⟨s, hrefused, hone, ⟨a, w, none, _, hr⟩, registers_once (Calls.reach_of_run _ _ hs)⟩

end Runs

end MoneyMovement
