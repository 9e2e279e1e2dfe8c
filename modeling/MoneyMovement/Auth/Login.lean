import MoneyMovement.Auth.Registration
import MoneyMovement.Basic.Buffers
import MoneyMovement.Basic.Money

/-!
# What a login reveals

A login verifies a password whether or not there is an account, and looks at the status only
afterwards. So whoever does not know the password of an account gets one answer, after the
same three statements, whether the account exists or not and whatever its status is.
-/

namespace MoneyMovement

open Txn Prog AuthService AccountDb

section Laws

/-- Argon2 as it is documented: no bytes are verified but those that were hashed. -/
structure AccountConfig.HashLawful (cfg : AccountConfig) : Prop where
  verify_hash : ∀ salt plain guess, cfg.verify (cfg.hash salt plain) guess = true →
    utf8 guess = utf8 plain

/-- And the signature: a token is good for its subject, while it lives. -/
structure AccountConfig.Lawful (cfg : AccountConfig) : Prop extends cfg.HashLawful where
  verify_sign : ∀ userId now later subject,
    cfg.verifyToken (cfg.auth.sign userId now) later = some subject →
      subject = userId ∧ later / 1000 < now / 1000 + cfg.jwtAccessTtlSeconds

theorem Uuid.length_text (u : Uuid) : u.text.length = 36 := by
  obtain ⟨h, hu, -⟩ := Option.bind_eq_some_iff.1 (parseUuid_text u)
  unfold unhyphenate at hu
  split_ifs at hu with hc
  exact hc.1

theorem decimal_injective {m n : ℤ} (h : decimal m = decimal n) : m = n :=
  Option.some.inj ((bigInt_decimal m).symm.trans ((congrArg bigInt h).trans (bigInt_decimal n)))

theorem sampleAccounts_lawful : sampleAccounts.Lawful where
  verify_hash _ plain guess h := congrArg utf8 (beq_iff_eq.1 h).symm
  verify_sign userId now later subject h := by
    have hsubject : (userId.text ++ decimal (now / 1000)).take 36 = userId.text :=
      List.take_left' userId.length_text
    have h' : (parseUuid ((userId.text ++ decimal (now / 1000)).take 36)).filter (fun userId' =>
        (List.range 900).any fun age => userId.text ++ decimal (now / 1000) =
          userId'.text ++ decimal (later / 1000 - (age : ℕ))) = some subject := h
    rw [hsubject, parseUuid_text] at h'
    obtain ⟨hs, hany⟩ := Option.filter_eq_some_iff.1 h'
    obtain rfl := Option.some.inj hs
    obtain ⟨age, hage, heq⟩ := List.any_eq_true.1 hany
    have hdecimal : (now / 1000 : ℤ) = later / 1000 - age :=
      decimal_injective (List.append_cancel_left (of_decide_eq_true heq))
    have hlife : (age : ℤ) < (900 : ℕ) := Int.ofNat_lt.2 (List.mem_range.1 hage)
    exact ⟨rfl, Int.lt_add_of_sub_right_lt (hdecimal ▸ sub_lt_sub_left hlife _)⟩

end Laws

section Runs

variable {cfg : AccountConfig} {clock : Time} {s : Accounts}
  {permits : Accounts → Turn AccountCall Time AccountFresh → Prop}

def Opened (s : Accounts) (input : RegisterInput) (a : Account) : Prop :=
  ∃ e ∈ s.past, ∃ w userAgent rest, created? e = some (a, w) ∧
    s.procs[e.caller]? = some ⟨.register input userAgent, rest⟩

/-- An account that was inserted was opened by a registration, with its email and password. -/
theorem AccountsKept.opened (h : AccountsKept cfg s) {e : Done AccountReply Time AccountFresh}
    (he : e ∈ s.past) {a : Account} {w : Wallet} (hc : created? e = some (a, w)) :
    ∃ input, Opened s input a ∧ a.user.email = input.email ∧
      ∃ salt, a.passwordHash = cfg.hash salt input.password := by
  obtain ⟨⟨c, rest⟩, hp, hallowed⟩ := h.traced e he
  have htrue := h.truthful e he
  obtain ⟨i, st, r, d⟩ := e
  have hcreated := hc
  unfold created? at hc
  split at hc
  · next data balanceMinor created d heq =>
    cases heq
    cases hc
    obtain ⟨rfl, rfl⟩ := Prod.mk.inj (show (a, w) = (newAccount data d, newWallet balanceMinor d)
      from htrue)
    obtain ⟨-, input, userAgent, rfl, hemail, hm⟩ := hallowed.creates data balanceMinor rfl
    obtain ⟨⟨j, st, r, d'⟩, he', -, heq⟩ := Calls.mem_talk.1 hm
    have hhash := h.truthful _ he'
    cases heq
    exact ⟨input, ⟨_, he, _, userAgent, rest, hcreated, hp⟩, hemail, d'.id.fresh.token, hhash⟩
  · cases hc

/-- An account that a call has found by an email was opened with that email, and if a password
was verified against it, with that password. -/
theorem AccountsKept.known (h : AccountsKept cfg s) (hlaw : cfg.HashLawful) {i : ℕ} {a : Account}
    {email password : JsString} (hfound : ⟨.findByEmail email, some a⟩ ∈ s.said i)
    (hverified : ⟨.verify a.passwordHash password, true⟩ ∈ s.said i) :
    ∃ input a₀, Opened s input a₀ ∧ a₀.user.id = a.user.id ∧
      cfg.citext input.email = cfg.citext email ∧ utf8 input.password = utf8 password := by
  obtain ⟨⟨j, st, r, d⟩, he, -, heq⟩ := Calls.mem_talk.1 hfound
  obtain ⟨hemail, a₁, ⟨a', ha', hsame₁⟩, hsame₂⟩ := h.recorded.found _ he email a (by
    cases heq
    rfl)
  obtain ⟨e, he, a₀, w, hc, hsame₀⟩ := h.recorded.origin a' ha'
  obtain ⟨input, hopened, hinput, salt, hhash⟩ := h.opened he hc
  obtain ⟨⟨j, st, r, d⟩, he', -, heq'⟩ := Calls.mem_talk.1 hverified
  have hvalid : true = cfg.verify a.passwordHash password := by
    have htrue := h.truthful _ he'
    cases heq'
    exact htrue
  -- The row that was found is the row that was inserted, but for its status.
  have hid : a₀.user.id = a.user.id := by
    rw [hsame₂.id, ← hsame₁.id, hsame₀.id]
  have hstored : a.passwordHash = cfg.hash salt input.password := by
    rw [hsame₂.passwordHash, ← hsame₁.passwordHash, hsame₀.passwordHash, hhash]
  have haddress : a.user.email = input.email := by
    rw [hsame₂.email, ← hsame₁.email, hsame₀.email, hinput]
  refine ⟨input, a₀, hopened, hid, by rw [← haddress, hemail], ?_⟩
  rw [hstored] at hvalid
  exact (hlaw.verify_hash salt input.password password hvalid.symm).symm

/-- Who does not present the password that the account of the email was opened with is
answered alike, after the same statements; only who does learns whether it is active. -/
def RevealsToOwner (cfg : AccountConfig) (s : Accounts) (i : ℕ) (input : LoginInput)
    (answer : AccountAnswer) : Prop :=
  (answer = .error invalidCredentials ∧ RejectedTalk cfg input (s.said i)) ∨
    ∃ opening a, Opened s opening a ∧ cfg.citext opening.email = cfg.citext input.email ∧
      utf8 opening.password = utf8 input.password ∧
      ((∃ a' session, answer = .ok (.loggedIn a' session) ∧ a'.user.id = a.user.id) ∨
        ∃ status, answer = .error (notActive status))

theorem login_reveals_to_owner (hlaw : cfg.HashLawful)
    (h : Calls.Reach (accountExec cfg) (accountBody cfg) permits (Calls.initial .empty clock) s)
    {i : ℕ} {input : LoginInput} {userAgent : Option JsString} {answer : AccountAnswer}
    (hr : s.returned? i = some (.login input userAgent, answer)) :
    RevealsToOwner cfg s i input answer := by
  have hk := AccountsKept.reach h
  rcases hk.told hr with hrejected | ⟨a, hfound, hverified, houtcome⟩
  · exact Or.inl hrejected
  · obtain ⟨opening, a₀, hopened, hid, hemail, hpassword⟩ := hk.known hlaw hfound hverified
    refine Or.inr ⟨opening, a₀, hopened, hemail, hpassword, ?_⟩
    rcases houtcome with ⟨-, session, hok⟩ | ⟨-, herror⟩
    · exact Or.inl ⟨a, session, hok, hid.symm⟩
    · exact Or.inr ⟨_, herror⟩

def wrongPassword : List (Turn AccountCall Time AccountFresh) :=
  .start (.register sampleInput none) :: accountTurns 0 7 11 ++
    .start (.login ⟨sampleInput.email, js "battery staple"⟩ none) :: accountTurns 1 3 12

theorem login_reveals_to_owner_wrong : ∃ s : Accounts,
    s.returned? 1 = some (.login ⟨sampleInput.email, js "battery staple"⟩ none,
      .error invalidCredentials) ∧ s.db.accounts.length = 1 ∧
    RevealsToOwner sampleAccounts s 1 ⟨sampleInput.email, js "battery staple"⟩
      (.error invalidCredentials) := by
  have hrun : ((Calls.initial .empty 0).run (accountExec sampleAccounts)
      (accountBody sampleAccounts) (fun _ _ => True) wrongPassword).any (fun s =>
        s.returned? 1 = some (.login ⟨sampleInput.email, js "battery staple"⟩ none,
          .error invalidCredentials) ∧ s.db.accounts.length = 1) := by
    decide +kernel
  obtain ⟨s, hs, hend⟩ := (Option.any_eq_true _ _).1 hrun
  obtain ⟨hr, hone⟩ := of_decide_eq_true hend
  exact ⟨s, hr, hone, login_reveals_to_owner sampleAccounts_lawful.toHashLawful
    (Calls.reach_of_run _ _ hs) hr⟩

end Runs

end MoneyMovement
