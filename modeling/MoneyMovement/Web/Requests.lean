import MoneyMovement.Txn.Intents
import MoneyMovement.Web.Send

/-!
# The page of money requests

The key of a request is minted when it is first sent, kept for every repetition, and
forgotten when a field is edited or the form is closed. So one intent makes one request
and one payload, whatever responses are lost. The two lists come together, and only from
the load that was started last.
-/

namespace MoneyMovement

open Txn

namespace RequestsPage

open SendMoney (UserSearchResult)

section Page

inductive Tab | incoming | outgoing
  deriving DecidableEq

inductive Action | accept | decline | cancel
  deriving DecidableEq

structure PendingRequestAction where
  requestId : Uuid
  action : Action
  deriving DecidableEq

structure Page where
  tab : Tab
  incoming : List MoneyRequestDto
  outgoing : List MoneyRequestDto
  isLoading : Bool
  listError : Option JsString
  reloadToken : ℕ
  isComposing : Bool
  payer : Option UserSearchResult
  amountText : JsString
  note : JsString
  amountError : Option JsString
  formError : Option JsString
  isSubmitting : Bool
  idempotencyKeyRef : Option Uuid
  pendingAction : Option PendingRequestAction
  actionError : Option JsString
  deriving DecidableEq

structure RequestBody where
  payerUserId : JsString
  amountMinor : ℕ
  currency : Currency
  note : Option JsString
  deriving DecidableEq

def Page.initial : Page where
  tab := .incoming
  incoming := []
  outgoing := []
  isLoading := true
  listError := none
  reloadToken := 0
  isComposing := false
  payer := none
  amountText := []
  note := []
  amountError := none
  formError := none
  isSubmitting := false
  idempotencyKeyRef := none
  pendingAction := none
  actionError := none

/-- `reload`, and the effect that aborts the load before and starts another. -/
def Page.reload (page : Page) : Page :=
  { page with reloadToken := page.reloadToken + 1, isLoading := true, listError := none }

/-- The answer to the load `token`, which is ignored once that load is aborted. -/
def Page.loaded (token : ℕ) (incoming outgoing : List MoneyRequestDto) (page : Page) : Page :=
  if token = page.reloadToken then
    { page with incoming := incoming, outgoing := outgoing, isLoading := false }
  else page

def Page.loadFailed (token : ℕ) (cause : Option JsString) (page : Page) : Page :=
  if token = page.reloadToken then
    { page with listError := some (cause.getD (js "Could not load your requests.")),
                isLoading := false }
  else page

def Page.resetComposeForm (page : Page) : Page :=
  { page with
    payer := none
    amountText := []
    note := []
    amountError := none
    formError := none
    idempotencyKeyRef := none }

def Page.toggle (page : Page) : Page :=
  if page.isComposing then { page.resetComposeForm with isComposing := false }
  else { page with isComposing := true }

def Page.onSelect (next : Option UserSearchResult) (page : Page) : Page :=
  { page with payer := next, formError := none, idempotencyKeyRef := none }

def Page.setAmount (text : JsString) (page : Page) : Page :=
  { page with amountText := text, amountError := none, formError := none,
              idempotencyKeyRef := none }

def Page.setNote (text : JsString) (page : Page) : Page :=
  { page with note := text, idempotencyKeyRef := none }

def Page.created (page : Page) : Page :=
  Page.reload
    { page.resetComposeForm with isComposing := false, tab := .outgoing, isSubmitting := false }

/-- `cause` is the message of an `ApiError`. -/
def Page.createFailed (cause : Option JsString) (page : Page) : Page :=
  { page with formError := some (cause.getD (js "Could not send that request.")),
              isSubmitting := false }

/-- What `runAction` shows at once, and whether it sends the action. -/
def Page.runAction (requestId : Uuid) (action : Action) (page : Page) : Page × Bool :=
  if page.pendingAction.isSome then (page, false)
  else ({ page with pendingAction := some ⟨requestId, action⟩, actionError := none }, true)

def Page.acted (page : Page) : Page := { page.reload with pendingAction := none }

def Page.actionFailed (cause : Option JsString) (page : Page) : Page :=
  { page with actionError := some (cause.getD (js "That action could not be completed.")),
              pendingAction := none }

def Page.visible (page : Page) : List MoneyRequestDto :=
  match page.tab with
  | .incoming => page.incoming
  | .outgoing => page.outgoing

/-- The list offers the button, and does not disable it. -/
def Page.Offers (requestId : Uuid) (action : Action) (page : Page) : Prop :=
  page.isLoading = false ∧ page.pendingAction = none ∧
    (page.tab = .outgoing ↔ action = .cancel) ∧
      ∃ r ∈ page.visible, r.requestId = requestId ∧ r.status = .PENDING

instance (requestId : Uuid) (action : Action) (page : Page) :
    Decidable (page.Offers requestId action) := inferInstanceAs (Decidable (_ ∧ _ ∧ _ ∧ _))

def Page.OffersForm (page : Page) : Prop :=
  page.tab = .outgoing ∧ page.isLoading = false ∧ page.outgoing = []

instance (page : Page) : Decidable page.OffersForm := inferInstanceAs (Decidable (_ ∧ _ ∧ _))

variable (R : Rounding)

def Page.body? (page : Page) : Option RequestBody :=
  match page.payer, parseBdtToMinor R page.amountText with
  | some payer, .ok amountMinor =>
    let note := trim page.note
    some ⟨payer.id, amountMinor, .BDT, if note = [] then none else some note⟩
  | _, _ => none

/-- What `handleCreate` shows at once, and what it sends under which key. -/
def Page.handleCreate (newIdempotencyKey : Uuid) (page : Page) :
    Page × Option (Uuid × RequestBody) :=
  match page.payer with
  | none => ({ page with formError := some (js "Choose who you are requesting from.") }, none)
  | some payer =>
    match parseBdtToMinor R page.amountText with
    | .error message => ({ page with formError := none, amountError := some message }, none)
    | .ok amountMinor =>
      let key := page.idempotencyKeyRef.getD newIdempotencyKey
      let note := trim page.note
      ({ page with
          formError := none
          amountError := none
          idempotencyKeyRef := some key
          isSubmitting := true },
        some (key, ⟨payer.id, amountMinor, .BDT, if note = [] then none else some note⟩))

end Page

section Flow

abbrev Attempt := Sent Uuid RequestBody

structure Lists where
  token : ℕ
  incoming : List MoneyRequestDto
  outgoing : List MoneyRequestDto
  deriving DecidableEq

/-- The page, the number of edits and resets before now, the requests it waits for, all
it has sent and what the server has made of that, the actions it waits for, the loads that
have not settled, and the lists that came. -/
structure Flow where
  page : Page
  intent : ℕ
  sending : List Attempt
  sent : List Attempt
  made : List Attempt
  acting : List PendingRequestAction
  loading : List ℕ
  answers : List Lists
  deriving DecidableEq

def Flow.initial : Flow := ⟨.initial, 0, [], [], [], [], [0], []⟩

inductive Event
  | onSelect (next : Option UserSearchResult)
  | typeAmount (text : JsString)
  | typeNote (text : JsString)
  | toggle
  | openForm
  | setTab (tab : Tab)
  | submit (newIdempotencyKey : Uuid)
  /-- The server carries out a request that was sent, whether or not it answers. -/
  | apply (i : ℕ)
  | created (i : ℕ)
  /-- The request fails, or no response comes. -/
  | createFailed (i : ℕ) (cause : Option JsString)
  | act (requestId : Uuid) (action : Action)
  | acted (i : ℕ)
  | actionFailed (i : ℕ) (cause : Option JsString)
  | loaded (i : ℕ) (incoming outgoing : List MoneyRequestDto)
  | loadFailed (i : ℕ) (cause : Option JsString)

/-- A field is edited, which the form allows while nothing is being sent. -/
def Flow.edit? (s : Flow) (page : Page) : Option Flow :=
  if s.page.isComposing ∧ ¬ s.page.isSubmitting then
    some { s with page := page, intent := s.intent + 1 }
  else none

def Flow.reloaded (s : Flow) : Flow := { s with loading := s.loading ++ [s.page.reloadToken] }

variable (R : Rounding)

def Flow.step? (s : Flow) : Event → Option Flow
  | .onSelect next => s.edit? (s.page.onSelect next)
  | .typeAmount text => s.edit? (s.page.setAmount text)
  | .typeNote text => s.edit? (s.page.setNote text)
  | .toggle =>
    if s.page.isComposing then some { s with page := s.page.toggle, intent := s.intent + 1 }
    else some { s with page := s.page.toggle }
  | .openForm =>
    if s.page.OffersForm then some { s with page := { s.page with isComposing := true } }
    else none
  | .setTab tab => some { s with page := { s.page with tab := tab } }
  | .submit newIdempotencyKey =>
    if s.page.isComposing ∧ ¬ s.page.isSubmitting then
      match s.page.handleCreate R newIdempotencyKey with
      | (page, some (key, body)) =>
        some { s with
          page := page
          sending := s.sending ++ [⟨key, body, s.intent⟩]
          sent := s.sent ++ [⟨key, body, s.intent⟩] }
      | (page, none) => some { s with page := page }
    else none
  | .apply i => (s.sent[i]?).map fun a => { s with made := Desk.applyOnce s.made a }
  | .created i =>
    match s.sending[i]? with
    | some a =>
      if ∃ t ∈ s.made, t.key = a.key then
        some (Flow.reloaded { s with
          page := s.page.created
          intent := s.intent + 1
          sending := s.sending.eraseIdx i })
      else none
    | none => none
  | .createFailed i cause =>
    (s.sending[i]?).map fun _ =>
      { s with page := s.page.createFailed cause, sending := s.sending.eraseIdx i }
  | .act requestId action =>
    if s.page.Offers requestId action then
      match s.page.runAction requestId action with
      | (page, true) => some { s with page := page, acting := s.acting ++ [⟨requestId, action⟩] }
      | (page, false) => some { s with page := page }
    else none
  | .acted i =>
    (s.acting[i]?).map fun _ =>
      Flow.reloaded { s with page := s.page.acted, acting := s.acting.eraseIdx i }
  | .actionFailed i cause =>
    (s.acting[i]?).map fun _ =>
      { s with page := s.page.actionFailed cause, acting := s.acting.eraseIdx i }
  | .loaded i incoming outgoing =>
    (s.loading[i]?).map fun token =>
      { s with
        page := s.page.loaded token incoming outgoing
        loading := s.loading.eraseIdx i
        answers := s.answers ++ [⟨token, incoming, outgoing⟩] }
  | .loadFailed i cause =>
    (s.loading[i]?).map fun token =>
      { s with page := s.page.loadFailed token cause, loading := s.loading.eraseIdx i }

/-- `newIdempotencyKey` never returns a key again. -/
def Flow.MintsFresh (s : Flow) : Event → Prop
  | .submit newIdempotencyKey => ∀ a ∈ s.sent, a.key ≠ newIdempotencyKey
  | _ => True

instance (s : Flow) (e : Event) : Decidable (s.MintsFresh e) := by
  cases e <;> unfold Flow.MintsFresh <;> infer_instance

end Flow

section Intents

variable {R : Rounding} {s s' : Flow} {e : Event}

/-- The page as what it means to have done: what has been sent is what the form says, as
long as the key is kept. -/
def Flow.desk (R : Rounding) (s : Flow) : Desk Uuid RequestBody where
  intent := s.intent
  current := s.page.idempotencyKeyRef.bind fun key => (s.page.body? R).map (key, ·)
  sent := s.sent
  done := s.made

/-- A form that has been sent can be sent. -/
def Flow.Valid (R : Rounding) (s : Flow) : Prop :=
  s.page.idempotencyKeyRef.isSome → (s.page.body? R).isSome

/-- An unfinished form shows an error; a finished one is sent under the key it has, or the
one that is minted. -/
theorem handleCreate_cases (key : Uuid) (page : Page) :
    (∃ formError amountError, page.handleCreate R key =
      ({ page with formError := formError, amountError := amountError }, none)) ∨
    ∃ body, page.body? R = some body ∧ page.handleCreate R key =
      ({ page with
          formError := none
          amountError := none
          idempotencyKeyRef := some (page.idempotencyKeyRef.getD key)
          isSubmitting := true }, some (page.idempotencyKeyRef.getD key, body)) := by
  unfold Page.handleCreate Page.body?
  cases page.payer with
  | none => exact Or.inl ⟨_, _, rfl⟩
  | some payer =>
    cases parseBdtToMinor R page.amountText with
    | error message => exact Or.inl ⟨_, _, rfl⟩
    | ok amountMinor => exact Or.inr ⟨_, rfl, rfl⟩

/-- Nothing that the desk shows has changed. -/
theorem desk_congr (hsent : s'.sent = s.sent) (hmade : s'.made = s.made)
    (hintent : s'.intent = s.intent) (hkey : s'.page.idempotencyKeyRef = s.page.idempotencyKeyRef)
    (hbody : s'.page.body? R = s.page.body? R) (hv : s.Valid R) :
    s'.Valid R ∧ s'.desk R = s.desk R := by
  refine ⟨fun hkept => ?_, ?_⟩
  · rw [hbody]
    exact hv (hkey ▸ hkept)
  · rw [Flow.desk, Flow.desk, hsent, hmade, hintent, hkey, hbody]

/-- The key is forgotten. -/
theorem desk_renew (hsent : s'.sent = s.sent) (hmade : s'.made = s.made)
    (hintent : s'.intent = s.intent + 1) (hkey : s'.page.idempotencyKeyRef = none) :
    s'.Valid R ∧ (s.desk R).step? .renew = some (s'.desk R) := by
  refine ⟨fun hkept => ?_, ?_⟩
  · rw [hkey] at hkept
    cases hkept
  · rw [Desk.step?, Flow.desk, Flow.desk, hsent, hmade, hintent, hkey]
    rfl

theorem desk_edit {page : Page} (hkey : page.idempotencyKeyRef = none)
    (hs : s.edit? page = some s') :
    s'.Valid R ∧ (s.desk R).step? .renew = some (s'.desk R) := by
  unfold Flow.edit? at hs
  split_ifs at hs
  cases hs
  exact desk_renew rfl rfl rfl hkey

/-- The form is sent: under the key it has been sent under, or a new one. -/
theorem desk_send {key : Uuid} {body : RequestBody}
    (hbody : s.page.body? R = some body) (hsent : s'.sent =
      s.sent ++ [⟨s.page.idempotencyKeyRef.getD key, body, s.intent⟩])
    (hmade : s'.made = s.made) (hintent : s'.intent = s.intent)
    (hkey : s'.page.idempotencyKeyRef = some (s.page.idempotencyKeyRef.getD key))
    (hbody' : s'.page.body? R = s.page.body? R) :
    s'.Valid R ∧ ∃ act, (s.desk R).step? act = some (s'.desk R) ∧
      ((∀ a ∈ s.sent, a.key ≠ key) → (s.desk R).MintsFresh act) := by
  refine ⟨fun _ => by rw [hbody', hbody]; rfl,
    .send (s.page.idempotencyKeyRef.getD key) body, ?_, fun hfresh hnone a ha => ?_⟩
  · have hcurrent : ∀ c ∈ (s.desk R).current, c = (s.page.idempotencyKeyRef.getD key, body) := by
      intro c hc
      obtain ⟨kept, hkept, hc⟩ := Option.bind_eq_some_iff.1 hc
      rw [hbody] at hc
      obtain rfl := Option.some.inj hc
      rw [hkept]
      rfl
    rw [Desk.step?, if_pos hcurrent, Flow.desk, Flow.desk, hsent, hmade, hintent, hkey, hbody',
      hbody]
    rfl
  · -- There is no key on the page yet.
    have hempty : s.page.idempotencyKeyRef = none := by
      cases hkept : s.page.idempotencyKeyRef with
      | none => rfl
      | some kept => simp [Flow.desk, hkept, hbody] at hnone
    rw [hempty]
    exact hfresh a ha

/-- The act on the desk that an event of the page is, if it is one. -/
theorem desk_step (hv : s.Valid R) (hs : s.step? R e = some s') :
    s'.Valid R ∧ (s'.desk R = s.desk R ∨
      ∃ act, (s.desk R).step? act = some (s'.desk R) ∧
        (s.MintsFresh e → (s.desk R).MintsFresh act)) := by
  have renewed (h : s'.Valid R ∧ (s.desk R).step? .renew = some (s'.desk R)) :
      s'.Valid R ∧ (s'.desk R = s.desk R ∨
        ∃ act, (s.desk R).step? act = some (s'.desk R) ∧
          (s.MintsFresh e → (s.desk R).MintsFresh act)) :=
    ⟨h.1, Or.inr ⟨.renew, h.2, fun _ => trivial⟩⟩
  cases e with
  | onSelect next => exact renewed (desk_edit rfl hs)
  | typeAmount text => exact renewed (desk_edit rfl hs)
  | typeNote text => exact renewed (desk_edit rfl hs)
  | toggle =>
    simp only [Flow.step?, Page.toggle] at hs
    split_ifs at hs with hopen
    · cases hs
      exact renewed (desk_renew rfl rfl rfl rfl)
    · cases hs
      exact (desk_congr rfl rfl rfl rfl rfl hv).imp_right Or.inl
  | openForm =>
    simp only [Flow.step?] at hs
    split_ifs at hs
    cases hs
    exact (desk_congr rfl rfl rfl rfl rfl hv).imp_right Or.inl
  | setTab tab =>
    cases hs
    exact (desk_congr rfl rfl rfl rfl rfl hv).imp_right Or.inl
  | submit key =>
    simp only [Flow.step?] at hs
    split_ifs at hs
    rcases handleCreate_cases (R := R) key s.page with
      ⟨formError, amountError, hcreate⟩ | ⟨body, hbody, hcreate⟩
    · rw [hcreate] at hs
      cases hs
      exact (desk_congr rfl rfl rfl rfl rfl hv).imp_right Or.inl
    · rw [hcreate] at hs
      cases hs
      refine And.imp_right Or.inr ?_
      exact desk_send hbody rfl rfl rfl rfl rfl
  | apply i =>
    obtain ⟨a, ha, rfl⟩ := Option.map_eq_some_iff.1 hs
    refine ⟨hv, Or.inr ⟨.apply i, ?_, fun _ => trivial⟩⟩
    exact Option.map_eq_some_iff.2 ⟨a, ha, rfl⟩
  | created i =>
    simp only [Flow.step?] at hs
    split at hs
    · split_ifs at hs
      cases hs
      exact renewed (desk_renew rfl rfl rfl rfl)
    · cases hs
  | createFailed i cause =>
    obtain ⟨a, -, rfl⟩ := Option.map_eq_some_iff.1 hs
    exact (desk_congr rfl rfl rfl rfl rfl hv).imp_right Or.inl
  | act requestId action =>
    simp only [Flow.step?, Page.runAction] at hs
    split_ifs at hs
    · cases hs
      exact (desk_congr rfl rfl rfl rfl rfl hv).imp_right Or.inl
    · cases hs
      exact (desk_congr rfl rfl rfl rfl rfl hv).imp_right Or.inl
  | acted i =>
    obtain ⟨a, -, rfl⟩ := Option.map_eq_some_iff.1 hs
    exact (desk_congr rfl rfl rfl rfl rfl hv).imp_right Or.inl
  | actionFailed i cause =>
    obtain ⟨a, -, rfl⟩ := Option.map_eq_some_iff.1 hs
    exact (desk_congr rfl rfl rfl rfl rfl hv).imp_right Or.inl
  | loaded i incoming outgoing =>
    obtain ⟨token, -, rfl⟩ := Option.map_eq_some_iff.1 hs
    refine And.imp_right Or.inl ?_
    unfold Page.loaded
    split_ifs <;> exact desk_congr rfl rfl rfl rfl rfl hv
  | loadFailed i cause =>
    obtain ⟨token, -, rfl⟩ := Option.map_eq_some_iff.1 hs
    refine And.imp_right Or.inl ?_
    unfold Page.loadFailed
    split_ifs <;> exact desk_congr rfl rfl rfl rfl rfl hv

theorem desk_kept {ok : Flow → Event → Prop} (h : Reaches (Flow.step? R) ok Flow.initial s) :
    s.Valid R ∧ (s.desk R).Kept := by
  induction h with
  | refl => exact ⟨fun h => (Bool.false_ne_true h).elim, Desk.Kept.initial⟩
  | tail e _ _ hs ih =>
    obtain ⟨hv, hsame | ⟨act, hact, -⟩⟩ := desk_step ih.1 hs
    · exact ⟨hv, hsame ▸ ih.2⟩
    · exact ⟨hv, ih.2.step hact⟩

theorem desk_distinct (h : Reaches (Flow.step? R) Flow.MintsFresh Flow.initial s) :
    (s.desk R).Distinct := by
  induction h with
  | refl => exact Desk.Distinct.initial
  | tail e hrun hfresh hs ih =>
    obtain ⟨hv, hkept⟩ := desk_kept hrun
    obtain ⟨-, hsame | ⟨act, hact, hminted⟩⟩ := desk_step hv hs
    · exact hsame ▸ ih
    · exact ih.step hkept (hminted hfresh) hact

/-- Whatever responses are lost, one intent makes at most one request, and all that is sent
for it is one payload under one key. If keys are never minted again, no key is ever sent
with two payloads. -/
theorem one_request_per_intent {ok : Flow → Event → Prop}
    (h : Reaches (Flow.step? R) ok Flow.initial s) :
    (s.made.map Sent.intent).Nodup ∧
      (∀ a ∈ s.sent, ∀ b ∈ s.sent, a.intent = b.intent → a.key = b.key ∧ a.body = b.body) ∧
      ((∀ s e, ok s e → s.MintsFresh e) → ∀ a ∈ s.sent, ∀ b ∈ s.sent, a.key = b.key →
        a.intent = b.intent ∧ a.body = b.body) := by
  obtain ⟨-, hkept⟩ := desk_kept h
  refine ⟨hkept.done_intents, fun a ha b hb hi => ?_, fun hfresh a ha b hb hkey => ?_⟩
  · obtain rfl := hkept.same a ha b hb hi
    exact ⟨rfl, rfl⟩
  · obtain rfl := desk_distinct (h.mono hfresh) a ha b hb hkey
    exact ⟨rfl, rfl⟩

def lostRequest : List Event :=
  [.toggle, .onSelect (some SendMoney.sampleRecipient), .typeAmount (js "5.00"), .submit 1,
    .createFailed 0 none, .apply 0, .submit 2, .apply 1, .created 0]

/-- It is made once, under the key of the first request. -/
theorem one_request_per_intent_retried : ∃ s : Flow, s.sent.length = 2 ∧
    s.made.map Sent.key = [1] ∧ (s.made.map Sent.intent).Nodup ∧
      ∀ a ∈ s.sent, ∀ b ∈ s.sent, a.key = b.key → a.intent = b.intent ∧ a.body = b.body := by
  have hrun : (runs (permitted (Flow.step? double) Flow.MintsFresh) Flow.initial
      lostRequest).any (fun s => s.sent.length = 2 ∧ s.made.map Sent.key = [1]) := by
    decide +kernel
  obtain ⟨s, hs, hend⟩ := (Option.any_eq_true _ _).1 hrun
  obtain ⟨hlength, hmade⟩ := of_decide_eq_true hend
  obtain ⟨honce, -, hkeys⟩ := one_request_per_intent (reaches_of_permitted hs)
  exact ⟨s, hlength, hmade, honce, hkeys fun _ _ h => h⟩

end Intents

section Lists

variable {R : Rounding} {s s' : Flow} {e : Event} {ok : Flow → Event → Prop}

/-- The loads that have not settled, which the current one is among while the page is
loading, and where the lists on the page come from. -/
structure Flow.Listed (s : Flow) : Prop where
  once : s.loading.Nodup
  started : ∀ token ∈ s.loading, token ≤ s.page.reloadToken
  waiting : s.page.isLoading = true ↔ s.page.reloadToken ∈ s.loading
  settled : s.page.isLoading = false → s.page.listError = none →
    ⟨s.page.reloadToken, s.page.incoming, s.page.outgoing⟩ ∈ s.answers
  shown : (s.page.incoming = [] ∧ s.page.outgoing = []) ∨
    ∃ token ≤ s.page.reloadToken, ⟨token, s.page.incoming, s.page.outgoing⟩ ∈ s.answers

/-- What is waited for is what the page shows to be under way. -/
structure Flow.OneEach (s : Flow) : Prop where
  sending : s.sending.length ≤ 1
  submitting : s.sending ≠ [] → s.page.isSubmitting = true
  acting : s.acting.length ≤ 1
  pending : s.page.pendingAction = s.acting.head?

theorem mem_eraseIdx_iff_ne {l : List ℕ} {i a b : ℕ} (h : l.Nodup) (hi : l[i]? = some a) :
    b ∈ l.eraseIdx i ↔ b ∈ l ∧ b ≠ a := by
  obtain ⟨hlt, rfl⟩ := List.getElem?_eq_some_iff.1 hi
  rw [← h.erase_getElem i hlt, h.mem_erase_iff, and_comm]

theorem Flow.Listed.initial : Flow.initial.Listed where
  once := List.nodup_singleton 0
  started _ h := (List.mem_singleton.1 h).le
  waiting := ⟨fun _ => List.mem_singleton_self 0, fun _ => rfl⟩
  settled h := (Bool.false_ne_true h.symm).elim
  shown := Or.inl ⟨rfl, rfl⟩

/-- Nothing of the lists or their loads has changed. -/
theorem Flow.Listed.congr (h : s.Listed) (hloading : s'.loading = s.loading)
    (hanswers : s'.answers = s.answers) (htoken : s'.page.reloadToken = s.page.reloadToken)
    (hbusy : s'.page.isLoading = s.page.isLoading) (herror : s'.page.listError = s.page.listError)
    (hincoming : s'.page.incoming = s.page.incoming)
    (houtgoing : s'.page.outgoing = s.page.outgoing) : s'.Listed := by
  constructor
  · exact hloading ▸ h.once
  · rw [hloading, htoken]
    exact h.started
  · rw [hloading, htoken, hbusy]
    exact h.waiting
  · rw [hbusy, herror, htoken, hincoming, houtgoing, hanswers]
    exact h.settled
  · rw [htoken, hincoming, houtgoing, hanswers]
    exact h.shown

/-- A new load is started. -/
theorem Flow.Listed.reloaded (h : s.Listed)
    (hloading : s'.loading = s.loading ++ [s'.page.reloadToken])
    (hanswers : s'.answers = s.answers) (htoken : s'.page.reloadToken = s.page.reloadToken + 1)
    (hbusy : s'.page.isLoading = true) (hincoming : s'.page.incoming = s.page.incoming)
    (houtgoing : s'.page.outgoing = s.page.outgoing) : s'.Listed := by
  have hnew : s'.page.reloadToken ∉ s.loading := by
    intro hmem
    have := h.started _ hmem
    omega
  constructor
  · rw [hloading]
    exact List.nodup_append.2 ⟨h.once, List.nodup_singleton _, fun a ha b hb hab =>
      hnew (List.mem_singleton.1 hb ▸ hab ▸ ha)⟩
  · intro token ht
    rw [hloading] at ht
    rcases List.mem_append.1 ht with ht | ht
    · exact (h.started token ht).trans (by omega)
    · exact (List.mem_singleton.1 ht).le
  · rw [hloading, hbusy]
    exact ⟨fun _ => List.mem_append_right _ List.mem_cons_self, fun _ => rfl⟩
  · intro hidle
    rw [hbusy] at hidle
    cases hidle
  · rw [htoken, hincoming, houtgoing, hanswers]
    exact h.shown.imp_right fun ⟨token, ht, hmem⟩ => ⟨token, ht.trans (Nat.le_succ _), hmem⟩

theorem Flow.Listed.loaded (h : s.Listed) {i token : ℕ} (hi : s.loading[i]? = some token)
    (incoming outgoing : List MoneyRequestDto) :
    Flow.Listed { s with
      page := s.page.loaded token incoming outgoing
      loading := s.loading.eraseIdx i
      answers := s.answers ++ [⟨token, incoming, outgoing⟩] } := by
  have herase {b : ℕ} := mem_eraseIdx_iff_ne (b := b) h.once hi
  unfold Page.loaded
  split_ifs with hcurrent
  · refine ⟨h.once.eraseIdx i, fun t ht => h.started t (herase.1 ht).1, ?_, fun _ _ => ?_,
      Or.inr ⟨token, hcurrent.le, List.mem_append_right _ List.mem_cons_self⟩⟩
    · refine ⟨fun hbusy => (Bool.false_ne_true hbusy).elim, fun hmem => ?_⟩
      exact ((herase.1 hmem).2 hcurrent.symm).elim
    · rw [hcurrent]
      exact List.mem_append_right _ List.mem_cons_self
  · refine ⟨h.once.eraseIdx i, fun t ht => h.started t (herase.1 ht).1, ?_,
      fun hidle hnone => List.mem_append_left _ (h.settled hidle hnone),
      h.shown.imp_right fun ⟨t, ht, hmem⟩ => ⟨t, ht, List.mem_append_left _ hmem⟩⟩
    exact h.waiting.trans (herase.trans (and_iff_left (Ne.symm hcurrent))).symm

theorem Flow.Listed.loadFailed (h : s.Listed) {i token : ℕ} (hi : s.loading[i]? = some token)
    (cause : Option JsString) :
    Flow.Listed { s with page := s.page.loadFailed token cause,
                         loading := s.loading.eraseIdx i } := by
  have herase {b : ℕ} := mem_eraseIdx_iff_ne (b := b) h.once hi
  unfold Page.loadFailed
  split_ifs with hcurrent
  · refine ⟨h.once.eraseIdx i, fun t ht => h.started t (herase.1 ht).1, ?_,
      fun _ hnone => (Option.some_ne_none _ hnone).elim, h.shown⟩
    refine ⟨fun hbusy => (Bool.false_ne_true hbusy).elim, fun hmem => ?_⟩
    exact ((herase.1 hmem).2 hcurrent.symm).elim
  · refine ⟨h.once.eraseIdx i, fun t ht => h.started t (herase.1 ht).1, ?_, h.settled, h.shown⟩
    exact h.waiting.trans (herase.trans (and_iff_left (Ne.symm hcurrent))).symm

theorem edit?_listed (h : s.Listed) {page : Page} (hs : s.edit? page = some s')
    (htoken : page.reloadToken = s.page.reloadToken) (hbusy : page.isLoading = s.page.isLoading)
    (herror : page.listError = s.page.listError) (hincoming : page.incoming = s.page.incoming)
    (houtgoing : page.outgoing = s.page.outgoing) : s'.Listed := by
  unfold Flow.edit? at hs
  split_ifs at hs
  cases hs
  exact h.congr rfl rfl htoken hbusy herror hincoming houtgoing

theorem Flow.Listed.step (h : s.Listed) (hs : s.step? R e = some s') : s'.Listed := by
  cases e with
  | onSelect next => exact edit?_listed h hs rfl rfl rfl rfl rfl
  | typeAmount text => exact edit?_listed h hs rfl rfl rfl rfl rfl
  | typeNote text => exact edit?_listed h hs rfl rfl rfl rfl rfl
  | toggle =>
    simp only [Flow.step?, Page.toggle] at hs
    split_ifs at hs <;> cases hs <;> exact h.congr rfl rfl rfl rfl rfl rfl rfl
  | openForm =>
    simp only [Flow.step?] at hs
    split_ifs at hs
    cases hs
    exact h.congr rfl rfl rfl rfl rfl rfl rfl
  | setTab tab =>
    cases hs
    exact h.congr rfl rfl rfl rfl rfl rfl rfl
  | submit key =>
    simp only [Flow.step?] at hs
    split_ifs at hs
    rcases handleCreate_cases (R := R) key s.page with
      ⟨formError, amountError, hcreate⟩ | ⟨body, -, hcreate⟩
    · rw [hcreate] at hs
      cases hs
      exact h.congr rfl rfl rfl rfl rfl rfl rfl
    · rw [hcreate] at hs
      cases hs
      exact h.congr rfl rfl rfl rfl rfl rfl rfl
  | apply i =>
    obtain ⟨a, -, rfl⟩ := Option.map_eq_some_iff.1 hs
    exact h.congr rfl rfl rfl rfl rfl rfl rfl
  | created i =>
    simp only [Flow.step?] at hs
    split at hs
    · split_ifs at hs
      cases hs
      exact h.reloaded rfl rfl rfl rfl rfl rfl
    · cases hs
  | createFailed i cause =>
    obtain ⟨a, -, rfl⟩ := Option.map_eq_some_iff.1 hs
    exact h.congr rfl rfl rfl rfl rfl rfl rfl
  | act requestId action =>
    simp only [Flow.step?, Page.runAction] at hs
    split_ifs at hs <;> cases hs <;> exact h.congr rfl rfl rfl rfl rfl rfl rfl
  | acted i =>
    obtain ⟨a, -, rfl⟩ := Option.map_eq_some_iff.1 hs
    exact h.reloaded rfl rfl rfl rfl rfl rfl
  | actionFailed i cause =>
    obtain ⟨a, -, rfl⟩ := Option.map_eq_some_iff.1 hs
    exact h.congr rfl rfl rfl rfl rfl rfl rfl
  | loaded i incoming outgoing =>
    obtain ⟨token, hi, rfl⟩ := Option.map_eq_some_iff.1 hs
    exact h.loaded hi incoming outgoing
  | loadFailed i cause =>
    obtain ⟨token, hi, rfl⟩ := Option.map_eq_some_iff.1 hs
    exact h.loadFailed hi cause

theorem Flow.OneEach.initial : Flow.initial.OneEach :=
  ⟨Nat.zero_le 1, fun h => (h rfl).elim, Nat.zero_le 1, rfl⟩

/-- Nothing is waited for that was not, and the page shows it as before. -/
theorem Flow.OneEach.congr (h : s.OneEach) (hsending : s'.sending = s.sending)
    (hacting : s'.acting = s.acting)
    (hsubmitting : s'.page.isSubmitting = s.page.isSubmitting)
    (hpending : s'.page.pendingAction = s.page.pendingAction) : s'.OneEach := by
  constructor
  · exact hsending ▸ h.sending
  · rw [hsending, hsubmitting]
    exact h.submitting
  · exact hacting ▸ h.acting
  · rw [hpending, hacting]
    exact h.pending

theorem eraseIdx_eq_nil {α : Type} {l : List α} {i : ℕ} {a : α} (h : l.length ≤ 1)
    (hi : l[i]? = some a) : l.eraseIdx i = [] := by
  have hlt := (List.getElem?_eq_some_iff.1 hi).1
  refine List.length_eq_zero_iff.1 ?_
  rw [List.length_eraseIdx_of_lt hlt]
  omega

/-- A request that was sent is settled. -/
theorem Flow.OneEach.sent (h : s.OneEach) {i : ℕ} {a : Attempt} (hi : s.sending[i]? = some a)
    (hsending : s'.sending = s.sending.eraseIdx i) (hacting : s'.acting = s.acting)
    (hpending : s'.page.pendingAction = s.page.pendingAction) : s'.OneEach := by
  rw [eraseIdx_eq_nil h.sending hi] at hsending
  refine ⟨by rw [hsending]; exact Nat.zero_le 1, fun hne => (hne hsending).elim,
    hacting ▸ h.acting, ?_⟩
  rw [hpending, hacting]
  exact h.pending

/-- An action is settled. -/
theorem Flow.OneEach.acted (h : s.OneEach) {i : ℕ} {a : PendingRequestAction}
    (hi : s.acting[i]? = some a) (hsending : s'.sending = s.sending)
    (hacting : s'.acting = s.acting.eraseIdx i)
    (hsubmitting : s'.page.isSubmitting = s.page.isSubmitting)
    (hpending : s'.page.pendingAction = none) : s'.OneEach := by
  rw [eraseIdx_eq_nil h.acting hi] at hacting
  refine ⟨hsending ▸ h.sending, ?_, by rw [hacting]; exact Nat.zero_le 1, ?_⟩
  · rw [hsending, hsubmitting]
    exact h.submitting
  · rw [hpending, hacting]
    rfl

theorem edit?_oneEach (h : s.OneEach) {page : Page} (hs : s.edit? page = some s')
    (hsubmitting : page.isSubmitting = s.page.isSubmitting)
    (hpending : page.pendingAction = s.page.pendingAction) : s'.OneEach := by
  unfold Flow.edit? at hs
  split_ifs at hs
  cases hs
  exact h.congr rfl rfl hsubmitting hpending

theorem Flow.OneEach.step (h : s.OneEach) (hs : s.step? R e = some s') : s'.OneEach := by
  cases e with
  | onSelect next => exact edit?_oneEach h hs rfl rfl
  | typeAmount text => exact edit?_oneEach h hs rfl rfl
  | typeNote text => exact edit?_oneEach h hs rfl rfl
  | toggle =>
    simp only [Flow.step?, Page.toggle] at hs
    split_ifs at hs <;> cases hs <;> exact h.congr rfl rfl rfl rfl
  | openForm =>
    simp only [Flow.step?] at hs
    split_ifs at hs
    cases hs
    exact h.congr rfl rfl rfl rfl
  | setTab tab =>
    cases hs
    exact h.congr rfl rfl rfl rfl
  | submit key =>
    simp only [Flow.step?] at hs
    split_ifs at hs with hform
    rcases handleCreate_cases (R := R) key s.page with
      ⟨formError, amountError, hcreate⟩ | ⟨body, -, hcreate⟩
    · rw [hcreate] at hs
      cases hs
      exact h.congr rfl rfl rfl rfl
    · -- The button is enabled, so nothing is being sent.
      have hnone : s.sending = [] := by
        by_contra hne
        exact hform.2 (h.submitting hne)
      rw [hcreate] at hs
      cases hs
      refine ⟨?_, fun _ => rfl, h.acting, h.pending⟩
      rw [hnone]
      exact le_rfl
  | apply i =>
    obtain ⟨a, -, rfl⟩ := Option.map_eq_some_iff.1 hs
    exact h.congr rfl rfl rfl rfl
  | created i =>
    simp only [Flow.step?] at hs
    split at hs
    · next a hi =>
      split_ifs at hs
      cases hs
      exact h.sent hi rfl rfl rfl
    · cases hs
  | createFailed i cause =>
    obtain ⟨a, hi, rfl⟩ := Option.map_eq_some_iff.1 hs
    exact h.sent hi rfl rfl rfl
  | act requestId action =>
    simp only [Flow.step?, Page.runAction] at hs
    split_ifs at hs with hoffers hpending
    · cases hs
      exact h.congr rfl rfl rfl rfl
    · have hnone : s.acting = [] := List.head?_eq_none_iff.1 (h.pending.symm.trans hoffers.2.1)
      cases hs
      refine ⟨h.sending, h.submitting, ?_, ?_⟩
      · rw [hnone]
        exact le_rfl
      · rw [hnone]
        rfl
  | acted i =>
    obtain ⟨a, hi, rfl⟩ := Option.map_eq_some_iff.1 hs
    exact h.acted hi rfl rfl rfl rfl
  | actionFailed i cause =>
    obtain ⟨a, hi, rfl⟩ := Option.map_eq_some_iff.1 hs
    exact h.acted hi rfl rfl rfl rfl
  | loaded i incoming outgoing =>
    obtain ⟨token, -, rfl⟩ := Option.map_eq_some_iff.1 hs
    unfold Page.loaded
    split_ifs <;> exact h.congr rfl rfl rfl rfl
  | loadFailed i cause =>
    obtain ⟨token, -, rfl⟩ := Option.map_eq_some_iff.1 hs
    unfold Page.loadFailed
    split_ifs <;> exact h.congr rfl rfl rfl rfl

/-- The two lists on the page are always the answer to one load, and when the page neither
loads nor shows an error, to the load started last. At most one request and one action are
under way. -/
theorem lists_of_latest_load (h : Reaches (Flow.step? R) ok Flow.initial s) :
    (s.page.isLoading = false → s.page.listError = none →
        ⟨s.page.reloadToken, s.page.incoming, s.page.outgoing⟩ ∈ s.answers) ∧
      ((s.page.incoming = [] ∧ s.page.outgoing = []) ∨
        ∃ token ≤ s.page.reloadToken, ⟨token, s.page.incoming, s.page.outgoing⟩ ∈ s.answers) ∧
      s.sending.length ≤ 1 ∧ s.acting.length ≤ 1 := by
  have hkept : s.Listed ∧ s.OneEach := by
    induction h with
    | refl => exact ⟨.initial, .initial⟩
    | tail e _ _ hs ih => exact ⟨ih.1.step hs, ih.2.step hs⟩
  exact ⟨hkept.1.settled, hkept.1.shown, hkept.2.sending, hkept.2.acting⟩

def sampleRequest : MoneyRequestDto where
  requestId := 9
  status := .PENDING
  requesterUserId := 2
  payerUserId := 1
  amountMinor := 500
  currency := .BDT
  note := none
  acceptedTransferId := none
  expiresAt := none
  createdAt := js "2026-01-01T00:00:00.000Z"
  resolvedAt := none

def overtakenLoads : List Event :=
  [.loaded 0 [sampleRequest] [], .act 9 .accept, .acted 0, .toggle,
    .onSelect (some SendMoney.sampleRecipient), .typeAmount (js "5.00"), .submit 1, .apply 0,
    .created 0, .loaded 1 [] [sampleRequest], .loaded 0 [sampleRequest] []]

/-- The page shows the third load, although the second one came last. -/
theorem lists_of_latest_load_overtaken : ∃ s : Flow, s.page.reloadToken = 2 ∧
    s.page.incoming = [] ∧ ⟨2, s.page.incoming, s.page.outgoing⟩ ∈ s.answers := by
  have hrun : (runs (Flow.step? double) Flow.initial overtakenLoads).any (fun s =>
      (s.page.reloadToken = 2 ∧ s.page.incoming = []) ∧ s.page.isLoading = false ∧
        s.page.listError = none) := by
    decide +kernel
  obtain ⟨s, hs, hend⟩ := (Option.any_eq_true _ _).1 hrun
  obtain ⟨⟨htoken, hincoming⟩, hidle, hnone⟩ := of_decide_eq_true hend
  have hlists := lists_of_latest_load (reaches_of_runs hs fun _ _ _ => trivial)
  refine ⟨s, htoken, hincoming, ?_⟩
  rw [← htoken]
  exact hlists.1 hidle hnone

end Lists

end RequestsPage

end MoneyMovement
