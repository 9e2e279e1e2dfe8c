import MoneyMovement.Store.Schema
import MoneyMovement.Txn.Reaches
import MoneyMovement.Web.Formats

/-!
# The send page

A key is minted when the user reviews a transfer and kept for every confirmation that
follows; going back and reviewing again mints another one. So what a user means to pay
once is paid once, unless they leave an unanswered confirmation through Back.
-/

namespace MoneyMovement

open Txn

namespace SendMoney

section Page

inductive Stage | compose | confirm | done
  deriving DecidableEq

structure UserSearchResult where
  id : JsString
  displayName : JsString
  maskedEmail : JsString
  deriving DecidableEq

structure WalletView where
  status : WalletStatus
  balanceMinor : ℤ
  deriving DecidableEq

structure SubmitError where
  message : JsString
  ambiguous : Bool
  deriving DecidableEq

structure Page where
  stage : Stage
  recipient : Option UserSearchResult
  amountText : JsString
  note : JsString
  amountError : Option JsString
  formError : Option JsString
  submitError : Option SubmitError
  isSubmitting : Bool
  receipt : Option TransferDto
  idempotencyKeyRef : Option Uuid
  deriving DecidableEq

structure TransferBody where
  receiverUserId : JsString
  amountMinor : ℕ
  note : Option JsString
  deriving DecidableEq

def Page.initial : Page where
  stage := .compose
  recipient := none
  amountText := []
  note := []
  amountError := none
  formError := none
  submitError := none
  isSubmitting := false
  receipt := none
  idempotencyKeyRef := none

def QUICK_AMOUNTS : List ℕ := [100, 500, 1000, 5000]

variable (R : Rounding)

def Page.amountMinor (page : Page) : Option ℕ :=
  match parseBdtToMinor R page.amountText with
  | .ok amountMinor => some amountMinor
  | .error _ => none

def Page.onSelect (next : Option UserSearchResult) (page : Page) : Page :=
  { page with recipient := next, formError := none }

def Page.setAmount (text : JsString) (page : Page) : Page :=
  { page with amountText := text, amountError := none, formError := none }

def Page.setNote (text : JsString) (page : Page) : Page := { page with note := text }

/-- `value.toFixed(2)` of a whole number. -/
def toFixed (value : ℕ) : JsString := decimal value ++ js ".00"

/-- `newIdempotencyKey` is the key that is minted, if one is. -/
def Page.handleReview (wallet : Option WalletView) (newIdempotencyKey : Uuid) (page : Page) :
    Page :=
  if page.recipient = none then
    { page with formError := some (js "Choose who you are sending to.") }
  else match parseBdtToMinor R page.amountText with
    | .error message => { page with formError := none, amountError := some message }
    | .ok amountMinor =>
      match wallet.filter fun w => w.balanceMinor < (amountMinor : ℤ) with
      | some w =>
        { page with
          amountError := none
          formError := some
            (js "That is more than your available balance of " ++ formatBdt w.balanceMinor ++
              js ".") }
      | none =>
        { page with
          formError := none
          amountError := none
          idempotencyKeyRef := some newIdempotencyKey
          submitError := none
          stage := .confirm }

/-- What `handleConfirm` shows at once, and what it sends under which key. -/
def Page.handleConfirm (page : Page) : Page × Option (Uuid × TransferBody) :=
  if page.isSubmitting then (page, none)
  else match page.recipient, page.amountMinor R with
    | some recipient, some amountMinor =>
      match page.idempotencyKeyRef with
      | none =>
        ({ page with
            submitError :=
              some ⟨js "Something went wrong. Start the transfer again.", false⟩ }, none)
      | some idempotencyKey =>
        let note := trim page.note
        ({ page with isSubmitting := true, submitError := none },
          some (idempotencyKey, ⟨recipient.id, amountMinor, if note = [] then none else some note⟩))
    | _, _ => (page, none)

def Page.confirmed (transfer : TransferDto) (page : Page) : Page :=
  { page with receipt := some transfer, stage := .done, isSubmitting := false }

def Page.rejected (cause : SubmitError) (page : Page) : Page :=
  { page with submitError := some cause, isSubmitting := false }

def ambiguousOutcome : SubmitError where
  message := js ("We could not confirm whether this went through. " ++
    "Check your activity before retrying.")
  ambiguous := true

def Page.back (page : Page) : Page := { page with stage := .compose, submitError := none }

def Page.resetForAnother (page : Page) : Page :=
  { page with
    idempotencyKeyRef := none
    stage := .compose
    recipient := none
    amountText := []
    note := []
    receipt := none
    submitError := none
    formError := none
    amountError := none }

def Page.ShowsConfirm (page : Page) : Prop :=
  page.stage = .confirm ∧ page.recipient.isSome ∧ (page.amountMinor R).isSome

instance (page : Page) : Decidable (page.ShowsConfirm R) :=
  inferInstanceAs (Decidable (_ ∧ _ ∧ _))

def Page.ShowsReceipt (page : Page) : Prop := page.stage = .done ∧ page.receipt.isSome

instance (page : Page) : Decidable page.ShowsReceipt := inferInstanceAs (Decidable (_ ∧ _))

/-- The checks of `handleReview` pass, and it mints a key. -/
def Page.Reviewable (wallet : Option WalletView) (page : Page) : Prop :=
  page.recipient.isSome ∧ ∃ amountMinor ∈ page.amountMinor R,
    ∀ w ∈ wallet, (amountMinor : ℤ) ≤ w.balanceMinor

instance (wallet : Option WalletView) (page : Page) : Decidable (page.Reviewable R wallet) :=
  inferInstanceAs (Decidable (_ ∧ _))

end Page

section Flow

/-- A transfer that a confirmation asked for; `intent` counts the edits and the uses of
"Send another" before it. -/
structure Attempt where
  key : Uuid
  body : TransferBody
  intent : ℕ
  deriving DecidableEq

/-- The page, the request under way, those that got no response, and the transfers that
the server has made of requests. -/
structure Flow where
  page : Page
  intent : ℕ
  sending : Option Attempt
  unanswered : List Attempt
  transfers : List Attempt
  deriving DecidableEq

def Flow.initial : Flow := ⟨.initial, 0, none, [], []⟩

inductive Event
  | onSelect (next : Option UserSearchResult)
  | typeAmount (text : JsString)
  | quickAmount (value : ℕ)
  | typeNote (text : JsString)
  | review (wallet : Option WalletView) (newIdempotencyKey : Uuid)
  | confirm
  /-- The server has applied the request, now or before, and answers. -/
  | response (transfer : TransferDto)
  /-- The request fails, and nothing is committed. -/
  | error (message : JsString)
  /-- The request gets no response. -/
  | noResponse
  /-- The server applies a request whose response does not arrive. -/
  | apply (i : ℕ)
  | back
  | sendAnother

def applyOnce (transfers : List Attempt) (a : Attempt) : List Attempt :=
  if ∃ t ∈ transfers, t.key = a.key then transfers else transfers ++ [a]

def Flow.edit? (s : Flow) (page : Page) : Option Flow :=
  if s.page.stage = .compose then some { s with page := page, intent := s.intent + 1 } else none

variable (R : Rounding)

def Flow.step? (s : Flow) : Event → Option Flow
  | .onSelect next => s.edit? (s.page.onSelect next)
  | .typeAmount text => s.edit? (s.page.setAmount text)
  | .quickAmount value =>
    if value ∈ QUICK_AMOUNTS then s.edit? (s.page.setAmount (toFixed value)) else none
  | .typeNote text => s.edit? (s.page.setNote text)
  | .review wallet key =>
    if s.page.stage = .compose ∧ wallet.any (·.status = .ACTIVE) then
      some { s with page := s.page.handleReview R wallet key }
    else none
  | .confirm =>
    if s.page.ShowsConfirm R then
      let (page, sent) := s.page.handleConfirm R
      match sent with
      | some (key, body) => some { s with page := page, sending := some ⟨key, body, s.intent⟩ }
      | none => some { s with page := page }
    else none
  | .response transfer =>
    s.sending.map fun a => { s with page := s.page.confirmed transfer, sending := none,
                                    transfers := applyOnce s.transfers a }
  | .error message =>
    s.sending.map fun _ => { s with page := s.page.rejected ⟨message, false⟩, sending := none }
  | .noResponse =>
    s.sending.map fun a => { s with page := s.page.rejected ambiguousOutcome, sending := none,
                                    unanswered := s.unanswered ++ [a] }
  | .apply i => (s.unanswered[i]?).map fun a => { s with transfers := applyOnce s.transfers a }
  | .back =>
    if s.page.ShowsConfirm R ∧ ¬ s.page.isSubmitting then some { s with page := s.page.back }
    else none
  | .sendAnother =>
    if s.page.ShowsReceipt then
      some { s with page := s.page.resetForAnother, intent := s.intent + 1 }
    else none

/-- Of the confirmations of one intent that carry the same transfer, at most one is
committed. -/
def Flow.PaysOnce (s : Flow) : Prop :=
  ∀ intent body, (s.transfers.filter fun a => a.intent = intent ∧ a.body = body).length ≤ 1

/-- No review mints a key while a confirmation of the same intent is unanswered. -/
def ReviewsAnswered (s : Flow) : Event → Prop
  | .review wallet _ => s.page.Reviewable R wallet → ∀ a ∈ s.unanswered, a.intent ≠ s.intent
  | _ => True

instance (s : Flow) (e : Event) : Decidable (ReviewsAnswered R s e) := by
  cases e <;> unfold ReviewsAnswered <;> infer_instance

end Flow

section Handlers

variable (R : Rounding) (page : Page)

/-- A review mints the key and moves on, or leaves the key and the stage. -/
theorem handleReview_cases (wallet : Option WalletView) (key : Uuid) :
    (page.handleReview R wallet key).isSubmitting = page.isSubmitting ∧
      ((page.Reviewable R wallet ∧ (page.handleReview R wallet key).stage = .confirm) ∨
        ((page.handleReview R wallet key).stage = page.stage ∧
          (page.handleReview R wallet key).idempotencyKeyRef = page.idempotencyKeyRef)) := by
  unfold Page.handleReview
  split_ifs with hrecipient
  · exact ⟨rfl, Or.inr ⟨rfl, rfl⟩⟩
  · split
    · exact ⟨rfl, Or.inr ⟨rfl, rfl⟩⟩
    · next amountMinor hparse =>
      split
      · exact ⟨rfl, Or.inr ⟨rfl, rfl⟩⟩
      · next hfilter =>
        refine ⟨rfl, Or.inl ⟨⟨Option.isSome_iff_ne_none.2 hrecipient, amountMinor, ?_, ?_⟩, rfl⟩⟩
        · rw [Page.amountMinor, hparse]
          rfl
        · intro w hw
          have hnot := Option.filter_eq_none_iff.1 hfilter w hw
          simpa using hnot

/-- A confirmation sends what is on the page under the key of the page, or nothing. -/
theorem handleConfirm_cases :
    ((page.handleConfirm R).2 = none ∧ (page.handleConfirm R).1.stage = page.stage ∧
      (page.handleConfirm R).1.idempotencyKeyRef = page.idempotencyKeyRef ∧
      (page.handleConfirm R).1.isSubmitting = page.isSubmitting) ∨
    ∃ key body, (page.handleConfirm R).2 = some (key, body) ∧ page.idempotencyKeyRef = some key ∧
      page.isSubmitting = false ∧
      (page.handleConfirm R).1 = { page with isSubmitting := true, submitError := none } := by
  unfold Page.handleConfirm
  split_ifs with hsubmitting
  · exact Or.inl ⟨rfl, rfl, rfl, rfl⟩
  · have hidle : page.isSubmitting = false := Bool.eq_false_iff.2 hsubmitting
    cases page.recipient with
    | none => exact Or.inl ⟨rfl, rfl, rfl, rfl⟩
    | some recipient =>
      cases page.amountMinor R with
      | none => exact Or.inl ⟨rfl, rfl, rfl, rfl⟩
      | some amountMinor =>
        cases hkey : page.idempotencyKeyRef with
        | none => exact Or.inl ⟨rfl, rfl, rfl, rfl⟩
        | some key => exact Or.inr ⟨key, _, rfl, rfl, hidle, rfl⟩

end Handlers

section Runs

variable {R : Rounding} {s s' : Flow} {e : Event}

def Flow.attempts (s : Flow) : List Attempt := s.sending.toList ++ (s.unanswered ++ s.transfers)

/-- The confirmations of one intent share their key, which the page keeps until the
intent is over or paid. -/
structure Flow.OneKey (s : Flow) : Prop where
  submitting : s.sending.isSome → s.page.stage = .confirm ∧ s.page.isSubmitting = true
  past : ∀ a ∈ s.attempts, a.intent ≤ s.intent
  unanswered : ∀ t ∈ s.transfers, t.intent = s.intent → s.page.stage ≠ .done → t ∈ s.unanswered
  kept : ∀ a ∈ s.attempts, a.intent = s.intent → s.page.stage ≠ .done →
    s.page.idempotencyKeyRef = some a.key
  same : ∀ a ∈ s.attempts, ∀ b ∈ s.attempts, a.intent = b.intent → a.key = b.key
  keys : (s.transfers.map Attempt.key).Nodup

theorem mem_attempts {a : Attempt} :
    a ∈ s.attempts ↔ s.sending = some a ∨ a ∈ s.unanswered ∨ a ∈ s.transfers := by
  simp only [Flow.attempts, List.mem_append, Option.mem_toList]

theorem mem_applyOnce {transfers : List Attempt} {a t : Attempt} (h : t ∈ applyOnce transfers a) :
    t ∈ transfers ∨ t = a := by
  unfold applyOnce at h
  split_ifs at h
  · exact Or.inl h
  · exact (List.mem_append.1 h).imp_right List.mem_singleton.1

theorem applyOnce_keys {transfers : List Attempt} (a : Attempt)
    (h : (transfers.map Attempt.key).Nodup) : ((applyOnce transfers a).map Attempt.key).Nodup := by
  unfold applyOnce
  split_ifs with hused
  · exact h
  · simpa [List.nodup_append, h] using hused

theorem Flow.OneKey.initial : Flow.initial.OneKey := by
  refine ⟨?_, ?_, ?_, ?_, ?_, ?_⟩ <;> simp [Flow.initial, Flow.attempts]

/-- The intent is over: nothing of it can be confirmed again. -/
theorem Flow.OneKey.next (h : s.OneKey) (hstage : s.page.stage ≠ .confirm) (page : Page) :
    Flow.OneKey { s with page := page, intent := s.intent + 1 } := by
  have hidle : s.sending = none := by
    by_contra hne
    exact hstage (h.submitting (Option.isSome_iff_ne_none.2 hne)).1
  have hpast {a : Attempt} (ha : a ∈ s.attempts) : a.intent ≠ s.intent + 1 := by
    have := h.past a ha
    omega
  refine ⟨fun hs => ?_, fun a ha => (h.past a ha).trans (Nat.le_succ _), fun t ht hi => ?_,
    fun a ha hi => (hpast ha hi).elim, h.same, h.keys⟩
  · rw [hidle] at hs
    cases hs
  · exact (hpast (mem_attempts.2 (Or.inr (Or.inr ht))) hi).elim

/-- Nothing but texts change on the page. -/
theorem Flow.OneKey.samePage (h : s.OneKey) {page : Page} (hstage : page.stage = s.page.stage)
    (hkey : page.idempotencyKeyRef = s.page.idempotencyKeyRef)
    (hsubmitting : page.isSubmitting = s.page.isSubmitting) :
    Flow.OneKey { s with page := page } := by
  refine ⟨fun hs => ?_, h.past, fun t ht hi hd => h.unanswered t ht hi (hstage ▸ hd),
    fun a ha hi hd => hkey.trans (h.kept a ha hi (hstage ▸ hd)), h.same, h.keys⟩
  rw [hstage, hsubmitting]
  exact h.submitting hs

theorem Flow.OneKey.edit? (h : s.OneKey) {page : Page} (hs : s.edit? page = some s') :
    s'.OneKey := by
  unfold Flow.edit? at hs
  split_ifs at hs with hstage
  cases hs
  exact h.next (by rw [hstage]; decide) page

theorem Flow.OneKey.review (h : s.OneKey) {wallet : Option WalletView} {key : Uuid}
    (hstage : s.page.stage = .compose)
    (hok : s.page.Reviewable R wallet → ∀ a ∈ s.unanswered, a.intent ≠ s.intent) :
    Flow.OneKey { s with page := s.page.handleReview R wallet key } := by
  have hidle : s.sending = none := by
    by_contra hne
    have hconfirm := (h.submitting (Option.isSome_iff_ne_none.2 hne)).1
    rw [hstage] at hconfirm
    cases hconfirm
  have hopen : s.page.stage ≠ .done := by
    rw [hstage]
    decide
  obtain ⟨hsubmitting, ⟨hreview, hconfirm⟩ | ⟨hsame, hkey⟩⟩ :=
    handleReview_cases R s.page wallet key
  · -- Nothing of this intent has been sent that could still be applied, or has been.
    have hnone {a : Attempt} (ha : a ∈ s.attempts) : a.intent ≠ s.intent := by
      intro hi
      rcases mem_attempts.1 ha with hsend | ha | ha
      · rw [hidle] at hsend
        cases hsend
      · exact hok hreview a ha hi
      · exact hok hreview a (h.unanswered a ha hi hopen) hi
    refine ⟨fun hs => ?_, h.past, fun t ht hi => ?_, fun a ha hi => (hnone ha hi).elim, h.same,
      h.keys⟩
    · rw [hidle] at hs
      cases hs
    · exact (hnone (mem_attempts.2 (Or.inr (Or.inr ht))) hi).elim
  · exact h.samePage hsame hkey hsubmitting

theorem Flow.OneKey.confirm (h : s.OneKey) (hstage : s.page.stage = .confirm) {key : Uuid}
    {body : TransferBody} (hkey : s.page.idempotencyKeyRef = some key)
    (hsubmitting : s.page.isSubmitting = false) {page : Page}
    (hpage : page = { s.page with isSubmitting := true, submitError := none }) :
    Flow.OneKey { s with page := page, sending := some ⟨key, body, s.intent⟩ } := by
  subst hpage
  have hidle : s.sending = none := by
    by_contra hne
    have hbusy := (h.submitting (Option.isSome_iff_ne_none.2 hne)).2
    rw [hsubmitting] at hbusy
    cases hbusy
  have hopen : s.page.stage ≠ .done := by
    rw [hstage]
    decide
  -- What has been sent for this intent went out under the key of the page.
  have hsame {b : Attempt} (hb : b ∈ s.attempts) (hi : b.intent = s.intent) : b.key = key :=
    Option.some.inj ((h.kept b hb hi hopen).symm.trans hkey)
  have hsplit {b : Attempt} (hb : b ∈ Flow.attempts
      { s with page := { s.page with isSubmitting := true, submitError := none },
               sending := some ⟨key, body, s.intent⟩ }) :
      b = ⟨key, body, s.intent⟩ ∨ b ∈ s.attempts := by
    rcases mem_attempts.1 hb with hnew | hold
    · exact Or.inl (Option.some.inj hnew).symm
    · exact Or.inr (mem_attempts.2 (Or.inr hold))
  refine ⟨fun _ => ⟨hstage, rfl⟩, fun b hb => ?_, fun t ht hi _ => h.unanswered t ht hi hopen,
    fun b hb hi _ => ?_, fun a ha b hb hi => ?_, h.keys⟩
  · rcases hsplit hb with rfl | hb
    · exact le_rfl
    · exact h.past b hb
  · rcases hsplit hb with rfl | hb
    · exact hkey
    · exact h.kept b hb hi hopen
  · rcases hsplit ha with rfl | ha <;> rcases hsplit hb with rfl | hb
    · rfl
    · exact (hsame hb hi.symm).symm
    · exact hsame ha hi
    · exact h.same a ha b hb hi

/-- The request under way ends, and nothing is known that was not sent. -/
theorem Flow.OneKey.ends (h : s.OneKey) {page : Page} {unanswered transfers : List Attempt}
    (hsub : ∀ a, a ∈ unanswered ∨ a ∈ transfers → a ∈ s.attempts)
    (hkeys : (transfers.map Attempt.key).Nodup)
    (hunanswered : ∀ t ∈ transfers, t.intent = s.intent → page.stage ≠ .done → t ∈ unanswered)
    (hstage : page.stage ≠ .done → s.page.stage ≠ .done)
    (hkey : page.idempotencyKeyRef = s.page.idempotencyKeyRef) :
    Flow.OneKey { s with page := page, sending := none, unanswered := unanswered,
                         transfers := transfers } := by
  have hmem {a : Attempt} (ha : a ∈ Flow.attempts
      { s with page := page, sending := none, unanswered := unanswered,
               transfers := transfers }) : a ∈ s.attempts := by
    rcases mem_attempts.1 ha with hnone | ha
    · cases hnone
    · exact hsub a ha
  refine ⟨fun hs => ?_, fun a ha => h.past a (hmem ha), hunanswered,
    fun a ha hi hd => hkey.trans (h.kept a (hmem ha) hi (hstage hd)),
    fun a ha b hb => h.same a (hmem ha) b (hmem hb), hkeys⟩
  cases hs

/-- The press of Send, whether it sends or finds nothing to send. -/
theorem Flow.OneKey.press (h : s.OneKey) (hs : s.step? R .confirm = some s') : s'.OneKey := by
  simp only [Flow.step?] at hs
  split_ifs at hs with hpanel
  rcases handleConfirm_cases R s.page with
    ⟨hsent, hstage, hkey, hsubmitting⟩ | ⟨key, body, hsent, hkey, hsubmitting, hpage⟩
  · rw [hsent] at hs
    cases hs
    exact h.samePage hstage hkey hsubmitting
  · rw [hsent] at hs
    cases hs
    exact h.confirm hpanel.1 hkey hsubmitting hpage

theorem mem_attempts_of_past {a : Attempt} (ha : a ∈ s.unanswered ∨ a ∈ s.transfers) :
    a ∈ s.attempts :=
  mem_attempts.2 (Or.inr ha)

/-- An attempt that is applied is one that is known already. -/
theorem mem_attempts_of_applied {a b : Attempt} (ha : a ∈ s.attempts)
    (hb : b ∈ s.unanswered ∨ b ∈ applyOnce s.transfers a) : b ∈ s.attempts := by
  rcases hb with hb | hb
  · exact mem_attempts_of_past (Or.inl hb)
  · rcases mem_applyOnce hb with hb | rfl
    · exact mem_attempts_of_past (Or.inr hb)
    · exact ha

theorem Flow.OneKey.responds (h : s.OneKey) {a : Attempt} (ha : s.sending = some a)
    (transfer : TransferDto) :
    Flow.OneKey { s with page := s.page.confirmed transfer, sending := none,
                         transfers := applyOnce s.transfers a } := by
  have hknown : a ∈ s.attempts := mem_attempts.2 (Or.inl ha)
  exact h.ends (fun _ hb => mem_attempts_of_applied hknown hb) (applyOnce_keys a h.keys)
    (fun _ _ _ hd => absurd rfl hd) (fun hd => absurd rfl hd) rfl

theorem Flow.OneKey.unanswers (h : s.OneKey) {a : Attempt} (ha : s.sending = some a) :
    Flow.OneKey { s with page := s.page.rejected ambiguousOutcome, sending := none,
                         unanswered := s.unanswered ++ [a] } := by
  refine h.ends (fun b hb => ?_) h.keys
    (fun t ht hi hd => List.mem_append_left _ (h.unanswered t ht hi hd)) id rfl
  rcases hb with hb | hb
  · rcases List.mem_append.1 hb with hb | hb
    · exact mem_attempts_of_past (Or.inl hb)
    · rw [List.mem_singleton.1 hb]
      exact mem_attempts.2 (Or.inl ha)
  · exact mem_attempts_of_past (Or.inr hb)

/-- A request that got no response is applied after all. -/
theorem Flow.OneKey.applies (h : s.OneKey) {a : Attempt} (ha : a ∈ s.unanswered) :
    Flow.OneKey { s with transfers := applyOnce s.transfers a } := by
  have hknown : a ∈ s.attempts := mem_attempts_of_past (Or.inl ha)
  have hmem {b : Attempt} (hb : b ∈ Flow.attempts
      { s with transfers := applyOnce s.transfers a }) : b ∈ s.attempts := by
    rcases mem_attempts.1 hb with hb | hb
    · exact mem_attempts.2 (Or.inl hb)
    · exact mem_attempts_of_applied hknown hb
  refine ⟨h.submitting, fun b hb => h.past b (hmem hb), fun t ht hi hd => ?_,
    fun b hb => h.kept b (hmem hb), fun b hb c hc => h.same b (hmem hb) c (hmem hc),
    applyOnce_keys a h.keys⟩
  rcases mem_applyOnce ht with ht | rfl
  · exact h.unanswered t ht hi hd
  · exact ha

/-- Back keeps the key of what has been sent. -/
theorem Flow.OneKey.back (h : s.OneKey) (hstage : s.page.stage = .confirm)
    (hidle : ¬ s.page.isSubmitting) : Flow.OneKey { s with page := s.page.back } := by
  have hopen : s.page.stage ≠ .done := by
    rw [hstage]
    decide
  exact ⟨fun hsending => (hidle (h.submitting hsending).2).elim, h.past,
    fun t ht hi _ => h.unanswered t ht hi hopen, fun a ha hi _ => h.kept a ha hi hopen, h.same,
    h.keys⟩

theorem Flow.OneKey.step (h : s.OneKey) (hok : ReviewsAnswered R s e)
    (hs : s.step? R e = some s') : s'.OneKey := by
  cases e with
  | onSelect next => exact h.edit? hs
  | typeAmount text => exact h.edit? hs
  | quickAmount value =>
    simp only [Flow.step?] at hs
    split_ifs at hs
    exact h.edit? hs
  | typeNote text => exact h.edit? hs
  | review wallet key =>
    simp only [Flow.step?] at hs
    split_ifs at hs with hform
    cases hs
    exact h.review hform.1 hok
  | confirm => exact h.press hs
  | response transfer =>
    obtain ⟨a, ha, rfl⟩ := Option.map_eq_some_iff.1 hs
    exact h.responds ha transfer
  | error message =>
    obtain ⟨a, ha, rfl⟩ := Option.map_eq_some_iff.1 hs
    exact h.ends (fun b hb => mem_attempts_of_past hb) h.keys h.unanswered id rfl
  | noResponse =>
    obtain ⟨a, ha, rfl⟩ := Option.map_eq_some_iff.1 hs
    exact h.unanswers ha
  | apply i =>
    obtain ⟨a, ha, rfl⟩ := Option.map_eq_some_iff.1 hs
    exact h.applies (List.mem_of_getElem? ha)
  | back =>
    simp only [Flow.step?] at hs
    split_ifs at hs with hpanel
    cases hs
    exact h.back hpanel.1.1 hpanel.2
  | sendAnother =>
    simp only [Flow.step?] at hs
    split_ifs at hs with hpanel
    cases hs
    exact h.next (by rw [hpanel.1]; decide) _

theorem length_le_one_of_same {l : List Attempt} (hkeys : (l.map Attempt.key).Nodup)
    (h : ∀ a ∈ l, ∀ b ∈ l, a.key = b.key) : l.length ≤ 1 := by
  rcases l with _ | ⟨a, _ | ⟨b, rest⟩⟩
  · exact Nat.zero_le 1
  · exact le_rfl
  · have hsame := h a List.mem_cons_self b (List.mem_cons_of_mem _ List.mem_cons_self)
    have hne : a.key ∉ (b :: rest).map Attempt.key := (List.nodup_cons.1 hkeys).1
    exact absurd (hsame ▸ List.mem_cons_self) hne

theorem Flow.OneKey.paysOnce (h : s.OneKey) : s.PaysOnce := by
  intro intent body
  refine length_le_one_of_same (h.keys.sublist (List.filter_sublist.map _)) fun a ha b hb => ?_
  obtain ⟨hma, hia⟩ := List.mem_filter.1 ha
  obtain ⟨hmb, hib⟩ := List.mem_filter.1 hb
  exact h.same a (mem_attempts.2 (Or.inr (Or.inr hma))) b (mem_attempts.2 (Or.inr (Or.inr hmb)))
    ((of_decide_eq_true hia).1.trans (of_decide_eq_true hib).1.symm)

/-- In every run in which no review mints a key while a confirmation of the same intent is
unanswered, each intent is paid at most once. -/
theorem one_payment_per_intent (R : Rounding)
    (h : Reaches (Flow.step? R) (ReviewsAnswered R) Flow.initial s) : s.PaysOnce := by
  have hkey : s.OneKey := by
    induction h with
    | refl => exact .initial
    | tail e _ hok hs ih => exact ih.step hok hs
  exact hkey.paysOnce

section Samples

def sampleRecipient : UserSearchResult := ⟨js "bob", js "Bob", js "b***@example.com"⟩

def sampleView : WalletView := ⟨.ACTIVE, 100000⟩

def sampleReceipt : TransferDto where
  transferId := 7
  status := .SUCCEEDED
  senderUserId := 1
  receiverUserId := 2
  amountMinor := 500
  currency := .BDT
  note := none
  createdAt := js "2026-01-01T00:00:00.000Z"
  completedAt := none
  senderBalanceAfterMinor := some 99500
  risk := none

def lostConfirmation : List Event :=
  [.onSelect (some sampleRecipient), .typeAmount (js "5.00"), .review (some sampleView) 1, .confirm,
    .noResponse, .apply 0]

/-- Retried on the same screen, it is paid once. -/
theorem one_payment_per_intent_retried : ∃ s : Flow, s.transfers.length = 1 ∧
    s.page.stage = .done ∧ s.PaysOnce := by
  have hrun : (runs (permitted (Flow.step? double) (ReviewsAnswered double)) Flow.initial
      (lostConfirmation ++ [.confirm, .response sampleReceipt])).any
        (fun s => s.transfers.length = 1 ∧ s.page.stage = .done) := by
    decide +kernel
  obtain ⟨s, hs, hend⟩ := (Option.any_eq_true _ _).1 hrun
  obtain ⟨hlength, hdone⟩ := of_decide_eq_true hend
  exact ⟨s, hlength, hdone, one_payment_per_intent double (reaches_of_permitted hs)⟩

/-- Reviewed again after Back, it is paid twice. -/
theorem reviewed_again_pays_twice :
    ¬ ∀ s, Reaches (Flow.step? double) (fun _ _ => True) Flow.initial s → s.PaysOnce := by
  intro hall
  have hrun : (runs (Flow.step? double) Flow.initial
      (lostConfirmation ++ [.back, .review (some sampleView) 2, .confirm,
        .response sampleReceipt])).any
        (fun s => (s.transfers.filter fun a =>
          a.intent = 2 ∧ a.body = ⟨js "bob", 500, none⟩).length = 2) := by
    decide +kernel
  obtain ⟨s, hs, htwo⟩ := (Option.any_eq_true _ _).1 hrun
  have hone := hall s (reaches_of_runs hs fun _ _ _ => trivial) 2 ⟨js "bob", 500, none⟩
  rw [of_decide_eq_true htwo] at hone
  exact absurd hone (by decide)

end Samples

end Runs

end SendMoney

end MoneyMovement
