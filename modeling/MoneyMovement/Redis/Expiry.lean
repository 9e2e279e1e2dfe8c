import MoneyMovement.Redis.Counters

/-!
# Counters that expire

What goes wrong between the two commands of a request leaves a counter that nobody gives
an expiry any more, so that it counts for good; as long as nothing does, every counter is
on its way to expire.
-/

namespace MoneyMovement

open Txn

namespace RateLimiter

section Expiry

variable {reflector : Reflector} {s s' : RateLimiter} {e : RateLimitEvent} {i : ℕ}
  {key : JsString}

/-- Every counter of the key has an expiry, or the request that set it is about to give it one. -/
def Expires (s : RateLimiter) (key : JsString) : Prop :=
  ∀ c, s.live key = some c → c.expiresAt = none → s.Expiring key c.creator

/-- The steps after which nobody gives the counter an expiry: the request that set it dies, or
its `EXPIRE` is not applied, or its `INCR` was applied and reported as failed. -/
def Loses (s : RateLimiter) (key : JsString) : RateLimitEvent → Prop
  | .crash i => s.Expiring key i
  | .expireFails i false => s.Expiring key i
  | .incrFails i true => s.live key = none ∧ ∃ options, s.request? i = some ⟨options, key, .incr⟩
  | _ => False

def NeverLoses (reflector : Reflector) (key : JsString) : RateLimiter → List RateLimitEvent → Prop
  | _, [] => True
  | s, e :: es =>
    ¬ s.Loses key e ∧ ∀ s', step? reflector s e = some s' → NeverLoses reflector key s' es

/-- The request whose command an event is. -/
def actor : RateLimitEvent → Option ℕ
  | .incr i | .incrFails i _ | .expire i | .expireFails i _ | .crash i => some i
  | .arrive _ _ | .elapse _ => none

/-- A step that is not about a key leaves it alone. -/
theorem Move.other (h : Move reflector s e s')
    (hactor : ∀ i r, actor e = some i → s.request? i = some r → r.key ≠ key)
    (harrive : ∀ handler identity, e = .arrive handler identity →
      rateLimitKey handler identity ≠ key) :
    s'.counters key = s.counters key ∧ s.now ≤ s'.now ∧
      ∀ j r, r.key = key → (s'.request? j = some r ↔ s.request? j = some r) := by
  have hset {key' : JsString} {c : Counter} (hkey : key' ≠ key) :
      (s.set key' c).counters key = s.counters key := by
    rw [counters_set, if_neg hkey.symm]
  have hleave {i j : ℕ} {r₀ r : GuardedRequest} (hr₀ : s.request? i = some r₀)
      (hi : actor e = some i) (hr : r.key = key) :
      (s.leave i).request? j = some r ↔ s.request? j = some r := by
    rw [leave_eq_put, request?_put s i j _ (request?_lt (Option.isSome_of_mem hr₀))]
    split_ifs with hj
    · subst hj
      constructor
      · rintro ⟨⟩
      · exact fun h => absurd hr (hactor j r hi h)
    · exact Iff.rfl
  cases h with
  | unguarded handler identity hnone =>
    refine ⟨rfl, le_rfl, fun j r _ => ?_⟩
    rw [request?_append]
    split_ifs with hj
    · rw [hj, request?_length]
      constructor <;> rintro ⟨⟩
    · exact Iff.rfl
  | guarded handler identity options ho =>
    refine ⟨rfl, le_rfl, fun j r hr => ?_⟩
    rw [request?_append]
    split_ifs with hj
    · rw [hj, request?_length]
      constructor
      · rintro ⟨⟩
        exact absurd hr (harrive handler identity rfl)
      · rintro ⟨⟩
    · exact Iff.rfl
  | creates i options key' hr hnone =>
    have hkey := hactor i _ rfl hr
    refine ⟨hset hkey, le_rfl, fun j r hj => ?_⟩
    rw [request?_put (s.set key' _) i j _ (request?_lt (Option.isSome_of_mem hr)), request?_set]
    split_ifs with hji
    · subst hji
      constructor
      · rintro ⟨⟩
        exact absurd hj hkey
      · exact fun h => absurd hj (hactor j r rfl h)
    · exact Iff.rfl
  | counts i options key' c hr hc =>
    exact ⟨hset (hactor i _ rfl hr), le_rfl, fun j r => hleave hr rfl⟩
  | loses i options key' hr hnone =>
    exact ⟨hset (hactor i _ rfl hr), le_rfl, fun j r => hleave hr rfl⟩
  | bumps i options key' c hr hc =>
    exact ⟨hset (hactor i _ rfl hr), le_rfl, fun j r => hleave hr rfl⟩
  | unreached i options key' hr => exact ⟨rfl, le_rfl, fun j r => hleave hr rfl⟩
  | expires i options key' c e he hr hc =>
    have hi : actor e = some i := by
      rcases he with rfl | rfl <;> rfl
    exact ⟨hset (hactor i _ hi hr), le_rfl, fun j r => hleave hr hi⟩
  | unset i options key' hr => exact ⟨rfl, le_rfl, fun j r => hleave hr rfl⟩
  | crash i r hr => exact ⟨rfl, le_rfl, fun j r => hleave hr rfl⟩
  | elapse ms => exact ⟨rfl, le_add_of_nonneg_right (Int.natCast_nonneg ms), fun _ _ _ => Iff.rfl⟩

theorem expires_iff_counters : s.Expires key ↔
    ∀ c, s.counters key = some c → c.expiresAt = none → s.Expiring key c.creator := by
  refine forall_congr' fun c => ?_
  constructor
  · intro h hc hnone
    refine h (live_eq_some.2 ⟨hc, ?_⟩) hnone
    intro t ht
    rw [hnone] at ht
    cases ht
  · exact fun h hc => h (live_eq_some.1 hc).1

theorem expires_congr (hcounters : s'.counters key = s.counters key)
    (hexpiring : ∀ j, s'.Expiring key j ↔ s.Expiring key j) : s'.Expires key ↔ s.Expires key := by
  rw [expires_iff_counters, expires_iff_counters, hcounters]
  exact forall_congr' fun c => imp_congr_right fun _ => imp_congr_right fun _ => hexpiring c.creator

theorem expiring_leave_of_incr {options : RateLimitOptions} {key' : JsString}
    (hr : s.request? i = some ⟨options, key', .incr⟩) (j : ℕ) :
    (s.leave i).Expiring key j ↔ s.Expiring key j := by
  rw [expiring_leave (request?_lt (Option.isSome_of_mem hr))]
  refine ⟨And.right, fun h => ⟨?_, h⟩⟩
  rintro rfl
  exact not_expiring_of_incr hr h

theorem expiring_append (r : Option GuardedRequest) (hr : ∀ o ∈ r, o.next = .incr)
    (vs : List Verdict) (j : ℕ) :
    ({ s with requests := s.requests ++ [r], verdicts := vs } : RateLimiter).Expiring key j ↔
      s.Expiring key j := by
  unfold Expiring
  rw [request?_append]
  split_ifs with hj
  · rw [hj, request?_length]
    constructor
    · rintro ⟨_, _, h⟩
      cases hr _ h
    · rintro ⟨_, _, ⟨⟩⟩
  · exact Iff.rfl

/-- A step on another key. -/
theorem Move.expires_iff_of_ne (h : Move reflector s e s')
    (hactor : ∀ i r, actor e = some i → s.request? i = some r → r.key ≠ key)
    (harrive : ∀ handler identity, e = .arrive handler identity →
      rateLimitKey handler identity ≠ key) :
    s'.Expires key ↔ s.Expires key ∧ ¬ s.Loses key e := by
  obtain ⟨hcounters, -, hrequests⟩ := h.other hactor harrive
  have hloses : ¬ s.Loses key e := by
    intro hloses
    cases e with
    | crash i =>
      obtain ⟨options, count, hr⟩ := hloses
      exact hactor i _ rfl hr rfl
    | expireFails i applied =>
      cases applied with
      | false =>
        obtain ⟨options, count, hr⟩ := hloses
        exact hactor i _ rfl hr rfl
      | true => exact hloses
    | incrFails i applied =>
      cases applied with
      | false => exact hloses
      | true =>
        obtain ⟨-, options, hr⟩ := hloses
        exact hactor i _ rfl hr rfl
    | arrive handler identity => exact hloses
    | incr i => exact hloses
    | expire i => exact hloses
    | elapse ms => exact hloses
  rw [and_iff_left hloses]
  refine expires_congr hcounters fun j => ?_
  exact exists_congr fun options => exists_congr fun count => hrequests j _ rfl

theorem expires_recounted {options : RateLimitOptions} {c : Counter}
    {under : Option (JsString × ℕ)} {allowed : Bool}
    (hr : s.request? i = some ⟨options, key, .incr⟩) (hc : s.counters key = some c) :
    ((s.set key { c with count := c.count + 1 }).tell i under allowed).Expires key ↔
      s.Expires key := by
  have hexpiring (j : ℕ) : ((s.set key { c with count := c.count + 1 }).tell i under
      allowed).Expiring key j ↔ s.Expiring key j := expiring_leave_of_incr hr j
  rw [expires_iff_counters, expires_iff_counters]
  change (∀ c', (s.set key _).counters key = some c' → _) ↔ _
  rw [counters_set, if_pos rfl, hc]
  simp only [Option.some.injEq, forall_eq', hexpiring]

theorem Metered.expires_of_expiring (hm : Metered reflector s) (hi : s.Expiring key i) :
    s.Expires key := by
  rw [expires_iff_counters]
  intro c hc _
  obtain ⟨c', hc', rfl, -⟩ := hm.held key i hi
  rw [hc] at hc'
  cases hc'
  exact hi

/-- Without the request that is to set its expiry, a counter stays. -/
theorem Metered.not_expires_of_leave (hm : Metered reflector s) (hi : s.Expiring key i) :
    ¬ (s.leave i).Expires key := by
  intro hexpires
  obtain ⟨c, hc, rfl, hnone⟩ := hm.held key i hi
  obtain ⟨options, count, hr⟩ := id hi
  have hself := expires_iff_counters.1 hexpires c hc hnone
  exact ((expiring_leave (request?_lt (Option.isSome_of_mem hr))).1 hself).1 rfl

/-- A counter that was set is on its way to expire if its expiry is set too, or its creator is
about to. -/
theorem expires_set {t : RateLimiter} {c : Counter} (hc : t.counters key = some c)
    (h : c.expiresAt = none → t.Expiring key c.creator) : t.Expires key := by
  rw [expires_iff_counters]
  intro c' hc' hnone
  rw [hc] at hc'
  cases hc'
  exact h hnone

/-- A counter that nobody is about to set the expiry of stays. -/
theorem not_expires_set {t : RateLimiter} {c : Counter} (hc : t.counters key = some c)
    (hnone : c.expiresAt = none) (hcreator : ¬ t.Expiring key c.creator) : ¬ t.Expires key :=
  fun hexpires => hcreator (expires_iff_counters.1 hexpires c hc hnone)

theorem expires_of_absent (hnone : s.live key = none) : s.Expires key := by
  intro c hc
  rw [hnone] at hc
  cases hc

theorem counters_set_self (s : RateLimiter) (key : JsString) (c : Counter) :
    (s.set key c).counters key = some c :=
  (counters_set s key key c).trans (if_pos rfl)

/-- A step on the key itself. -/
theorem Metered.expires_iff_of_eq (hm : Metered reflector s) (h : Move reflector s e s')
    (hkey : ∀ i r, actor e = some i → s.request? i = some r → r.key = key) :
    s'.Expires key ↔ s.Expires key ∧ ¬ s.Loses key e := by
  have hkept (he : ¬ s.Loses key e) (h : s'.Expires key ↔ s.Expires key) :
      s'.Expires key ↔ s.Expires key ∧ ¬ s.Loses key e :=
    h.trans (and_iff_left he).symm
  cases h with
  | unguarded handler identity hnone =>
    exact hkept id (expires_congr rfl (expiring_append none (by rintro o ⟨⟩) _))
  | guarded handler identity options ho =>
    refine hkept id (expires_congr rfl (expiring_append (some ⟨options, _, .incr⟩) ?_ _))
    rintro o ⟨⟩
    rfl
  | creates i options key' hr hnone =>
    obtain rfl : key' = key := hkey i _ rfl hr
    refine iff_of_true (expires_set (counters_set_self s key' _) fun _ => ?_)
      ⟨expires_of_absent hnone, id⟩
    exact (expiring_put (s := s.set key' _) (request?_lt (Option.isSome_of_mem hr)) _).2
      (.inl ⟨rfl, rfl, 1, rfl⟩)
  | counts i options key' c hr hc =>
    obtain rfl : key' = key := hkey i _ rfl hr
    exact hkept id (expires_recounted hr (live_eq_some.1 hc).1)
  | loses i options key' hr hnone =>
    obtain rfl : key' = key := hkey i _ rfl hr
    refine iff_of_false (not_expires_set (counters_set_self s key' _) rfl fun hself => ?_)
      fun h => h.2 ⟨hnone, options, hr⟩
    have hlt := request?_lt (Option.isSome_of_mem hr)
    exact ((expiring_leave (s := s.set key' _) hlt).1 hself).1 rfl
  | bumps i options key' c hr hc =>
    obtain rfl : key' = key := hkey i _ rfl hr
    refine hkept ?_ (expires_recounted hr (live_eq_some.1 hc).1)
    rintro ⟨hnone, -⟩
    rw [hc] at hnone
    cases hnone
  | unreached i options key' hr =>
    exact hkept id (expires_congr rfl (expiring_leave_of_incr hr))
  | expires i options key' c e he hr hc =>
    have hi : actor e = some i := by
      rcases he with rfl | rfl <;> rfl
    have hloses : ¬ s.Loses key e := by
      rcases he with rfl | rfl <;> exact id
    obtain rfl : key' = key := hkey i _ hi hr
    exact iff_of_true (expires_set (counters_set_self s key' _) (by rintro ⟨⟩))
      ⟨hm.expires_of_expiring ⟨options, 1, hr⟩, hloses⟩
  | unset i options key' hr =>
    obtain rfl : key' = key := hkey i _ rfl hr
    have hi : s.Expiring key' i := ⟨options, 1, hr⟩
    exact iff_of_false (hm.not_expires_of_leave hi) fun h => h.2 hi
  | crash i r hr =>
    obtain rfl : r.key = key := hkey i r rfl hr
    obtain ⟨options, key', next⟩ := r
    cases next with
    | incr => exact hkept (not_expiring_of_incr hr) (expires_congr rfl (expiring_leave_of_incr hr))
    | expire count =>
      have hi : s.Expiring key' i := ⟨options, count, hr⟩
      exact iff_of_false (hm.not_expires_of_leave hi) fun h => h.2 hi
  | elapse ms =>
    refine hkept id ?_
    rw [expires_iff_counters, expires_iff_counters]
    exact Iff.rfl

/-- A step keeps the counters of a key on their way to expire unless it is one that loses one,
and none makes up for that. -/
theorem Metered.expires_iff (hm : Metered reflector s) (h : step? reflector s e = some s') :
    s'.Expires key ↔ s.Expires key ∧ ¬ s.Loses key e := by
  have hmove := hm.move h
  by_cases hkey : ∀ i r, actor e = some i → s.request? i = some r → r.key = key
  · exact hm.expires_iff_of_eq hmove hkey
  · simp only [not_forall] at hkey
    obtain ⟨i, r, hi, hr, hne⟩ := hkey
    refine hmove.expires_iff_of_ne (fun j r' hj hr' => ?_) ?_
    · obtain rfl := Option.some.inj (hi.symm.trans hj)
      obtain rfl := Option.some.inj (hr.symm.trans hr')
      exact hne
    · rintro handler identity rfl
      cases hi

theorem Metered.expires_iff_neverLoses (hm : Metered reflector s) {es : List RateLimitEvent}
    (h : runs (step? reflector) s es = some s') :
    s'.Expires key ↔ s.Expires key ∧ NeverLoses reflector key s es := by
  induction es generalizing s with
  | nil =>
    cases h
    exact (and_iff_left trivial).symm
  | cons e es ih =>
    obtain ⟨s₁, hs, hrest⟩ := Option.bind_eq_some_iff.1 h
    have hnext : NeverLoses reflector key s (e :: es) ↔
        ¬ s.Loses key e ∧ NeverLoses reflector key s₁ es := by
      refine and_congr_right fun _ => ⟨fun hall => hall s₁ hs, fun hes s₂ hs₂ => ?_⟩
      rw [hs] at hs₂
      cases hs₂
      exact hes
    rw [ih (hm.step hs) hrest, hm.expires_iff hs, hnext, and_assoc]

end Expiry

section Silence

variable {reflector : Reflector} {s s' : RateLimiter} {e : RateLimitEvent} {i : ℕ}
  {handler : Handler} {identity : JsString}

def Silent (s : RateLimiter) (handler : Handler) (identity : JsString) : Prop :=
  ∀ i r, s.request? i = some r → r.key ≠ rateLimitKey handler identity

def Quiet (handler : Handler) (identity : JsString) : RateLimiter → RateLimitEvent → Prop :=
  fun _ e => e ≠ .arrive handler identity

theorem key_ne_of_quiet (hquiet : Quiet handler identity s e) (handler' : Handler)
    (identity' : JsString) (he : e = .arrive handler' identity') :
    rateLimitKey handler' identity' ≠ rateLimitKey handler identity := by
  intro hkey
  obtain rfl := rateLimitKey_inj hkey
  unfold rateLimitKey at hkey
  simp only [List.append_cancel_left_eq, List.cons.injEq, true_and] at hkey
  exact hquiet (hkey ▸ he)

/-- While an identity is silent, its counter is left alone. -/
theorem Metered.silent (hm : Metered reflector s) (hsilent : s.Silent handler identity)
    (h : Reaches (step? reflector) (Quiet handler identity) s s') :
    s'.counters (rateLimitKey handler identity) = s.counters (rateLimitKey handler identity) ∧
      s'.Silent handler identity := by
  induction h with
  | refl => exact ⟨rfl, hsilent⟩
  | tail e hreach hquiet hs ih =>
    obtain ⟨hcounters, hsilent⟩ := ih
    have hmove := (metered_of_reaches hm hreach).move hs
    obtain ⟨hsame, -, hrequests⟩ := hmove.other (fun i r _ => hsilent i r) (key_ne_of_quiet hquiet)
    exact ⟨hsame.trans hcounters, fun i r hr hkey =>
      hsilent i r ((hrequests i r hkey).1 hr) hkey⟩

/-- After `windowSeconds` of silence the counter is gone, if it was on its way to expire. -/
theorem Metered.gone (hm : Metered reflector s) {options : RateLimitOptions}
    (ho : reflector handler = some options) (hsilent : s.Silent handler identity)
    (hexpires : s.Expires (rateLimitKey handler identity))
    (h : Reaches (step? reflector) (Quiet handler identity) s s')
    (hnow : s.now + options.windowSeconds * 1000 ≤ s'.now) :
    s'.live (rateLimitKey handler identity) = none := by
  rw [Option.eq_none_iff_forall_ne_some]
  intro c hlive
  obtain ⟨hc, hexpiry⟩ := live_eq_some.1 hlive
  rw [(hm.silent hsilent h).1] at hc
  cases hnone : c.expiresAt with
  | none =>
    obtain ⟨options', count, hr⟩ := expires_iff_counters.1 hexpires c hc hnone
    exact hsilent _ _ hr rfl
  | some t =>
    have hlt := hexpiry t hnone
    have hle := hm.within handler identity options c ho hc t hnone
    exact absurd (hle.trans hnow) (not_le.2 hlt)

theorem Move.verdicts (h : Move reflector s e s') :
    s.requests.length ≤ s'.requests.length ∧ (s'.verdicts = s.verdicts ∨
      ∃ v, s'.verdicts = s.verdicts ++ [v] ∧ v.request < s'.requests.length ∧
        (v.allowed ∨ actor e = some v.request)) := by
  have htell {i : ℕ} {r : GuardedRequest} (hr : s.request? i = some r)
      {under : Option (JsString × ℕ)} {allowed : Bool} (he : allowed ∨ actor e = some i) :
      s.requests.length ≤ (s.requests.set i none).length ∧
      (s.verdicts ++ [⟨i, under, allowed⟩] = s.verdicts ∨ ∃ v, s.verdicts ++ [⟨i, under, allowed⟩] =
        s.verdicts ++ [v] ∧ v.request < (s.requests.set i none).length ∧
        (v.allowed ∨ actor e = some v.request)) := by
    have hlt := request?_lt (Option.isSome_of_mem hr)
    rw [List.length_set]
    exact ⟨le_rfl, .inr ⟨_, rfl, hlt, he⟩⟩
  cases h with
  | unguarded handler identity hnone =>
    have hlen : (s.requests ++ [none]).length = s.requests.length + 1 := List.length_append
    refine ⟨?_, .inr ⟨_, rfl, ?_, .inl rfl⟩⟩ <;> dsimp only <;> omega
  | guarded handler identity options ho =>
    exact ⟨by simp only [List.length_append]; omega, .inl rfl⟩
  | creates i options key hr hnone =>
    exact ⟨by simp only [put, set, List.length_set, le_rfl], .inl rfl⟩
  | counts i options key c hr hc => exact htell hr (.inr rfl)
  | loses i options key hr hnone => exact htell hr (.inl rfl)
  | bumps i options key c hr hc => exact htell hr (.inl rfl)
  | unreached i options key hr => exact htell hr (.inl rfl)
  | expires i options key c e he hr hc => exact htell hr (.inl rfl)
  | unset i options key hr => exact htell hr (.inl rfl)
  | crash i r hr => exact ⟨by simp only [leave, List.length_set, le_rfl], .inl rfl⟩
  | elapse ms => exact ⟨le_rfl, .inl rfl⟩

theorem told_lt {clock : Time} {ok : RateLimiter → RateLimitEvent → Prop}
    (h : Reaches (step? reflector) ok (initial clock) s) :
    ∀ v ∈ s.verdicts, v.request < s.requests.length := by
  induction h with
  | refl => exact List.forall_mem_nil _
  | tail e hreach _ hs ih =>
    obtain ⟨hlen, hsame | ⟨v, hv, hlt, -⟩⟩ :=
      ((metered_of_reaches (metered_initial clock) hreach).move hs).verdicts
    · rw [hsame]
      exact fun v hv => (ih v hv).trans_le hlen
    · rw [hv]
      refine List.forall_mem_append.2 ⟨fun v hv => (ih v hv).trans_le hlen, ?_⟩
      exact List.forall_mem_singleton.2 hlt

/-- A request that is the only one of its identity, and that has met no counter. -/
structure Welcome (s : RateLimiter) (key : JsString) (n : ℕ) : Prop where
  alone : ∀ i r, s.request? i = some r → (r.key = key ↔ i = n)
  unmet : ∀ options key', s.request? n = some ⟨options, key', .incr⟩ → s.live key = none
  known : n < s.requests.length
  allowed : ∀ v ∈ s.verdicts, v.request = n → v.allowed

variable {key : JsString} {n : ℕ}

theorem Move.request?_of_ne (h : Move reflector s e s') (hactor : actor e ≠ some n)
    (hn : n < s.requests.length) : s'.request? n = s.request? n := by
  have hleave {i : ℕ} {r : GuardedRequest} (hr : s.request? i = some r) (hi : actor e = some i) :
      (s.leave i).request? n = s.request? n := by
    rw [leave_eq_put, request?_put s i n _ (request?_lt (Option.isSome_of_mem hr)), if_neg]
    rintro rfl
    exact hactor hi
  cases h with
  | unguarded handler identity hnone =>
    rw [request?_append, if_neg hn.ne]
  | guarded handler identity options ho =>
    rw [request?_append, if_neg hn.ne]
  | creates i options key hr hnone =>
    rw [request?_put (s.set key _) i n _ (request?_lt (Option.isSome_of_mem hr)), if_neg,
      request?_set]
    rintro rfl
    exact hactor rfl
  | counts i options key c hr hc => exact hleave hr rfl
  | loses i options key hr hnone => exact hleave hr rfl
  | bumps i options key c hr hc => exact hleave hr rfl
  | unreached i options key hr => exact hleave hr rfl
  | expires i options key c e he hr hc => exact hleave hr (by rcases he with rfl | rfl <;> rfl)
  | unset i options key hr => exact hleave hr rfl
  | crash i r hr => exact hleave hr rfl
  | elapse ms => rfl

theorem live_none_mono (hcounters : s'.counters key = s.counters key) (hnow : s.now ≤ s'.now)
    (h : s.live key = none) : s'.live key = none := by
  rw [Option.eq_none_iff_forall_ne_some] at h ⊢
  intro c hc
  obtain ⟨hc, hlive⟩ := live_eq_some.1 hc
  rw [hcounters] at hc
  exact h c (live_eq_some.2 ⟨hc, fun t ht => hnow.trans_lt (hlive t ht)⟩)

theorem Welcome.leaves (hw : s.Welcome key n) {r : GuardedRequest} (hr : s.request? n = some r)
    (hrequests : ∀ j, s'.request? j = (s.leave n).request? j)
    (hlen : s.requests.length ≤ s'.requests.length)
    (hallowed : ∀ v ∈ s'.verdicts, v.request = n → v.allowed) : s'.Welcome key n where
  alone i r' hi := hw.alone i r' (request?_of_leave hr (hrequests i ▸ hi)).2
  unmet _ _ hn := absurd rfl (request?_of_leave hr (hrequests n ▸ hn)).1
  known := hw.known.trans_le hlen
  allowed := hallowed

/-- A step of the request itself. -/
theorem Welcome.own (hw : s.Welcome (rateLimitKey handler identity) n)
    (hmove : Move reflector s e s') (hactor : actor e = some n) :
    s'.Welcome (rateLimitKey handler identity) n := by
  obtain ⟨hlen, -⟩ := hmove.verdicts
  have htold {v : Verdict} (hv : v.allowed) :
      ∀ w ∈ s.verdicts ++ [v], w.request = n → w.allowed :=
    List.forall_mem_append.2 ⟨hw.allowed, List.forall_mem_singleton.2 fun _ => hv⟩
  have hmet {i : ℕ} {options : RateLimitOptions} {key' : JsString} {c : Counter} (hi : i = n)
      (hr : s.request? i = some ⟨options, key', .incr⟩) : s.live key' ≠ some c := by
    subst hi
    have hkey : key' = rateLimitKey handler identity := (hw.alone i _ hr).2 rfl
    rw [hkey, hw.unmet options key' hr]
    rintro ⟨⟩
  cases hmove with
  | unguarded handler identity hnone => cases hactor
  | guarded handler identity options ho => cases hactor
  | creates i options key' hr hnone =>
    cases hactor
    have hput (j : ℕ) :=
      request?_put (s.set key' ⟨1, none, n⟩) n j (some ⟨options, key', .expire 1⟩) hw.known
    constructor
    · intro j r hj
      rw [hput] at hj
      split_ifs at hj with hji
      · cases hj
        exact iff_of_true ((hw.alone n _ hr).2 rfl) hji
      · exact hw.alone j r hj
    · intro options' key'' hn
      rw [hput, if_pos rfl] at hn
      cases hn
    · exact hw.known.trans_le hlen
    · exact hw.allowed
  | counts i options key' c hr hc =>
    exact absurd hc (hmet (Option.some.inj hactor) hr)
  | loses i options key' hr hnone =>
    cases hactor
    exact hw.leaves hr (fun _ => rfl) hlen (htold rfl)
  | bumps i options key' c hr hc =>
    exact absurd hc (hmet (Option.some.inj hactor) hr)
  | unreached i options key' hr =>
    cases hactor
    exact hw.leaves hr (fun _ => rfl) hlen (htold rfl)
  | expires i options key' c e he hr hc =>
    have hi : i = n := by
      rcases he with rfl | rfl <;> exact Option.some.inj hactor
    subst hi
    exact hw.leaves hr (fun _ => rfl) hlen (htold rfl)
  | unset i options key' hr =>
    cases hactor
    exact hw.leaves hr (fun _ => rfl) hlen (htold rfl)
  | crash i r hr =>
    cases hactor
    exact hw.leaves hr (fun _ => rfl) hlen hw.allowed
  | elapse ms => cases hactor

/-- A step of another request, which is not of the identity. -/
theorem Welcome.others (hw : s.Welcome (rateLimitKey handler identity) n)
    (hmove : Move reflector s e s') (hquiet : Quiet handler identity s e)
    (hactor : actor e ≠ some n) : s'.Welcome (rateLimitKey handler identity) n := by
  obtain ⟨hlen, hverdicts⟩ := hmove.verdicts
  have hsame := hmove.request?_of_ne hactor hw.known
  obtain ⟨hcounters, hnow, hrequests⟩ := hmove.other (fun i r hi hr hkey =>
    hactor (hi.trans (congrArg some ((hw.alone i r hr).1 hkey)))) (key_ne_of_quiet hquiet)
  constructor
  · intro i r hr
    constructor
    · exact fun hkey => (hw.alone i r ((hrequests i r hkey).1 hr)).1 hkey
    · rintro rfl
      exact (hw.alone i r (hsame ▸ hr)).2 rfl
  · intro options key' hn
    exact live_none_mono hcounters hnow (hw.unmet options key' (hsame ▸ hn))
  · exact hw.known.trans_le hlen
  · rcases hverdicts with hsame | ⟨v, hv, -, hallowed⟩
    · rw [hsame]
      exact hw.allowed
    · rw [hv]
      refine List.forall_mem_append.2 ⟨hw.allowed, List.forall_mem_singleton.2 fun hn => ?_⟩
      rcases hallowed with hallowed | hact
      · exact hallowed
      · exact absurd (hn ▸ hact) hactor

theorem Welcome.step (hw : s.Welcome (rateLimitKey handler identity) n) (hm : Metered reflector s)
    (hquiet : Quiet handler identity s e) (h : step? reflector s e = some s') :
    s'.Welcome (rateLimitKey handler identity) n := by
  by_cases hactor : actor e = some n
  · exact hw.own (hm.move h) hactor
  · exact hw.others (hm.move h) hquiet hactor

theorem Metered.welcome (hm : Metered reflector s) {options : RateLimitOptions}
    (ho : reflector handler = some options) (hsilent : s.Silent handler identity)
    (hnone : s.live (rateLimitKey handler identity) = none)
    (htold : ∀ v ∈ s.verdicts, v.request < s.requests.length)
    (h : step? reflector s (.arrive handler identity) = some s') :
    s'.Welcome (rateLimitKey handler identity) s.requests.length := by
  cases hm.move h with
  | unguarded _ _ hnone =>
    rw [ho] at hnone
    cases hnone
  | guarded _ _ options' ho' =>
    have hrequest (j : ℕ) := request?_append s
      (some ⟨options', rateLimitKey handler identity, .incr⟩) s.verdicts j
    constructor
    · intro j r hj
      rw [hrequest] at hj
      split_ifs at hj with hlen
      · cases hj
        exact iff_of_true rfl hlen
      · exact iff_of_false (hsilent j r hj) hlen
    · exact fun _ _ _ => hnone
    · simp only [List.length_append, List.length_singleton, Nat.lt_add_one]
    · exact fun v hv hn => absurd hn (htold v hv).ne
  | expires _ _ _ _ _ he => rcases he with he | he <;> cases he

theorem Welcome.run (hw : s.Welcome (rateLimitKey handler identity) n) (hm : Metered reflector s)
    (h : Reaches (step? reflector) (Quiet handler identity) s s') :
    s'.Welcome (rateLimitKey handler identity) n := by
  induction h with
  | refl => exact hw
  | tail e hreach hquiet hs ih => exact ih.step (metered_of_reaches hm hreach) hquiet hs

end Silence

/-- The counters of a key are on their way to expire in the runs that lose none, and in no other.
Then an identity that was silent for `windowSeconds` is let through; and no counter ever lets
through more than its limit. -/
theorem rate_limits_expire (reflector : Reflector) (clock : Time) (es : List RateLimitEvent)
    (s : RateLimiter) (hrun : runs (step? reflector) (initial clock) es = some s) :
    (∀ key, s.Expires key ↔ NeverLoses reflector key (initial clock) es) ∧
    ∀ handler identity options, reflector handler = some options →
      (NeverLoses reflector (rateLimitKey handler identity) (initial clock) es →
        s.Silent handler identity →
        ∀ s₁, Reaches (step? reflector) (Quiet handler identity) s s₁ →
          s.now + options.windowSeconds * 1000 ≤ s₁.now →
          s₁.live (rateLimitKey handler identity) = none ∧
          ∀ s₂ s₃, step? reflector s₁ (.arrive handler identity) = some s₂ →
            Reaches (step? reflector) (Quiet handler identity) s₂ s₃ →
            ∀ v ∈ s₃.verdicts, v.request = s₁.requests.length → v.allowed) ∧
      ∀ creator, s.admitted (rateLimitKey handler identity) creator ≤ options.limit := by
  have hreach : Reaches (step? reflector) (fun _ _ => True) (initial clock) s :=
    reaches_of_runs hrun fun _ _ _ => trivial
  have hm : Metered reflector s := metered_of_reaches (metered_initial clock) hreach
  have hexpires (key : JsString) :
      s.Expires key ↔ NeverLoses reflector key (initial clock) es := by
    rw [(metered_initial clock).expires_iff_neverLoses hrun, and_iff_right]
    rintro c ⟨⟩
  refine ⟨hexpires, fun handler identity options ho => ⟨?_, fun creator => ?_⟩⟩
  · intro hnever hsilent s₁ hquiet hnow
    have hm₁ := metered_of_reaches hm hquiet
    have hgone := hm.gone ho hsilent ((hexpires _).2 hnever) hquiet hnow
    refine ⟨hgone, fun s₂ s₃ harrive hrest => ?_⟩
    have htold := told_lt (hreach.trans (hquiet.mono fun _ _ _ => trivial))
    have hwelcome := hm₁.welcome ho (hm.silent hsilent hquiet).2 hgone htold harrive
    exact (hwelcome.run (hm₁.step harrive) hrest).allowed
  · exact (Nat.le_add_right _ _).trans (hm.accounted.limited handler identity options ho creator)

section Samples

def sampleHandler : Handler := ⟨⟨js "UsersController", by decide⟩, ⟨js "search", by decide⟩⟩

def sampleReflector : Reflector :=
  fun handler => if handler = sampleHandler then some ⟨1, 60, by decide, by decide⟩ else none

def lockedOut : List RateLimitEvent :=
  [.arrive sampleHandler (js "alice"), .incr 0, .crash 0, .elapse 86400000,
    .arrive sampleHandler (js "alice"), .incr 1]

def sampleKey : JsString := rateLimitKey sampleHandler (js "alice")

theorem rate_limits_expire_counted : ∃ s, runs (step? sampleReflector) (initial 0)
    [.arrive sampleHandler (js "alice"), .incr 0, .expire 0] = some s ∧
    s.admitted sampleKey 0 ≤ 1 ∧ ({ s with now := s.now + (60000 : ℕ) } : RateLimiter).live
      sampleKey = none := by
  obtain ⟨s, hs, hgone⟩ := Option.map_eq_some_iff.1
    (show (runs (step? sampleReflector) (initial 0) [.arrive sampleHandler (js "alice"), .incr 0,
      .expire 0]).map (fun s => s.requests.map Option.isSome) = some [false] by decide +kernel)
  obtain ⟨-, hlimits⟩ := rate_limits_expire sampleReflector 0 _ s hs
  obtain ⟨hsilence, hadmitted⟩ := hlimits sampleHandler (js "alice") _ (if_pos rfl)
  refine ⟨s, hs, hadmitted 0, (hsilence ?_ ?_ _ (.tail (.elapse 60000) .refl ?_ rfl) le_rfl).1⟩
  · exact ⟨id, fun _ _ => ⟨id, fun _ _ => ⟨id, fun _ _ => trivial⟩⟩⟩
  · intro i r hr
    have hmem := List.mem_map_of_mem (f := Option.isSome)
      (List.mem_of_getElem? (Option.join_eq_some_iff.1 hr))
    rw [hgone] at hmem
    cases List.mem_singleton.1 hmem
  · rintro ⟨⟩

theorem rate_limit_locks_out : ∃ s, runs (step? sampleReflector) (initial 0) lockedOut = some s ∧
    (s.live sampleKey).map Counter.expiresAt = some none ∧
    s.requests.map Option.isSome = [false, false] ∧
    s.verdicts.map (fun v => (v.request, v.allowed)) = [(1, false)] := by
  obtain ⟨s, hs, heq⟩ := Option.map_eq_some_iff.1
    (show (runs (step? sampleReflector) (initial 0) lockedOut).map (fun s =>
        ((s.live sampleKey).map Counter.expiresAt, s.requests.map Option.isSome,
          s.verdicts.map (fun v => (v.request, v.allowed)))) =
      some (some none, [false, false], [(1, false)]) by decide +kernel)
  obtain ⟨hlive, hrest⟩ := Prod.mk.inj heq
  exact ⟨s, hs, hlive, Prod.mk.inj hrest⟩

end Samples

end RateLimiter

end MoneyMovement
