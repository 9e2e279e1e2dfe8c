import MoneyMovement.Redis.RateLimits
import MoneyMovement.Txn.Reaches

/-!
# What a counter lets through

A counter lets through no more requests than it has counted, and no more than its limit,
whichever commands are lost.
-/

namespace MoneyMovement

open Txn

namespace RateLimiter

section Accounts

variable (reflector : Reflector)

/-- No counter has let through more than it has counted, nor more than its limit. -/
structure Accounted (s : RateLimiter) : Prop where
  fresh : ∀ i, s.Unstarted i →
    (∀ key, s.charged key i = 0) ∧ ∀ key c, s.counters key = some c → c.creator ≠ i
  counted : ∀ key c, s.counters key = some c → s.charged key c.creator ≤ c.count
  limited : ∀ handler identity options, reflector handler = some options →
    ∀ i, s.charged (rateLimitKey handler identity) i ≤ options.limit

variable {reflector} {s s' : RateLimiter} {i : ℕ} {key : JsString} {options : RateLimitOptions}
  {c : Counter}

theorem Accounted.mono (h : Accounted reflector s)
    (hcharged : ∀ key i, s'.charged key i ≤ s.charged key i)
    (hcounters : ∀ key c', s'.counters key = some c' →
      ∃ c, s.counters key = some c ∧ c.creator = c'.creator ∧ c.count ≤ c'.count)
    (hunstarted : ∀ i, s'.Unstarted i → s.Unstarted i) : Accounted reflector s' where
  fresh i hi := by
    obtain ⟨hzero, hother⟩ := h.fresh i (hunstarted i hi)
    refine ⟨fun key => ?_, fun key c' hc' => ?_⟩
    · have hle := hcharged key i
      rw [hzero key] at hle
      exact Nat.le_zero.1 hle
    · obtain ⟨c, hc, hsame, -⟩ := hcounters key c' hc'
      rw [← hsame]
      exact hother key c hc
  counted key c' hc' := by
    obtain ⟨c, hc, hsame, hle⟩ := hcounters key c' hc'
    calc s'.charged key c'.creator ≤ s.charged key c.creator := hsame ▸ hcharged key _
      _ ≤ c.count := h.counted key c hc
      _ ≤ c'.count := hle
  limited handler identity options ho i :=
    (hcharged _ _).trans (h.limited handler identity options ho i)

/-- The request that sets a counter. -/
theorem Accounted.creates (h : Accounted reflector s) (hi : s.Unstarted i)
    (hcharged : ∀ key j, s'.charged key j ≤ s.charged key j + if j = i then 1 else 0)
    (hcounters : s'.counters = Function.update s.counters key (some ⟨1, none, i⟩))
    (hunstarted : ∀ j, s'.Unstarted j → j ≠ i ∧ s.Unstarted j) : Accounted reflector s' where
  fresh j hj := by
    obtain ⟨hne, hj⟩ := hunstarted j hj
    obtain ⟨hzero, hother⟩ := h.fresh j hj
    refine ⟨fun key' => ?_, fun key' c hc => ?_⟩
    · have hle := hcharged key' j
      rw [hzero key', if_neg hne] at hle
      exact Nat.le_zero.1 hle
    · rw [hcounters] at hc
      by_cases hkey : key' = key
      · rw [hkey, Function.update_self] at hc
        cases hc
        exact Ne.symm hne
      · rw [Function.update_of_ne hkey] at hc
        exact hother key' c hc
  counted key' c hc := by
    rw [hcounters] at hc
    by_cases hkey : key' = key
    · rw [hkey, Function.update_self] at hc
      cases hc
      have hle := hcharged key' i
      rwa [(h.fresh i hi).1 key', if_pos rfl] at hle
    · rw [Function.update_of_ne hkey] at hc
      have hle := hcharged key' c.creator
      rw [if_neg ((h.fresh i hi).2 key' c hc)] at hle
      exact hle.trans (h.counted key' c hc)
  limited handler identity options ho j := by
    have hle := hcharged (rateLimitKey handler identity) j
    by_cases hji : j = i
    · subst hji
      rw [(h.fresh j hi).1, if_pos rfl] at hle
      exact hle.trans options.limit_pos
    · rw [if_neg hji] at hle
      exact hle.trans (h.limited handler identity options ho j)

theorem not_expiring_of_incr {key' : JsString}
    (hr : s.request? i = some ⟨options, key, .incr⟩) : ¬ s.Expiring key' i := by
  rintro ⟨_, _, hr'⟩
  rw [hr] at hr'
  cases hr'

theorem charged_leave_le (hi : i < s.requests.length) (key : JsString) (j : ℕ) :
    (s.leave i).charged key j ≤ s.charged key j := by
  unfold charged
  rw [leave_eq_put, admitted_put, ← leave_eq_put]
  refine Nat.add_le_add_left ?_ _
  split_ifs with h h' h'
  · exact le_rfl
  · exact absurd ((expiring_leave hi).1 h).2 h'
  · exact Nat.zero_le 1
  · exact le_rfl

theorem charged_tell (s : RateLimiter) (i : ℕ) (under : Option (JsString × ℕ)) (allowed : Bool)
    (key : JsString) (j : ℕ) :
    (s.tell i under allowed).charged key j =
      (s.leave i).charged key j + if under = some (key, j) ∧ allowed then 1 else 0 := by
  unfold charged
  rw [admitted_tell, leave_eq_put, admitted_put]
  exact Nat.add_right_comm _ _ _

/-- A request that sets the expiry was charged before it is let through. -/
theorem charged_settled_le (hi : s.Expiring key i) (allowed : Bool) (key' : JsString) (j : ℕ) :
    (s.tell i (some (key, i)) allowed).charged key' j ≤ s.charged key' j := by
  obtain ⟨options, count, hr⟩ := id hi
  have hlt := request?_lt (Option.isSome_of_mem hr)
  rw [charged_tell]
  by_cases hsame : key' = key ∧ j = i
  · obtain ⟨rfl, rfl⟩ := hsame
    have hgone : ¬ (s.leave j).Expiring key' j := by
      intro h
      exact ((expiring_leave hlt).1 h).1 rfl
    unfold charged
    rw [if_neg hgone, if_pos hi, leave_eq_put, admitted_put]
    split_ifs <;> omega
  · rw [if_neg (by rintro ⟨h, -⟩; cases h; exact hsame ⟨rfl, rfl⟩)]
    exact charged_leave_le hlt key' j

/-- A request that counts on a counter it did not set. -/
theorem Accounted.counts (h : Accounted reflector s) {handler : Handler} {identity : JsString}
    (ho : reflector handler = some options)
    (hr : s.request? i = some ⟨options, rateLimitKey handler identity, .incr⟩)
    (hc : s.counters (rateLimitKey handler identity) = some c) :
    Accounted reflector
      ((s.set (rateLimitKey handler identity) { c with count := c.count + 1 }).tell i
        (some (rateLimitKey handler identity, c.creator)) (¬ c.count + 1 > options.limit)) := by
  set key := rateLimitKey handler identity with hkey
  set s₁ := s.set key { c with count := c.count + 1 } with hs₁
  have hlt := request?_lt (Option.isSome_of_mem hr)
  have hle (key' : JsString) (j : ℕ) :
      (s₁.tell i (some (key, c.creator)) (¬ c.count + 1 > options.limit)).charged key' j ≤
        s.charged key' j +
          if key' = key ∧ j = c.creator ∧ c.count + 1 ≤ options.limit then 1 else 0 := by
    rw [charged_tell]
    refine Nat.add_le_add (charged_leave_le (s := s₁) hlt key' j) ?_
    split_ifs with h₁ h₂
    · exact le_rfl
    · obtain ⟨hsame, hallowed⟩ := h₁
      cases hsame
      exact absurd ⟨rfl, rfl, not_lt.1 (of_decide_eq_true hallowed)⟩ h₂
    · exact Nat.zero_le 1
    · exact le_rfl
  constructor
  · intro j hj
    obtain ⟨-, hj⟩ := unstarted_leave (s := s₁) hlt hj
    obtain ⟨hzero, hother⟩ := h.fresh j hj
    have hne := hother key c hc
    refine ⟨fun key' => ?_, fun key' c' hc' => ?_⟩
    · have hle := hle key' j
      rw [hzero key', if_neg (by rintro ⟨-, rfl, -⟩; exact hne rfl)] at hle
      exact Nat.le_zero.1 hle
    · by_cases hkeys : key' = key
      · rw [hkeys] at hc'
        change Function.update s.counters key _ key = some c' at hc'
        rw [Function.update_self] at hc'
        cases hc'
        exact hne
      · change Function.update s.counters key _ key' = some c' at hc'
        rw [Function.update_of_ne hkeys] at hc'
        exact hother key' c' hc'
  · intro key' c' hc'
    change Function.update s.counters key _ key' = some c' at hc'
    by_cases hkeys : key' = key
    · subst hkeys
      rw [Function.update_self] at hc'
      cases hc'
      have hcounted := h.counted key c hc
      refine (hle key c.creator).trans ?_
      dsimp only
      split_ifs <;> omega
    · rw [Function.update_of_ne hkeys] at hc'
      refine (hle key' c'.creator).trans ?_
      rw [if_neg (by rintro ⟨h, -⟩; exact hkeys h)]
      exact h.counted key' c' hc'
  · intro handler' identity' options' ho' j
    refine (hle _ j).trans ?_
    have hlimited := h.limited handler' identity' options' ho' j
    split_ifs with hthis
    · obtain ⟨hkeys, rfl, hallowed⟩ := hthis
      obtain rfl := rateLimitKey_inj hkeys
      rw [ho] at ho'
      cases ho'
      have hcounted := h.counted key c hc
      rw [hkeys]
      omega
    · exact hlimited

end Accounts

section Moves

variable (reflector : Reflector)

/-- What holds of every reachable state. -/
structure Metered (s : RateLimiter) : Prop where
  keyed : ∀ i r, s.request? i = some r →
    ∃ handler identity, reflector handler = some r.options ∧ r.key = rateLimitKey handler identity
  first : ∀ i options key count, s.request? i = some ⟨options, key, .expire count⟩ → count = 1
  held : ∀ key i, s.Expiring key i →
    ∃ c, s.counters key = some c ∧ c.creator = i ∧ c.expiresAt = none
  positive : ∀ key c, s.counters key = some c → 1 ≤ c.count
  within : ∀ handler identity options c, reflector handler = some options →
    s.counters (rateLimitKey handler identity) = some c →
    ∀ t ∈ c.expiresAt, t ≤ s.now + options.windowSeconds * 1000
  accounted : Accounted reflector s

inductive Move (s : RateLimiter) : RateLimitEvent → RateLimiter → Prop
  | unguarded (handler : Handler) (identity : JsString) : reflector handler = none →
    Move s (.arrive handler identity) { s with
      requests := s.requests ++ [none]
      verdicts := s.verdicts ++ [⟨s.requests.length, none, true⟩] }
  | guarded (handler : Handler) (identity : JsString) (options : RateLimitOptions) :
    reflector handler = some options → Move s (.arrive handler identity) { s with
      requests := s.requests ++ [some ⟨options, rateLimitKey handler identity, .incr⟩] }
  | creates (i : ℕ) (options : RateLimitOptions) (key : JsString) :
    s.request? i = some ⟨options, key, .incr⟩ → s.live key = none →
    Move s (.incr i) ((s.set key ⟨1, none, i⟩).put i (some ⟨options, key, .expire 1⟩))
  | counts (i : ℕ) (options : RateLimitOptions) (key : JsString) (c : Counter) :
    s.request? i = some ⟨options, key, .incr⟩ → s.live key = some c →
    Move s (.incr i) ((s.set key { c with count := c.count + 1 }).tell i (some (key, c.creator))
      (¬ c.count + 1 > options.limit))
  | loses (i : ℕ) (options : RateLimitOptions) (key : JsString) :
    s.request? i = some ⟨options, key, .incr⟩ → s.live key = none →
    Move s (.incrFails i true) ((s.set key ⟨1, none, i⟩).tell i none true)
  | bumps (i : ℕ) (options : RateLimitOptions) (key : JsString) (c : Counter) :
    s.request? i = some ⟨options, key, .incr⟩ → s.live key = some c →
    Move s (.incrFails i true) ((s.set key { c with count := c.count + 1 }).tell i none true)
  | unreached (i : ℕ) (options : RateLimitOptions) (key : JsString) :
    s.request? i = some ⟨options, key, .incr⟩ → Move s (.incrFails i false) (s.tell i none true)
  | expires (i : ℕ) (options : RateLimitOptions) (key : JsString) (c : Counter)
      (e : RateLimitEvent) : e = .expire i ∨ e = .expireFails i true →
    s.request? i = some ⟨options, key, .expire 1⟩ → s.counters key = some c →
    Move s e ((s.set key { c with expiresAt := some (s.now + options.windowSeconds * 1000) }).tell i
      (some (key, i)) true)
  | unset (i : ℕ) (options : RateLimitOptions) (key : JsString) :
    s.request? i = some ⟨options, key, .expire 1⟩ →
    Move s (.expireFails i false) (s.tell i (some (key, i)) true)
  | crash (i : ℕ) (r : GuardedRequest) : s.request? i = some r → Move s (.crash i) (s.leave i)
  | elapse (ms : ℕ) : Move s (.elapse ms) { s with now := s.now + ms }

variable {reflector} {s s' : RateLimiter} {e : RateLimitEvent} {i : ℕ} {key : JsString}
  {c : Counter}

theorem live_eq_some :
    s.live key = some c ↔ s.counters key = some c ∧ ∀ t ∈ c.expiresAt, s.now < t := by
  unfold live
  rw [Option.filter_eq_some_iff, decide_eq_true_iff]

/-- A counter whose request is about to set its expiry is there. -/
theorem Metered.live_of_expiring (hm : Metered reflector s) (hi : s.Expiring key i) :
    ∃ c, s.live key = some c ∧ s.counters key = some c ∧ c.creator = i ∧ c.expiresAt = none := by
  obtain ⟨c, hc, hcreator, hnone⟩ := hm.held key i hi
  refine ⟨c, live_eq_some.2 ⟨hc, ?_⟩, hc, hcreator, hnone⟩
  intro t ht
  rw [hnone] at ht
  cases ht

section Moves

variable {applied : Bool}

theorem arrive_move {handler : Handler} {identity : JsString}
    (h : step? reflector s (.arrive handler identity) = some s') :
    Move reflector s (.arrive handler identity) s' := by
  unfold step? at h
  dsimp only at h
  split at h
  · next hnone =>
    cases h
    exact .unguarded handler identity hnone
  · next options ho =>
    cases h
    exact .guarded handler identity options ho

theorem Metered.incr_move (hm : Metered reflector s) (h : step? reflector s (.incr i) = some s') :
    Move reflector s (.incr i) s' := by
  unfold step? at h
  dsimp only at h
  split at h
  · next options key hr =>
    cases h
    unfold incremented
    split
    · next hnone => exact .creates i options key hr hnone
    · next c hc =>
      have hne : c.count + 1 ≠ 1 := by
        have hpos := hm.positive key c (live_eq_some.1 hc).1
        omega
      unfold counted
      rw [if_neg hne]
      exact .counts i options key c hr hc
  · cases h

theorem incrFails_move (h : step? reflector s (.incrFails i applied) = some s') :
    Move reflector s (.incrFails i applied) s' := by
  unfold step? at h
  dsimp only at h
  split at h
  · next options key hr =>
    cases h
    cases applied with
    | false => exact .unreached i options key hr
    | true =>
      rw [if_pos rfl]
      unfold incremented
      split
      · next hnone => exact .loses i options key hr hnone
      · next c hc => exact .bumps i options key c hr hc
  · cases h

theorem Metered.expire_move (hm : Metered reflector s)
    (h : step? reflector s (.expire i) = some s') : Move reflector s (.expire i) s' := by
  unfold step? at h
  dsimp only at h
  split at h
  · next options key count hr =>
    cases h
    obtain rfl := hm.first i options key count hr
    obtain ⟨c, hlive, hc, -⟩ := hm.live_of_expiring ⟨options, 1, hr⟩
    have hallowed : decide (¬ 1 > options.limit) = true :=
      decide_eq_true (not_lt.2 options.limit_pos)
    unfold judge expiring
    rw [hlive, hallowed]
    exact .expires i options key c _ (.inl rfl) hr hc
  · cases h

theorem Metered.expireFails_move (hm : Metered reflector s)
    (h : step? reflector s (.expireFails i applied) = some s') :
    Move reflector s (.expireFails i applied) s' := by
  unfold step? at h
  dsimp only at h
  split at h
  · next options key count hr =>
    cases h
    obtain rfl := hm.first i options key count hr
    cases applied with
    | false => exact .unset i options key hr
    | true =>
      obtain ⟨c, hlive, hc, -⟩ := hm.live_of_expiring ⟨options, 1, hr⟩
      rw [if_pos rfl]
      unfold expiring
      rw [hlive]
      exact .expires i options key c _ (.inr rfl) hr hc
  · cases h

theorem Metered.move (hm : Metered reflector s) (h : step? reflector s e = some s') :
    Move reflector s e s' := by
  cases e with
  | arrive handler identity => exact arrive_move h
  | incr i => exact hm.incr_move h
  | incrFails i applied => exact incrFails_move h
  | expire i => exact hm.expire_move h
  | expireFails i applied => exact hm.expireFails_move h
  | crash i =>
    unfold step? at h
    dsimp only at h
    split_ifs at h with hsome
    obtain ⟨r, hr⟩ := Option.isSome_iff_exists.1 hsome
    cases h
    exact .crash i r hr
  | elapse ms =>
    cases h
    exact .elapse ms

end Moves

theorem counters_set (s : RateLimiter) (key key' : JsString) (c : Counter) :
    (s.set key c).counters key' = if key' = key then some c else s.counters key' :=
  Function.update_apply s.counters key (some c) key'

theorem request?_append (s : RateLimiter) (r : Option GuardedRequest) (vs : List Verdict) (j : ℕ) :
    ({ s with requests := s.requests ++ [r], verdicts := vs } : RateLimiter).request? j =
      if j = s.requests.length then r else s.request? j := by
  unfold request?
  dsimp only
  split_ifs with hj
  · rw [hj, List.getElem?_concat_length]
    rfl
  · rcases Nat.lt_or_ge j s.requests.length with hlt | hge
    · rw [List.getElem?_append_left hlt]
    · rw [List.getElem?_eq_none (by simp only [List.length_append, List.length_singleton]; omega),
        List.getElem?_eq_none hge]

/-- What an arrival leaves alone. -/
theorem Accounted.arrives (h : Accounted reflector s) (r : Option GuardedRequest)
    (vs : List Verdict) (hr : ∀ o ∈ r, o.next = .incr) (hvs : ∀ v ∈ vs, v.under = none) :
    Accounted reflector { s with requests := s.requests ++ [r], verdicts := s.verdicts ++ vs } := by
  set s' : RateLimiter := { s with requests := s.requests ++ [r], verdicts := s.verdicts ++ vs }
    with hs'
  have hrequest (j : ℕ) := request?_append s r (s.verdicts ++ vs) j
  refine h.mono (fun key j => ?_) (fun key c hc => ⟨c, hc, rfl, le_rfl⟩) (fun j hj => ?_)
  · have hadmitted : s'.admitted key j = s.admitted key j := by
      unfold admitted
      rw [hs', List.filter_append, List.length_append, Nat.add_eq_left, List.length_eq_zero_iff,
        List.filter_eq_nil_iff]
      intro v hv hunder
      have hunder := (of_decide_eq_true hunder).1
      rw [hvs v hv] at hunder
      cases hunder
    have hexpiring : s'.Expiring key j → s.Expiring key j := by
      rintro ⟨options, count, hj⟩
      rw [hs', hrequest] at hj
      split_ifs at hj with hlen
      · cases hr _ hj
      · exact ⟨options, count, hj⟩
    unfold charged
    rw [hadmitted]
    split_ifs with h₁ h₂ <;> first | omega | exact absurd (hexpiring h₁) h₂
  · rcases hj with hlen | ⟨options, key, hj⟩
    · rw [hs'] at hlen
      simp only [List.length_append, List.length_singleton] at hlen
      exact .inl (by omega)
    · rw [hs', hrequest] at hj
      split_ifs at hj with hlen
      · exact .inl hlen.ge
      · exact .inr ⟨options, key, hj⟩

/-- The steps that start no request and no second command. -/
theorem Metered.next (hm : Metered reflector s) (hnow : s.now ≤ s'.now)
    (hrequests : ∀ j r, s'.request? j = some r → s.request? j = some r)
    (hcounters : ∀ key c', s'.counters key = some c' → 1 ≤ c'.count ∧ ∀ t ∈ c'.expiresAt,
      (∃ c, s.counters key = some c ∧ t ∈ c.expiresAt) ∨
      ∃ j r, s.request? j = some r ∧ r.key = key ∧ t = s.now + r.options.windowSeconds * 1000)
    (hheld : ∀ key j c, s'.Expiring key j → s.counters key = some c → c.creator = j →
      c.expiresAt = none → ∃ c', s'.counters key = some c' ∧ c'.creator = j ∧ c'.expiresAt = none)
    (haccounted : Accounted reflector s') : Metered reflector s' where
  keyed j r hr := hm.keyed j r (hrequests j r hr)
  first j options key count hr := hm.first j options key count (hrequests j _ hr)
  held key j hj := by
    obtain ⟨options, count, hr⟩ := id hj
    obtain ⟨c, hc, hcreator, hnone⟩ := hm.held key j ⟨options, count, hrequests j _ hr⟩
    exact hheld key j c hj hc hcreator hnone
  positive key c' hc' := (hcounters key c' hc').1
  within handler identity options c' ho hc' t ht := by
    rcases (hcounters _ c' hc').2 t ht with ⟨c, hc, htc⟩ | ⟨j, r, hr, hkey, rfl⟩
    · exact (hm.within handler identity options c ho hc t htc).trans
        (Int.add_le_add_right hnow _)
    · obtain ⟨handler', identity', ho', hkey'⟩ := hm.keyed j r hr
      obtain rfl := rateLimitKey_inj (hkey.symm.trans hkey')
      rw [ho] at ho'
      cases ho'
      exact Int.add_le_add_right hnow _
  accounted := haccounted

theorem Metered.kept (hm : Metered reflector s) (hc : s.counters key = some c) :
    1 ≤ c.count ∧ ∀ t ∈ c.expiresAt, (∃ c, s.counters key = some c ∧ t ∈ c.expiresAt) ∨
      ∃ j r, s.request? j = some r ∧ r.key = key ∧ t = s.now + r.options.windowSeconds * 1000 :=
  ⟨hm.positive key c hc, fun _ ht => .inl ⟨c, hc, ht⟩⟩

theorem request?_of_leave {r r' : GuardedRequest} (hr : s.request? i = some r) {j : ℕ}
    (hr' : (s.leave i).request? j = some r') : j ≠ i ∧ s.request? j = some r' := by
  rw [leave_eq_put, request?_put s i j _ (request?_lt (Option.isSome_of_mem hr))] at hr'
  split_ifs at hr' with hj
  exact ⟨hj, hr'⟩

/-- A request that is over after it has set a counter. -/
theorem Metered.sets (hm : Metered reflector s) {r : GuardedRequest} (hr : s.request? i = some r)
    {under : Option (JsString × ℕ)} {allowed : Bool} (hpos : 1 ≤ c.count)
    (hexpiry : ∀ t ∈ c.expiresAt, (∃ c, s.counters key = some c ∧ t ∈ c.expiresAt) ∨
      ∃ j r, s.request? j = some r ∧ r.key = key ∧ t = s.now + r.options.windowSeconds * 1000)
    (hheld : ∀ j, j ≠ i → s.Expiring key j → c.creator = j ∧ c.expiresAt = none)
    (haccounted : Accounted reflector ((s.set key c).tell i under allowed)) :
    Metered reflector ((s.set key c).tell i under allowed) := by
  have hleave {j : ℕ} {r' : GuardedRequest} :
      ((s.set key c).tell i under allowed).request? j = some r' → j ≠ i ∧ s.request? j = some r' :=
    request?_of_leave (s := s) hr
  refine hm.next le_rfl (fun j r' h => (hleave h).2) (fun key' c' hc' => ?_)
    (fun key' j c' hj hc' hcreator hnone => ?_) haccounted
  · change (s.set key c).counters key' = some c' at hc'
    rw [counters_set] at hc'
    split_ifs at hc' with hkey
    · cases hc'
      rw [hkey]
      exact ⟨hpos, hexpiry⟩
    · exact hm.kept hc'
  · change ∃ c', (s.set key c).counters key' = some c' ∧ _
    rw [counters_set]
    split_ifs with hkey
    · subst hkey
      obtain ⟨options, count, hj⟩ := hj
      obtain ⟨hne, hj⟩ := hleave hj
      exact ⟨c, rfl, hheld j hne ⟨options, count, hj⟩⟩
    · exact ⟨c', hc', hcreator, hnone⟩

/-- A request that is over after it has set nothing. -/
theorem Metered.leaves (hm : Metered reflector s) {r : GuardedRequest} (hr : s.request? i = some r)
    (hcounters : s'.counters = s.counters) (hnow : s'.now = s.now)
    (hrequests : ∀ j, s'.request? j = (s.leave i).request? j)
    (haccounted : Accounted reflector s') : Metered reflector s' := by
  refine hm.next hnow.ge (fun j r' h => (request?_of_leave hr (hrequests j ▸ h)).2)
    (fun key c hc => hm.kept (hcounters ▸ hc)) (fun key j c _ hc hcreator hnone => ?_) haccounted
  exact ⟨c, hcounters ▸ hc, hcreator, hnone⟩

theorem Accounted.leaves (h : Accounted reflector s) {r : GuardedRequest}
    (hr : s.request? i = some r) (hcounters : s'.counters = s.counters)
    (hcharged : ∀ key j, s'.charged key j ≤ s.charged key j)
    (hunstarted : ∀ j, s'.Unstarted j → (s.leave i).Unstarted j) : Accounted reflector s' := by
  have hlt := request?_lt (Option.isSome_of_mem hr)
  refine h.mono hcharged (fun key c hc => ⟨c, hcounters ▸ hc, rfl, le_rfl⟩) fun j hj => ?_
  exact (unstarted_leave hlt (hunstarted j hj)).2

theorem not_expiring_of_absent (hm : Metered reflector s) (hnone : s.live key = none) (j : ℕ) :
    ¬ s.Expiring key j := by
  intro hj
  obtain ⟨c, hc, -⟩ := hm.live_of_expiring hj
  rw [hnone] at hc
  cases hc

theorem charged_tell_none_le (hi : i < s.requests.length) (allowed : Bool) (key : JsString)
    (j : ℕ) : (s.tell i none allowed).charged key j ≤ s.charged key j := by
  rw [charged_tell, if_neg (by rintro ⟨⟨⟩, -⟩)]
  exact charged_leave_le hi key j

theorem charged_put_le (hi : i < s.requests.length) (o : GuardedRequest) (key : JsString)
    (j : ℕ) : (s.put i (some o)).charged key j ≤ s.charged key j + if j = i then 1 else 0 := by
  unfold charged
  rw [admitted_put, Nat.add_assoc]
  refine Nat.add_le_add_left ?_ _
  split_ifs with h₁ h₂ h₃ h₃ <;> try omega
  rcases (expiring_put hi o).1 h₁ with ⟨rfl, -⟩ | ⟨-, h⟩
  · exact absurd rfl h₃
  · exact absurd h h₂

/-- A request that is to be counted. -/
theorem Metered.arrives (hm : Metered reflector s) {handler : Handler} {identity : JsString}
    {options : RateLimitOptions} (ho : reflector handler = some options) :
    Metered reflector { s with
      requests := s.requests ++ [some ⟨options, rateLimitKey handler identity, .incr⟩] } := by
  set s₁ : RateLimiter := { s with
    requests := s.requests ++ [some ⟨options, rateLimitKey handler identity, .incr⟩] }
  have hrequest (j : ℕ) : s₁.request? j = _ := request?_append s _ s.verdicts j
  have hold {key : JsString} {j count : ℕ} {options' : RateLimitOptions}
      (hr : s₁.request? j = some ⟨options', key, .expire count⟩) :
      s.request? j = some ⟨options', key, .expire count⟩ := by
    rw [hrequest] at hr
    split_ifs at hr
    · cases hr
    · exact hr
  constructor
  · intro j r hr
    rw [hrequest] at hr
    split_ifs at hr
    · cases hr
      exact ⟨handler, identity, ho, rfl⟩
    · exact hm.keyed j r hr
  · exact fun j options' key count hr => hm.first j options' key count (hold hr)
  · rintro key j ⟨options', count, hr⟩
    exact hm.held key j ⟨options', count, hold hr⟩
  · exact hm.positive
  · exact hm.within
  · have haccounted := hm.accounted.arrives
      (some ⟨options, rateLimitKey handler identity, .incr⟩) [] (by rintro o ⟨⟩; rfl)
      (List.forall_mem_nil _)
    rw [List.append_nil] at haccounted
    exact haccounted

/-- A request between the two commands. -/
theorem Metered.creates (hm : Metered reflector s) {options : RateLimitOptions}
    (hr : s.request? i = some ⟨options, key, .incr⟩) (hnone : s.live key = none) :
    Metered reflector ((s.set key ⟨1, none, i⟩).put i (some ⟨options, key, .expire 1⟩)) := by
  set s₁ := s.set key ⟨1, none, i⟩ with hs₁
  have hlt := request?_lt (Option.isSome_of_mem hr)
  have hrequest (j : ℕ) := request?_put s₁ i j (some ⟨options, key, .expire 1⟩) hlt
  have hcounter {key' : JsString} {c : Counter} (hc : s₁.counters key' = some c) :
      c = ⟨1, none, i⟩ ∨ s.counters key' = some c := by
    rw [hs₁, counters_set] at hc
    split_ifs at hc
    · cases hc
      exact .inl rfl
    · exact .inr hc
  constructor
  · intro j r hj
    rw [hrequest] at hj
    split_ifs at hj
    · cases hj
      obtain ⟨handler, identity, ho, hkey⟩ := hm.keyed i _ hr
      exact ⟨handler, identity, ho, hkey⟩
    · exact hm.keyed j r hj
  · intro j options' key' count hj
    rw [hrequest] at hj
    split_ifs at hj
    · cases hj
      rfl
    · exact hm.first j options' key' count hj
  · intro key' j hj
    change ∃ c, s₁.counters key' = some c ∧ _
    rw [hs₁, counters_set]
    rcases (expiring_put (s := s₁) hlt _).1 hj with ⟨rfl, rfl, -⟩ | ⟨-, hj⟩
    · exact ⟨_, if_pos rfl, rfl, rfl⟩
    · rw [if_neg (by rintro rfl; exact not_expiring_of_absent hm hnone j hj)]
      exact hm.held key' j hj
  · intro key' c hc
    rcases hcounter hc with rfl | hc
    · exact le_rfl
    · exact hm.positive key' c hc
  · intro handler identity options' c ho hc t ht
    rcases hcounter hc with rfl | hc
    · cases ht
    · exact hm.within handler identity options' c ho hc t ht
  · refine hm.accounted.creates (.inr ⟨options, key, hr⟩) (charged_put_le (s := s₁) hlt _) rfl
      fun j hj => ?_
    rcases hj with hlen | ⟨options', key', hj⟩
    · have hlen : s.requests.length ≤ j := by simpa [put, hs₁, set] using hlen
      exact ⟨by omega, .inl hlen⟩
    · rw [hrequest] at hj
      split_ifs at hj with hji
      · cases hj
      · exact ⟨hji, .inr ⟨options', key', hj⟩⟩

/-- The request that is about to set the expiry of a counter made it. -/
theorem Metered.held_at (hm : Metered reflector s) (hc : s.counters key = some c) {j : ℕ}
    (hj : s.Expiring key j) : c.creator = j ∧ c.expiresAt = none := by
  obtain ⟨c', hc', hheld⟩ := hm.held key j hj
  rw [hc] at hc'
  cases hc'
  exact hheld

/-- A counter is set to one of the same creator that has let through no fewer. -/
theorem counters_kept (hc : s.counters key = some c) (c' : Counter)
    (hcreator : c.creator = c'.creator) (hcount : c.count ≤ c'.count) {key' : JsString}
    {x : Counter} (hx : (s.set key c').counters key' = some x) :
    ∃ y, s.counters key' = some y ∧ y.creator = x.creator ∧ y.count ≤ x.count := by
  rw [counters_set] at hx
  split_ifs at hx with hkey
  · cases hx
    exact ⟨c, hkey ▸ hc, hcreator, hcount⟩
  · exact ⟨x, hx, rfl, le_rfl⟩

theorem Metered.step (hm : Metered reflector s) (h : step? reflector s e = some s') :
    Metered reflector s' := by
  cases hm.move h with
  | unguarded handler identity hnone =>
    refine hm.next le_rfl ?_ (fun key c hc => hm.kept hc) (fun key j c _ hc hcreator hnone =>
      ⟨c, hc, hcreator, hnone⟩) (hm.accounted.arrives none [_] (by rintro o ⟨⟩) ?_)
    · intro j r hr
      rw [request?_append] at hr
      split_ifs at hr
      exact hr
    · intro v hv
      rw [List.mem_singleton.1 hv]
  | guarded handler identity options ho => exact hm.arrives ho
  | creates i options key hr hnone => exact hm.creates hr hnone
  | counts i options key c hr hc =>
    have hcounter := (live_eq_some.1 hc).1
    refine hm.sets hr (Nat.le_add_left 1 _) (hm.kept hcounter).2
      (fun j _ hj => hm.held_at hcounter hj) ?_
    obtain ⟨handler, identity, ho, rfl⟩ := hm.keyed i _ hr
    exact hm.accounted.counts ho hr hcounter
  | loses i options key hr hnone =>
    have hlt := request?_lt (Option.isSome_of_mem hr)
    refine hm.sets hr le_rfl (by rintro t ⟨⟩)
      (fun j _ hj => absurd hj (not_expiring_of_absent hm hnone j)) ?_
    refine hm.accounted.creates (.inr ⟨options, key, hr⟩) (fun key' j => ?_) rfl ?_
    · exact (charged_tell_none_le (s := s.set key _) hlt true key' j).trans (Nat.le_add_right _ _)
    · exact fun j hj => unstarted_leave (s := s.set key _) hlt hj
  | bumps i options key c hr hc =>
    have hcounter := (live_eq_some.1 hc).1
    have hlt := request?_lt (Option.isSome_of_mem hr)
    refine hm.sets hr (Nat.le_add_left 1 _) (hm.kept hcounter).2
      (fun j _ hj => hm.held_at hcounter hj) ?_
    exact hm.accounted.mono (charged_tell_none_le (s := s.set key _) hlt true)
      (fun _ _ hx => counters_kept hcounter { c with count := c.count + 1 } rfl
        (Nat.le_succ _) hx)
      fun j hj => (unstarted_leave (s := s.set key _) hlt hj).2
  | unreached i options key hr =>
    have hlt := request?_lt (Option.isSome_of_mem hr)
    exact hm.leaves hr rfl rfl (fun _ => rfl)
      (hm.accounted.leaves hr rfl (charged_tell_none_le hlt true) fun _ h => h)
  | expires i options key c e _ hr hc =>
    have hi : s.Expiring key i := ⟨options, 1, hr⟩
    have hlt := request?_lt (Option.isSome_of_mem hr)
    refine hm.sets hr (hm.positive key c hc) ?_ (fun j hne hj => ?_) ?_
    · rintro t ⟨⟩
      exact .inr ⟨i, _, hr, rfl, rfl⟩
    · exact absurd ((hm.held_at hc hj).1.symm.trans (hm.held_at hc hi).1) hne
    · exact hm.accounted.mono (charged_settled_le (s := s.set key _) hi true)
        (fun _ _ hx => counters_kept hc { c with expiresAt := some _ } rfl le_rfl hx)
        fun j hj => (unstarted_leave (s := s.set key _) hlt hj).2
  | unset i options key hr =>
    exact hm.leaves hr rfl rfl (fun _ => rfl)
      (hm.accounted.leaves hr rfl (charged_settled_le ⟨options, 1, hr⟩ true) fun _ h => h)
  | crash i r hr =>
    have hlt := request?_lt (Option.isSome_of_mem hr)
    exact hm.leaves hr rfl rfl (fun _ => rfl)
      (hm.accounted.leaves hr rfl (charged_leave_le hlt) fun _ h => h)
  | elapse ms =>
    refine hm.next (le_add_of_nonneg_right (Int.natCast_nonneg ms)) (fun _ _ h => h)
      (fun key c hc => hm.kept hc)
      (fun key j c _ hc hcreator hnone => ⟨c, hc, hcreator, hnone⟩) ?_
    exact hm.accounted.mono (fun _ _ => le_rfl) (fun key c hc => ⟨c, hc, rfl, le_rfl⟩) fun _ h => h

theorem metered_initial (clock : Time) : Metered reflector (initial clock) := by
  have hrequest (i : ℕ) : (initial clock).request? i = none := by
    unfold request? initial
    rw [List.getElem?_nil]
    rfl
  have hcharged (key : JsString) (i : ℕ) : (initial clock).charged key i = 0 := by
    unfold charged
    rw [if_neg]
    · rfl
    · rintro ⟨_, _, h⟩
      rw [hrequest] at h
      cases h
  constructor
  · intro i r hr
    rw [hrequest] at hr
    cases hr
  · intro i _ _ _ hr
    rw [hrequest] at hr
    cases hr
  · rintro key i ⟨_, _, hr⟩
    rw [hrequest] at hr
    cases hr
  · rintro key c ⟨⟩
  · rintro handler identity options c ho ⟨⟩
  · constructor
    · exact fun i _ => ⟨fun key => hcharged key i, by rintro key c ⟨⟩⟩
    · rintro key c ⟨⟩
    · intro handler identity options _ i
      rw [hcharged]
      exact Nat.zero_le _

theorem metered_of_reaches {ok : RateLimiter → RateLimitEvent → Prop} {s₀ : RateLimiter}
    (hm : Metered reflector s₀) (h : Reaches (step? reflector) ok s₀ s) : Metered reflector s := by
  induction h with
  | refl => exact hm
  | tail _ _ _ hs ih => exact ih.step hs

end Moves

end RateLimiter

end MoneyMovement
