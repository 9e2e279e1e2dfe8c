import MoneyMovement.Basic.Text

/-!
# Rate limits

A guarded request increments a counter in Redis and, when it was the first to do so, sets
its expiry with a second command. Whatever goes wrong lets the request through.
-/

namespace MoneyMovement

section Model

/-- What `@RateLimit` is given: both numbers are positive. -/
structure RateLimitOptions where
  limit : ℕ
  windowSeconds : ℕ
  limit_pos : 0 < limit
  window_pos : 0 < windowSeconds

def colon : CodeUnit := 0x3A

/-- The name of a class or a method, which has no colon. -/
abbrev Identifier := { s : JsString // colon ∉ s }

structure Handler where
  className : Identifier
  name : Identifier
  deriving DecidableEq

abbrev Reflector := Handler → Option RateLimitOptions

def rateLimitKey (handler : Handler) (identity : JsString) : JsString :=
  js "rate-limit:" ++ (handler.className.val ++ colon :: (handler.name.val ++ colon :: identity))

/-- A key of Redis, and the request whose `INCR` set it. -/
structure Counter where
  count : ℕ
  expiresAt : Option Time
  creator : ℕ

inductive NextCommand where
  | incr
  | expire (count : ℕ)

structure GuardedRequest where
  options : RateLimitOptions
  key : JsString
  next : NextCommand

/-- What a request was told, and the counter that it counted on, if any. -/
structure Verdict where
  request : ℕ
  under : Option (JsString × ℕ)
  allowed : Bool

/-- Redis, and the requests in the order of their arrival; one that is over is gone. -/
structure RateLimiter where
  now : Time
  counters : JsString → Option Counter
  requests : List (Option GuardedRequest)
  verdicts : List Verdict

/-- A command that fails may have been applied all the same. -/
inductive RateLimitEvent where
  | arrive (handler : Handler) (identity : JsString)
  | incr (i : ℕ)
  | incrFails (i : ℕ) (applied : Bool)
  | expire (i : ℕ)
  | expireFails (i : ℕ) (applied : Bool)
  | crash (i : ℕ)
  | elapse (ms : ℕ)

namespace RateLimiter

def initial (clock : Time) : RateLimiter := ⟨clock, fun _ => none, [], []⟩

variable (s : RateLimiter)

def live (key : JsString) : Option Counter :=
  (s.counters key).filter fun c => ∀ t ∈ c.expiresAt, s.now < t

def request? (i : ℕ) : Option GuardedRequest := (s.requests[i]?).join

/-- The counter after `INCR`; that of an absent key is set without an expiry. -/
def incremented (i : ℕ) (key : JsString) : Counter :=
  match s.live key with
  | none => ⟨1, none, i⟩
  | some c => { c with count := c.count + 1 }

def set (key : JsString) (c : Counter) : RateLimiter :=
  { s with counters := Function.update s.counters key (some c) }

/-- `EXPIRE`, without effect on an absent key. -/
def expiring (key : JsString) (seconds : ℕ) : RateLimiter :=
  match s.live key with
  | none => s
  | some c => s.set key { c with expiresAt := some (s.now + seconds * 1000) }

def leave (i : ℕ) : RateLimiter := { s with requests := s.requests.set i none }

def tell (i : ℕ) (under : Option (JsString × ℕ)) (allowed : Bool) : RateLimiter :=
  { s.leave i with verdicts := s.verdicts ++ [⟨i, under, allowed⟩] }

def judge (i : ℕ) (r : GuardedRequest) (count creator : ℕ) : RateLimiter :=
  s.tell i (some (r.key, creator)) (¬ count > r.options.limit)

/-- `incrementWithExpiry` after its first command. -/
def counted (i : ℕ) (r : GuardedRequest) (c : Counter) : RateLimiter :=
  if c.count = 1 then
    { s with requests := s.requests.set i (some { r with next := .expire c.count }) }
  else s.judge i r c.count c.creator

/-- `canActivate`, command by command: an error lets the request through. -/
def step? (reflector : Reflector) (s : RateLimiter) : RateLimitEvent → Option RateLimiter
  | .arrive handler identity =>
    match reflector handler with
    | none => some { s with
        requests := s.requests ++ [none]
        verdicts := s.verdicts ++ [⟨s.requests.length, none, true⟩] }
    | some options => some { s with
        requests := s.requests ++ [some ⟨options, rateLimitKey handler identity, .incr⟩] }
  | .incr i =>
    match s.request? i with
    | some ⟨options, key, .incr⟩ =>
      some ((s.set key (s.incremented i key)).counted i ⟨options, key, .incr⟩
        (s.incremented i key))
    | _ => none
  | .incrFails i applied =>
    match s.request? i with
    | some ⟨_, key, .incr⟩ =>
      some ((if applied then s.set key (s.incremented i key) else s).tell i none true)
    | _ => none
  | .expire i =>
    match s.request? i with
    | some ⟨options, key, .expire count⟩ =>
      some ((s.expiring key options.windowSeconds).judge i ⟨options, key, .expire count⟩ count i)
    | _ => none
  | .expireFails i applied =>
    match s.request? i with
    | some ⟨options, key, .expire _⟩ =>
      some ((if applied then s.expiring key options.windowSeconds else s).tell i (some (key, i))
        true)
    | _ => none
  | .crash i => if (s.request? i).isSome then some (s.leave i) else none
  | .elapse ms => some { s with now := s.now + ms }

end RateLimiter

end Model

section Keys

theorem rateLimitKey_inj {h h' : Handler} {identity identity' : JsString}
    (heq : rateLimitKey h identity = rateLimitKey h' identity') : h = h' := by
  have hsplit {l l' r r' : JsString} (hl : colon ∉ l) (hl' : colon ∉ l')
      (hcut : l ++ colon :: r = l' ++ colon :: r') : l = l' ∧ r = r' := by
    have htake := congrArg (List.takeWhile (· ≠ colon)) hcut
    have hspan {l : JsString} (hl : colon ∉ l) (r : JsString) :
        (l ++ colon :: r).takeWhile (· ≠ colon) = l := by
      rw [List.takeWhile_append_of_pos, List.takeWhile_cons_of_neg (by decide), List.append_nil]
      intro c hc
      refine decide_eq_true ?_
      rintro rfl
      exact hl hc
    rw [hspan hl, hspan hl'] at htake
    subst htake
    exact ⟨rfl, (List.cons.inj (List.append_cancel_left hcut)).2⟩
  obtain ⟨hclass, hrest⟩ := hsplit h.className.2 h'.className.2 (List.append_cancel_left heq)
  obtain ⟨hname, -⟩ := hsplit h.name.2 h'.name.2 hrest
  cases h
  cases h'
  rw [Handler.mk.injEq]
  exact ⟨Subtype.ext hclass, Subtype.ext hname⟩

end Keys

namespace RateLimiter

section Effects

variable {s : RateLimiter} {i j : ℕ} {key key' : JsString} {r : Option GuardedRequest}

def put (s : RateLimiter) (i : ℕ) (r : Option GuardedRequest) : RateLimiter :=
  { s with requests := s.requests.set i r }

theorem leave_eq_put (s : RateLimiter) (i : ℕ) : s.leave i = s.put i none := rfl

theorem request?_lt (h : (s.request? i).isSome) : i < s.requests.length := by
  by_contra hlt
  have hnone : s.requests[i]? = none := List.getElem?_eq_none (not_lt.1 hlt)
  rw [request?, hnone] at h
  cases h

theorem request?_length (s : RateLimiter) : s.request? s.requests.length = none := by
  rw [request?, List.getElem?_eq_none le_rfl]
  rfl

theorem request?_put (s : RateLimiter) (i j : ℕ) (r : Option GuardedRequest)
    (hi : i < s.requests.length) :
    (s.put i r).request? j = if j = i then r else s.request? j := by
  unfold request? put
  dsimp only
  split_ifs with hji
  · subst hji
    rw [List.getElem?_set_self hi]
    rfl
  · rw [List.getElem?_set_ne (Ne.symm hji)]

@[simp] theorem request?_set (s : RateLimiter) (key : JsString) (c : Counter) (j : ℕ) :
    (s.set key c).request? j = s.request? j := rfl

def admitted (s : RateLimiter) (key : JsString) (creator : ℕ) : ℕ :=
  (s.verdicts.filter fun v => v.under = some (key, creator) ∧ v.allowed).length

def Expiring (s : RateLimiter) (key : JsString) (i : ℕ) : Prop :=
  ∃ options count, s.request? i = some ⟨options, key, .expire count⟩

def Unstarted (s : RateLimiter) (i : ℕ) : Prop :=
  s.requests.length ≤ i ∨ ∃ options key, s.request? i = some ⟨options, key, .incr⟩

open Classical in
noncomputable def charged (s : RateLimiter) (key : JsString) (creator : ℕ) : ℕ :=
  s.admitted key creator + if s.Expiring key creator then 1 else 0

@[simp] theorem admitted_put (s : RateLimiter) (i : ℕ) (r : Option GuardedRequest)
    (key : JsString) (j : ℕ) : (s.put i r).admitted key j = s.admitted key j := rfl

theorem admitted_tell (s : RateLimiter) (i : ℕ) (under : Option (JsString × ℕ)) (allowed : Bool)
    (key : JsString) (j : ℕ) :
    (s.tell i under allowed).admitted key j =
      s.admitted key j + if under = some (key, j) ∧ allowed then 1 else 0 := by
  unfold admitted tell
  rw [List.filter_append, List.length_append]
  congr 1
  rw [List.filter_singleton]
  split_ifs with h
  · rw [decide_eq_true h]
    rfl
  · rw [decide_eq_false h]
    rfl

theorem expiring_put (hi : i < s.requests.length) (o : GuardedRequest) :
    (s.put i (some o)).Expiring key j ↔
      (j = i ∧ o.key = key ∧ ∃ count, o.next = .expire count) ∨ (j ≠ i ∧ s.Expiring key j) := by
  unfold Expiring
  rw [request?_put s i j _ hi]
  split_ifs with hji
  · rcases o with ⟨options, key', next⟩
    simp only [Option.some.injEq, GuardedRequest.mk.injEq, hji, true_and, ne_eq, not_true_eq_false,
      false_and, or_false]
    constructor
    · rintro ⟨_, count, -, rfl, rfl⟩
      exact ⟨rfl, count, rfl⟩
    · rintro ⟨rfl, count, rfl⟩
      exact ⟨options, count, rfl, rfl, rfl⟩
  · simp only [hji, false_and, ne_eq, not_false_eq_true, true_and, false_or]

theorem expiring_leave (hi : i < s.requests.length) :
    (s.leave i).Expiring key j ↔ j ≠ i ∧ s.Expiring key j := by
  unfold Expiring
  rw [leave_eq_put, request?_put s i j _ hi]
  split_ifs with hji
  · simp only [exists_false, hji, ne_eq, not_true_eq_false, false_and]
  · simp only [ne_eq, hji, not_false_eq_true, true_and]

theorem unstarted_leave (hi : i < s.requests.length) (h : (s.leave i).Unstarted j) :
    j ≠ i ∧ s.Unstarted j := by
  unfold Unstarted at h ⊢
  rw [leave_eq_put, request?_put s i j _ hi] at h
  rcases h with hlen | ⟨options, key, h⟩
  · have hlen : s.requests.length ≤ j := by simpa [put] using hlen
    exact ⟨by omega, .inl hlen⟩
  · split_ifs at h with hji
    exact ⟨hji, .inr ⟨options, key, h⟩⟩

end Effects

end RateLimiter

end MoneyMovement
