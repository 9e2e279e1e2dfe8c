import MoneyMovement.Txn.Reaches
import Mathlib.Data.List.Nodup

/-!
# Intents and their keys

A client sends what it means to have done under one key, and forgets the key once it
means something else. If each key is acted on at most once, each intent is, however
often its requests are repeated, delayed or lost.
-/

namespace Txn

variable {Key Body : Type}

structure Sent (Key Body : Type) where
  key : Key
  body : Body
  intent : ℕ
  deriving DecidableEq

/-- The intent under way, with its key and body once it has been sent, all that has been
sent, and what has been done of it. -/
structure Desk (Key Body : Type) where
  intent : ℕ
  current : Option (Key × Body)
  sent : List (Sent Key Body)
  done : List (Sent Key Body)

namespace Desk

def initial : Desk Key Body := ⟨0, none, [], []⟩

inductive Act (Key Body : Type)
  /-- Something else is meant from now on. -/
  | renew
  | send (key : Key) (body : Body)
  /-- A request arrives, for the first time or again. -/
  | apply (i : ℕ)

section Steps

variable [DecidableEq Key]

def applyOnce (done : List (Sent Key Body)) (a : Sent Key Body) : List (Sent Key Body) :=
  if ∃ t ∈ done, t.key = a.key then done else done ++ [a]

variable [DecidableEq Body]

def step? (s : Desk Key Body) : Act Key Body → Option (Desk Key Body)
  | .renew => some { s with intent := s.intent + 1, current := none }
  | .send key body =>
    if ∀ c ∈ s.current, c = (key, body) then
      some { s with current := some (key, body), sent := s.sent ++ [⟨key, body, s.intent⟩] }
    else none
  | .apply i => (s.sent[i]?).map fun a => { s with done := applyOnce s.done a }

/-- The first request of an intent goes out under a key that no request had before. -/
def MintsFresh (s : Desk Key Body) : Act Key Body → Prop
  | .send key _ => s.current = none → ∀ a ∈ s.sent, a.key ≠ key
  | _ => True

end Steps

/-- The requests of one intent are the same, and nothing is done twice under one key. -/
structure Kept (s : Desk Key Body) : Prop where
  past : ∀ a ∈ s.sent, a.intent ≤ s.intent
  begun : ∀ c ∈ s.current, ⟨c.1, c.2, s.intent⟩ ∈ s.sent
  current : ∀ a ∈ s.sent, a.intent = s.intent → s.current = some (a.key, a.body)
  same : ∀ a ∈ s.sent, ∀ b ∈ s.sent, a.intent = b.intent → a = b
  done : ∀ t ∈ s.done, t ∈ s.sent
  keys : (s.done.map Sent.key).Nodup

def Distinct (s : Desk Key Body) : Prop :=
  ∀ a ∈ s.sent, ∀ b ∈ s.sent, a.key = b.key → a = b

section Runs

variable {s s' : Desk Key Body}

theorem Kept.initial : (initial : Desk Key Body).Kept := by
  refine ⟨?_, ?_, ?_, ?_, ?_, ?_⟩ <;> simp [Desk.initial]

theorem Distinct.initial : (initial : Desk Key Body).Distinct := by
  simp [Distinct, Desk.initial]

theorem Kept.renew (h : s.Kept) : Kept { s with intent := s.intent + 1, current := none } := by
  refine ⟨fun a ha => Nat.le_succ_of_le (h.past a ha), fun c hc => ?_, fun a ha hi => ?_,
    h.same, h.done, h.keys⟩
  · cases hc
  · have hpast := h.past a ha
    simp only at hi
    omega

/-- What is sent of the intent under way is what has been sent of it. -/
theorem Kept.sent_eq (h : s.Kept) {key : Key} {body : Body}
    (hcurrent : ∀ c ∈ s.current, c = (key, body)) {a : Sent Key Body} (ha : a ∈ s.sent)
    (hi : a.intent = s.intent) : a = ⟨key, body, s.intent⟩ := by
  have hc := hcurrent _ (h.current a ha hi)
  obtain ⟨hkey, hbody⟩ := Prod.mk.inj hc
  cases a
  subst hkey hbody hi
  rfl

theorem mem_sent_snoc {sent : List (Sent Key Body)} {a b : Sent Key Body} (h : a ∈ sent ++ [b]) :
    a ∈ sent ∨ a = b :=
  (List.mem_append.1 h).imp_right List.mem_singleton.1

theorem Kept.send (h : s.Kept) {key : Key} {body : Body}
    (hcurrent : ∀ c ∈ s.current, c = (key, body)) :
    Kept { s with current := some (key, body), sent := s.sent ++ [⟨key, body, s.intent⟩] } := by
  refine ⟨fun a ha => ?_, fun c hc => ?_, fun a ha hi => ?_, fun a ha b hb hi => ?_,
    fun t ht => List.mem_append_left _ (h.done t ht), h.keys⟩
  · rcases mem_sent_snoc ha with ha | rfl
    · exact h.past a ha
    · exact Nat.le_refl _
  · cases hc
    exact List.mem_append_right _ List.mem_cons_self
  · rcases mem_sent_snoc ha with ha | rfl
    · rw [h.sent_eq hcurrent ha hi]
    · rfl
  · rcases mem_sent_snoc ha with ha | rfl <;> rcases mem_sent_snoc hb with hb | rfl
    · exact h.same a ha b hb hi
    · exact h.sent_eq hcurrent ha hi
    · exact (h.sent_eq hcurrent hb hi.symm).symm
    · rfl

theorem Distinct.send (h : s.Distinct) (hk : s.Kept) {key : Key} {body : Body}
    (hcurrent : ∀ c ∈ s.current, c = (key, body))
    (hfresh : s.current = none → ∀ a ∈ s.sent, a.key ≠ key) :
    Distinct { s with current := some (key, body), sent := s.sent ++ [⟨key, body, s.intent⟩] } := by
  -- The key of the intent under way has been sent for it, and any other key is new.
  have hold {a : Sent Key Body} (ha : a ∈ s.sent) (hkey : a.key = key) :
      a = ⟨key, body, s.intent⟩ := by
    cases hc : s.current with
    | none => exact (hfresh hc a ha hkey).elim
    | some c =>
      obtain rfl := hcurrent c hc
      exact h a ha _ (hk.begun _ hc) hkey
  intro a ha b hb hkey
  rcases mem_sent_snoc ha with ha | rfl <;> rcases mem_sent_snoc hb with hb | rfl
  · exact h a ha b hb hkey
  · exact hold ha hkey
  · exact (hold hb hkey.symm).symm
  · rfl

/-- Each intent is done at most once. -/
theorem Kept.done_intents (h : s.Kept) : (s.done.map Sent.intent).Nodup := by
  have hkeys := List.pairwise_map.1 h.keys
  refine List.pairwise_map.2 (hkeys.imp_of_mem fun {a b} ha hb hne hi => hne ?_)
  rw [h.same a (h.done a ha) b (h.done b hb) hi]

variable [DecidableEq Key]

theorem mem_applyOnce {done : List (Sent Key Body)} {a t : Sent Key Body}
    (h : t ∈ applyOnce done a) : t ∈ done ∨ t = a := by
  unfold applyOnce at h
  split_ifs at h
  · exact Or.inl h
  · exact mem_sent_snoc h

theorem applyOnce_keys {done : List (Sent Key Body)} (a : Sent Key Body)
    (h : (done.map Sent.key).Nodup) : ((applyOnce done a).map Sent.key).Nodup := by
  unfold applyOnce
  split_ifs with hused
  · exact h
  · simpa [List.nodup_append, h] using hused

theorem Kept.apply (h : s.Kept) {a : Sent Key Body} (ha : a ∈ s.sent) :
    Kept { s with done := applyOnce s.done a } := by
  refine ⟨h.past, h.begun, h.current, h.same, fun t ht => ?_, applyOnce_keys a h.keys⟩
  rcases mem_applyOnce ht with ht | rfl
  · exact h.done t ht
  · exact ha

variable [DecidableEq Body] {act : Act Key Body}

theorem Kept.step (h : s.Kept) (hs : s.step? act = some s') : s'.Kept := by
  cases act with
  | renew =>
    cases hs
    exact h.renew
  | send key body =>
    simp only [step?] at hs
    split_ifs at hs with hcurrent
    cases hs
    exact h.send hcurrent
  | apply i =>
    obtain ⟨a, ha, rfl⟩ := Option.map_eq_some_iff.1 hs
    exact h.apply (List.mem_of_getElem? ha)

theorem Distinct.step (h : s.Distinct) (hk : s.Kept) (hfresh : s.MintsFresh act)
    (hs : s.step? act = some s') : s'.Distinct := by
  cases act with
  | renew =>
    cases hs
    exact h
  | send key body =>
    simp only [step?] at hs
    split_ifs at hs with hcurrent
    cases hs
    exact h.send hk hcurrent hfresh
  | apply i =>
    obtain ⟨a, -, rfl⟩ := Option.map_eq_some_iff.1 hs
    exact h

end Runs

end Desk

end Txn
