import MoneyMovement.Runs.Commits
import MoneyMovement.Txn.Receivers

/-!
# Only the first success under a key counts

The idempotency records make the service a receiver that acts once for each key. Failed calls,
killed calls and retries of what has succeeded can be struck from the log of a run: the calls
that are left, run one at a time with the registrations between them, give the same tables and
every answer that was ever given.
-/

namespace MoneyMovement

open Txn

variable {cfg : Config} {db₀ : Db} {clock : Time} {s : Service}

def Db.answers (db : Db) : List (RecordKey × JsString × Response) :=
  db.idempotencyRecords.map fun r => (r.key, r.requestHash, r.responseBody.getD .null)

theorem answers_effect {v v' : Db} {ds : List (Draw Time Uuid)} {c : Command} {a : Response}
    (h : Effect cfg v ds c a v') :
    (v' = v ∧ (c.key, c.hash cfg, a) ∈ v.answers) ∨
      ((∀ e ∈ v.answers, e.1 ≠ c.key) ∧ v'.answers = v.answers ++ [(c.key, c.hash cfg, a)]) := by
  cases h with
  | replay r hr hkey hhash =>
    refine Or.inl ⟨rfl, ?_⟩
    rw [← hkey, ← hhash]
    exact List.mem_map_of_mem hr
  | act x recordId hclaim =>
    refine Or.inr ⟨fun e he => ?_, ?_⟩
    · obtain ⟨r, hr, rfl⟩ := List.mem_map.1 he
      exact hclaim.unused r hr
    · rw [Db.answers, Db.withRecord, apply_records, List.map_append]
      rfl

/-- The service as a receiver: the records are what it has stored. -/
def keyed (cfg : Config) (closed : Prop) :
    Receiver (protocol closed) (body cfg) RecordKey JsString where
  key := Command.key
  tag := Command.hash cfg
  stored := Db.answers
  answers _ _ _ _ _ hg ha := answers_effect (effect_of_returns hg (store.returns_of_alone ha))
  others _ _ _ hx := by
    obtain ⟨-, -, -, rfl⟩ := register_spec hx
    rfl

theorem Start.unanswered (h₀ : Start db₀) : db₀.answers = [] := by
  rw [Db.answers, h₀.idempotencyRecords, List.map_nil]

end MoneyMovement
