import MoneyMovement.Txn.Intents
import MoneyMovement.Txn.Replay
import Mathlib.Data.List.Induction

/-!
# Receivers that act once for each key

A receiver stores what it answers under the key of the call. A call with a key it has stored is
answered from the store, and any other acts. Then failed calls, killed calls and repeated calls
can be struck from the log: what is left of it, run serially, leads to the same database.
-/

namespace Txn

variable {Stmt : Type} {Reply : Stmt → Type} {Db Write Err Time Id Obj Ext : Type}
variable {E : Engine Reply Db Write Err Time Id Obj Ext}
variable {Call α Key Tag Body : Type}

section Logs

def Event.call? : Event E Call α → Option Call
  | .ended ⟨c, _, .ok _⟩ => some c
  | _ => none

def Event.answer? : Event E Call α → Option α
  | .ended ⟨_, _, .ok a⟩ => some a
  | _ => none

variable [DecidableEq Key] (key : Call → Key)

/-- An entry is kept if it is an outside change or the first success under its key. -/
def keep (kept : List (Event E Call α)) (e : Event E Call α) : List (Event E Call α) :=
  match e with
  | .ended ⟨c, _, .ok _⟩ => if ∃ b ∈ kept.filterMap Event.call?, key b = key c then kept
    else kept ++ [e]
  | .external _ => kept ++ [e]
  | _ => kept

def once (log : List (Event E Call α)) : List (Event E Call α) := log.foldl (keep key) []

variable (log : List (Event E Call α)) (e : Event E Call α)

theorem once_snoc : once key (log ++ [e]) = keep key (once key log) e := by
  simp only [once, List.foldl_append, List.foldl_cons, List.foldl_nil]

end Logs

section Playback

variable (body : Call → Prog Reply Err α)

/-- One entry after those whose answers are given: a call succeeds alone, or an outside change
happens. -/
def play (p : List α × Db) : Event E Call α → Option (List α × Db)
  | .ended x =>
    match E.alone p.2 (body x.call) p.2 x.draws with
    | some (.ok a, db) => some (p.1 ++ [a], db)
    | _ => none
  | .external x => (E.others x p.2).map fun db => (p.1, db)
  | .killed _ => some p

def playback (db : Db) (log : List (Event E Call α)) : Option (List α × Db) :=
  log.foldlM (play body) ([], db)

variable {body}

theorem playback_snoc {db db' : Db} {log : List (Event E Call α)} {as : List α}
    (h : playback body db log = some (as, db')) (e : Event E Call α) :
    playback body db (log ++ [e]) = play body (as, db') e := by
  rw [playback, List.foldlM_append]
  change (playback body db log).bind _ = _
  rw [h, Option.bind_some, List.foldlM_cons]
  exact Option.bind_fun_some (play body (as, db') e)

end Playback

/-- What a receiver has stored is the key, the tag and the answer of the calls it acted on. -/
structure Receiver (P : Protocol E) (body : Call → Prog Reply Err α) (Key Tag : Type) where
  key : Call → Key
  tag : Call → Tag
  stored : Db → List (Key × Tag × α)
  answers : ∀ v c ds a v', P.Good [] v → E.alone v (body c) v ds = some (.ok a, v') →
    (v' = v ∧ (key c, tag c, a) ∈ stored v) ∨
      ((∀ e ∈ stored v, e.1 ≠ key c) ∧ stored v' = stored v ++ [(key c, tag c, a)])
  others : ∀ x v v', E.others x v = some v' → stored v' = stored v

namespace Receiver

variable {P : Protocol E} {body : Call → Prog Reply Err α} (R : Receiver P body Key Tag)

def entry? : Event E Call α → Option (Key × Tag × α)
  | .ended ⟨c, _, .ok a⟩ => some (R.key c, R.tag c, a)
  | _ => none

theorem entries_keys (kept : List (Event E Call α)) :
    (kept.filterMap R.entry?).map Prod.fst = (kept.filterMap Event.call?).map R.key := by
  rw [List.map_filterMap, List.map_filterMap]
  congr 1
  funext e
  rcases e with ⟨c, ds, a | a⟩ | c | x <;> rfl

theorem mem_entries {kept : List (Event E Call α)} {k : Key} :
    (∃ e ∈ kept.filterMap R.entry?, e.1 = k) ↔
      ∃ b ∈ kept.filterMap Event.call?, R.key b = k := by
  rw [← List.mem_map, entries_keys, List.mem_map]

variable [DecidableEq Key]

/-- What is kept of the log accounts for the database and for every answer. -/
structure Reenacted (db₀ : Db) (log : List (Event E Call α)) (db : Db) : Prop where
  good : P.Good [] db
  played : playback body db₀ (once R.key log) =
    some ((once R.key log).filterMap Event.answer?, db)
  stored : R.stored db = (once R.key log).filterMap R.entry?
  answered : ∀ c ds a, .ended ⟨c, ds, .ok a⟩ ∈ log → (R.key c, R.tag c, a) ∈ R.stored db

variable {R} {db₀ db db' : Db} {log : List (Event E Call α)} {c : Call} {ds : List (Draw Time Id)}
  {a : α}

/-- A call that is answered from the store. -/
theorem Reenacted.repeated (h : R.Reenacted db₀ log db)
    (hm : (R.key c, R.tag c, a) ∈ R.stored db) :
    R.Reenacted db₀ (log ++ [.ended ⟨c, ds, .ok a⟩]) db := by
  have hseen : ∃ b ∈ (once R.key log).filterMap Event.call?, R.key b = R.key c := by
    rw [← mem_entries (R := R), ← h.stored]
    exact ⟨_, hm, rfl⟩
  have hkeep : keep R.key (once R.key log) (.ended ⟨c, ds, .ok a⟩) = once R.key log := by
    simp only [keep, if_pos hseen]
  refine ⟨h.good, ?_, ?_, fun c' ds' a' hm' => ?_⟩
  · rw [once_snoc, hkeep]
    exact h.played
  · rw [once_snoc, hkeep]
    exact h.stored
  · rcases List.mem_append.1 hm' with hm' | hm'
    · exact h.answered c' ds' a' hm'
    · cases List.mem_singleton.1 hm'
      exact hm

/-- A call that acts. -/
theorem Reenacted.acted (h : R.Reenacted db₀ log db) (hg : P.Good [] db')
    (ha : E.alone db (body c) db ds = some (.ok a, db'))
    (hnew : ∀ e ∈ R.stored db, e.1 ≠ R.key c)
    (hstored : R.stored db' = R.stored db ++ [(R.key c, R.tag c, a)]) :
    R.Reenacted db₀ (log ++ [.ended ⟨c, ds, .ok a⟩]) db' := by
  have hseen : ¬ ∃ b ∈ (once R.key log).filterMap Event.call?, R.key b = R.key c := by
    rw [← mem_entries (R := R), ← h.stored]
    rintro ⟨e, he, heq⟩
    exact hnew e he heq
  have hkeep : once R.key (log ++ [.ended ⟨c, ds, .ok a⟩]) =
      once R.key log ++ [.ended ⟨c, ds, .ok a⟩] := by
    rw [once_snoc]
    simp only [keep, if_neg hseen]
  refine ⟨hg, ?_, ?_, fun c' ds' a' hm => ?_⟩
  · rw [hkeep, playback_snoc h.played, play, ha, List.filterMap_append]
    rfl
  · rw [hkeep, hstored, h.stored, List.filterMap_append]
    rfl
  · rw [hstored]
    rcases List.mem_append.1 hm with hm | hm
    · exact List.mem_append_left _ (h.answered c' ds' a' hm)
    · cases List.mem_singleton.1 hm
      exact List.mem_append_right _ (List.mem_singleton_self _)

theorem Reenacted.changed (h : R.Reenacted db₀ log db) (hg : P.Good [] db') {x : Ext}
    (hx : E.others x db = some db') : R.Reenacted db₀ (log ++ [.external x]) db' := by
  have hkeep : once R.key (log ++ [.external x]) = once R.key log ++ [.external x] := by
    rw [once_snoc, keep]
  have hsame := R.others x db db' hx
  refine ⟨hg, ?_, ?_, fun c ds a hm => ?_⟩
  · rw [hkeep, playback_snoc h.played, play, hx, List.filterMap_append]
    exact congrArg (fun as => some (as, db')) (List.append_nil _).symm
  · rw [hkeep, hsame, h.stored, List.filterMap_append]
    exact (List.append_nil _).symm
  · rw [hsame]
    rcases List.mem_append.1 hm with hm | hm
    · exact h.answered c ds a hm
    · cases List.mem_singleton.1 hm

end Receiver

end Txn
