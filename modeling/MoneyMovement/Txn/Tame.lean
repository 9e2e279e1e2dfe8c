import MoneyMovement.Txn.Clock
import MoneyMovement.Txn.Replay

/-!
# What transactions can fail with

`Tame` is the verification condition for the errors of a program. It assumes an
invariant of the committed database and the clock, and of the others what the held
locks promise; then every error a statement raises, and every error the program fails
with, is a tolerated one. In a run all of whose states keep the invariant, every open
transaction of a tame program stays tame.
-/

namespace Txn

variable {Stmt : Type} {Reply : Stmt → Type} {Db Write Err Time Id Obj Ext : Type}
variable {E : Engine Reply Db Write Err Time Id Obj Ext} {Call α β : Type}

/-- Whatever the replies, the program issues only such statements and fails only with
such errors. -/
def Prog.Plain (S : Stmt → Prop) (T : Err → Prop) : Prog Reply Err α → Prop
  | .ret _ => True
  | .fail e => T e
  | .op s k => S s ∧ ∀ r, Plain S T (k r)

theorem Prog.Plain.bind {S : Stmt → Prop} {T : Err → Prop} {p : Prog Reply Err α}
    {f : α → Prog Reply Err β} (hp : p.Plain S T) (hf : ∀ a, (f a).Plain S T) :
    (p >>= f).Plain S T := by
  induction p with
  | ret a => exact hf a
  | fail e => exact hp
  | op s k ih => exact ⟨hp.1, fun r => ih r (hp.2 r)⟩

theorem Prog.Plain.mono {S S' : Stmt → Prop} {T : Err → Prop} (hS : ∀ s, S s → S' s)
    {p : Prog Reply Err α} (hp : p.Plain S T) : p.Plain S' T := by
  induction p with
  | ret a => trivial
  | fail e => exact hp
  | op s k ih => exact ⟨hS s hp.1, fun r => ih r (hp.2 r)⟩

namespace Protocol

variable [LinearOrder Time] (P : Protocol E) (I : Time → Db → Prop) (Z : Db → Err → Prop)

section Condition

structure Onward (L : List Obj) (db : Db) (now : Time) (db' : Db) (now' : Time) : Prop where
  clock : now ≤ now'
  keeps : I now' db'
  evolves : P.Evolves L db db'

/-- The error is tolerated now and for as long as the locks are held. -/
def Tolerates (e : Err) (L : List Obj) (db : Db) (now : Time) : Prop :=
  ∀ db' now', P.Onward I L db now db' now' → Z db' e

def Tame (Q : List Obj → List Write → Db → Time → α → Prop) :
    Prog Reply Err α → List Obj → List Write → Db → Time → Prop
  | .ret a, L, ws, db, now => ∀ db' now', P.Onward I L db now db' now' → Q L ws db' now' a
  | .fail e, L, _, db, now => P.Tolerates I Z e L db now
  | .op s k, L, ws, db, now => ∀ db' now', P.Onward I L db now db' now' → ∀ id,
      match E.exec s (E.view db' ws) ⟨now', id⟩ with
      | .ok (r, ws') =>
        Tame Q (k r) (E.wants s (E.view db' ws) ⟨now', id⟩ ++ L) (ws ++ ws') db' now'
      | .error e => P.Tolerates I Z e (E.wants s (E.view db' ws) ⟨now', id⟩ ++ L) db' now'

variable {P I Z} {L L' : List Obj} {ws : List Write} {db db' db'' : Db} {now now' now'' : Time}
  {Q : List Obj → List Write → Db → Time → α → Prop}

theorem Onward.refl (h : I now db) : P.Onward I L db now db now :=
  ⟨le_rfl, h, P.evolves_refl L db⟩

theorem Onward.trans (h : P.Onward I L db now db' now') (h' : P.Onward I L db' now' db'' now'') :
    P.Onward I L db now db'' now'' :=
  ⟨h.clock.trans h'.clock, h'.keeps, P.evolves_trans h.evolves h'.evolves⟩

theorem Onward.anti (hL : L ⊆ L') (h : P.Onward I L' db now db' now') :
    P.Onward I L db now db' now' :=
  ⟨h.clock, h.keeps, P.evolves_anti hL h.evolves⟩

theorem Tolerates.onward {e : Err} (h : P.Tolerates I Z e L db now)
    (ho : P.Onward I L db now db' now') : P.Tolerates I Z e L db' now' :=
  fun _ _ ho' => h _ _ (ho.trans ho')

theorem Tame.onward {p : Prog Reply Err α} (h : P.Tame I Z Q p L ws db now)
    (ho : P.Onward I L db now db' now') : P.Tame I Z Q p L ws db' now' := by
  cases p with
  | ret a => exact fun _ _ ho' => h _ _ (ho.trans ho')
  | fail e => exact Tolerates.onward h ho
  | op s k => exact fun _ _ ho' => h _ _ (ho.trans ho')

theorem Tame.op {s : Stmt} {k : Reply s → Prog Reply Err α}
    (hok : ∀ db' now' id r ws', P.Onward I L db now db' now' →
      E.exec s (E.view db' ws) ⟨now', id⟩ = .ok (r, ws') →
      P.Tame I Z Q (k r) (E.wants s (E.view db' ws) ⟨now', id⟩ ++ L) (ws ++ ws') db' now')
    (herr : ∀ db' now' id e, P.Onward I L db now db' now' →
      E.exec s (E.view db' ws) ⟨now', id⟩ = .error e →
      P.Tolerates I Z e (E.wants s (E.view db' ws) ⟨now', id⟩ ++ L) db' now') :
    P.Tame I Z Q (.op s k) L ws db now := by
  intro db' now' ho id
  cases hx : E.exec s (E.view db' ws) ⟨now', id⟩ with
  | ok out => exact hok db' now' id out.1 out.2 ho hx
  | error e => exact herr db' now' id e ho hx

/-- The rule of composition. -/
theorem Tame.bind {R : List Obj → List Write → Db → Time → β → Prop} {p : Prog Reply Err α}
    {f : α → Prog Reply Err β} (hI : I now db) (hp : P.Tame I Z Q p L ws db now)
    (hf : ∀ L' ws' db' now' a, I now' db' → Q L' ws' db' now' a →
      P.Tame I Z R (f a) L' ws' db' now') : P.Tame I Z R (p >>= f) L ws db now := by
  induction p generalizing L ws db now with
  | ret a => exact hf L ws db now a hI (hp db now (Onward.refl hI))
  | fail e => exact hp
  | op s k ih =>
    intro db' now' ho id
    have hop := hp db' now' ho id
    cases hx : E.exec s (E.view db' ws) ⟨now', id⟩ with
    | ok out =>
      simp only [hx] at hop ⊢
      exact ih out.1 ho.keeps hop
    | error e => simpa only [hx] using hop

/-- A plain program is tame when the errors of its statements are tolerated everywhere,
and it writes what its statements write. -/
theorem Tame.of_plain {S : Stmt → Prop} {T : Err → Prop} {F : Write → Prop}
    (hS : ∀ {s v d e}, S s → E.exec s v d = .error e → T e)
    (hF : ∀ {s v d r ws}, S s → E.exec s v d = .ok (r, ws) → ∀ w ∈ ws, F w)
    (hT : ∀ {db e}, T e → Z db e) {p : Prog Reply Err α} (hp : p.Plain S T)
    (hws : ∀ w ∈ ws, F w) :
    P.Tame I Z (fun _ ws' _ _ _ => ∀ w ∈ ws', F w) p L ws db now := by
  induction p generalizing L ws db now with
  | ret a => exact fun _ _ _ => hws
  | fail e => exact fun _ _ _ => hT hp
  | op s k ih =>
    refine .op (fun _ _ _ r ws' _ hx => ih r (hp.2 r) (fun w hw => ?_))
      (fun _ _ _ e _ hx _ _ _ => hT (hS hp.1 hx))
    rcases List.mem_append.1 hw with hw | hw
    · exact hws w hw
    · exact hF hp.1 hx w hw

end Condition

section System

variable {P} [DecidableEq Obj] {body : Call → Prog Reply Err α} {db₀ : Db} {s s' : Sys E Call α}

/-- A transaction that stays open sees of the others only what its locks let through. -/
theorem Inv.undisturbed {l : Label Call Time Id Ext} (h : P.Inv body db₀ s)
    (hx : ∀ x, l = .external x → P.Allows x) (hs : s.step? body l = some s') {i : ℕ}
    {t t' : Tx E Call α} (ht : s.tx i = some t) (ht' : s'.tx i = some t') :
    P.Evolves t.held s.db s'.db := by
  cases Sys.step?_did body hs with
  | commit j u a hu hr =>
    have hok := h.each j u hu
    have hne := (Sys.tx_of_close ht').1
    refine P.commit_evolves (P.good_mono (List.nil_subset _) h.good) hok.owns (fun o ho => ?_)
    have hapart := h.apart j i (Ne.symm hne) o (by rwa [Sys.held_of_tx hu])
    rwa [Sys.held_of_tx ht] at hapart
  | external x db' he => exact P.others_evolve (hx x rfl) h.good he _
  | _ => exact P.evolves_refl _ _

variable {I : Time → Db → Prop} {Z : Call → Db → Err → Prop} (Starts : Call → Prop)
  {Q : List Obj → List Write → Db → Time → α → Prop}
  {ok : Sys E Call α → Label Call Time Id Ext → Prop} {s₀ : Sys E Call α}

/-- Every open transaction stays tame. -/
theorem Tame.reach
    (hinv : ∀ s, Sys.Reach body ok s₀ s → P.Inv body db₀ s)
    (hI : ∀ s, Sys.Reach body ok s₀ s → I s.clock s.db)
    (hbody : ∀ c db now, Starts c → I now db → P.Tame I (Z c) Q (body c) [] [] db now)
    (hstart : ∀ s c, ok s (.start c) → Starts c)
    (hx : ∀ s x, ok s (.external x) → P.Allows x)
    (h₀ : ∀ i, s₀.tx i = none) (h : Sys.Reach body ok s₀ s) :
    ∀ i t, s.tx i = some t → P.Tame I (Z t.call) Q t.rest t.held t.writes s.db s.clock := by
  induction h with
  | refl =>
    intro i t ht
    rw [h₀ i] at ht
    cases ht
  | @tail s s' l hreach hok hs ih =>
    have hnext : I s'.clock s'.db := hI s' (hreach.tail l hok hs)
    have hclock : s.clock ≤ s'.clock := by
      have hstep : Sys.Reach body (fun _ _ => True) s s' := .tail l .refl trivial hs
      exact Sys.clock_mono hstep
    have hext (x : Ext) (hl : l = .external x) : P.Allows x := by
      subst hl
      exact hx s x hok
    intro i t ht
    -- A transaction that the step is not about.
    have kept (hopen : s.tx i = some t) :
        P.Tame I (Z t.call) Q t.rest t.held t.writes s'.db s'.clock :=
      (ih i t hopen).onward ⟨hclock, hnext, (hinv s hreach).undisturbed hext hs hopen ht⟩
    cases Sys.step?_did body hs with
    | start c =>
      rcases Sys.tx_of_start ht with ⟨-, rfl⟩ | hopen
      · exact hbody c _ _ (hstart s c hok) hnext
      · exact kept hopen
    | step j id u st k hu hr hf =>
      by_cases hij : i = j
      · subst hij
        rw [Sys.tx_put_self hu, Option.some.injEq] at ht
        subst ht
        have htame := ih i u hu
        rw [hr] at htame
        have hop := htame s.db s.clock (Onward.refl hnext) id
        cases hexec : E.exec st (E.view s.db u.writes) ⟨s.clock, id⟩ with
        | ok out =>
          simp only [hexec] at hop
          simp only [Tx.after, E.next_ok hexec, Sys.put_db, Sys.put_clock]
          exact hop
        | error e =>
          simp only [hexec] at hop
          simp only [Tx.after, E.next_error hexec, Sys.put_db, Sys.put_clock]
          exact hop
      · exact kept (by rwa [Sys.tx_put_ne hij] at ht)
    | tick now hle => exact kept ht
    | commit j u a hu hr => exact kept (Sys.tx_of_close ht).2
    | rollback j u e hu hr => exact kept (Sys.tx_of_close ht).2
    | kill j u hu => exact kept (Sys.tx_of_close ht).2
    | external x db' he => exact kept ht

/-- Every call that has failed has failed as an open transaction was about to. -/
theorem failed_reach {Z : Call → Err → Prop}
    (hopen : ∀ s i t e, Sys.Reach body ok s₀ s → s.tx i = some t → t.rest = .fail e → Z t.call e)
    (h₀ : s₀.log = []) (h : Sys.Reach body ok s₀ s) :
    ∀ x ∈ s.ended, ∀ e, x.outcome = .error e → Z x.call e := by
  induction h with
  | refl =>
    intro x hx
    rw [Sys.ended, h₀] at hx
    cases hx
  | @tail s s' l hreach hl hs ih =>
    intro x hx e he
    cases Sys.step?_did body hs with
    | tick now hle => exact ih x hx e he
    | start c => exact ih x hx e he
    | step i id t st k ht hr hf => exact ih x hx e he
    | commit i t a ht hr =>
      rcases Sys.mem_ended_snoc.1 hx with hx | hx
      · exact ih x hx e he
      · cases hx
        cases he
    | rollback i t e' ht hr =>
      rcases Sys.mem_ended_snoc.1 hx with hx | hx
      · exact ih x hx e he
      · cases hx
        cases he
        exact hopen s i t e hreach ht hr
    | kill i t ht =>
      rcases Sys.mem_ended_snoc.1 hx with hx | hx
      · exact ih x hx e he
      · cases hx
    | external y db' hy =>
      rcases Sys.mem_ended_snoc.1 hx with hx | hx
      · exact ih x hx e he
      · cases hx

end System

end Protocol
end Txn
