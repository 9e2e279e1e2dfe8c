import MoneyMovement.Auth.Sessions

/-!
# How session rows change

No statement deletes a session or takes a revocation back, and the primary key and
the unique index on the token hash hold at all times.
-/

namespace MoneyMovement

open Txn AuthSessionRepository

section Rows

theorem map_ok {ε α β : Type} {x : Except ε α} {f : α → β} {b : β} (h : x.map f = .ok b) :
    ∃ a, x = .ok a ∧ f a = b := by
  cases x with
  | error e => cases h
  | ok a => exact ⟨a, rfl, Except.ok.inj h⟩

theorem bind_ok {ε α β : Type} {x : Except ε α} {f : α → Except ε β} {b : β}
    (h : x.bind f = .ok b) : ∃ a, x = .ok a ∧ f a = .ok b := by
  cases x with
  | error e => cases h
  | ok a => exact ⟨a, rfl, h⟩

variable {cfg : AuthConfig} {db db' db'' : AuthDb}

structure AuthDb.Keys (db : AuthDb) : Prop where
  ids : (db.authSessions.map (·.id)).Nodup
  hashes : (db.authSessions.map (·.refreshTokenHash)).Nodup

/-- Sessions are never deleted, a revoked one stays revoked, and a new one has a new id. -/
structure AuthDb.Evolves (db db' : AuthDb) : Prop where
  kept : ∀ s ∈ db.authSessions, ∃ s' ∈ db'.authSessions,
    s'.id = s.id ∧ s'.refreshTokenHash = s.refreshTokenHash
  origin : ∀ s' ∈ db'.authSessions,
    (∃ s ∈ db.authSessions, s.id = s'.id ∧ (s.revokedAt ≠ none → s'.revokedAt ≠ none)) ∨
      ∀ s ∈ db.authSessions, s.id ≠ s'.id

theorem AuthDb.Evolves.same (h : db'.authSessions = db.authSessions) : db.Evolves db' where
  kept s hs := ⟨s, h ▸ hs, rfl, rfl⟩
  origin s' hs' := .inl ⟨s', h ▸ hs', rfl, fun hr => hr⟩

theorem AuthDb.Evolves.trans (h : db.Evolves db') (h' : db'.Evolves db'') : db.Evolves db'' where
  kept s hs := by
    obtain ⟨s', hs', hid, hhash⟩ := h.kept s hs
    obtain ⟨s'', hs'', hid', hhash'⟩ := h'.kept s' hs'
    exact ⟨s'', hs'', hid'.trans hid, hhash'.trans hhash⟩
  origin s'' hs'' := by
    rcases h'.origin s'' hs'' with ⟨s', hs', hid', hrev'⟩ | hnew'
    · rcases h.origin s' hs' with ⟨s, hs, hid, hrev⟩ | hnew
      · exact .inl ⟨s, hs, hid.trans hid', hrev' ∘ hrev⟩
      · exact .inr (fun s hs => hid' ▸ hnew s hs)
    · refine .inr (fun s hs hid => ?_)
      obtain ⟨s', hs', hid', -⟩ := h.kept s hs
      exact hnew' s' hs' (hid'.trans hid)

structure Revokes (f : AuthSession → AuthSession) : Prop where
  id : ∀ s, (f s).id = s.id
  hash : ∀ s, (f s).refreshTokenHash = s.refreshTokenHash
  revoked : ∀ s, s.revokedAt ≠ none → (f s).revokedAt ≠ none

theorem revokes_row (id : Uuid) (now : Time) : Revokes (revokeRow id now) where
  id s := by unfold revokeRow; split <;> rfl
  hash s := by unfold revokeRow; split <;> rfl
  revoked s h := by
    unfold revokeRow
    split
    · exact Option.some_ne_none now
    · exact h

theorem revokes_activeRow (userId : Uuid) (now : Time) : Revokes (revokeActiveRow userId now) where
  id s := by unfold revokeActiveRow; split <;> rfl
  hash s := by unfold revokeActiveRow; split <;> rfl
  revoked s h := by
    unfold revokeActiveRow
    split
    · exact Option.some_ne_none now
    · exact h

theorem Revokes.evolves {f : AuthSession → AuthSession} (hf : Revokes f) (hk : db.Keys)
    (h : db'.authSessions = db.authSessions.map f) : db'.Keys ∧ db.Evolves db' := by
  refine ⟨⟨?_, ?_⟩, fun s hs => ?_, fun s' hs' => ?_⟩
  · rw [h, List.map_map, show (·.id) ∘ f = (·.id) from funext hf.id]
    exact hk.ids
  · rw [h, List.map_map, show (·.refreshTokenHash) ∘ f = (·.refreshTokenHash) from funext hf.hash]
    exact hk.hashes
  · exact ⟨f s, h ▸ List.mem_map_of_mem hs, hf.id s, hf.hash s⟩
  · rw [h] at hs'
    obtain ⟨s, hs, rfl⟩ := List.mem_map.1 hs'
    exact .inl ⟨s, hs, (hf.id s).symm, hf.revoked s⟩

theorem revoke_evolves {id : Uuid} {now : Time} (hk : db.Keys) (h : revoke id now db = .ok db') :
    db'.Keys ∧ db.Evolves db' := by
  unfold revoke at h
  split at h
  · cases h
    exact (revokes_row id now).evolves hk rfl
  · cases h

theorem create_evolves {data : CreateAuthSessionData} {id : Uuid} {now : Time} (hk : db.Keys)
    (h : create data id now db = .ok db') : db'.Keys ∧ db.Evolves db' := by
  unfold create at h
  split at h
  · cases h
  · next hnew =>
    cases h
    simp only [not_exists, not_and, not_or] at hnew
    refine ⟨⟨?_, ?_⟩, fun s hs => ?_, fun s' hs' => ?_⟩
    · rw [List.map_append, List.map_singleton]
      exact (List.nodup_append.2 ⟨hk.ids, List.nodup_singleton _, fun a ha b hb => by
        obtain ⟨s, hs, rfl⟩ := List.mem_map.1 ha
        rw [List.mem_singleton.1 hb]
        exact (hnew s hs).1⟩)
    · rw [List.map_append, List.map_singleton]
      exact (List.nodup_append.2 ⟨hk.hashes, List.nodup_singleton _, fun a ha b hb => by
        obtain ⟨s, hs, rfl⟩ := List.mem_map.1 ha
        rw [List.mem_singleton.1 hb]
        exact (hnew s hs).2⟩)
    · exact ⟨s, List.mem_append_left _ hs, rfl, rfl⟩
    · rcases List.mem_append.1 hs' with hs' | hs'
      · exact .inl ⟨s', hs', rfl, fun h => h⟩
      · rw [List.mem_singleton.1 hs']
        exact .inr (fun s hs => (hnew s hs).1)

theorem exec_evolves {st : AuthStmt} {r : AuthReply st} {d : Draw Time Fresh} (hk : db.Keys)
    (h : authExec cfg st db d = .ok (r, db')) : db'.Keys ∧ db.Evolves db' := by
  cases st with
  | create data =>
    obtain ⟨db₁, hc, heq⟩ := map_ok h
    cases heq
    exact create_evolves hk hc
  | revoke id =>
    obtain ⟨db₁, hr, heq⟩ := map_ok h
    cases heq
    exact revoke_evolves hk hr
  | revokeAllActiveForUser userId =>
    cases h
    exact (revokes_activeRow userId d.now).evolves hk rfl
  | rotate id data =>
    obtain ⟨db₂, hb, heq⟩ := map_ok h
    obtain ⟨db₁, hr, hc⟩ := bind_ok hb
    cases heq
    obtain ⟨hk₁, he₁⟩ := revoke_evolves hk hr
    obtain ⟨hk₂, he₂⟩ := create_evolves hk₁ hc
    exact ⟨hk₂, he₁.trans he₂⟩
  | recordDetached entry =>
    cases h
    exact ⟨⟨hk.ids, hk.hashes⟩, .same rfl⟩
  | _ =>
    cases h
    exact ⟨hk, .same rfl⟩

/-- After a rotation the old session is there, and revoked. -/
theorem rotate_revokes {id : Uuid} {data : CreateAuthSessionData} {r : Unit}
    {d : Draw Time Fresh} (h : authExec cfg (.rotate id data) db d = .ok (r, db')) :
    (∃ s ∈ db'.authSessions, s.id = id) ∧
      ∀ s ∈ db'.authSessions, s.id = id → s.revokedAt ≠ none := by
  obtain ⟨db₂, hb, heq⟩ := map_ok h
  obtain ⟨db₁, hr, hc⟩ := bind_ok hb
  cases heq
  unfold revoke at hr
  split at hr
  · next hex =>
    cases hr
    obtain ⟨s, hs, hid⟩ := hex
    have hs₁ : revokeRow id d.now s ∈ db.authSessions.map (revokeRow id d.now) :=
      List.mem_map_of_mem hs
    have hid₁ : (revokeRow id d.now s).id = id := ((revokes_row id d.now).id s).trans hid
    unfold create at hc
    split at hc
    · cases hc
    · next hnew =>
      cases hc
      simp only [not_exists, not_and, not_or] at hnew
      refine ⟨⟨_, List.mem_append_left _ hs₁, hid₁⟩, fun t ht htid => ?_⟩
      rcases List.mem_append.1 ht with ht | ht
      · obtain ⟨u, hu, rfl⟩ := List.mem_map.1 ht
        have huid : u.id = id := ((revokes_row id d.now).id u).symm.trans htid
        simp [revokeRow, huid]
      · rw [List.mem_singleton.1 ht] at htid
        exact ((hnew _ hs₁).1 (hid₁.trans htid.symm)).elim
  · cases hr

theorem find_spec {hash : JsString} {s : AuthSession} (h : findByTokenHash hash db = some s) :
    s ∈ db.authSessions ∧ s.refreshTokenHash = hash :=
  find?_spec h

end Rows

end MoneyMovement
