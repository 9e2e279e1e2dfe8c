import Mathlib.Algebra.BigOperators.Group.List.Basic
import Mathlib.Data.List.Basic
import Mathlib.Data.List.Nodup

/-!
# Rows of a table by a column

A table is a list of rows. `rows key k` are the rows whose column `key` has the
value `k`; inserts append, updates map a function over the table.
-/

namespace Txn

variable {α κ : Type} [DecidableEq κ]

def rows (key : α → κ) (k : κ) (table : List α) : List α := table.filter (key · = k)

variable {key : α → κ} {k : κ} {table table' : List α} {a : α} {f : α → α}

theorem mem_rows : a ∈ rows key k table ↔ a ∈ table ∧ key a = k := by
  simp only [rows, List.mem_filter, decide_eq_true_eq]

@[simp] theorem rows_append :
    rows key k (table ++ table') = rows key k table ++ rows key k table' :=
  List.filter_append ..

theorem rows_insert_of_ne (h : key a ≠ k) : rows key k (table ++ [a]) = rows key k table := by
  simp [rows, h]

theorem rows_map (hf : ∀ a, key (f a) = key a) :
    rows key k (table.map f) = (rows key k table).map f := by
  simp only [rows, List.filter_map]
  congr 1
  exact List.filter_congr (fun a _ => by simp [hf])

/-- An update that leaves the rows of `k` as they are does not show there. -/
theorem rows_map_eq (hf : ∀ a, key (f a) = key a) (h : ∀ a ∈ table, key a = k → f a = a) :
    rows key k (table.map f) = rows key k table := by
  rw [rows_map hf]
  refine (List.map_congr_left (fun a ha => ?_)).trans (List.map_id _)
  obtain ⟨hm, hk⟩ := mem_rows.1 ha
  exact h a hm hk

theorem rows_append_congr (h : rows key k table' = rows key k table) (a : α) :
    rows key k (table' ++ [a]) = rows key k (table ++ [a]) := by
  rw [rows_append, rows_append, h]

theorem rows_map_congr (hf : ∀ a, key (f a) = key a) (h : rows key k table' = rows key k table) :
    rows key k (table'.map f) = rows key k (table.map f) := by
  rw [rows_map hf, rows_map hf, h]

section Kept

variable {κ : Type} {key : α → κ}

theorem keysKept_append (a : α) (h : ∀ b ∈ table, ∃ b' ∈ table', key b' = key b) :
    ∀ b ∈ table ++ [a], ∃ b' ∈ table' ++ [a], key b' = key b := by
  intro b hb
  rcases List.mem_append.1 hb with hb | hb
  · obtain ⟨b', hb', hk⟩ := h b hb
    exact ⟨b', List.mem_append_left _ hb', hk⟩
  · exact ⟨b, List.mem_append_right _ hb, rfl⟩

theorem keysKept_map (hf : ∀ a, key (f a) = key a)
    (h : ∀ b ∈ table, ∃ b' ∈ table', key b' = key b) :
    ∀ b ∈ table.map f, ∃ b' ∈ table'.map f, key b' = key b := by
  intro b hb
  obtain ⟨c, hc, rfl⟩ := List.mem_map.1 hb
  obtain ⟨c', hc', hk⟩ := h c hc
  exact ⟨f c', List.mem_map_of_mem hc', by rw [hf, hf, hk]⟩

end Kept

theorem find?_rows (key : α → κ) (k : κ) (table : List α) :
    table.find? (key · = k) = (rows key k table).head? := by
  simp only [rows, List.head?_filter]

theorem mem_of_rows_eq (h : rows key k table' = rows key k table) (ha : a ∈ table')
    (hk : key a = k) : a ∈ table :=
  (mem_rows.1 (h ▸ mem_rows.2 ⟨ha, hk⟩)).1

theorem find?_congr (h : rows key k table' = rows key k table) :
    table'.find? (key · = k) = table.find? (key · = k) := by
  rw [find?_rows, find?_rows, h]

theorem find?_spec (h : table.find? (key · = k) = some a) : a ∈ table ∧ key a = k :=
  ⟨List.mem_of_find?_eq_some h, of_decide_eq_true (List.find?_some h :)⟩

/-- With unique keys a row is what a search for its key finds. -/
theorem find?_eq_of_nodup (hn : (table.map key).Nodup) (ha : a ∈ table) :
    table.find? (key · = key a) = some a := by
  induction table with
  | nil => cases ha
  | cons b rest ih =>
    rw [List.map_cons, List.nodup_cons] at hn
    rcases List.mem_cons.1 ha with rfl | hr
    · simp
    · have hne : key b ≠ key a := fun hb => hn.1 (hb ▸ List.mem_map_of_mem hr)
      simp only [List.find?_cons, hne, decide_false]
      exact ih hn.2 hr

theorem eq_of_nodup_key (hn : (table.map key).Nodup) {b : α} (ha : a ∈ table) (hb : b ∈ table)
    (h : key a = key b) : a = b := by
  have := find?_eq_of_nodup hn ha
  rw [h, find?_eq_of_nodup hn hb] at this
  exact (Option.some.inj this).symm

section Update

variable {κ : Type} {key : α → κ} {p : α → Bool}

/-- A table around one of its rows, which is the only one with its key. -/
theorem split_of_nodup (hn : (table.map key).Nodup) (ha : a ∈ table) :
    ∃ before after, table = before ++ a :: after ∧
      ∀ b ∈ before ++ after, key b ≠ key a := by
  obtain ⟨before, after, rfl⟩ := List.append_of_mem ha
  refine ⟨before, after, rfl, fun b hb heq => ?_⟩
  have hperm : (before ++ a :: after).Perm (a :: (before ++ after)) := List.perm_middle
  have hcons := (hperm.map key).nodup_iff.1 hn
  rw [List.map_cons, List.nodup_cons] at hcons
  exact hcons.1 (heq ▸ List.mem_map_of_mem hb)

/-- What an update of one row does to the keys of the rows with a property. -/
theorem update_keys (hn : (table.map key).Nodup) (ha : a ∈ table) (hkey : key (f a) = key a)
    (hother : ∀ b ∈ table, key b ≠ key a → f b = b) :
    ((p a = false ∧ p (f a) = true) →
      (((table.map f).filter p).map key).Perm (key a :: (table.filter p).map key)) ∧
    (p (f a) = p a → ((table.map f).filter p).map key = (table.filter p).map key) := by
  obtain ⟨before, after, rfl, hne⟩ := split_of_nodup hn ha
  have hid {l : List α} (hl : ∀ b ∈ l, b ∈ before ++ after) : l.map f = l := by
    refine (List.map_congr_left (fun b hb => hother b ?_ (hne b (hl b hb)))).trans (List.map_id _)
    rcases List.mem_append.1 (hl b hb) with hb | hb
    · exact List.mem_append_left _ hb
    · exact List.mem_append_right _ (List.mem_cons_of_mem _ hb)
  rw [List.map_append, List.map_cons, hid (fun b hb => List.mem_append_left _ hb),
    hid (fun b hb => List.mem_append_right _ hb)]
  constructor
  · rintro ⟨hp, hfp⟩
    simp only [List.filter_append, List.filter_cons, hp, hfp, if_true, Bool.false_eq_true, if_false,
      List.map_append, List.map_cons, hkey]
    exact List.perm_middle
  · intro hp
    simp only [List.filter_append, List.filter_cons, hp]
    split_ifs
    · simp only [List.map_append, List.map_cons, hkey]
    · rfl

/-- What an update of one row does to a sum over the table. -/
theorem sum_update {M : Type} [AddCommMonoid M] {g : α → M} (hn : (table.map key).Nodup)
    (ha : a ∈ table) (hother : ∀ b ∈ table, key b ≠ key a → f b = b) :
    ((table.map f).map g).sum + g a = (table.map g).sum + g (f a) := by
  obtain ⟨before, after, rfl, hne⟩ := split_of_nodup hn ha
  have hid {l : List α} (hl : ∀ b ∈ l, b ∈ before ++ after) : l.map f = l := by
    refine (List.map_congr_left (fun b hb => hother b ?_ (hne b (hl b hb)))).trans (List.map_id _)
    rcases List.mem_append.1 (hl b hb) with hb | hb
    · exact List.mem_append_left _ hb
    · exact List.mem_append_right _ (List.mem_cons_of_mem _ hb)
  rw [List.map_append, List.map_cons, hid (fun b hb => List.mem_append_left _ hb),
    hid (fun b hb => List.mem_append_right _ hb)]
  simp only [List.map_append, List.map_cons, List.sum_append, List.sum_cons, add_assoc]
  rw [add_left_comm (g (f a)), add_left_comm (g a), add_comm (g (f a))]

end Update

end Txn
