import ZiaCrypte.Lib.Run
import Mathlib.Data.List.Nodup

/-!
# Tables with foreign keys

A row has an identifier, and columns that name other rows. When a row is
deleted, what names it through a cascading column goes with it, and what names
it through another column has that column set to null. An inserted row names
rows that are there.

`Depends` is what a deletion takes along. The rows that stay are integral again,
and are as they were but for the columns set to null.
-/
namespace ZiaCrypte.Lib

inductive OnDelete where
  | cascade
  | setNull
  deriving DecidableEq

/-- Rows `ρ` with identifiers `I`, whose columns `C` name other rows. -/
structure Schema (ρ I C : Type) where
  id : ρ → I
  refs : ρ → List (C × I)
  onDelete : C → OnDelete
  /-- Sets a column to null. -/
  unset : C → ρ → ρ
  id_unset : ∀ c r, id (unset c r) = id r
  refs_unset : ∀ c r e, onDelete c = .setNull → (e ∈ refs (unset c r) ↔ e ∈ refs r ∧ e.1 ≠ c)

namespace Schema

variable {ρ I C : Type} [DecidableEq I] (S : Schema ρ I C)

/-- The row names one of these through a cascading column. -/
def strikes (gone : List I) (r : ρ) : Bool :=
  (S.refs r).any fun e => S.onDelete e.1 = .cascade && gone.contains e.2

/-- The rows one round of the cascade adds. -/
def struck (gone : List I) (db : List ρ) : List I :=
  (db.filter fun r => !gone.contains (S.id r) && S.strikes gone r).map S.id

/-- What goes with these, in as many rounds as there may be. -/
def closure (db : List ρ) : Nat → List I → List I
  | 0, gone => gone
  | n + 1, gone =>
      if (S.struck gone db).isEmpty then gone else closure db n (gone ++ S.struck gone db)

def doomed (roots : List I) (db : List ρ) : List I := S.closure db db.length roots

/-- The columns that name a row that is gone are set to null. -/
def unsetGone (gone : List I) (r : ρ) : ρ :=
  ((S.refs r).filter fun e => S.onDelete e.1 = .setNull && gone.contains e.2).foldl
    (fun r e => S.unset e.1 r) r

/-- `DELETE` of the rows with these identifiers. -/
def delete (roots : List I) (db : List ρ) : List ρ :=
  let gone := S.doomed roots db
  (db.filter fun r => !gone.contains (S.id r)).map (S.unsetGone gone)

/-- `INSERT`: the identifier is new, and the rows it names are there. -/
def insert (r : ρ) (db : List ρ) : Option (List ρ) :=
  if S.id r ∉ db.map S.id ∧ ∀ e ∈ S.refs r, e.2 ∈ db.map S.id then some (db ++ [r]) else none

/-- Every row is named once, and names rows that are there. -/
structure Integral (db : List ρ) : Prop where
  ids : (db.map S.id).Nodup
  refs : ∀ r ∈ db, ∀ e ∈ S.refs r, e.2 ∈ db.map S.id

/-- The row `j` goes when the rows of `roots` do. -/
inductive Depends (db : List ρ) (roots : List I) : I → Prop where
  | root {i : I} (h : i ∈ roots) : Depends db roots i
  | cascade {r : ρ} {e : C × I} (hr : r ∈ db) (he : e ∈ S.refs r)
      (hcascade : S.onDelete e.1 = .cascade) (h : Depends db roots e.2) :
      Depends db roots (S.id r)

variable {S} {db : List ρ} {roots gone : List I}

/-! ## The rounds of a cascade -/

/-- A round takes the rows that name one of these through a cascading column. -/
theorem mem_struck {i : I} : i ∈ S.struck gone db ↔ ∃ r ∈ db, S.id r = i ∧ i ∉ gone ∧
    ∃ e ∈ S.refs r, S.onDelete e.1 = .cascade ∧ e.2 ∈ gone := by
  simp only [struck, strikes, List.mem_map, List.mem_filter, Bool.and_eq_true, Bool.not_eq_true',
    List.contains_eq_mem, decide_eq_false_iff_not, List.any_eq_true, decide_eq_true_eq]
  constructor
  · rintro ⟨r, ⟨hr, hnew, hstrikes⟩, rfl⟩
    exact ⟨r, hr, rfl, hnew, hstrikes⟩
  · rintro ⟨r, hr, rfl, hnew, hstrikes⟩
    exact ⟨r, ⟨hr, hnew, hstrikes⟩, rfl⟩

/-- A round takes only what depends on the roots. -/
theorem depends_of_mem_closure (n : Nat) (hgone : ∀ i ∈ gone, S.Depends db roots i) :
    ∀ i ∈ S.closure db n gone, S.Depends db roots i := by
  induction n generalizing gone with
  | zero => exact hgone
  | succ n ih =>
    rw [closure]
    split
    · exact hgone
    · refine ih fun i hi => ?_
      rcases List.mem_append.mp hi with hold | hnew
      · exact hgone i hold
      · obtain ⟨r, hr, rfl, -, e, he, hcascade, hmem⟩ := mem_struck.mp hnew
        exact .cascade hr he hcascade (hgone e.2 hmem)

theorem subset_closure (n : Nat) : gone ⊆ S.closure db n gone := by
  induction n generalizing gone with
  | zero => exact List.Subset.refl _
  | succ n ih =>
    rw [closure]
    split
    · exact List.Subset.refl _
    · exact fun i hi => ih (List.mem_append_left _ hi)

theorem countP_lt_countP {α : Type} {p q : α → Bool} {l : List α} {a : α}
    (h : ∀ x ∈ l, p x = true → q x = true) (ha : a ∈ l) (hp : p a = false) (hq : q a = true) :
    l.countP p < l.countP q := by
  induction l with
  | nil => cases ha
  | cons x l ih =>
    have hrest : ∀ y ∈ l, p y = true → q y = true := fun y hy => h y (List.mem_cons_of_mem x hy)
    rw [List.countP_cons, List.countP_cons]
    rcases List.mem_cons.mp ha with rfl | ha
    · have hle := List.countP_mono_left hrest
      simp only [hp, hq]
      simp only [Bool.false_eq_true, if_false, if_true]
      omega
    · have hlt := ih hrest ha
      have hx := h x List.mem_cons_self
      split
      · rw [if_pos (hx ‹_›)]
        omega
      · omega

/-- A round that takes anything leaves fewer rows. -/
theorem left_lt (h : S.struck gone db ≠ []) :
    db.countP (fun r => !(gone ++ S.struck gone db).contains (S.id r)) <
      db.countP fun r => !gone.contains (S.id r) := by
  obtain ⟨i, hi⟩ := List.exists_mem_of_ne_nil _ h
  obtain ⟨r, hr, rfl, hnew, -⟩ := mem_struck.mp hi
  refine countP_lt_countP (fun x _ hx => ?_) hr ?_ ?_
  · simp only [Bool.not_eq_true', List.contains_eq_mem, decide_eq_false_iff_not, List.mem_append,
      not_or] at hx ⊢
    exact hx.1
  · simp [hi]
  · simp [hnew]

/-- After as many rounds as there are rows, another would take nothing. -/
theorem struck_closure (n : Nat) (hn : db.countP (fun r => !gone.contains (S.id r)) ≤ n) :
    S.struck (S.closure db n gone) db = [] := by
  induction n generalizing gone with
  | zero =>
    refine List.eq_nil_iff_forall_not_mem.mpr fun i hi => ?_
    obtain ⟨r, hr, rfl, hnew, -⟩ := mem_struck.mp hi
    have hall := List.countP_eq_zero.mp (Nat.le_zero.mp hn) r hr
    simp only [Bool.not_eq_true', Bool.not_eq_false, List.contains_eq_mem,
      decide_eq_true_eq] at hall
    exact hnew hall
  | succ n ih =>
    rw [closure]
    split
    · rename_i hempty
      exact List.isEmpty_iff.mp hempty
    · rename_i hmore
      have hlt := @left_lt ρ I C _ S db gone (by simpa using hmore)
      exact ih (by omega)

/-- A deletion takes its roots, and what names through a cascading column a row it takes. -/
theorem mem_doomed {i : I} : i ∈ S.doomed roots db ↔ S.Depends db roots i := by
  constructor
  · exact depends_of_mem_closure db.length (fun _ hi => .root hi) i
  · intro h
    induction h with
    | root h => exact subset_closure db.length h
    | @cascade r e hr he hcascade _ ih =>
      by_contra hnew
      have hmore : S.id r ∈ S.struck (S.doomed roots db) db :=
        mem_struck.mpr ⟨r, hr, rfl, hnew, e, he, hcascade, ih⟩
      have hdone : S.struck (S.doomed roots db) db = [] :=
        struck_closure db.length List.countP_le_length
      rw [hdone] at hmore
      cases hmore

/-! ## What a deletion leaves -/

omit [DecidableEq I] in
theorem refs_foldl_unset {es : List (C × I)} {r : ρ}
    (hes : ∀ e ∈ es, S.onDelete e.1 = .setNull) (e : C × I) :
    e ∈ S.refs (es.foldl (fun r e => S.unset e.1 r) r) ↔
      e ∈ S.refs r ∧ ∀ e' ∈ es, e.1 ≠ e'.1 := by
  induction es generalizing r with
  | nil => simp
  | cons e' es ih =>
    have hhead := S.refs_unset e'.1 r e (hes e' List.mem_cons_self)
    rw [List.foldl_cons, ih fun x hx => hes x (List.mem_cons_of_mem e' hx), hhead,
      List.forall_mem_cons, and_assoc]

/-- What no `unset` changes. -/
theorem unsetGone_invariant {β : Type} {f : ρ → β} (h : ∀ c r, f (S.unset c r) = f r) (r : ρ) :
    f (S.unsetGone gone r) = f r := by
  rw [unsetGone]
  generalize (S.refs r).filter _ = es
  induction es generalizing r with
  | nil => rfl
  | cons e es ih => rw [List.foldl_cons, ih, h]

@[simp] theorem id_unsetGone (r : ρ) : S.id (S.unsetGone gone r) = S.id r :=
  unsetGone_invariant S.id_unset r

theorem mem_refs_unsetGone {r : ρ} {e : C × I} : e ∈ S.refs (S.unsetGone gone r) ↔
    e ∈ S.refs r ∧ ∀ i ∈ gone, S.onDelete e.1 = .setNull → (e.1, i) ∉ S.refs r := by
  rw [unsetGone, refs_foldl_unset fun e' he' => by
    simpa using (Bool.and_eq_true_iff.mp (List.mem_filter.mp he').2).1]
  refine and_congr_right fun _ => ⟨fun h i hi hnull he' => ?_, fun h e' he' hcol => ?_⟩
  · exact h (e.1, i) (List.mem_filter.mpr ⟨he', by simp [hnull, hi]⟩) rfl
  · obtain ⟨hmem, hgone⟩ := List.mem_filter.mp he'
    simp only [Bool.and_eq_true, decide_eq_true_eq, List.contains_eq_mem] at hgone
    rw [← hcol] at hgone
    exact h e'.2 hgone.2 hgone.1 (hcol ▸ hmem)

/-- A row that names nothing that is gone is as it was. -/
theorem unsetGone_eq {r : ρ} (h : ∀ e ∈ S.refs r, S.onDelete e.1 = .setNull → e.2 ∉ gone) :
    S.unsetGone gone r = r := by
  have hnone : (S.refs r).filter (fun e => S.onDelete e.1 = .setNull && gone.contains e.2) = [] :=
    List.filter_eq_nil_iff.mpr fun e he => by simpa using h e he
  rw [unsetGone, hnone, List.foldl_nil]

theorem mem_delete {r : ρ} : r ∈ S.delete roots db ↔
    ∃ r' ∈ db, ¬S.Depends db roots (S.id r') ∧ S.unsetGone (S.doomed roots db) r' = r := by
  simp [delete, ← mem_doomed, and_assoc]

theorem mem_ids_delete {i : I} : i ∈ (S.delete roots db).map S.id ↔
    i ∈ db.map S.id ∧ ¬S.Depends db roots i := by
  simp only [List.mem_map, mem_delete]
  constructor
  · rintro ⟨_, ⟨r, hr, hstays, rfl⟩, rfl⟩
    rw [id_unsetGone]
    exact ⟨⟨r, hr, rfl⟩, hstays⟩
  · rintro ⟨⟨r, hr, rfl⟩, hstays⟩
    exact ⟨_, ⟨r, hr, hstays, rfl⟩, id_unsetGone r⟩

/-- The rows of which a deletion takes none, as they are read without their nullable columns. -/
theorem filterMap_delete {β : Type} {f : ρ → Option β} (h : ∀ c r, f (S.unset c r) = f r)
    (hstay : ∀ r ∈ db, ∀ b, f r = some b → ¬S.Depends db roots (S.id r)) :
    (S.delete roots db).filterMap f = db.filterMap f := by
  have hread : ∀ r, (f ∘ S.unsetGone (S.doomed roots db)) r = f r := fun r =>
    unsetGone_invariant h r
  rw [delete, List.filterMap_map, funext hread, List.filterMap_filter]
  refine List.filterMap_congr fun r hr => ?_
  cases hf : f r with
  | none => exact ite_self none
  | some b =>
    have hnot : S.id r ∉ S.doomed roots db := fun hgone => hstay r hr b hf (mem_doomed.mp hgone)
    exact if_pos (by simpa using hnot)

/-! ## Integrity -/

omit [DecidableEq I] in
theorem Integral.nil : S.Integral [] := ⟨List.nodup_nil, fun _ h => nomatch h⟩

theorem Integral.delete (h : S.Integral db) : S.Integral (S.delete roots db) where
  ids := by
    have hids : (S.delete roots db).map S.id =
        (db.filter fun r => !(S.doomed roots db).contains (S.id r)).map S.id := by
      simp [Schema.delete]
    rw [hids]
    exact h.ids.sublist (List.filter_sublist.map S.id)
  refs := by
    intro r' hr' e he
    obtain ⟨r, hr, hstays, rfl⟩ := mem_delete.mp hr'
    obtain ⟨he, hnull⟩ := mem_refs_unsetGone.mp he
    refine mem_ids_delete.mpr ⟨h.refs r hr e he, fun hgone => ?_⟩
    cases haction : S.onDelete e.1 with
    | cascade => exact hstays (.cascade hr he haction hgone)
    | setNull => exact hnull e.2 (mem_doomed.mpr hgone) haction he

theorem insert_eq_some {db' : List ρ} {r : ρ} : S.insert r db = some db' ↔
    (S.id r ∉ db.map S.id ∧ ∀ e ∈ S.refs r, e.2 ∈ db.map S.id) ∧ db' = db ++ [r] := by
  rw [insert, Option.ite_none_right_eq_some, Option.some.injEq, @eq_comm _ db']

theorem Integral.insert {db' : List ρ} {r : ρ} (h : S.Integral db)
    (hinsert : S.insert r db = some db') : S.Integral db' := by
  obtain ⟨hnew, rfl⟩ := insert_eq_some.mp hinsert
  refine ⟨?_, fun x hx e he => ?_⟩
  · rw [List.map_append, List.map_singleton]
    refine List.nodup_append.mpr ⟨h.ids, List.nodup_singleton _, fun i hi j hj => ?_⟩
    obtain rfl := List.mem_singleton.mp hj
    rintro rfl
    exact hnew.1 hi
  · rw [List.map_append]
    refine List.mem_append_left _ ?_
    rcases List.mem_append.mp hx with hx | hx
    · exact h.refs x hx e he
    · obtain rfl := List.mem_singleton.mp hx
      exact hnew.2 e he

omit [DecidableEq I] in
/-- `UPDATE` of columns that name no row. -/
theorem Integral.update {f : ρ → ρ} (h : S.Integral db) (hid : ∀ r ∈ db, S.id (f r) = S.id r)
    (hrefs : ∀ r ∈ db, S.refs (f r) = S.refs r) : S.Integral (db.map f) := by
  have hids : (db.map f).map S.id = db.map S.id := by
    rw [List.map_map]
    exact List.map_congr_left hid
  refine ⟨hids ▸ h.ids, fun x hx e he => ?_⟩
  obtain ⟨r, hr, rfl⟩ := List.mem_map.mp hx
  rw [hids]
  exact h.refs r hr e (hrefs r hr ▸ he)

end Schema

end ZiaCrypte.Lib
