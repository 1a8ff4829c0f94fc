import Mathlib.Data.List.Perm.Basic
import Mathlib.Data.List.Nodup

/-!
# Events that two orders agree upon

A state is folded over events, and some pairs of events depend on one another: any other
pair may be exchanged. Two orders of the same events that have every dependent pair the
same way round lead to one state.
-/
namespace ZiaCrypte.Lib

universe u v

variable {ε : Type u} {σ : Type v}

/-- The same events, and every two that depend on one another in the same order. -/
structure SameOrder (dep : ε → ε → Prop) (l₁ l₂ : List ε) : Prop where
  perm : l₁.Perm l₂
  order : ∀ a b, dep a b → ([a, b].Sublist l₁ ↔ [a, b].Sublist l₂)

/-- The events that stand in no order with any other may be exchanged. -/
structure Commutes (dep : ε → ε → Prop) (f : σ → ε → σ) : Prop where
  symm : ∀ a b, dep a b → dep b a
  comm : ∀ s a b, ¬ dep a b → f (f s a) b = f (f s b) a

theorem pair_sublist_insert_iff {a b e : ε} (ha : a ≠ e) (hb : b ≠ e) (l₁ l₂ : List ε) :
    [a, b].Sublist (l₁ ++ e :: l₂) ↔ [a, b].Sublist (l₁ ++ l₂) := by
  classical
  constructor
  · intro h
    have hfilter := h.filter (fun x => decide (x ≠ e))
    have hpair : [a, b].filter (fun x => decide (x ≠ e)) = [a, b] := by
      rw [List.filter_cons_of_pos (by simpa using ha), List.filter_cons_of_pos (by simpa using hb),
        List.filter_nil]
    rw [hpair, List.filter_append, List.filter_cons_of_neg (by simp), ← List.filter_append] at hfilter
    exact hfilter.trans List.filter_sublist
  · intro h
    exact h.trans ((List.sublist_cons_self e l₂).append_left l₁)

theorem not_pair_sublist {a b e : ε} {l : List ε} (he : e ∉ l) (hab : a = e ∨ b = e) :
    ¬ [a, b].Sublist l := by
  intro h
  obtain rfl | rfl := hab
  · exact he (h.subset List.mem_cons_self)
  · exact he (h.subset (List.mem_cons_of_mem _ List.mem_cons_self))

namespace SameOrder

variable {dep : ε → ε → Prop} {e : ε} {t pre post : List ε}

/-- Only the events there are must be compared. -/
theorem of_mem {l₁ l₂ : List ε} (hperm : l₁.Perm l₂)
    (h : ∀ a ∈ l₁, ∀ b ∈ l₁, dep a b → ([a, b].Sublist l₁ ↔ [a, b].Sublist l₂)) :
    SameOrder dep l₁ l₂ := by
  refine ⟨hperm, fun a b hdep => ?_⟩
  have ha : a ∈ [a, b] := List.mem_cons_self
  have hb : b ∈ [a, b] := List.mem_cons_of_mem a List.mem_cons_self
  constructor
  · intro hsub
    exact (h a (hsub.subset ha) b (hsub.subset hb) hdep).mp hsub
  · intro hsub
    have ha₁ : a ∈ l₁ := hperm.mem_iff.mpr (hsub.subset ha)
    have hb₁ : b ∈ l₁ := hperm.mem_iff.mpr (hsub.subset hb)
    exact (h a ha₁ b hb₁ hdep).mpr hsub

/-- The first event of one order depends on none of those that the other has before it. -/
theorem independent (h : SameOrder dep (e :: t) (pre ++ e :: post)) (hnodup : (e :: t).Nodup)
    (hsymm : ∀ a b, dep a b → dep b a) {x : ε} (hx : x ∈ pre) : ¬ dep e x := by
  intro hdep
  have hx2 : [x, e].Sublist (pre ++ e :: post) :=
    (List.singleton_sublist.mpr hx).append (List.singleton_sublist.mpr List.mem_cons_self)
  have hx1 : [x, e].Sublist (e :: t) := (h.order x e (hsymm e x hdep)).mpr hx2
  have hnodup2 : (pre ++ e :: post).Nodup := h.perm.nodup_iff.mp hnodup
  have hne : x ≠ e := by
    rintro rfl
    exact List.disjoint_of_nodup_append hnodup2 hx List.mem_cons_self
  have hlater : [x, e].Sublist t := by
    cases hx1 with
    | cons _ h => exact h
    | cons_cons _ h => exact absurd rfl hne
  exact (List.nodup_cons.mp hnodup).1
    (hlater.subset (List.mem_cons_of_mem _ List.mem_cons_self))

/-- Without it the two orders agree still. -/
theorem tail (h : SameOrder dep (e :: t) (pre ++ e :: post)) (hnodup : (e :: t).Nodup) :
    SameOrder dep t (pre ++ post) := by
  have hperm : t.Perm (pre ++ post) :=
    (h.perm.trans List.perm_middle).cons_inv
  have he : e ∉ t := (List.nodup_cons.mp hnodup).1
  refine ⟨hperm, fun a b hdep => ?_⟩
  by_cases hab : a = e ∨ b = e
  · exact iff_of_false (not_pair_sublist he hab)
      (not_pair_sublist (fun hmem => he (hperm.mem_iff.mpr hmem)) hab)
  · obtain ⟨ha, hb⟩ := not_or.mp hab
    have h1 := pair_sublist_insert_iff ha hb [] t
    have h2 := pair_sublist_insert_iff ha hb pre post
    exact h1.symm.trans ((h.order a b hdep).trans h2)

/-- Two logs of the events of two sides, each side in its own order in both, and every two of
different sides that depend on one another in one order. -/
theorem of_sides {l₁ l₂ : List ε} (side : ε → Bool)
    (htrue : l₁.filter side = l₂.filter side)
    (hfalse : l₁.filter (fun e => !side e) = l₂.filter fun e => !side e)
    (hcross : ∀ a b, a ∈ l₁ ∧ a ∈ l₂ → b ∈ l₁ ∧ b ∈ l₂ → dep a b → side a ≠ side b →
      ([a, b].Sublist l₁ ↔ [a, b].Sublist l₂)) : SameOrder dep l₁ l₂ := by
  have hperm : l₁.Perm l₂ :=
    (List.filter_append_perm side l₁).symm.trans
      (htrue ▸ hfalse ▸ List.filter_append_perm side l₂)
  have hsame : ∀ (q : ε → Bool) (l : List ε) {a b : ε}, q a = true → q b = true →
      ([a, b].Sublist l ↔ [a, b].Sublist (l.filter q)) := fun q l a b ha hb => by
    constructor
    · intro h
      have hfilter := h.filter q
      rwa [List.filter_cons_of_pos ha, List.filter_cons_of_pos hb, List.filter_nil] at hfilter
    · exact fun h => h.trans List.filter_sublist
  refine of_mem hperm fun a ha b hb hdep => ?_
  by_cases hside : side a = side b
  · cases hb' : side b with
    | true =>
      rw [hb'] at hside
      rw [hsame side l₁ hside hb', hsame side l₂ hside hb', htrue]
    | false =>
      rw [hb'] at hside
      have ha' : (!side a) = true := by rw [hside]; rfl
      have hb'' : (!side b) = true := by rw [hb']; rfl
      rw [hsame (fun e => !side e) l₁ ha' hb'', hsame (fun e => !side e) l₂ ha' hb'', hfalse]
  · exact hcross a b ⟨ha, hperm.mem_iff.mp ha⟩ ⟨hb, hperm.mem_iff.mp hb⟩ hdep hside

end SameOrder

/-- No two events stand in both orders. -/
theorem not_both_orders {a b : ε} {l : List ε} (hnodup : l.Nodup) (h : [a, b].Sublist l) :
    ¬ [b, a].Sublist l := by
  induction l with
  | nil => cases h
  | cons c t ih =>
    obtain ⟨hc, ht⟩ := List.nodup_cons.mp hnodup
    intro h'
    cases h with
    | cons _ h =>
      cases h' with
      | cons _ h' => exact ih ht h h'
      | cons_cons _ h' => exact hc (h.subset (List.mem_cons_of_mem _ List.mem_cons_self))
    | cons_cons _ h =>
      cases h' with
      | cons _ h' => exact hc (h'.subset (List.mem_cons_of_mem _ List.mem_cons_self))
      | cons_cons _ h' => exact hc (h.subset List.mem_cons_self)

variable {dep : ε → ε → Prop} {f : σ → ε → σ}

/-- An event moves before others that it does not depend on. -/
theorem Commutes.foldl_move (hf : Commutes dep f) {e : ε} {pre : List ε}
    (hpre : ∀ x ∈ pre, ¬ dep e x) (s : σ) : f (pre.foldl f s) e = pre.foldl f (f s e) := by
  induction pre generalizing s with
  | nil => rfl
  | cons x pre ih =>
    have hx : ¬ dep e x := hpre x List.mem_cons_self
    rw [List.foldl_cons, List.foldl_cons, ih (fun y hy => hpre y (List.mem_cons_of_mem x hy)),
      hf.comm s e x hx]

/-- Both orders end in the same state. -/
theorem Commutes.foldl_eq (hf : Commutes dep f) {l₁ l₂ : List ε} (hnodup : l₁.Nodup)
    (h : SameOrder dep l₁ l₂) (s : σ) : l₁.foldl f s = l₂.foldl f s := by
  induction l₁ generalizing l₂ s with
  | nil => rw [h.perm.nil_eq]
  | cons e t ih =>
    obtain ⟨pre, post, rfl⟩ := List.append_of_mem (h.perm.mem_iff.mp List.mem_cons_self)
    have hmove : f (pre.foldl f s) e = pre.foldl f (f s e) :=
      hf.foldl_move (fun x hx => h.independent hnodup hf.symm hx) s
    have hrest := ih (List.nodup_cons.mp hnodup).2 (h.tail hnodup) (f s e)
    rw [List.foldl_cons, hrest, List.foldl_append, List.foldl_append, List.foldl_cons, hmove]

end ZiaCrypte.Lib
