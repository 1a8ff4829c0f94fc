import Mathlib.Logic.Function.Basic
import Mathlib.Data.List.Basic

/-!
# Maps from keys to sets, and one the inverse of the other

A key whose set has run empty is taken out. A set is the list of its members, in
the order they came. What counts of an index is which key holds which value.
-/
namespace ZiaCrypte.Lib

structure Index (κ ν : Type) where
  get? : κ → Option (List ν)

namespace Index

variable {κ ν : Type}

def empty : Index κ ν := ⟨fun _ => none⟩

/-- The value is in the set of the key. -/
def Holds (m : Index κ ν) (k : κ) (v : ν) : Prop := ∃ vs ∈ m.get? k, v ∈ vs

def NoEmpty (m : Index κ ν) : Prop := ∀ k, m.get? k ≠ some []

/-- What one holds the other way round. -/
def Inverse (m : Index κ ν) (m' : Index ν κ) : Prop := ∀ k v, m.Holds k v ↔ m'.Holds v k

variable {m : Index κ ν} {k k' : κ} {v v' : ν} {vs : List ν} {ks : List κ}

@[simp] theorem not_holds_empty : ¬ (empty : Index κ ν).Holds k v := by
  intro ⟨vs, hvs, _⟩
  cases hvs

theorem holds_of_get? (h : m.get? k = some vs) : m.Holds k v ↔ v ∈ vs := by
  constructor
  · intro ⟨ws, hws, hv⟩
    obtain rfl := Option.some.inj (h.symm.trans hws)
    exact hv
  · intro hv
    exact ⟨vs, h, hv⟩

theorem not_holds_of_get?_none (h : m.get? k = none) : ¬ m.Holds k v := by
  intro ⟨vs, hvs, _⟩
  rw [h] at hvs
  cases hvs

theorem holds_iff_getD : m.Holds k v ↔ v ∈ (m.get? k).getD [] := by
  unfold Holds
  cases m.get? k <;> simp

theorem noEmpty_empty : (empty : Index κ ν).NoEmpty := fun _ h => nomatch h

/-- Where no set is empty, a key is there exactly when it holds something. -/
theorem NoEmpty.isSome_iff (h : m.NoEmpty) : (m.get? k).isSome ↔ ∃ v, m.Holds k v := by
  constructor
  · intro hsome
    obtain ⟨vs, hvs⟩ := Option.isSome_iff_exists.mp hsome
    cases vs with
    | nil => exact absurd hvs (h k)
    | cons v vs => exact ⟨v, (holds_of_get? hvs).mpr List.mem_cons_self⟩
  · intro ⟨v, vs, hvs, _⟩
    rw [hvs]
    rfl

variable [DecidableEq κ]

def set (m : Index κ ν) (k : κ) (vs : List ν) : Index κ ν :=
  ⟨Function.update m.get? k (some vs)⟩

def delete (m : Index κ ν) (k : κ) : Index κ ν := ⟨Function.update m.get? k none⟩

@[simp] theorem get?_set : (m.set k vs).get? k' = if k' = k then some vs else m.get? k' :=
  Function.update_apply m.get? k (some vs) k'

@[simp] theorem get?_delete : (m.delete k).get? k' = if k' = k then none else m.get? k' :=
  Function.update_apply m.get? k none k'

theorem holds_set : (m.set k vs).Holds k' v' ↔ if k' = k then v' ∈ vs else m.Holds k' v' := by
  unfold Holds
  rw [get?_set]
  by_cases hk : k' = k <;> simp [hk]

theorem holds_delete : (m.delete k).Holds k' v' ↔ m.Holds k' v' ∧ k' ≠ k := by
  unfold Holds
  rw [get?_delete]
  by_cases hk : k' = k <;> simp [hk]

theorem noEmpty_set (h : m.NoEmpty) (hvs : vs ≠ []) : (m.set k vs).NoEmpty := by
  intro k'
  rw [get?_set]
  by_cases hk : k' = k
  · rw [if_pos hk]
    exact fun hnil => hvs (Option.some.inj hnil)
  · rw [if_neg hk]
    exact h k'

theorem noEmpty_delete (h : m.NoEmpty) : (m.delete k).NoEmpty := by
  intro k'
  rw [get?_delete]
  by_cases hk : k' = k
  · simp [hk]
  · rw [if_neg hk]
    exact h k'

variable [DecidableEq ν]

instance (m : Index κ ν) (k : κ) (v : ν) : Decidable (m.Holds k v) :=
  inferInstanceAs (Decidable (∃ vs ∈ m.get? k, v ∈ vs))

/-- A set that is missing is made. -/
def add (m : Index κ ν) (k : κ) (v : ν) : Index κ ν :=
  let vs := (m.get? k).getD []
  m.set k (if v ∈ vs then vs else vs ++ [v])

/-- A set that runs empty goes with its key. -/
def remove (m : Index κ ν) (k : κ) (v : ν) : Index κ ν :=
  match m.get? k with
  | none => m
  | some vs =>
      let rest := vs.filter (· ≠ v)
      if rest = [] then m.delete k else m.set k rest

/-- One value under many keys. -/
def addAll (m : Index κ ν) (ks : List κ) (v : ν) : Index κ ν :=
  ks.foldl (fun m k => m.add k v) m

def removeAll (m : Index κ ν) (ks : List κ) (v : ν) : Index κ ν :=
  ks.foldl (fun m k => m.remove k v) m

theorem holds_add : (m.add k v).Holds k' v' ↔ m.Holds k' v' ∨ (k' = k ∧ v' = v) := by
  unfold add
  rw [holds_set]
  by_cases hk : k' = k
  · subst hk
    rw [if_pos rfl, holds_iff_getD]
    by_cases hv : v ∈ (m.get? k').getD []
    · rw [if_pos hv]
      constructor
      · exact Or.inl
      · rintro (h | ⟨-, rfl⟩)
        · exact h
        · exact hv
    · rw [if_neg hv, List.mem_append, List.mem_singleton]
      simp
  · rw [if_neg hk]
    simp [hk]

theorem holds_remove : (m.remove k v).Holds k' v' ↔ m.Holds k' v' ∧ ¬ (k' = k ∧ v' = v) := by
  unfold remove
  cases hget : m.get? k with
  | none =>
    constructor
    · intro h
      refine ⟨h, ?_⟩
      rintro ⟨rfl, -⟩
      exact not_holds_of_get?_none hget h
    · exact And.left
  | some vs =>
    dsimp only
    split
    · rename_i hrest
      rw [holds_delete]
      have honly : ∀ w ∈ vs, w = v := by simpa [List.filter_eq_nil_iff] using hrest
      constructor
      · intro ⟨h, hk⟩
        exact ⟨h, fun hkv => hk hkv.1⟩
      · intro ⟨h, hkv⟩
        refine ⟨h, ?_⟩
        rintro rfl
        exact hkv ⟨rfl, honly v' ((holds_of_get? hget).mp h)⟩
    · rw [holds_set]
      by_cases hk : k' = k
      · subst hk
        rw [if_pos rfl, holds_of_get? hget, List.mem_filter]
        simp
      · simp [hk]

theorem isSome_get?_add : ((m.add k v).get? k').isSome ↔ k' = k ∨ (m.get? k').isSome := by
  unfold add
  rw [get?_set]
  by_cases hk : k' = k <;> simp [hk]

theorem get?_remove_of_ne (hk : k' ≠ k) : (m.remove k v).get? k' = m.get? k' := by
  unfold remove
  cases m.get? k with
  | none => rfl
  | some vs =>
    dsimp only
    split
    · rw [get?_delete, if_neg hk]
    · rw [get?_set, if_neg hk]

theorem holds_addAll :
    (m.addAll ks v).Holds k' v' ↔ m.Holds k' v' ∨ (k' ∈ ks ∧ v' = v) := by
  unfold addAll
  induction ks generalizing m with
  | nil => simp
  | cons k ks ih =>
    rw [List.foldl_cons, ih, holds_add, List.mem_cons]
    tauto

theorem holds_removeAll :
    (m.removeAll ks v).Holds k' v' ↔ m.Holds k' v' ∧ ¬ (k' ∈ ks ∧ v' = v) := by
  unfold removeAll
  induction ks generalizing m with
  | nil => simp
  | cons k ks ih =>
    rw [List.foldl_cons, ih, holds_remove, List.mem_cons]
    tauto

theorem noEmpty_add (h : m.NoEmpty) : (m.add k v).NoEmpty := by
  apply noEmpty_set h
  split
  · rename_i hv
    exact List.ne_nil_of_mem hv
  · simp

theorem noEmpty_remove (h : m.NoEmpty) : (m.remove k v).NoEmpty := by
  unfold remove
  cases m.get? k with
  | none => exact h
  | some vs =>
    dsimp only
    split
    · exact noEmpty_delete h
    · rename_i hrest
      exact noEmpty_set h hrest

theorem noEmpty_addAll (h : m.NoEmpty) : (m.addAll ks v).NoEmpty := by
  unfold addAll
  induction ks generalizing m with
  | nil => exact h
  | cons k ks ih => exact ih (noEmpty_add h)

theorem noEmpty_removeAll (h : m.NoEmpty) : (m.removeAll ks v).NoEmpty := by
  unfold removeAll
  induction ks generalizing m with
  | nil => exact h
  | cons k ks ih => exact ih (noEmpty_remove h)

end Index

end ZiaCrypte.Lib
