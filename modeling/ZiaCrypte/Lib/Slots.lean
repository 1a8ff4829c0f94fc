import Mathlib.Data.List.Flatten

/-!
# Lists of parties that go on one at a time

The entry at one place is replaced, and the rest stays. What every entry holds is
collected by a `flatMap`: an entry that takes something over adds it to the whole.
-/
namespace ZiaCrypte.Lib

variable {α β : Type} {l : List α} {i : Nat} {a b : α}

/-- What the whole list holds after one entry has come to hold more. -/
theorem flatMap_set_perm {f : α → List β} {extra : List β} (h : l[i]? = some a)
    (hf : (f b).Perm (extra ++ f a)) :
    ((l.set i b).flatMap f).Perm (extra ++ l.flatMap f) := by
  induction l generalizing i with
  | nil => cases h
  | cons c l ih =>
    cases i with
    | zero =>
      obtain rfl := Option.some.inj h
      rw [List.set_cons_zero, List.flatMap_cons, List.flatMap_cons, ← List.append_assoc]
      exact hf.append_right _
    | succ i =>
      have hrest := ih (i := i) (by simpa using h)
      rw [List.set_cons_succ, List.flatMap_cons, List.flatMap_cons]
      exact (hrest.append_left _).trans (List.perm_append_comm_assoc _ _ _)

/-- An entry that holds what it held leaves the whole as it is. -/
theorem flatMap_set_same {f : α → List β} (h : l[i]? = some a) (hf : f b = f a) :
    ((l.set i b).flatMap f).Perm (l.flatMap f) := by
  have hnone : (f b).Perm ([] ++ f a) := by rw [hf, List.nil_append]
  exact flatMap_set_perm h hnone

/-- Every entry but the one replaced is still there. -/
theorem mem_set_of_mem {c : α} (h : l[i]? = some a) (hmem : c ∈ l) : c = a ∨ c ∈ l.set i b := by
  obtain ⟨j, hj⟩ := List.mem_iff_getElem?.mp hmem
  by_cases hij : i = j
  · subst hij
    exact Or.inl (Option.some.inj (hj.symm.trans h))
  · refine Or.inr (List.mem_iff_getElem?.mpr ⟨j, ?_⟩)
    rw [List.getElem?_set_ne hij]
    exact hj

/-- An entry of the new list is an old one or the one put in. -/
theorem mem_set_cases {c : α} (h : c ∈ l.set i b) : c ∈ l ∨ c = b :=
  List.mem_or_eq_of_mem_set h

/-- An entry of the list with one more is an old one or the new one. -/
theorem mem_concat_cases {c : α} (h : c ∈ l ++ [b]) : c ∈ l ∨ c = b := by
  rcases List.mem_append.mp h with hold | hnew
  · exact .inl hold
  · exact .inr (List.mem_singleton.mp hnew)

theorem getElem?_concat_cases {n : Nat} {c : α} (h : (l ++ [b])[n]? = some c) :
    l[n]? = some c ∨ n = l.length ∧ c = b := by
  rcases Nat.lt_trichotomy n l.length with hlt | rfl | hgt
  · exact .inl ((List.getElem?_append_left hlt).symm.trans h)
  · exact .inr ⟨rfl, Option.some.inj (h.symm.trans List.getElem?_concat_length)⟩
  · have hlen := (List.getElem?_eq_some_iff.mp h).1
    rw [List.length_append, List.length_singleton] at hlen
    omega

/-- A key that is new leaves the keys without repetition. -/
theorem nodup_map_concat {f : α → β} (h : (l.map f).Nodup) (hnew : ∀ a ∈ l, f a ≠ f b) :
    ((l ++ [b]).map f).Nodup := by
  rw [List.map_append, List.map_singleton]
  refine List.nodup_append.mpr ⟨h, List.nodup_cons.mpr ⟨List.not_mem_nil, .nil⟩, ?_⟩
  intro x hx y hy hxy
  obtain ⟨a, ha, rfl⟩ := List.mem_map.mp hx
  exact hnew a ha (hxy.trans (List.mem_singleton.mp hy))

/-- A step of one party: what it is, and what it does. -/
theorem bind_bind_eq_some {γ : Type} {x : Option α} {f : α → Option β} {g : α → β → γ} {t : γ} :
    (x.bind fun a => (f a).bind fun b => some (g a b)) = some t ↔
      ∃ a b, x = some a ∧ f a = some b ∧ t = g a b := by
  simp only [Option.bind_eq_some_iff, Option.some.injEq]
  constructor
  · intro ⟨a, ha, b, hb, ht⟩
    exact ⟨a, b, ha, hb, ht.symm⟩
  · intro ⟨a, b, ha, hb, ht⟩
    exact ⟨a, ha, b, hb, ht.symm⟩

/-- What is there before one is taken out is that one, or is there afterwards. -/
theorem mem_eraseIdx_of_mem {c : α} (h : l[i]? = some a) (hmem : c ∈ l) :
    c = a ∨ c ∈ l.eraseIdx i := by
  obtain ⟨j, hj⟩ := List.mem_iff_getElem?.mp hmem
  by_cases hij : j = i
  · subst hij
    exact Or.inl (Option.some.inj (hj.symm.trans h))
  · exact Or.inr (List.mem_eraseIdx_iff_getElem?.mpr ⟨j, hij, hj⟩)

theorem set_self_mem (h : l[i]? = some a) : b ∈ l.set i b :=
  List.mem_set (List.getElem?_eq_some_iff.mp h).1 _

/-- What all entries hold is what one holds and what the others hold. -/
theorem flatMap_eraseIdx_perm (f : α → List β) (h : l[i]? = some a) :
    (l.flatMap f).Perm (f a ++ (l.eraseIdx i).flatMap f) := by
  induction l generalizing i with
  | nil => cases h
  | cons c l ih =>
    cases i with
    | zero =>
      obtain rfl := Option.some.inj h
      exact List.Perm.refl _
    | succ i =>
      rw [List.eraseIdx_cons_succ, List.flatMap_cons, List.flatMap_cons]
      have hrest := List.Perm.append_left (f c) (ih h)
      refine hrest.trans ?_
      rw [← List.append_assoc, ← List.append_assoc]
      exact List.Perm.append_right _ List.perm_append_comm

end ZiaCrypte.Lib
