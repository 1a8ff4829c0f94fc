import Mathlib.Data.List.Basic
import Mathlib.Data.List.Nodup

/-!
# Insertion-ordered maps with fail-fast iteration

A map that remembers the order of insertion and counts its structural
modifications: a new key and a removal count, the replacement of a value does
not. An iteration keeps the count it started with and gives up once it differs.
-/
namespace ZiaCrypte.Lib

structure LinkedMap (κ ν : Type) where
  entries : List (κ × ν)
  modifications : Nat
  deriving DecidableEq

namespace LinkedMap

variable {κ ν : Type} [DecidableEq κ]

def empty : LinkedMap κ ν := ⟨[], 0⟩

def keys (m : LinkedMap κ ν) : List κ := m.entries.map (·.1)

def get? (m : LinkedMap κ ν) (k : κ) : Option ν := m.entries.lookup k

def containsKey (m : LinkedMap κ ν) (k : κ) : Bool := (m.get? k).isSome

/-- `m[k] = v`: a known key keeps its place. -/
def insert (m : LinkedMap κ ν) (k : κ) (v : ν) : LinkedMap κ ν :=
  if m.containsKey k then
    { m with entries := m.entries.map fun e => if e.1 = k then (k, v) else e }
  else ⟨m.entries ++ [(k, v)], m.modifications + 1⟩

def erase (m : LinkedMap κ ν) (k : κ) : LinkedMap κ ν :=
  if m.containsKey k then ⟨m.entries.filter (·.1 ≠ k), m.modifications + 1⟩ else m

def clear (m : LinkedMap κ ν) : LinkedMap κ ν :=
  if m.entries.isEmpty then m else ⟨[], m.modifications + 1⟩

/-! ## Lookups -/

theorem lookup_append (l l' : List (κ × ν)) (k : κ) :
    (l ++ l').lookup k = (l.lookup k).or (l'.lookup k) := by
  induction l with
  | nil => rfl
  | cons e l ih =>
    rw [List.cons_append, List.lookup_cons, List.lookup_cons]
    cases k == e.1
    · exact ih
    · rfl

theorem lookup_replace (l : List (κ × ν)) (k k' : κ) (v : ν) :
    (l.map fun e => if e.1 = k then (k, v) else e).lookup k' =
      if k' = k then (l.lookup k').map (fun _ => v) else l.lookup k' := by
  induction l with
  | nil => simp
  | cons e l ih =>
    rw [List.map_cons, List.lookup_cons, List.lookup_cons, ih]
    by_cases he : e.1 = k
    · by_cases hk : k' = k
      · simp [he, hk]
      · simp [he, hk, beq_false_of_ne hk]
    · by_cases hk : k' = k
      · have hke : k' ≠ e.1 := by rw [hk]; exact Ne.symm he
        simp [he, hk, beq_false_of_ne (hk ▸ hke)]
      · simp [he, hk]

theorem lookup_filter_ne (l : List (κ × ν)) (k k' : κ) :
    (l.filter (·.1 ≠ k)).lookup k' = if k' = k then none else l.lookup k' := by
  induction l with
  | nil => simp
  | cons e l ih =>
    by_cases he : e.1 = k
    · rw [List.filter_cons_of_neg (by simp [he]), ih, List.lookup_cons]
      by_cases hk : k' = k
      · rw [if_pos hk, if_pos hk]
      · rw [if_neg hk, if_neg hk, beq_false_of_ne (by rw [he]; exact hk)]
    · rw [List.filter_cons_of_pos (by simp [he]), List.lookup_cons, List.lookup_cons, ih]
      by_cases hk : k' = k
      · rw [if_pos hk, if_pos hk, beq_false_of_ne (by rw [hk]; exact Ne.symm he)]
      · rw [if_neg hk, if_neg hk]

@[simp] theorem get?_empty (k : κ) : (empty : LinkedMap κ ν).get? k = none := rfl

theorem get?_insert (m : LinkedMap κ ν) (k k' : κ) (v : ν) :
    (m.insert k v).get? k' = if k' = k then some v else m.get? k' := by
  unfold insert
  split
  · rename_i hk
    rw [get?, lookup_replace]
    by_cases hkk : k' = k
    · rw [if_pos hkk, if_pos hkk, hkk]
      obtain ⟨w, hw⟩ := Option.isSome_iff_exists.mp hk
      rw [get?] at hw
      rw [hw]
      rfl
    · rw [if_neg hkk, if_neg hkk]
      rfl
  · rename_i hk
    rw [get?, lookup_append]
    by_cases hkk : k' = k
    · have hnone : m.entries.lookup k = none := by
        rw [Bool.not_eq_true, containsKey, Option.isSome_eq_false_iff] at hk
        exact Option.isNone_iff_eq_none.mp hk
      rw [if_pos hkk, hkk, hnone]
      simp
    · rw [if_neg hkk, List.lookup_cons, beq_false_of_ne hkk]
      simp [get?]

theorem get?_erase (m : LinkedMap κ ν) (k k' : κ) :
    (m.erase k).get? k' = if k' = k then none else m.get? k' := by
  unfold erase
  split
  · exact lookup_filter_ne m.entries k k'
  · rename_i hk
    by_cases hkk : k' = k
    · rw [if_pos hkk, hkk]
      simpa [containsKey] using hk
    · rw [if_neg hkk]

@[simp] theorem get?_clear (m : LinkedMap κ ν) (k : κ) : m.clear.get? k = none := by
  unfold clear
  split
  · rename_i h
    rw [get?, List.isEmpty_iff.mp h]
    rfl
  · rfl

theorem get?_insert_self (m : LinkedMap κ ν) (k : κ) (v : ν) : (m.insert k v).get? k = some v := by
  rw [get?_insert, if_pos rfl]

theorem get?_insert_ne (m : LinkedMap κ ν) {k k' : κ} (v : ν) (h : k' ≠ k) :
    (m.insert k v).get? k' = m.get? k' := by
  rw [get?_insert, if_neg h]

/-- The second of two writes at a key is the one that counts. -/
theorem insert_insert (m : LinkedMap κ ν) (k : κ) (v v' : ν) :
    (m.insert k v).insert k v' = m.insert k v' := by
  have hcontains : (m.insert k v).containsKey k = true := by
    rw [containsKey, get?_insert_self]
    rfl
  rw [insert, if_pos hcontains]
  unfold insert
  split
  · rw [mk.injEq]
    refine ⟨?_, rfl⟩
    rw [List.map_map]
    refine List.map_congr_left fun e _ => ?_
    by_cases he : e.1 = k <;> simp [he]
  · rename_i hnot
    rw [mk.injEq]
    refine ⟨?_, rfl⟩
    rw [List.map_append, List.map_cons, if_pos rfl, List.map_nil]
    congr 1
    have hsame : ∀ e ∈ m.entries, (if e.1 = k then (k, v') else e) = id e := by
      refine fun e he => if_neg fun hk => hnot ?_
      rw [containsKey, get?, Option.isSome_iff_ne_none, ne_eq, List.lookup_eq_none_iff]
      intro hnone
      simpa [hk] using hnone e he
    rw [List.map_congr_left hsame, List.map_id]

/-- The key stands for the value, wherever it stands. -/
def Holds (m : LinkedMap κ ν) (k : κ) (v : ν) : Prop :=
  m.containsKey k = true ∧ ∀ e ∈ m.entries, e.1 = k → e = (k, v)

theorem mem_entries_of_get? {m : LinkedMap κ ν} {k : κ} {v : ν} (h : m.get? k = some v) :
    (k, v) ∈ m.entries := by
  obtain ⟨before, after, hentries, -⟩ := List.lookup_eq_some_iff.mp h
  rw [hentries]
  exact List.mem_append_right _ List.mem_cons_self

theorem Holds.get? {m : LinkedMap κ ν} {k : κ} {v : ν} (h : m.Holds k v) : m.get? k = some v := by
  obtain ⟨v', hv'⟩ := Option.isSome_iff_exists.mp h.1
  rw [hv', (Prod.mk.inj (h.2 (k, v') (mem_entries_of_get? hv') rfl)).2]

/-- Writing what a key stands for is no write. -/
theorem insert_eq_self_iff (m : LinkedMap κ ν) (k : κ) (v : ν) : m.insert k v = m ↔ m.Holds k v := by
  constructor
  · intro h
    have hcontains : m.containsKey k = true := by
      rw [containsKey, ← h, get?_insert_self]
      rfl
    refine ⟨hcontains, fun e he hk => ?_⟩
    rw [insert, if_pos hcontains] at h
    have hentries := congrArg entries h
    obtain ⟨i, hi, rfl⟩ := List.getElem_of_mem he
    have hat := congrArg (·[i]?) hentries
    simp only [List.getElem?_map, List.getElem?_eq_getElem hi, Option.map_some, if_pos hk] at hat
    exact (Option.some.inj hat).symm
  · rintro ⟨hcontains, hsame⟩
    rw [insert, if_pos hcontains]
    have hmap : m.entries.map (fun e => if e.1 = k then (k, v) else e) = m.entries := by
      refine (List.map_congr_left fun e he => ?_).trans (List.map_id _)
      by_cases hk : e.1 = k
      · rw [if_pos hk, hsame e he hk, id]
      · rw [if_neg hk, id]
    rw [hmap]

theorem erase_eq_self_iff (m : LinkedMap κ ν) (k : κ) :
    m.erase k = m ↔ m.containsKey k = false := by
  constructor
  · intro h
    rw [containsKey, ← h, get?_erase, if_pos rfl]
    rfl
  · intro h
    rw [erase, h, if_neg Bool.false_ne_true]

/-- An entry stays where another key is written. -/
theorem mem_insert_of_ne {m : LinkedMap κ ν} {k : κ} {e : κ × ν} (v : ν) (he : e ∈ m.entries)
    (hk : e.1 ≠ k) : e ∈ (m.insert k v).entries := by
  unfold insert
  split
  · exact List.mem_map.mpr ⟨e, he, if_neg hk⟩
  · exact List.mem_append_left _ he

theorem insert_holds (m : LinkedMap κ ν) (k : κ) (v : ν) : (m.insert k v).Holds k v :=
  (insert_eq_self_iff _ k v).mp (insert_insert m k v v)

/-- Writes under two keys come to the same only where both are no writes. -/
theorem insert_eq_insert_iff {m : LinkedMap κ ν} {k k' : κ} {v v' : ν} (h : k ≠ k') :
    m.insert k v = m.insert k' v' ↔ m.Holds k v ∧ m.Holds k' v' := by
  have hfirst : ∀ {k k' : κ} {v v' : ν}, k ≠ k' → m.insert k v = m.insert k' v' → m.Holds k v := by
    intro k k' v v' hne heq
    obtain ⟨-, hsame⟩ := heq ▸ insert_holds m k v
    refine ⟨?_, fun e he hk => hsame e (mem_insert_of_ne v' he (hk ▸ hne)) hk⟩
    rw [containsKey, ← get?_insert_ne m v' hne, ← heq, get?_insert_self]
    rfl
  constructor
  · exact fun heq => ⟨hfirst h heq, hfirst h.symm heq.symm⟩
  · rintro ⟨hk, hk'⟩
    rw [(insert_eq_self_iff m k v).mpr hk, (insert_eq_self_iff m k' v').mpr hk']

theorem erase_eq_erase_iff {m : LinkedMap κ ν} {k k' : κ} (h : k ≠ k') :
    m.erase k = m.erase k' ↔ m.containsKey k = false ∧ m.containsKey k' = false := by
  have hfirst : ∀ {k k' : κ}, k ≠ k' → m.erase k = m.erase k' → m.containsKey k = false := by
    intro k k' hne heq
    have hget := congrArg (·.get? k) heq
    simp only [get?_erase, if_true, if_neg hne] at hget
    rw [containsKey, ← hget]
    rfl
  constructor
  · exact fun heq => ⟨hfirst h heq, hfirst h.symm heq.symm⟩
  · rintro ⟨hk, hk'⟩
    rw [(erase_eq_self_iff m k).mpr hk, (erase_eq_self_iff m k').mpr hk']

/-- A write is felt at one key only, or not at all. -/
theorem get?_insert_others_iff (m : LinkedMap κ ν) (k u : κ) (v : ν) :
    (∀ k', k' ≠ u → (m.insert k v).get? k' = m.get? k') ↔ (m.get? k ≠ some v → k = u) := by
  constructor
  · intro hothers hne
    by_contra hk
    have hsame := hothers k hk
    rw [get?_insert_self] at hsame
    exact hne hsame.symm
  · intro hown k' hk'
    rw [get?_insert]
    split
    · rename_i hk
      rw [hk] at hk' ⊢
      by_contra hne
      exact hk' (hown (Ne.symm hne))
    · rfl

theorem get?_erase_others_iff (m : LinkedMap κ ν) (k u : κ) :
    (∀ k', k' ≠ u → (m.erase k).get? k' = m.get? k') ↔ (m.get? k ≠ none → k = u) := by
  constructor
  · intro hothers hne
    by_contra hk
    have hsame := hothers k hk
    rw [get?_erase, if_pos rfl] at hsame
    exact hne hsame.symm
  · intro hown k' hk'
    rw [get?_erase]
    split
    · rename_i hk
      rw [hk] at hk' ⊢
      by_contra hne
      exact hk' (hown (Ne.symm hne))
    · rfl

/-! ## Keys -/

theorem mem_keys_iff {m : LinkedMap κ ν} {k : κ} : k ∈ m.keys ↔ m.containsKey k = true := by
  rw [containsKey, get?, Option.isSome_iff_ne_none, ne_eq, List.lookup_eq_none_iff, keys,
    List.mem_map]
  constructor
  · rintro ⟨e, he, rfl⟩ hnone
    have hne := hnone e he
    simp at hne
  · intro h
    push Not at h
    obtain ⟨e, he, hk⟩ := h
    exact ⟨e, he, (by simpa using hk : k = e.1).symm⟩

theorem containsKey_iff {m : LinkedMap κ ν} {k : κ} :
    m.containsKey k = true ↔ ∃ v, m.get? k = some v := Option.isSome_iff_exists

theorem containsKey_insert (m : LinkedMap κ ν) (k k' : κ) (v : ν) :
    (m.insert k v).containsKey k' = (decide (k' = k) || m.containsKey k') := by
  rw [containsKey, get?_insert]
  by_cases h : k' = k <;> simp [h, containsKey]

/-- Insertion never loses a key. -/
theorem containsKey_insert_of {m : LinkedMap κ ν} {k' : κ} (k : κ) (v : ν)
    (h : m.containsKey k' = true) : (m.insert k v).containsKey k' = true := by
  rw [containsKey_insert, h, Bool.or_true]

/-! ## Entries -/

theorem mem_entries_insert {m : LinkedMap κ ν} {k : κ} {v : ν} {e : κ × ν}
    (he : e ∈ (m.insert k v).entries) : e = (k, v) ∨ e ∈ m.entries := by
  unfold insert at he
  split at he
  · obtain ⟨e', he', heq⟩ := List.mem_map.mp he
    split at heq
    · exact .inl heq.symm
    · exact .inr (heq ▸ he')
  · rcases List.mem_append.mp he with he | he
    · exact .inr he
    · exact .inl (List.mem_singleton.mp he)

theorem entries_insert_of_not_mem {m : LinkedMap κ ν} {k : κ} (h : k ∉ m.keys) (v : ν) :
    (m.insert k v).entries = m.entries ++ [(k, v)] := by
  rw [insert, if_neg fun hcontains => h (mem_keys_iff.mpr hcontains)]

theorem nodup_keys_insert {m : LinkedMap κ ν} (h : m.keys.Nodup) (k : κ) (v : ν) :
    (m.insert k v).keys.Nodup := by
  by_cases hk : k ∈ m.keys
  · have hkeys : (m.insert k v).keys = m.keys := by
      rw [insert, if_pos (mem_keys_iff.mp hk)]
      unfold keys
      rw [List.map_map]
      refine List.map_congr_left fun e _ => ?_
      by_cases he : e.1 = k <;> simp [he]
    rw [hkeys]
    exact h
  · rw [keys, entries_insert_of_not_mem hk, List.map_append]
    exact h.append (List.nodup_singleton k) (List.disjoint_singleton.mpr hk)

theorem nodup_keys_erase {m : LinkedMap κ ν} (h : m.keys.Nodup) (k : κ) :
    (m.erase k).keys.Nodup := by
  unfold erase
  split
  · exact h.sublist (List.filter_sublist.map _)
  · exact h

theorem get?_of_mem {m : LinkedMap κ ν} (h : m.keys.Nodup) {k : κ} {v : ν}
    (he : (k, v) ∈ m.entries) : m.get? k = some v := by
  obtain ⟨entries, _⟩ := m
  simp only [keys, get?] at h he ⊢
  induction entries with
  | nil => cases he
  | cons e entries ih =>
    obtain ⟨hhead, hrest⟩ := List.nodup_cons.mp h
    rcases List.mem_cons.mp he with rfl | he
    · exact List.lookup_cons_self
    · have hne : k ≠ e.1 := by
        rintro rfl
        exact hhead (List.mem_map.mpr ⟨_, he, rfl⟩)
      rw [List.lookup_cons, beq_false_of_ne hne]
      exact ih hrest he

/-- Writes under new keys, one after the other, stand behind what was there. -/
theorem entries_foldl_insert {ι : Type} (key : ι → κ) (value : ι → ν) {l : List ι}
    {m : LinkedMap κ ν} (h : (m.keys ++ l.map key).Nodup) :
    (l.foldl (fun m i => m.insert (key i) (value i)) m).entries =
      m.entries ++ l.map fun i => (key i, value i) := by
  induction l generalizing m with
  | nil => exact (List.append_nil _).symm
  | cons i l ih =>
    have hnew : key i ∉ m.keys := fun hmem =>
      (List.nodup_append.mp h).2.2 _ hmem _ List.mem_cons_self rfl
    have hkeys : (m.insert (key i) (value i)).keys = m.keys ++ [key i] := by
      rw [keys, entries_insert_of_not_mem hnew, List.map_append]
      rfl
    rw [List.foldl_cons, ih (by rw [hkeys, List.append_assoc]; exact h),
      entries_insert_of_not_mem hnew, List.append_assoc]
    rfl

/-- A value that names its own key is found again among the values alone. -/
theorem find?_map_entries {μ : Type} (m : LinkedMap κ ν) (k : κ) (f : ν → μ) (name : μ → κ)
    (h : ∀ e ∈ m.entries, name (f e.2) = e.1) :
    (m.entries.map fun e => f e.2).find? (fun x => name x = k) = (m.get? k).map f := by
  rw [get?]
  revert h
  induction m.entries with
  | nil => intro _; rfl
  | cons e entries ih =>
    intro h
    have hhead := h e List.mem_cons_self
    have htail := ih fun x hx => h x (List.mem_cons_of_mem _ hx)
    rw [List.map_cons, List.find?_cons, List.lookup_cons, hhead]
    by_cases heq : e.1 = k
    · simp [heq]
    · simp [heq, htail, beq_false_of_ne (Ne.symm heq)]

end LinkedMap

/-- Insertion-ordered sets. -/
abbrev LinkedSet (κ : Type) := LinkedMap κ Unit

namespace LinkedSet

variable {κ : Type} [DecidableEq κ]

def add (m : LinkedSet κ) (k : κ) : LinkedSet κ := m.insert k ()

def addAll (m : LinkedSet κ) (ks : List κ) : LinkedSet κ := ks.foldl add m

def ofList (ks : List κ) : LinkedSet κ := addAll .empty ks

end LinkedSet

end ZiaCrypte.Lib
