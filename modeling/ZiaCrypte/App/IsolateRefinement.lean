import ZiaCrypte.App.CryptoIsolate

/-!
# The isolate refines a table of sessions

`Represents` says that the numbers and the native sessions of the isolate are in
one-to-one correspondence, and that each stands for the session of the table.
Every request keeps it. So the promises of `_call` are kept with the answers of
the table, in the order of the calls, and no native session is used once it has
been closed.
-/
namespace ZiaCrypte.App

open ZiaCrypte.Lib ZiaCrypte.Engine ZiaCrypte.Inbox

variable {ε σ V : Type} {E : NativeCryptoEngine ε σ V}

structure Represents (w : Worker σ V) (t : SessionTable σ V) : Prop where
  engine : w.engine = t.engine
  alive : w.alive = !t.disposed
  nextSessionId : w.nextSessionId = t.nextSessionId
  numbered : w.sessions.keys.Nodup
  allocated : w.heap.keys.Nodup
  below : ∀ id p, w.sessions.get? id = some p → id < w.nextSessionId
  sessions : ∀ id, t.sessions id = (w.sessions.get? id).bind w.heap.get?
  held : ∀ id p, w.sessions.get? id = some p → (w.heap.get? p).isSome
  injective : ∀ id id' p, w.sessions.get? id = some p → w.sessions.get? id' = some p → id = id'
  owned : ∀ p, (w.heap.get? p).isSome → ∃ id, w.sessions.get? id = some p
  gone : w.alive = false → ∀ p, w.heap.get? p = none

theorem represents_spawn (s : σ) : Represents (spawn s : Worker σ V) (SessionTable.new s) := by
  constructor <;> simp [spawn, SessionTable.new, LinkedMap.keys, LinkedMap.empty, LinkedMap.get?]

variable {w : Worker σ V} {t : SessionTable σ V}

/-! ## What a request does to the two -/

theorem Represents.engine_eq (h : Represents w t) (s : σ) :
    Represents { w with engine := s } { t with engine := s } :=
  { h with engine := rfl }

theorem malloc_not_held (s : σ) : w.heap.get? (E.malloc w.heap.keys s) = none := by
  have hfresh := E.malloc_fresh w.heap.keys s
  rw [LinkedMap.mem_keys_iff, LinkedMap.containsKey, Bool.not_eq_true, Option.isSome_eq_false_iff,
    Option.isNone_iff_eq_none] at hfresh
  exact hfresh

/-- A new session is held at a place of its own, under a number of its own. -/
theorem Represents.openSession (h : Represents w t) (halive : w.alive = true) (v : V) :
    Represents (w.openSession E v) (t.add v) := by
  have hfresh := malloc_not_held (E := E) (w := w) w.engine
  have hplace : ∀ id p, w.sessions.get? id = some p → p ≠ E.malloc w.heap.keys w.engine := by
    rintro id p hid rfl
    have hheld := h.held id _ hid
    rw [hfresh] at hheld
    cases hheld
  have hnumber : ∀ id p, w.sessions.get? id = some p → id ≠ w.nextSessionId := by
    rintro id p hid rfl
    exact Nat.lt_irrefl _ (h.below _ p hid)
  have hcases : ∀ id p, (w.openSession E v).sessions.get? id = some p →
      id = w.nextSessionId ∧ p = E.malloc w.heap.keys w.engine ∨ w.sessions.get? id = some p := by
    intro id p hid
    rw [Worker.openSession, LinkedMap.get?_insert] at hid
    split at hid
    · exact .inl ⟨‹_›, (Option.some.inj hid).symm⟩
    · exact .inr hid
  constructor
  · exact h.engine
  · exact h.alive
  · simp [Worker.openSession, SessionTable.add, h.nextSessionId]
  · exact LinkedMap.nodup_keys_insert h.numbered _ _
  · exact LinkedMap.nodup_keys_insert h.allocated _ _
  · intro id p hid
    obtain ⟨rfl, -⟩ | hold := hcases id p hid
    · exact Nat.lt_succ_self _
    · exact Nat.lt_succ_of_lt (h.below id p hold)
  · intro id
    simp only [SessionTable.add, SessionTable.set, Worker.openSession, LinkedMap.get?_insert,
      h.nextSessionId]
    split
    · simp [LinkedMap.get?_insert_self]
    · rw [h.sessions id]
      cases hid : w.sessions.get? id with
      | none => rfl
      | some p => simp [hplace id p hid, LinkedMap.get?_insert]
  · intro id p hid
    obtain ⟨-, rfl⟩ | hold := hcases id p hid
    · simp [Worker.openSession, LinkedMap.get?_insert_self]
    · simp [Worker.openSession, LinkedMap.get?_insert, hplace id p hold, h.held id p hold]
  · intro id id' p hid hid'
    obtain ⟨rfl, rfl⟩ | hold := hcases id p hid
    · obtain ⟨rfl, -⟩ | hold' := hcases id' _ hid'
      · rfl
      · exact absurd rfl (hplace id' _ hold')
    · obtain ⟨rfl, rfl⟩ | hold' := hcases id' p hid'
      · exact absurd rfl (hplace id _ hold)
      · exact h.injective id id' p hold hold'
  · intro p hp
    by_cases hnew : p = E.malloc w.heap.keys w.engine
    · exact ⟨w.nextSessionId, by simp [Worker.openSession, hnew, LinkedMap.get?_insert_self]⟩
    · rw [Worker.openSession, LinkedMap.get?_insert, if_neg hnew] at hp
      obtain ⟨id, hid⟩ := h.owned p hp
      refine ⟨id, ?_⟩
      rw [Worker.openSession, LinkedMap.get?_insert, if_neg (hnumber id p hid)]
      exact hid
  · exact fun hgone => absurd (halive.symm.trans hgone) (by decide)

/-- A session that moves on, at its place and in the table. -/
theorem Represents.update (h : Represents w t) {id : Nat} {p : Pointer}
    (hid : w.sessions.get? id = some p) (v : V) :
    Represents { w with heap := w.heap.insert p v } (t.set id (some v)) := by
  have hheap : ∀ q, ((w.heap.insert p v).get? q).isSome = (w.heap.get? q).isSome := by
    intro q
    rw [LinkedMap.get?_insert]
    split
    · subst q
      exact (h.held id p hid).symm
    · rfl
  constructor
  · exact h.engine
  · exact h.alive
  · exact h.nextSessionId
  · exact h.numbered
  · exact LinkedMap.nodup_keys_insert h.allocated _ _
  · exact h.below
  · intro id'
    simp only [SessionTable.set]
    by_cases heq : id' = id
    · subst id'
      simp [hid, LinkedMap.get?_insert_self]
    · rw [if_neg heq, h.sessions id']
      cases hid' : w.sessions.get? id' with
      | none => rfl
      | some q =>
        have hne : q ≠ p := by
          rintro rfl
          exact heq (h.injective id' id q hid' hid)
        simp [LinkedMap.get?_insert, hne]
  · intro id' q hid'
    rw [hheap]
    exact h.held id' q hid'
  · exact h.injective
  · intro q hq
    rw [hheap] at hq
    exact h.owned q hq
  · intro hgone
    have hheld := h.held id p hid
    rw [h.gone hgone p] at hheld
    cases hheld

theorem Represents.closeSession (h : Represents w t) {id : Nat} {p : Pointer}
    (hid : w.sessions.get? id = some p) :
    Represents { w with heap := w.heap.erase p, sessions := w.sessions.erase id }
      (t.set id none) := by
  have hother : ∀ id' q, (w.sessions.erase id).get? id' = some q →
      w.sessions.get? id' = some q ∧ q ≠ p := by
    intro id' q hid'
    rw [LinkedMap.get?_erase] at hid'
    split at hid'
    · cases hid'
    · rename_i hne
      refine ⟨hid', ?_⟩
      rintro rfl
      exact hne (h.injective id' id q hid' hid)
  constructor
  · exact h.engine
  · exact h.alive
  · exact h.nextSessionId
  · exact LinkedMap.nodup_keys_erase h.numbered _
  · exact LinkedMap.nodup_keys_erase h.allocated _
  · exact fun id' q hid' => h.below id' q (hother id' q hid').1
  · intro id'
    simp only [SessionTable.set]
    by_cases heq : id' = id
    · subst id'
      simp [LinkedMap.get?_erase]
    · rw [if_neg heq, h.sessions id', LinkedMap.get?_erase, if_neg heq]
      cases hid' : w.sessions.get? id' with
      | none => rfl
      | some q =>
        have hne : q ≠ p := by
          rintro rfl
          exact heq (h.injective id' id q hid' hid)
        simp [LinkedMap.get?_erase, hne]
  · intro id' q hid'
    obtain ⟨hold, hne⟩ := hother id' q hid'
    simp [LinkedMap.get?_erase, hne, h.held id' q hold]
  · exact fun id₁ id₂ q h₁ h₂ => h.injective id₁ id₂ q (hother id₁ q h₁).1 (hother id₂ q h₂).1
  · intro q hq
    rw [LinkedMap.get?_erase] at hq
    split at hq
    · cases hq
    · rename_i hne
      obtain ⟨id', hid'⟩ := h.owned q hq
      refine ⟨id', ?_⟩
      rw [LinkedMap.get?_erase, if_neg, hid']
      rintro rfl
      exact hne (Option.some.inj (hid'.symm.trans hid))
  · intro hgone q
    rw [LinkedMap.get?_erase, h.gone hgone q, ite_self]

/-- Closing a number that stands for nothing. -/
theorem Represents.closed_already (h : Represents w t) {id : Nat}
    (hid : w.sessions.get? id = none) : Represents w (t.set id none) := by
  refine { h with sessions := fun id' => ?_ }
  simp only [SessionTable.set]
  by_cases heq : id' = id
  · subst id'
    simp [hid]
  · rw [if_neg heq]
    exact h.sessions id'

/-! ## Closing all of them -/

theorem get?_closeAll {ps : List Pointer} {heap heap' : LinkedMap Pointer V}
    (h : closeAll ps heap = some heap') (p : Pointer) :
    heap'.get? p = if p ∈ ps then none else heap.get? p := by
  induction ps generalizing heap with
  | nil =>
    obtain rfl := Option.some.inj h
    simp
  | cons q ps ih =>
    simp only [closeAll, closeNative, Option.bind_eq_some_iff, Option.map_eq_some_iff] at h
    obtain ⟨_, ⟨_, -, rfl⟩, hrest⟩ := h
    rw [ih hrest, LinkedMap.get?_erase]
    by_cases hp : p ∈ ps
    · simp [hp]
    · by_cases hq : p = q <;> simp [hq, hp]

theorem nodup_keys_closeAll {ps : List Pointer} {heap heap' : LinkedMap Pointer V}
    (hnodup : heap.keys.Nodup) (h : closeAll ps heap = some heap') : heap'.keys.Nodup := by
  induction ps generalizing heap with
  | nil => exact Option.some.inj h ▸ hnodup
  | cons q ps ih =>
    simp only [closeAll, closeNative, Option.bind_eq_some_iff, Option.map_eq_some_iff] at h
    obtain ⟨_, ⟨_, -, rfl⟩, hrest⟩ := h
    exact ih (LinkedMap.nodup_keys_erase hnodup q) hrest

/-- Places that are there, each named once, can all be given back. -/
theorem closeAll_isSome {ps : List Pointer} {heap : LinkedMap Pointer V} (hnodup : ps.Nodup)
    (hheld : ∀ p ∈ ps, (heap.get? p).isSome) : (closeAll ps heap).isSome := by
  induction ps generalizing heap with
  | nil => rfl
  | cons p ps ih =>
    obtain ⟨hp, hnodup⟩ := List.nodup_cons.mp hnodup
    obtain ⟨v, hv⟩ := Option.isSome_iff_exists.mp (hheld p List.mem_cons_self)
    simp only [closeAll, closeNative, hv, Option.map_some, Option.bind_some]
    refine ih hnodup fun q hq => ?_
    have hne : q ≠ p := by
      rintro rfl
      exact hp hq
    rw [LinkedMap.get?_erase, if_neg hne]
    exact hheld q (List.mem_cons_of_mem p hq)

theorem Represents.mem_places (h : Represents w t) {p : Pointer} :
    p ∈ w.sessions.entries.map (·.2) ↔ ∃ id, w.sessions.get? id = some p := by
  constructor
  · intro hp
    obtain ⟨⟨id, q⟩, he, rfl⟩ := List.mem_map.mp hp
    exact ⟨id, LinkedMap.get?_of_mem h.numbered he⟩
  · rintro ⟨id, hid⟩
    exact List.mem_map.mpr ⟨(id, p), LinkedMap.mem_entries_of_get? hid, rfl⟩

theorem Represents.nodup_places (h : Represents w t) : (w.sessions.entries.map (·.2)).Nodup := by
  refine (List.Nodup.of_map _ h.numbered).map_on ?_
  rintro ⟨id, p⟩ he ⟨id', p'⟩ he' hp
  obtain rfl : p = p' := hp
  have hid : id = id' := h.injective id id' p (LinkedMap.get?_of_mem h.numbered he)
    (LinkedMap.get?_of_mem h.numbered he')
  rw [hid]

/-- After `dispose` nothing is left, and nothing is left behind. -/
theorem Represents.dispose (h : Represents w t) {heap : LinkedMap Pointer V}
    (hclose : closeAll (w.sessions.entries.map (·.2)) w.heap = some heap) :
    Represents { w with heap := heap, sessions := w.sessions.clear, alive := false }
      { t with sessions := fun _ => none, disposed := true } := by
  have hclear : w.sessions.clear.keys = [] := by
    unfold LinkedMap.clear LinkedMap.keys
    split
    · rename_i hempty
      rw [List.isEmpty_iff.mp hempty]
      rfl
    · rfl
  constructor
  · exact h.engine
  · rfl
  · exact h.nextSessionId
  · rw [hclear]
    exact List.nodup_nil
  · exact nodup_keys_closeAll h.allocated hclose
  · intro id p hid
    rw [LinkedMap.get?_clear] at hid
    cases hid
  · intro id
    rw [LinkedMap.get?_clear]
    rfl
  · intro id p hid
    rw [LinkedMap.get?_clear] at hid
    cases hid
  · intro id id' p hid
    rw [LinkedMap.get?_clear] at hid
    cases hid
  · intro p hp
    rw [get?_closeAll hclose] at hp
    split at hp
    · cases hp
    · rename_i hne
      exact absurd (h.mem_places.mpr (h.owned p hp)) hne
  · intro _ p
    rw [get?_closeAll hclose]
    split
    · rfl
    · rename_i hne
      refine Option.not_isSome_iff_eq_none.mp fun hp => hne (h.mem_places.mpr (h.owned p hp))

/-! ## Every request -/

theorem check_cases {r : Except ε Answer} {out : Outcome ε × Worker σ V}
    (h : check r w = some out) : out = (r.mapError .engine, w) := by
  cases r with
  | ok a => exact (Option.some.inj h).symm
  | error e =>
    rw [check] at h
    split at h
    · exact (Option.some.inj h).symm
    · cases h

theorem check_isSome (r : Except ε Answer) (h : w.alive = true) : (check r w).isSome := by
  cases r with
  | ok a => rfl
  | error e =>
    rw [check, if_pos h]
    rfl

/-- A call on a session goes to the session of the table, or to none on both sides. -/
theorem Represents.withSession (h : Represents w t) {id : Nat}
    {k : Pointer → V → Option (Outcome ε × Worker σ V)} :
    (t.sessions id = none ∧ w.withSession id k = some (.error .noSession, w)) ∨
      ∃ p v, w.sessions.get? id = some p ∧ t.sessions id = some v ∧
        w.withSession id k = k p v := by
  rw [Worker.withSession, h.sessions id]
  cases hid : w.sessions.get? id with
  | none => exact .inl ⟨rfl, rfl⟩
  | some p =>
    obtain ⟨v, hv⟩ := Option.isSome_iff_exists.mp (h.held id p hid)
    exact .inr ⟨p, v, rfl, hv, by simp [hv]⟩

/-- A request the isolate survives is answered as the table answers it. -/
theorem dispatch_simulates : Simulates (dispatch E) (SessionTable.call E) Represents := by
  intro request w t r w' h hwork
  cases request with
  | engine request =>
    simp only [dispatch] at hwork
    split at hwork
    · cases hwork
    · rw [SessionTable.call, ← h.engine]
      split at hwork
      · obtain ⟨rfl, rfl⟩ := Prod.mk.inj (check_cases hwork)
        exact ⟨rfl, h.engine_eq _⟩
      · obtain ⟨rfl, rfl⟩ := Prod.mk.inj (Option.some.inj hwork)
        exact ⟨rfl, h.engine_eq _⟩
  | sessionFromBundle bundle =>
    simp only [dispatch] at hwork
    split at hwork
    · cases hwork
    · rename_i halive
      rw [Bool.not_eq_true', Bool.not_eq_false] at halive
      rw [SessionTable.call, ← h.engine]
      split at hwork
      · obtain ⟨rfl, rfl⟩ := Prod.mk.inj (Option.some.inj hwork)
        exact ⟨rfl, h.engine_eq _⟩
      · obtain ⟨rfl, rfl⟩ := Prod.mk.inj (Option.some.inj hwork)
        refine ⟨by rw [h.nextSessionId], (h.engine_eq _).openSession ?_ _⟩
        exact halive
  | acceptHandshake handshake =>
    simp only [dispatch] at hwork
    split at hwork
    · cases hwork
    · rename_i halive
      rw [Bool.not_eq_true', Bool.not_eq_false] at halive
      rw [SessionTable.call, ← h.engine]
      split at hwork
      · obtain ⟨rfl, rfl⟩ := Prod.mk.inj (Option.some.inj hwork)
        exact ⟨rfl, h.engine_eq _⟩
      · obtain ⟨rfl, rfl⟩ := Prod.mk.inj (Option.some.inj hwork)
        refine ⟨by rw [h.nextSessionId], (h.engine_eq _).openSession ?_ _⟩
        exact halive
  | encrypt session pt =>
    rw [dispatch] at hwork
    obtain ⟨hnone, hout⟩ | ⟨p, v, hid, hv, hout⟩ := h.withSession
    · rw [hout] at hwork
      obtain ⟨rfl, rfl⟩ := Prod.mk.inj (Option.some.inj hwork)
      rw [SessionTable.call, hnone]
      exact ⟨rfl, h⟩
    · rw [hout] at hwork
      obtain ⟨rfl, rfl⟩ := Prod.mk.inj (check_cases hwork)
      rw [SessionTable.call, hv, ← h.engine]
      have hnext := (h.engine_eq (E.encrypt v pt w.engine).2).update hid
        (E.encrypt v pt w.engine).1.2
      exact ⟨rfl, hnext⟩
  | decrypt session header ct =>
    rw [dispatch] at hwork
    obtain ⟨hnone, hout⟩ | ⟨p, v, hid, hv, hout⟩ := h.withSession
    · rw [hout] at hwork
      obtain ⟨rfl, rfl⟩ := Prod.mk.inj (Option.some.inj hwork)
      rw [SessionTable.call, hnone]
      exact ⟨rfl, h⟩
    · rw [hout] at hwork
      obtain ⟨rfl, rfl⟩ := Prod.mk.inj (check_cases hwork)
      rw [SessionTable.call, hv, ← h.engine]
      have hnext := (h.engine_eq (E.decrypt v header ct w.engine).2).update hid
        (E.decrypt v header ct w.engine).1.2
      exact ⟨rfl, hnext⟩
  | serializeSession session =>
    rw [dispatch] at hwork
    obtain ⟨hnone, hout⟩ | ⟨p, v, hid, hv, hout⟩ := h.withSession
    · rw [hout] at hwork
      obtain ⟨rfl, rfl⟩ := Prod.mk.inj (Option.some.inj hwork)
      rw [SessionTable.call, hnone]
      exact ⟨rfl, h⟩
    · rw [hout] at hwork
      obtain ⟨rfl, rfl⟩ := Prod.mk.inj (check_cases hwork)
      rw [SessionTable.call, hv, ← h.engine]
      exact ⟨rfl, h.engine_eq _⟩
  | deserializeSession data =>
    simp only [dispatch] at hwork
    split at hwork
    · cases hwork
    · rename_i halive
      rw [Bool.not_eq_true', Bool.not_eq_false] at halive
      rw [SessionTable.call, ← h.engine]
      split at hwork
      · obtain ⟨rfl, rfl⟩ := Prod.mk.inj (Option.some.inj hwork)
        exact ⟨rfl, h.engine_eq _⟩
      · obtain ⟨rfl, rfl⟩ := Prod.mk.inj (Option.some.inj hwork)
        refine ⟨by rw [h.nextSessionId], (h.engine_eq _).openSession ?_ _⟩
        exact halive
  | closeSession session =>
    simp only [dispatch] at hwork
    split at hwork
    · rename_i hid
      obtain ⟨rfl, rfl⟩ := Prod.mk.inj (Option.some.inj hwork)
      exact ⟨rfl, h.closed_already hid⟩
    · rename_i p hid
      simp only [closeNative, Option.map_map, Option.map_eq_some_iff] at hwork
      obtain ⟨_, -, hout⟩ := hwork
      obtain ⟨rfl, rfl⟩ := Prod.mk.inj hout
      exact ⟨rfl, h.closeSession hid⟩
  | dispose =>
    simp only [dispatch] at hwork
    split at hwork
    · cases hwork
    · obtain ⟨heap, hclose, hout⟩ := Option.map_eq_some_iff.mp hwork
      obtain ⟨rfl, rfl⟩ := Prod.mk.inj hout
      exact ⟨rfl, h.dispose hclose⟩

theorem alive_iff (h : Represents w t) : w.alive = true ↔ t.disposed = false := by
  rw [h.alive, Bool.not_eq_true']

/-- Up to its `dispose` the isolate survives every request. -/
theorem dispatch_survives : Survives (dispatch E) (SessionTable.call E) hangsUp Represents
    (fun t => t.disposed = false) where
  work := by
    intro request w t h hopen
    have halive : w.alive = true := (alive_iff h).mpr hopen
    cases request with
    | engine request =>
      simp only [dispatch, halive, Bool.not_true, Bool.and_false, Bool.false_eq_true, if_false]
      split
      · exact check_isSome _ rfl
      · rfl
    | sessionFromBundle bundle =>
      simp only [dispatch, halive, Bool.not_true, Bool.false_eq_true, if_false]
      split <;> rfl
    | acceptHandshake handshake =>
      simp only [dispatch, halive, Bool.not_true, Bool.false_eq_true, if_false]
      split <;> rfl
    | encrypt session pt =>
      obtain ⟨-, hout⟩ | ⟨p, v, -, -, hout⟩ := h.withSession
      all_goals rw [dispatch, hout]
      · rfl
      · exact check_isSome _ halive
    | decrypt session header ct =>
      obtain ⟨-, hout⟩ | ⟨p, v, -, -, hout⟩ := h.withSession
      all_goals rw [dispatch, hout]
      · rfl
      · exact check_isSome _ halive
    | serializeSession session =>
      obtain ⟨-, hout⟩ | ⟨p, v, -, -, hout⟩ := h.withSession
      all_goals rw [dispatch, hout]
      · rfl
      · exact check_isSome _ halive
    | deserializeSession data =>
      simp only [dispatch, halive, Bool.not_true, Bool.false_eq_true, if_false]
      split <;> rfl
    | closeSession session =>
      simp only [dispatch]
      split
      · rfl
      · rename_i p hid
        obtain ⟨v, hv⟩ := Option.isSome_iff_exists.mp (h.held session p hid)
        simp [closeNative, hv]
    | dispose =>
      have hclose : (closeAll (w.sessions.entries.map (·.2)) w.heap).isSome := by
        refine closeAll_isSome h.nodup_places fun p hp => ?_
        obtain ⟨id, hid⟩ := h.mem_places.mp hp
        exact h.held id p hid
      simpa [dispatch, halive] using hclose
  keeps := by
    intro request t hopen hquiet
    cases request with
    | dispose => cases hquiet
    | closeSession session => exact hopen
    | engine request => exact hopen
    | encrypt session pt | decrypt session header ct | serializeSession session =>
      simp only [SessionTable.call]
      split <;> exact hopen
    | sessionFromBundle bundle | acceptHandshake handshake | deserializeSession data =>
      simp only [SessionTable.call]
      split <;> exact hopen

/-! ## Runs -/

/-- The application's side and the isolate's, with what lies between them. -/
abbrev Isolate (ε σ V : Type) := Actor Request (Outcome ε) (Worker σ V)

def Isolate.step (E : NativeCryptoEngine ε σ V) (e : MailEvent Request) (m : Isolate ε σ V) :
    Option (Isolate ε σ V) :=
  Actor.step (dispatch E) hangsUp e m

def Isolate.spawn (s : σ) : Isolate ε σ V := Actor.start (App.spawn s)

/-- The answers of the table to the calls up to the first `dispose`. -/
def tableAnswers (E : NativeCryptoEngine ε σ V) (s : σ) (calls : List Request) :
    List (Outcome ε) :=
  answered (SessionTable.call E) hangsUp calls (.new s)

variable {es : List (MailEvent Request)} {s : σ} {m : Isolate ε σ V}

theorem isolate_tracks (h : run (Isolate.step E) es (Isolate.spawn s) = some m) :
    Tracks (SessionTable.call E) hangsUp Represents (.new s) (callsOf es) m :=
  Tracks.run dispatch_simulates (tracks_start (represents_spawn s)) h

/-- Sessions that count what they sealed; the header is the count, and nothing is hidden. -/
def countingEngine : NativeCryptoEngine Unit Unit Nat where
  call := fun
    | .sign msg, s => (.ok (.bytes msg), s)
    | _, s => (.ok .null, s)
  sessionFromBundle bundle s := (.ok (0, ⟨bundle.identityKey, [], bundle.oneTimePrekey, none⟩), s)
  acceptHandshake _ s := (.ok 0, s)
  deserializeSession data s := (.ok data.length, s)
  encrypt n pt s := ((.ok ([n.toUInt8], pt), n + 1), s)
  decrypt n _ ct s := ((.ok ct, n), s)
  serializeSession n s := (.ok (List.replicate n 0), s)
  malloc used _ := used.foldr max 0 + 1
  malloc_fresh used _ := by
    have hle : ∀ p ∈ used, p ≤ used.foldr max 0 := by
      intro p hp
      induction used with
      | nil => cases hp
      | cons q used ih =>
        rcases List.mem_cons.mp hp with rfl | hp
        · exact Nat.le_max_left _ _
        · exact Nat.le_trans (ih hp) (Nat.le_max_right _ _)
    intro hp
    exact absurd (hle _ hp) (Nat.not_succ_le_self _)

/-- Two sessions, a message on the second, and a `dispose` while the last answer is on its way. -/
def busyRun : List (MailEvent Request) :=
  [.call (.acceptHandshake ⟨[1], [2], none, none⟩), .call (.deserializeSession [7, 7]), .serve,
    .call (.encrypt 1 [9]), .serve, .deliver, .serve, .call .dispose, .deliver, .serve]

/-- Whatever the two queues do, the promises kept are those of the first calls, each kept
once and with the answer of the table; the rest follow once the queues move, but for those
made after a `dispose`. -/
theorem calls_linearize (h : run (Isolate.step E) es (Isolate.spawn s) = some m) :
    m.completed <+: (tableAnswers E s (callsOf es)).zipIdx ∧
      (m.listening = false → m.completed = (tableAnswers E s (callsOf es)).zipIdx) ∧
      ∃ queue n, queue.all MailEvent.isQueue = true ∧ run (Isolate.step E) queue m = some n ∧
        n.completed = (tableAnswers E s (callsOf es)).zipIdx := by
  have htracks := isolate_tracks h
  refine ⟨htracks.completed.1, htracks.completed.2, ?_⟩
  exact htracks.completes dispatch_simulates dispatch_survives rfl

theorem busyRun_linearizes :
    ∃ m, run (Isolate.step countingEngine) busyRun (Isolate.spawn ()) = some m ∧
      m.completed = [(.ok (.session 0), 0), (.ok (.session 1), 1)] ∧
      m.completed <+: (tableAnswers countingEngine () (callsOf busyRun)).zipIdx :=
  ⟨_, rfl, by decide, (calls_linearize rfl).1⟩

theorem quiet_of_not_mem {calls : List Request} {t : SessionTable σ V}
    (h : Request.dispose ∉ calls) : quiet (SessionTable.call E) hangsUp calls t = true := by
  induction calls generalizing t with
  | nil => rfl
  | cons request calls ih =>
    rw [List.mem_cons, not_or] at h
    have hopen : hangsUp request (SessionTable.call E request t).1 = false := by
      cases request with
      | dispose => exact absurd rfl h.1
      | _ => rfl
    rw [quiet, hopen, ih h.2]
    rfl

/-- When `dispose` is the last call, native memory is never used after it was given back
nor given back twice: the sessions there are those the numbers stand for, each under one
number, and none is left behind. -/
theorem native_sessions_safe (s : σ) (h : Request.dispose ∉ (callsOf es).dropLast) :
    ∃ m, run (Isolate.step E) es (Isolate.spawn s) = some m ∧ m.worker.heap.keys.Nodup ∧
      (∀ p, p ∈ m.worker.heap.keys ↔ ∃! id, m.worker.sessions.get? id = some p) ∧
      (m.worker.alive = false → m.worker.heap.keys = []) := by
  have hsome : (run (Isolate.step E) es (Isolate.spawn s)).isSome :=
    run_isSome dispatch_simulates dispatch_survives rfl (tracks_start (represents_spawn s))
      (quiet_of_not_mem h)
  obtain ⟨m, hm⟩ := Option.isSome_iff_exists.mp hsome
  have hrep : ∃ t, Represents m.worker t := by
    cases isolate_tracks hm with
    | listening _ _ _ _ serving _ => exact ⟨_, serving.worker⟩
    | hungUp _ _ _ _ _ _ serving _ _ => exact ⟨_, serving.worker⟩
  obtain ⟨t, hrep⟩ := hrep
  have hmem : ∀ p, p ∈ m.worker.heap.keys ↔ (m.worker.heap.get? p).isSome := by
    intro p
    rw [LinkedMap.mem_keys_iff]
    rfl
  refine ⟨m, hm, hrep.allocated, ?_, ?_⟩
  · intro p
    rw [hmem]
    constructor
    · intro hp
      obtain ⟨id, hid⟩ := hrep.owned p hp
      exact ⟨id, hid, fun id' hid' => hrep.injective id' id p hid' hid⟩
    · rintro ⟨id, hid, -⟩
      exact hrep.held id p hid
  · intro hgone
    refine List.eq_nil_iff_forall_not_mem.mpr fun p hp => ?_
    rw [hmem, hrep.gone hgone p] at hp
    cases hp

theorem busyRun_safe :
    ∃ m, run (Isolate.step countingEngine) busyRun (Isolate.spawn ()) = some m ∧
      m.worker.heap.keys.Nodup ∧
      (∀ p, p ∈ m.worker.heap.keys ↔ ∃! id, m.worker.sessions.get? id = some p) ∧
      (m.worker.alive = false → m.worker.heap.keys = []) :=
  native_sessions_safe () (by decide)

end ZiaCrypte.App
