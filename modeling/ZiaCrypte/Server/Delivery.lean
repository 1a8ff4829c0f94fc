import ZiaCrypte.Server.Database
import ZiaCrypte.Lib.Run
import ZiaCrypte.Lib.Slots
import Mathlib.Data.List.Sort

/-!
# `GET /messages`, one statement at a time

A poll reads the pending rows of its device, marks them in a second statement and
then answers with what it read. Between two statements of a poll come those of
other polls, and messages that are stored.
-/
namespace ZiaCrypte.Server

open ZiaCrypte.Lib

/-- The last thing a poll has done. -/
inductive PollStage where
  | selected
  | marked
  | answered
  deriving DecidableEq

structure Poll where
  deviceId : Uuid
  pending : List MessageBlob
  stage : PollStage

/-- The table of the messages, and the polls in the order they began. -/
structure Mailbox where
  blobs : List MessageBlob
  polls : List Poll

inductive Statement where
  | createMany (rows : List MessageBlob)
  | findMany (deviceId : Uuid)
  | updateMany (poll : Nat) (now : Nat)
  | respond (poll : Nat)

/-- `take` -/
def pageSize : Nat := 200

/-- The pending rows of a device, the oldest first; rows of one time keep the order
of the table. -/
def selectPending (blobs : List MessageBlob) (deviceId : Uuid) : List MessageBlob :=
  ((blobs.filter fun b => b.recipientDeviceId == deviceId && b.deliveredAt.isNone).insertionSort
    fun b b' => b.createdAt ≤ b'.createdAt).take pageSize

def markDelivered (ids : List Uuid) (now : Nat) (blobs : List MessageBlob) : List MessageBlob :=
  blobs.map fun b => if b.id ∈ ids then { b with deliveredAt := some now } else b

def Poll.ids (p : Poll) : List Uuid := p.pending.map (·.id)

namespace Mailbox

def start : Mailbox := ⟨[], []⟩

/-- A statement whose poll is not there yet, or is past it, is not one of the run. -/
def step : Statement → Mailbox → Option Mailbox
  | .createMany rows, s => some { s with
      -- A row is stored before it is delivered.
      blobs := createManyBlobs s.blobs (rows.map fun b => { b with deliveredAt := none }) }
  | .findMany deviceId, s => some { s with
      polls := s.polls ++ [⟨deviceId, selectPending s.blobs deviceId, .selected⟩] }
  | .updateMany i now, s =>
      match s.polls[i]? with
      | some p =>
          if p.stage = .selected ∧ p.pending ≠ [] then some {
            blobs := markDelivered p.ids now s.blobs
            polls := s.polls.set i { p with stage := .marked } }
          else none
      | none => none
  | .respond i, s =>
      match s.polls[i]? with
      | some p =>
          if p.stage = .marked ∨ p.stage = .selected ∧ p.pending = [] then
            some { s with polls := s.polls.set i { p with stage := .answered } }
          else none
      | none => none

/-- The responses so far. -/
def responses (s : Mailbox) : List (List MessageBlob) :=
  (s.polls.filter (·.stage = .answered)).map (·.pending)

end Mailbox

/-- What a poll reads is not held by another one that has still to mark it. -/
def NoOverlap : Statement → Mailbox → Prop
  | .findMany deviceId, s => ∀ p ∈ s.polls, p.stage = .selected →
      ∀ b ∈ selectPending s.blobs deviceId, b.id ∉ p.ids
  | _, _ => True

/-- No message is in two responses, or twice in one; and one that is marked is in a
response, or in that of a poll that has only to answer. -/
structure DeliveredOnce (s : Mailbox) : Prop where
  once : (s.responses.flatten.map (·.id)).Nodup
  marked : ∀ b ∈ s.blobs, b.deliveredAt ≠ none →
    (∃ response ∈ s.responses, b.id ∈ response.map (·.id)) ∨
      ∃ p ∈ s.polls, p.stage = .marked ∧ b.id ∈ p.ids

/-! ## The statements -/

theorem nodup_createBlob {blobs blobs' : List MessageBlob} {b : MessageBlob}
    (h : createBlob blobs b = some blobs') (hnodup : (blobs.map (·.id)).Nodup) :
    (blobs'.map (·.id)).Nodup := by
  unfold createBlob at h
  split at h
  · cases h
  rename_i hfree
  obtain rfl := Option.some.inj h
  refine nodup_map_concat hnodup fun b' hb' hid => hfree (List.any_eq_true.mpr ⟨b', hb', ?_⟩)
  rw [MessageBlob.conflicts, hid, beq_self_eq_true, Bool.true_or]

theorem subset_createManyBlobs (blobs rows : List MessageBlob) :
    blobs ⊆ createManyBlobs blobs rows := by
  induction rows generalizing blobs with
  | nil => exact List.Subset.refl blobs
  | cons b rows ih =>
    refine List.Subset.trans ?_ (ih _)
    cases hcreate : createBlob blobs b with
    | none => exact List.Subset.refl blobs
    | some blobs' =>
      unfold createBlob at hcreate
      split at hcreate
      · cases hcreate
      · obtain rfl := Option.some.inj hcreate
        exact List.subset_append_left _ _

theorem nodup_createManyBlobs {blobs : List MessageBlob} (rows : List MessageBlob)
    (h : (blobs.map (·.id)).Nodup) : ((createManyBlobs blobs rows).map (·.id)).Nodup := by
  induction rows generalizing blobs with
  | nil => exact h
  | cons b rows ih =>
    refine ih ?_
    cases hcreate : createBlob blobs b with
    | none => exact h
    | some blobs' => exact nodup_createBlob hcreate h

/-- The rows that are made are at the end of the table, and none conflicts with one before it. -/
theorem createManyBlobs_eq (blobs rows : List MessageBlob) :
    ∃ kept, createManyBlobs blobs rows = blobs ++ kept ∧ kept.Sublist rows ∧
      (∀ b ∈ blobs, ∀ b' ∈ kept, b'.conflicts b = false) ∧
      kept.Pairwise fun b b' => b'.conflicts b = false := by
  induction rows generalizing blobs with
  | nil =>
    exact ⟨[], (List.append_nil blobs).symm, List.Sublist.slnil,
      fun _ _ _ h => absurd h List.not_mem_nil, List.Pairwise.nil⟩
  | cons b rows ih =>
    rw [createManyBlobs, createBlob]
    split
    · obtain ⟨kept, heq, hsub, hold, hpair⟩ := ih blobs
      exact ⟨kept, heq, hsub.cons b, hold, hpair⟩
    · rename_i hany
      obtain ⟨kept, heq, hsub, hold, hpair⟩ := ih (blobs ++ [b])
      have hnone : ∀ b₀ ∈ blobs, b.conflicts b₀ = false := by simpa using hany
      refine ⟨b :: kept, ?_, hsub.cons_cons b, fun b₀ hb₀ b' hb' => ?_, ?_⟩
      · rw [Option.getD_some, heq, List.append_assoc]
        rfl
      · rcases List.mem_cons.mp hb' with rfl | htail
        · exact hnone b₀ hb₀
        · exact hold b₀ (List.mem_append_left _ hb₀) b' htail
      · exact List.pairwise_cons.mpr
          ⟨fun b' hb' => hold b (List.mem_append_right _ (List.mem_singleton_self b)) b' hb', hpair⟩

theorem mem_selectPending {blobs : List MessageBlob} {deviceId : Uuid} {b : MessageBlob}
    (h : b ∈ selectPending blobs deviceId) : b ∈ blobs ∧ b.deliveredAt = none := by
  have hmem := (List.mem_insertionSort _).mp (List.mem_of_mem_take h)
  obtain ⟨hb, hpending⟩ := List.mem_filter.mp hmem
  rw [Bool.and_eq_true, Option.isNone_iff_eq_none] at hpending
  exact ⟨hb, hpending.2⟩

theorem nodup_selectPending {blobs : List MessageBlob} (h : (blobs.map (·.id)).Nodup)
    (deviceId : Uuid) : ((selectPending blobs deviceId).map (·.id)).Nodup := by
  refine List.Nodup.sublist ((List.take_sublist _ _).map _) ?_
  refine ((List.perm_insertionSort _ _).map _).nodup_iff.mpr ?_
  exact h.sublist (List.filter_sublist.map _)

theorem ids_markDelivered (ids : List Uuid) (now : Nat) (blobs : List MessageBlob) :
    (markDelivered ids now blobs).map (·.id) = blobs.map (·.id) := by
  rw [markDelivered, List.map_map]
  refine List.map_congr_left fun b _ => ?_
  change (if b.id ∈ ids then ({ b with deliveredAt := some now } : MessageBlob) else b).id = b.id
  split <;> rfl

/-- A row after an update is that of before, with a date where it was asked for. -/
theorem mem_markDelivered {ids : List Uuid} {now : Nat} {blobs : List MessageBlob}
    {b : MessageBlob} (h : b ∈ markDelivered ids now blobs) :
    ∃ b' ∈ blobs, b.id = b'.id ∧
      (b'.id ∈ ids ∧ b.deliveredAt ≠ none ∨ b'.id ∉ ids ∧ b.deliveredAt = b'.deliveredAt) := by
  obtain ⟨b', hb', rfl⟩ := List.mem_map.mp h
  refine ⟨b', hb', ?_⟩
  split
  · rename_i hid
    exact ⟨rfl, .inl ⟨hid, nofun⟩⟩
  · rename_i hid
    exact ⟨rfl, .inr ⟨hid, rfl⟩⟩

/-- A pending row is the row that was stored: it stays there until it is marked. -/
theorem mem_markDelivered_iff {ids : List Uuid} {now : Nat} {blobs : List MessageBlob}
    {b : MessageBlob} (hpending : b.deliveredAt = none) :
    b ∈ markDelivered ids now blobs ↔ b ∈ blobs ∧ b.id ∉ ids := by
  rw [markDelivered, List.mem_map]
  constructor
  · rintro ⟨b', hb', heq⟩
    split at heq
    · rw [← heq] at hpending
      cases hpending
    · rename_i hid
      obtain rfl := heq
      exact ⟨hb', hid⟩
  · rintro ⟨hb, hid⟩
    exact ⟨b, hb, if_neg hid⟩

/-! ## What is pending is returned -/

/-- The rows of a device that are pending. -/
def pendingRows (deviceId : Uuid) (blobs : List MessageBlob) : List MessageBlob :=
  blobs.filter fun b => b.recipientDeviceId == deviceId && b.deliveredAt.isNone

theorem mem_pendingRows_iff {deviceId : Uuid} {blobs : List MessageBlob} {b : MessageBlob} :
    b ∈ pendingRows deviceId blobs ↔
      b ∈ blobs ∧ b.recipientDeviceId = deviceId ∧ b.deliveredAt = none := by
  simp [pendingRows]

/-- The statements of one poll. -/
def get (deviceId : Uuid) (now : Nat) (s : Mailbox) : List Statement :=
  [.findMany deviceId, .updateMany s.polls.length now, .respond s.polls.length]

theorem run_get {deviceId : Uuid} {s : Mailbox} (now : Nat)
    (hne : selectPending s.blobs deviceId ≠ []) :
    run Mailbox.step (get deviceId now s) s = some
      ⟨markDelivered ((selectPending s.blobs deviceId).map (·.id)) now s.blobs,
        s.polls ++ [⟨deviceId, selectPending s.blobs deviceId, .answered⟩]⟩ := by
  simp [get, run_cons, Mailbox.step, hne, Poll.ids]

theorem pendingRows_markDelivered (deviceId : Uuid) (ids : List Uuid) (now : Nat)
    (blobs : List MessageBlob) : pendingRows deviceId (markDelivered ids now blobs) =
      (pendingRows deviceId blobs).filter (·.id ∉ ids) := by
  induction blobs with
  | nil => rfl
  | cons b blobs ih =>
    rw [pendingRows, markDelivered, pendingRows] at ih ⊢
    rw [List.map_cons, List.filter_cons, List.filter_cons, ih]
    by_cases hid : b.id ∈ ids
    · rw [if_pos hid, if_neg (by simp)]
      split
      · rw [List.filter_cons_of_neg (by simpa using hid)]
      · rfl
    · rw [if_neg hid]
      split
      · rw [List.filter_cons_of_pos (by simpa using hid)]
      · rfl

/-- A poll marks what it reads, so fewer rows are pending. -/
theorem length_pendingRows_lt {deviceId : Uuid} {blobs : List MessageBlob} (now : Nat)
    (hne : selectPending blobs deviceId ≠ []) :
    (pendingRows deviceId (markDelivered ((selectPending blobs deviceId).map (·.id)) now
      blobs)).length < (pendingRows deviceId blobs).length := by
  obtain ⟨b, hb⟩ := List.exists_mem_of_ne_nil _ hne
  have hmem : b ∈ pendingRows deviceId blobs :=
    (List.mem_insertionSort _).mp (List.mem_of_mem_take hb)
  rw [pendingRows_markDelivered, List.length_filter_lt_length_iff_exists]
  exact ⟨b, hmem, by simpa using ⟨b, hb, rfl⟩⟩

/-- Where a row is pending, a poll returns some row. -/
theorem selectPending_ne_nil {deviceId : Uuid} {blobs : List MessageBlob} {b : MessageBlob}
    (hb : b ∈ pendingRows deviceId blobs) : selectPending blobs deviceId ≠ [] := by
  intro hnil
  rcases List.take_eq_nil_iff.mp hnil with hzero | hsorted
  · exact absurd hzero (by decide)
  · have hmem := (List.mem_insertionSort (fun b b' : MessageBlob => b.createdAt ≤ b'.createdAt)).mpr
      hb
    rw [pendingRows, hsorted] at hmem
    cases hmem

/-- A poll that is still to come answers with the row. -/
def ReturnedLater (s : Mailbox) (b : MessageBlob) : Prop :=
  ∃ statements t, (∀ rows, .createMany rows ∉ statements) ∧
    run Mailbox.step statements s = some t ∧
    ∃ i p, s.polls.length ≤ i ∧ t.polls[i]? = some p ∧ p.stage = .answered ∧ b ∈ p.pending

theorem returnedLater_of_pending (s : Mailbox) (hids : (s.blobs.map (·.id)).Nodup)
    {deviceId : Uuid} {b : MessageBlob} (hb : b ∈ pendingRows deviceId s.blobs) :
    ReturnedLater s b := by
  generalize hn : (pendingRows deviceId s.blobs).length = n
  induction n using Nat.strong_induction_on generalizing s with
  | _ n ih =>
    have hne := selectPending_ne_nil hb
    have hrun := run_get 0 hne
    have hget : ∀ rows, .createMany rows ∉ get deviceId 0 s := by simp [get]
    by_cases hread : b ∈ selectPending s.blobs deviceId
    · refine ⟨_, _, hget, hrun, s.polls.length, ⟨deviceId, selectPending s.blobs deviceId, .answered⟩,
        Nat.le_refl _, ?_, rfl, hread⟩
      exact List.getElem?_concat_length
    · -- The row was not among the oldest; it is still pending, and fewer are.
      obtain ⟨hmem, hrecipient, hpending⟩ := mem_pendingRows_iff.mp hb
      have hid : b.id ∉ (selectPending s.blobs deviceId).map (·.id) := by
        intro hid
        obtain ⟨b', hb', heq⟩ := List.mem_map.mp hid
        obtain rfl := List.inj_on_of_nodup_map hids (mem_selectPending hb').1 hmem heq
        exact hread hb'
      have hlt := length_pendingRows_lt 0 hne
      have hstill : b ∈ pendingRows deviceId
          (markDelivered ((selectPending s.blobs deviceId).map (·.id)) 0 s.blobs) :=
        mem_pendingRows_iff.mpr
          ⟨(mem_markDelivered_iff hpending).mpr ⟨hmem, hid⟩, hrecipient, hpending⟩
      have hids' := hids
      rw [← ids_markDelivered ((selectPending s.blobs deviceId).map (·.id)) 0] at hids'
      obtain ⟨statements, t, hlater, hrun', i, p, hi, hp⟩ := ih _ (hn ▸ hlt)
        ⟨_, s.polls ++ [⟨deviceId, selectPending s.blobs deviceId, .answered⟩]⟩ hids' hstill rfl
      refine ⟨get deviceId 0 s ++ statements, t, fun rows hrows => ?_,
        by rw [run_append, hrun]; exact hrun', i, p, ?_, hp⟩
      · rcases List.mem_append.mp hrows with h | h
        · exact hget rows h
        · exact hlater rows h
      · rw [List.length_append] at hi
        exact Nat.le_of_succ_le hi

/-- What polls find later is pending now. -/
structure FoundIn (s t : Mailbox) : Prop where
  blobs : ∀ b ∈ t.blobs, b.deliveredAt = none → b ∈ s.blobs
  polls : ∀ i p, s.polls.length ≤ i → t.polls[i]? = some p → ∀ b ∈ p.pending,
    b ∈ s.blobs ∧ b.deliveredAt = none

theorem FoundIn.step {s t u : Mailbox} (h : FoundIn s t) {st : Statement}
    (hst : ∀ rows, st ≠ .createMany rows) (hu : Mailbox.step st t = some u) : FoundIn s u := by
  have hset : ∀ (j : Nat) (p p' : Poll), t.polls[j]? = some p → p'.pending = p.pending →
      ∀ i p'', s.polls.length ≤ i → (t.polls.set j p')[i]? = some p'' → ∀ b ∈ p''.pending,
        b ∈ s.blobs ∧ b.deliveredAt = none := by
    intro j p p' hj hsame i p'' hi hget b hb
    rw [List.getElem?_set] at hget
    split at hget
    · rename_i hji
      subst hji
      split at hget
      · obtain rfl := Option.some.inj hget
        exact h.polls j p hi hj b (hsame ▸ hb)
      · cases hget
    · exact h.polls i p'' hi hget b hb
  cases st with
  | createMany rows => exact absurd rfl (hst rows)
  | findMany deviceId =>
    obtain rfl := Option.some.inj hu
    refine ⟨h.blobs, fun i p hi hget b hb => ?_⟩
    rcases getElem?_concat_cases hget with hold | ⟨-, rfl⟩
    · exact h.polls i p hi hold b hb
    · obtain ⟨hmem, hpending⟩ := mem_selectPending hb
      exact ⟨h.blobs b hmem hpending, hpending⟩
  | updateMany j now =>
    simp only [Mailbox.step] at hu
    split at hu
    · rename_i p hj
      split at hu
      · obtain rfl := Option.some.inj hu
        refine ⟨fun b hb hpending => ?_, hset j p _ hj rfl⟩
        exact h.blobs b ((mem_markDelivered_iff hpending).mp hb).1 hpending
      · cases hu
    · cases hu
  | respond j =>
    simp only [Mailbox.step] at hu
    split at hu
    · rename_i p hj
      split at hu
      · obtain rfl := Option.some.inj hu
        exact ⟨h.blobs, hset j p _ hj rfl⟩
      · cases hu
    · cases hu

theorem FoundIn.run {s t u : Mailbox} (h : FoundIn s t) {statements : List Statement}
    (hst : ∀ rows, .createMany rows ∉ statements)
    (hu : Lib.run Mailbox.step statements t = some u) : FoundIn s u := by
  induction statements generalizing t with
  | nil =>
    obtain rfl := Option.some.inj hu
    exact h
  | cons st statements ih =>
    rw [run_cons, Option.bind_eq_some_iff] at hu
    obtain ⟨t', ht', hu⟩ := hu
    refine ih (h.step (fun rows heq => ?_) ht') (fun rows hmem => ?_) hu
    · exact hst rows (heq ▸ List.mem_cons_self)
    · exact hst rows (List.mem_cons_of_mem _ hmem)

/-- A stored row is returned by a later poll exactly while it is pending. -/
theorem returnedLater_iff {s : Mailbox} (hids : (s.blobs.map (·.id)).Nodup) {b : MessageBlob} :
    ReturnedLater s b ↔ b ∈ s.blobs ∧ b.deliveredAt = none := by
  constructor
  · rintro ⟨statements, t, hst, hrun, i, p, hi, hget, -, hb⟩
    have hstart : FoundIn s s := by
      refine ⟨fun b hb _ => hb, fun i p hi hget => ?_⟩
      rw [List.getElem?_eq_none hi] at hget
      cases hget
    exact (hstart.run hst hrun).polls i p hi hget b hb
  · rintro ⟨hb, hpending⟩
    exact returnedLater_of_pending s hids (mem_pendingRows_iff.mpr ⟨hb, rfl, hpending⟩)

/-! ## The invariant -/

/-- Every row is held by at most one poll, and is marked when a poll that holds it is
past its update, and only then. -/
structure MailboxInv (s : Mailbox) : Prop where
  ids : (s.blobs.map (·.id)).Nodup
  stored : ∀ p ∈ s.polls, ∀ i ∈ p.ids, i ∈ s.blobs.map (·.id)
  apart : (s.polls.flatMap Poll.ids).Nodup
  past : ∀ p ∈ s.polls, p.stage ≠ .selected → ∀ b ∈ s.blobs, b.id ∈ p.ids → b.deliveredAt ≠ none
  marked : ∀ b ∈ s.blobs, b.deliveredAt ≠ none →
    ∃ p ∈ s.polls, p.stage ≠ .selected ∧ b.id ∈ p.ids

variable {s t : Mailbox}

theorem mailboxInv_start : MailboxInv Mailbox.start :=
  ⟨List.nodup_nil, by simp [Mailbox.start], List.nodup_nil, by simp [Mailbox.start],
    by simp [Mailbox.start]⟩

theorem MailboxInv.createMany (h : MailboxInv s) (rows : List MessageBlob)
    (hrows : ∀ b ∈ rows, b.deliveredAt = none) :
    MailboxInv { s with blobs := createManyBlobs s.blobs rows } := by
  have hsub := subset_createManyBlobs s.blobs rows
  have hids := nodup_createManyBlobs rows h.ids
  refine ⟨hids, fun p hp i hi => ?_, h.apart, fun p hp hstage b hb hid => ?_, fun b hb hmarked => ?_⟩
  · exact (List.map_subset _ hsub) (h.stored p hp i hi)
  · -- A poll holds rows that were there before, so this one was.
    obtain ⟨b', hb', hid'⟩ := List.mem_map.mp (h.stored p hp _ hid)
    obtain rfl := List.inj_on_of_nodup_map hids hb (hsub hb') hid'.symm
    exact h.past p hp hstage b hb' hid
  · rcases mem_createManyBlobs hb with hold | hnew
    · exact h.marked b hold hmarked
    · exact absurd (hrows b hnew) hmarked

theorem MailboxInv.findMany (h : MailboxInv s) (deviceId : Uuid)
    (hoverlap : NoOverlap (.findMany deviceId) s) :
    MailboxInv { s with
      polls := s.polls ++ [⟨deviceId, selectPending s.blobs deviceId, .selected⟩] } := by
  have hnew : ∀ p ∈ s.polls, ∀ b ∈ selectPending s.blobs deviceId, b.id ∉ p.ids := by
    intro p hp b hb hid
    obtain ⟨hmem, hpending⟩ := mem_selectPending hb
    by_cases hstage : p.stage = .selected
    · exact hoverlap p hp hstage b hb hid
    · exact h.past p hp hstage b hmem hid hpending
  refine ⟨h.ids, fun p hp i hi => ?_, ?_, fun p hp hstage => ?_, fun b hb hmarked => ?_⟩
  · rcases mem_concat_cases hp with hold | hlast
    · exact h.stored p hold i hi
    · obtain rfl := hlast
      obtain ⟨b, hb, rfl⟩ := List.mem_map.mp hi
      exact List.mem_map_of_mem (mem_selectPending hb).1
  · rw [List.flatMap_append, List.flatMap_singleton]
    refine List.nodup_append.mpr ⟨h.apart, nodup_selectPending h.ids deviceId, ?_⟩
    rintro i hi j hj rfl
    obtain ⟨p, hp, hheld⟩ := List.mem_flatMap.mp hi
    obtain ⟨b, hb, rfl⟩ := List.mem_map.mp hj
    exact hnew p hp b hb hheld
  · rcases mem_concat_cases hp with hold | hlast
    · exact h.past p hold hstage
    · exact absurd (by rw [hlast]) hstage
  · obtain ⟨p, hp, hstage, hid⟩ := h.marked b hb hmarked
    exact ⟨p, List.mem_append_left _ hp, hstage, hid⟩

theorem MailboxInv.updateMany (h : MailboxInv s) {i : Nat} {p : Poll}
    (hp : s.polls[i]? = some p) (now : Nat) :
    MailboxInv ⟨markDelivered p.ids now s.blobs, s.polls.set i { p with stage := .marked }⟩ := by
  have hmem := List.mem_of_getElem? hp
  have hset : ({ p with stage := .marked } : Poll) ∈ s.polls.set i { p with stage := .marked } :=
    set_self_mem hp
  refine ⟨?_, fun p' hp' j hj => ?_, ?_, fun p' hp' hstage b hb hid => ?_, fun b hb hmarked => ?_⟩
  · rw [ids_markDelivered]
    exact h.ids
  · rw [ids_markDelivered]
    rcases mem_set_cases hp' with hold | rfl
    · exact h.stored p' hold j hj
    · exact h.stored p hmem j hj
  · have hheld := flatMap_set_same (b := { p with stage := .marked }) (f := Poll.ids) hp rfl
    exact hheld.nodup_iff.mpr h.apart
  · obtain ⟨b', hb', hid', ⟨_, hdate⟩ | ⟨hnot, hdate⟩⟩ := mem_markDelivered hb
    · exact hdate
    · rw [hid'] at hid
      rw [hdate]
      rcases mem_set_cases hp' with hold | rfl
      · exact h.past p' hold hstage b' hb' hid
      · exact absurd hid hnot
  · obtain ⟨b', hb', hid', ⟨hin, _⟩ | ⟨hnot, hdate⟩⟩ := mem_markDelivered hb
    · rw [hid']
      exact ⟨_, hset, nofun, hin⟩
    · rw [hdate] at hmarked
      obtain ⟨p', hp', hstage, hin⟩ := h.marked b' hb' hmarked
      rw [hid']
      rcases mem_set_of_mem (b := { p with stage := .marked }) hp hp' with rfl | hother
      · exact absurd hin hnot
      · exact ⟨p', hother, hstage, hin⟩

theorem MailboxInv.respond (h : MailboxInv s) {i : Nat} {p : Poll} (hp : s.polls[i]? = some p)
    (hstage : p.stage = .marked ∨ p.stage = .selected ∧ p.pending = []) :
    MailboxInv { s with polls := s.polls.set i { p with stage := .answered } } := by
  have hmem := List.mem_of_getElem? hp
  have hset : ({ p with stage := .answered } : Poll) ∈
      s.polls.set i { p with stage := .answered } :=
    set_self_mem hp
  refine ⟨h.ids, fun p' hp' j hj => ?_, ?_, fun p' hp' hpast b hb hid => ?_, fun b hb hmarked => ?_⟩
  · rcases mem_set_cases hp' with hold | rfl
    · exact h.stored p' hold j hj
    · exact h.stored p hmem j hj
  · have hheld := flatMap_set_same (b := { p with stage := .answered }) (f := Poll.ids) hp rfl
    exact hheld.nodup_iff.mpr h.apart
  · rcases mem_set_cases hp' with hold | rfl
    · exact h.past p' hold hpast b hb hid
    · rcases hstage with hmarked | ⟨_, hempty⟩
      · exact h.past p hmem (by rw [hmarked]; nofun) b hb hid
      · change b.id ∈ p.pending.map (·.id) at hid
        rw [hempty] at hid
        cases hid
  · obtain ⟨p', hp', hpast, hid⟩ := h.marked b hb hmarked
    rcases mem_set_of_mem (b := { p with stage := .answered }) hp hp' with rfl | hother
    · exact ⟨_, hset, nofun, hid⟩
    · exact ⟨p', hother, hpast, hid⟩

theorem MailboxInv.step (h : MailboxInv s) {e : Statement} (hoverlap : NoOverlap e s)
    (ht : Mailbox.step e s = some t) : MailboxInv t := by
  cases e with
  | createMany rows =>
    obtain rfl := Option.some.inj ht
    refine h.createMany _ fun b hb => ?_
    obtain ⟨b', _, rfl⟩ := List.mem_map.mp hb
    rfl
  | findMany deviceId =>
    obtain rfl := Option.some.inj ht
    exact h.findMany deviceId hoverlap
  | updateMany i now =>
    simp only [Mailbox.step] at ht
    split at ht
    · rename_i p hp
      split at ht
      · obtain rfl := Option.some.inj ht
        exact h.updateMany hp now
      · cases ht
    · cases ht
  | respond i =>
    simp only [Mailbox.step] at ht
    split at ht
    · rename_i p hp
      split at ht
      · rename_i hstage
        obtain rfl := Option.some.inj ht
        exact h.respond hp hstage
      · cases ht
    · cases ht

theorem MailboxInv.deliveredOnce (h : MailboxInv s) : DeliveredOnce s := by
  constructor
  · have hids : s.responses.flatten.map (·.id) =
        (s.polls.filter (·.stage = .answered)).flatMap Poll.ids := by
      rw [Mailbox.responses, List.map_flatten, List.map_map, List.flatMap_def]
      rfl
    rw [hids]
    exact h.apart.sublist (List.filter_sublist.flatMap Poll.ids)
  · intro b hb hmarked
    obtain ⟨p, hp, hstage, hid⟩ := h.marked b hb hmarked
    cases hcase : p.stage with
    | selected => exact absurd hcase hstage
    | marked => exact .inr ⟨p, hp, hcase, hid⟩
    | answered =>
      refine .inl ⟨p.pending, List.mem_map.mpr ⟨p, List.mem_filter.mpr ⟨hp, ?_⟩, rfl⟩, hid⟩
      rw [hcase]
      rfl

/-- Whatever statements of polls and of senders follow one another: where no poll reads
what another has still to mark, every message is delivered at most once. -/
theorem messages_deliveredOnce (statements : List Statement) (s : Mailbox)
    (hoverlap : Always Mailbox.step NoOverlap statements Mailbox.start)
    (hrun : run Mailbox.step statements Mailbox.start = some s) : DeliveredOnce s :=
  (run_invariant_of_always MailboxInv (fun _ _ _ h hC ht => h.step hC ht) mailboxInv_start
    hoverlap hrun).deliveredOnce

/-! ## Two polls of one device -/

def sampleBlob : MessageBlob := ⟨1, some 5, none, some 10, 20, 7, [], [3], 100, none, 200⟩

/-- The second poll reads before the first one marks. -/
def overlappingPolls : List Statement :=
  [.createMany [sampleBlob], .findMany 20, .findMany 20, .updateMany 0 101, .updateMany 1 102,
    .respond 0, .respond 1]

theorem overlappingPolls_deliverTwice :
    ∃ s, run Mailbox.step overlappingPolls Mailbox.start = some s ∧
      s.responses = [[sampleBlob], [sampleBlob]] ∧ ¬ DeliveredOnce s :=
  ⟨_, rfl, by decide, fun h => absurd h.once (by decide)⟩

/-- The second poll reads when the first one has marked, and finds what came since. -/
def laterPoll : List Statement :=
  [.createMany [sampleBlob], .findMany 20, .updateMany 0 101,
    .createMany [{ sampleBlob with id := 2, clientMessageId := 8 }], .findMany 20, .respond 0,
    .updateMany 1 102, .respond 1]

instance (e : Statement) (s : Mailbox) : Decidable (NoOverlap e s) := by
  cases e <;> unfold NoOverlap <;> infer_instance

theorem laterPoll_deliversOnce :
    ∃ s, run Mailbox.step laterPoll Mailbox.start = some s ∧
      s.responses.map (·.map (·.id)) = [[1], [2]] ∧ DeliveredOnce s :=
  ⟨_, rfl, by decide, messages_deliveredOnce laterPoll _ (by decide) rfl⟩

end ZiaCrypte.Server
