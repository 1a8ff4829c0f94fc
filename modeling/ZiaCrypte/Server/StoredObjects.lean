import ZiaCrypte.Server.Attachments
import ZiaCrypte.Lib.Slots
import Mathlib.Data.List.Nodup

/-!
# Every stored object has a row that names it

The store is told of a key by the rows only. A statement that deletes rows, or an upload,
leaves every object named exactly when no row it deletes has an object, and the upload is to
a key that still has its row.
-/
namespace ZiaCrypte.Server

open ZiaCrypte.Lib

/-! ## What is to hold, and when it does -/

/-- Some row names the key. -/
def Stored.Names (s : Stored) (key : StorageKey) : Prop := ∃ ref ∈ s.refs, ref.storageKey = key

def Stored.AllNamed (s : Stored) : Prop := ∀ key ∈ s.objects, s.Names key

/-- The rows the next statement of a request deletes. -/
def AttachmentRequest.deletes (r : AttachmentRequest) (s : Stored) (ref : AttachmentRef) : Bool :=
  match r.call, r.stage with
  | .postAttachment _, .deleteAvatars [] => ref.ownerUserId == some r.me.userId
  | .deleteAttachment id, .deleteRef => ref.id == id
  | .deleteMe _, .deleteUser =>
      (s.db.findUser r.me.userId).isSome && ref.ownerUserId == some r.me.userId
  | .deleteUser id _, .deleteUser => (s.db.findUser id).isSome && ref.ownerUserId == some id
  | _, _ => false

/-- The attachment a request is about to create. -/
def AttachmentRequest.creates? (r : AttachmentRequest) : Option AttachmentBody :=
  match r.call, r.stage with
  | .postAttachment body, .create => some body
  | _, _ => none

def Purge.deletes (p : Purge) (s : Stored) (ref : AttachmentRef) : Bool :=
  match p.stage with
  | .deleteRef id _ => ref.id == id
  | .conversations => ref.conversationId.any s.isOrphan
  | _ => false

namespace AttachmentServer

/-- No row is deleted while the store has its object, and nothing is uploaded to a key whose
row is gone. -/
def ObjectFirst : AttachmentStatement → AttachmentServer → Prop
  | .next i _ _, s => ∀ r ∈ s.requests[i]?, ∀ ref ∈ s.stored.refs,
      r.deletes s.stored ref = true → ref.storageKey ∉ s.stored.objects
  | .nextPurge i _, s => ∀ p ∈ s.purges[i]?, ∀ ref ∈ s.stored.refs,
      p.deletes s.stored ref = true → ref.storageKey ∉ s.stored.objects
  | .putObject url now, s => url ∈ s.stored.urls → now < url.expiresAt → s.stored.Names url.key
  | _, _ => True

/-- The key drawn for a new attachment is new. -/
def FreshKeys : AttachmentStatement → AttachmentServer → Prop
  | .next i env _, s => ∀ r ∈ s.requests[i]?, ∀ body ∈ r.creates?, ∀ ref ∈ s.stored.refs,
      ref.storageKey ≠ storageKey env r.me body
  | _, _ => True

end AttachmentServer

/-! ## What one statement does to the rows and the objects -/

variable {s s' t : Stored} {key : StorageKey}

/-- Rows are added, with keys that are new, or objects removed. -/
structure Stored.Grows (s t : Stored) : Prop where
  refs : t.refs = s.refs ∨ ∃ ref, t.refs = s.refs ++ [ref] ∧
    ∀ ref' ∈ s.refs, ref'.storageKey ≠ ref.storageKey
  objects : ∀ key ∈ t.objects, key ∈ s.objects

/-- Just these rows are deleted. -/
structure Stored.Deletes (rows : AttachmentRef → Bool) (s t : Stored) : Prop where
  refs : t.refs = s.refs.filter (!rows ·)
  objects : t.objects = s.objects

theorem Stored.Grows.refl (s : Stored) : s.Grows s := ⟨.inl rfl, fun _ h => h⟩

theorem Stored.deleteObject_grows (key : StorageKey) (s : Stored) (outcome : StoreOutcome) :
    s.Grows (s.deleteObject key outcome) := by
  cases outcome with
  | done => exact ⟨.inl rfl, fun _ h => (List.mem_filter.mp h).1⟩
  | failed removed =>
    cases removed with
    | false => exact Stored.Grows.refl s
    | true => exact ⟨.inl rfl, fun _ h => (List.mem_filter.mp h).1⟩

/-- Keys are not used twice. -/
def Stored.UniqueKeys (s : Stored) : Prop := (s.refs.map (·.storageKey)).Nodup

theorem Stored.Grows.allNamed (h : s.Grows t) (hs : s.AllNamed) : t.AllNamed := by
  intro key hkey
  obtain ⟨ref, href, hname⟩ := hs key (h.objects key hkey)
  rcases h.refs with hrefs | ⟨new, hrefs, -⟩
  · exact ⟨ref, hrefs ▸ href, hname⟩
  · exact ⟨ref, hrefs ▸ List.mem_append_left _ href, hname⟩

theorem Stored.Grows.uniqueKeys (h : s.Grows t) (hs : s.UniqueKeys) : t.UniqueKeys := by
  rcases h.refs with hrefs | ⟨new, hrefs, hnew⟩
  · rw [UniqueKeys, hrefs]
    exact hs
  · rw [UniqueKeys, hrefs]
    exact nodup_map_concat hs hnew

theorem Stored.Deletes.uniqueKeys {rows : AttachmentRef → Bool} (h : s.Deletes rows t)
    (hs : s.UniqueKeys) : t.UniqueKeys := by
  rw [UniqueKeys, h.refs]
  exact List.Nodup.sublist ((List.filter_sublist).map _) hs

/-- The objects are all named after rows are deleted, exactly when none of these had one. -/
theorem Stored.Deletes.allNamed_iff {rows : AttachmentRef → Bool} (h : s.Deletes rows t)
    (hs : s.AllNamed) (hunique : s.UniqueKeys) : t.AllNamed ↔
      ∀ ref ∈ s.refs, rows ref = true → ref.storageKey ∉ s.objects := by
  constructor
  · intro ht ref href hrow hobject
    obtain ⟨ref', href', hname⟩ := ht ref.storageKey (h.objects ▸ hobject)
    rw [h.refs] at href'
    obtain ⟨hold, hkept⟩ := List.mem_filter.mp href'
    rw [List.inj_on_of_nodup_map hunique hold href hname, hrow] at hkept
    cases hkept
  · intro hnone key hkey
    rw [h.objects] at hkey
    obtain ⟨ref, href, rfl⟩ := hs key hkey
    refine ⟨ref, ?_, rfl⟩
    rw [h.refs]
    refine List.mem_filter.mpr ⟨href, ?_⟩
    cases hrow : rows ref with
    | false => rfl
    | true => exact absurd hkey (hnone ref href hrow)

/-! ## The statements of a request -/

section

variable {s3 : Bool} {env : RequestEnv} {outcome : StoreOutcome} {me : Auth}

theorem filter_all {α : Type} (l : List α) : l.filter (fun _ => !false) = l := by simp

/-- A new row, if its key is new. -/
theorem create_grows {body : AttachmentBody} {out : AttachmentStage × Stored}
    (hfresh : ∀ ref ∈ s.refs, ref.storageKey ≠ storageKey env me body)
    (h : postAttachmentNext s3 env outcome me s body .create = some out) : s.Grows out.2 := by
  simp only [postAttachmentNext] at h
  split at h
  · obtain rfl := Option.some.inj h
    exact ⟨.inr ⟨_, rfl, hfresh⟩, fun _ hkey => hkey⟩
  · obtain rfl := Option.some.inj h
    exact Stored.Grows.refl s

/-- The row of an id is deleted, or there is none. -/
theorem deletes_id (s : Stored) (id : Uuid) :
    Stored.Deletes (·.id == id) s (if s.refs.any (·.id == id) then s.deleteRef id else s) := by
  split
  · exact ⟨rfl, rfl⟩
  · rename_i hnone
    refine ⟨?_, rfl⟩
    symm
    rw [List.filter_eq_self]
    intro ref href
    rw [Bool.not_eq_true']
    exact Bool.eq_false_iff.mpr fun hid => hnone (List.any_eq_true.mpr ⟨ref, href, hid⟩)

/-- The last statement deletes the rows the account owns, if there still is one. -/
theorem deleteUserLast_cases (s : Stored) (id : Uuid) :
    Stored.Deletes (fun ref => (s.db.findUser id).isSome && ref.ownerUserId == some id) s
      (deleteUserLast s id).2 := by
  unfold deleteUserLast
  cases huser : s.db.findUser id with
  | none => exact ⟨(filter_all _).symm, rfl⟩
  | some user => exact ⟨rfl, rfl⟩

/-- A statement of a request adds to what is named, or deletes its rows and nothing else. -/
theorem AttachmentRequest.next_cases {argon2Verify : String → String → Bool} {r : AttachmentRequest}
    {out : AttachmentStage × Stored}
    (hfresh : ∀ body ∈ r.creates?, ∀ ref ∈ s.refs, ref.storageKey ≠ storageKey env r.me body)
    (h : r.next s3 env outcome s argon2Verify = some out) :
    (s.Grows out.2 ∧ ∀ ref, r.deletes s ref = false) ∨ Stored.Deletes (r.deletes s) s out.2 := by
  obtain ⟨me, call, stage⟩ := r
  cases call with
  | postAttachment body =>
    change postAttachmentNext s3 env outcome me s body stage = some out at h
    cases stage with
    | create => exact .inl ⟨create_grows (hfresh body rfl) h, fun _ => rfl⟩
    | membership =>
      obtain ⟨c, -, rfl⟩ := Option.map_eq_some_iff.mp h
      exact .inl ⟨Stored.Grows.refl s, fun _ => rfl⟩
    | findAvatars =>
      obtain rfl := Option.some.inj h
      exact .inl ⟨Stored.Grows.refl s, fun _ => rfl⟩
    | deleteAvatars keys =>
      cases keys with
      | nil =>
        obtain rfl := Option.some.inj h
        exact .inr ⟨rfl, rfl⟩
      | cons key keys =>
        obtain rfl := Option.some.inj h
        refine .inl ⟨?_, fun _ => rfl⟩
        cases s3 with
        | false => exact Stored.Grows.refl s
        | true => exact Stored.deleteObject_grows key s outcome
    | sign id key =>
      refine .inl ⟨?_, fun _ => rfl⟩
      cases s3 with
      | false =>
        obtain rfl := Option.some.inj h
        exact Stored.Grows.refl s
      | true =>
        obtain rfl := Option.some.inj h
        exact ⟨.inl rfl, fun _ hkey => hkey⟩
    | _ => cases h
  | deleteAttachment id =>
    change deleteAttachmentNext s3 outcome me s id stage = some out at h
    cases stage with
    | findRef =>
      obtain rfl := Option.some.inj h
      exact .inl ⟨Stored.Grows.refl s, fun _ => rfl⟩
    | deleteObject key =>
      obtain rfl := Option.some.inj h
      exact .inl ⟨Stored.deleteObject_grows key s outcome, fun _ => rfl⟩
    | deleteRef =>
      have hdeletes := deletes_id s id
      simp only [deleteAttachmentNext] at h
      split at h
      · rename_i hfound
        obtain rfl := Option.some.inj h
        rw [if_pos hfound] at hdeletes
        exact .inr hdeletes
      · rename_i hnone
        obtain rfl := Option.some.inj h
        rw [if_neg hnone] at hdeletes
        exact .inr hdeletes
    | _ => cases h
  | deleteMe password =>
    change deleteMeNext me s argon2Verify password stage = some out at h
    cases stage with
    | findUser =>
      obtain rfl := Option.some.inj h
      exact .inl ⟨Stored.Grows.refl s, fun _ => rfl⟩
    | deleteUser =>
      obtain rfl := Option.some.inj h
      exact .inr (deleteUserLast_cases s me.userId)
    | _ => cases h
  | deleteUser id reason =>
    change deleteUserNext s id stage = some out at h
    cases stage with
    | findUser =>
      obtain rfl := Option.some.inj h
      exact .inl ⟨Stored.Grows.refl s, fun _ => rfl⟩
    | deleteUser =>
      obtain rfl := Option.some.inj h
      exact .inr (deleteUserLast_cases s id)
    | _ => cases h

/-- A statement that deletes rows is one that goes on. -/
theorem AttachmentRequest.next_of_deletes (s3 : Bool) (env : RequestEnv) (outcome : StoreOutcome)
    (argon2Verify : String → String → Bool) {r : AttachmentRequest} {ref : AttachmentRef}
    (h : r.deletes s ref = true) :
    ∃ out, r.next s3 env outcome s argon2Verify = some out := by
  obtain ⟨me, call, stage⟩ := r
  simp only [AttachmentRequest.deletes] at h
  split at h
  · exact ⟨_, rfl⟩
  · show ∃ out, (if s.refs.any (·.id == _) then some _ else some _) = some out
    split
    · exact ⟨_, rfl⟩
    · exact ⟨_, rfl⟩
  · exact ⟨_, rfl⟩
  · exact ⟨_, rfl⟩
  · cases h

theorem Purge.next_of_deletes (s3 : Bool) (deliveredHours : Nat) (outcome : StoreOutcome)
    {p : Purge} {ref : AttachmentRef} (h : p.deletes s ref = true) :
    ∃ out, p.next s3 deliveredHours outcome s = some out := by
  obtain ⟨maintenant, rapport, stage⟩ := p
  simp only [Purge.deletes] at h
  split at h
  · show ∃ out, (if s.refs.any (·.id == _) then some _ else some _) = some out
    split
    · exact ⟨_, rfl⟩
    · exact ⟨_, rfl⟩
  · exact ⟨_, rfl⟩
  · cases h

theorem Purge.next_cases {deliveredHours : Nat} {p : Purge} {out : Purge × Stored}
    (h : p.next s3 deliveredHours outcome s = some out) :
    (s.Grows out.2 ∧ ∀ ref, p.deletes s ref = false) ∨ Stored.Deletes (p.deletes s) s out.2 := by
  obtain ⟨maintenant, rapport, stage⟩ := p
  cases stage with
  | pieces rest =>
    cases rest with
    | nil =>
      obtain rfl := Option.some.inj h
      exact .inl ⟨⟨.inl rfl, fun _ hkey => hkey⟩, fun _ => rfl⟩
    | cons piece rest =>
      obtain ⟨id, key⟩ := piece
      obtain rfl := Option.some.inj h
      exact .inl ⟨Stored.deleteObject_grows key s outcome, fun _ => rfl⟩
  | deleteRef id rest =>
    have hdeletes := deletes_id s id
    simp only [Purge.next] at h
    split at h
    · rename_i hfound
      obtain rfl := Option.some.inj h
      rw [if_pos hfound] at hdeletes
      exact .inr hdeletes
    · rename_i hnone
      obtain rfl := Option.some.inj h
      rw [if_neg hnone] at hdeletes
      exact .inr hdeletes
  | conversations =>
    obtain rfl := Option.some.inj h
    exact .inr ⟨rfl, rfl⟩
  | done => cases h
  | _ =>
    obtain rfl := Option.some.inj h
    exact .inl ⟨⟨.inl rfl, fun _ hkey => hkey⟩, fun _ => rfl⟩

end

namespace AttachmentServer

variable {config : Config} {s t : AttachmentServer}

/-! ## Every run -/

structure Kept (s : AttachmentServer) : Prop where
  named : s.stored.AllNamed
  unique : s.stored.UniqueKeys

theorem kept_start : Kept start where
  named key hkey := by cases hkey
  unique := List.nodup_nil

/-- What a request or a purge leaves is named, exactly when the rows it deletes have no
object. -/
theorem named_iff (hs : Kept s) {rows : AttachmentRef → Bool} {stored : Stored}
    (h : (s.stored.Grows stored ∧ ∀ ref, rows ref = false) ∨ Stored.Deletes rows s.stored stored) :
    stored.UniqueKeys ∧ (stored.AllNamed ↔
      ∀ ref ∈ s.stored.refs, rows ref = true → ref.storageKey ∉ s.stored.objects) := by
  rcases h with ⟨hgrows, hnone⟩ | hdeletes
  · refine ⟨hgrows.uniqueKeys hs.unique, iff_of_true (hgrows.allNamed hs.named) ?_⟩
    intro ref _ hrow
    rw [hnone ref] at hrow
    cases hrow
  · exact ⟨hdeletes.uniqueKeys hs.unique, hdeletes.allNamed_iff hs.named hs.unique⟩

theorem step_next {i : Nat} {env : RequestEnv} {outcome : StoreOutcome} :
    step config (.next i env outcome) s = some t ↔ ∃ r out, s.requests[i]? = some r ∧
      r.next config.s3 env outcome s.stored config.argon2Verify = some out ∧
        t = { s with stored := out.2, requests := s.requests.set i { r with stage := out.1 } } :=
  bind_bind_eq_some

theorem step_nextPurge {i : Nat} {outcome : StoreOutcome} :
    step config (.nextPurge i outcome) s = some t ↔ ∃ p out, s.purges[i]? = some p ∧
      p.next config.s3 config.deliveredHours outcome s.stored = some out ∧
        t = { s with stored := out.2, purges := s.purges.set i out.1 } :=
  bind_bind_eq_some

/-- The other statements touch no row and no object. -/
theorem kept_congr (hs : Kept s) (hrefs : t.stored.refs = s.stored.refs)
    (hobjects : t.stored.objects = s.stored.objects) : Kept t := by
  constructor
  · intro key hkey
    obtain ⟨ref, href, hname⟩ := hs.named key (hobjects ▸ hkey)
    exact ⟨ref, hrefs ▸ href, hname⟩
  · rw [Stored.UniqueKeys, hrefs]
    exact hs.unique

theorem kept_step (hs : Kept s) {a : AttachmentStatement} (hfresh : FreshKeys a s)
    (hfirst : ObjectFirst a s) (ht : step config a s = some t) : Kept t := by
  cases a with
  | next i env outcome =>
    obtain ⟨r, out, hr, hout, rfl⟩ := step_next.mp ht
    obtain ⟨hunique, hnamed⟩ := named_iff hs (AttachmentRequest.next_cases (hfresh r hr) hout)
    exact ⟨hnamed.mpr (hfirst r hr), hunique⟩
  | nextPurge i outcome =>
    obtain ⟨p, out, hp, hout, rfl⟩ := step_nextPurge.mp ht
    obtain ⟨hunique, hnamed⟩ := named_iff hs (Purge.next_cases hout)
    exact ⟨hnamed.mpr (hfirst p hp), hunique⟩
  | putObject url now =>
    simp only [step] at ht
    split at ht
    · rename_i hgood
      obtain rfl := Option.some.inj ht
      refine ⟨fun key hkey => ?_, hs.unique⟩
      rcases List.mem_cons.mp hkey with rfl | hold
      · exact hfirst hgood.1 hgood.2
      · exact hs.named key hold
    · cases ht
  | begin claims call =>
    simp only [step] at ht
    split at ht
    · obtain rfl := Option.some.inj ht
      exact hs
    · obtain rfl := Option.some.inj ht
      exact kept_congr hs rfl rfl
  | _ =>
    obtain rfl := Option.some.inj ht
    exact kept_congr hs rfl rfl

/-- A statement leaves every object named exactly when it deletes no row of an object and
uploads to no key without a row. -/
theorem objectFirst_iff (hs : Kept s) {a : AttachmentStatement} (hfresh : FreshKeys a s) :
    ObjectFirst a s ↔ Reaches (step config) (fun t => t.stored.AllNamed) a s := by
  constructor
  · intro hfirst t ht
    exact (kept_step hs hfresh hfirst ht).named
  · intro hreaches
    cases a with
    | next i env outcome =>
      intro r hr ref href hrow
      obtain ⟨out, hout⟩ := AttachmentRequest.next_of_deletes config.s3 env outcome
        config.argon2Verify hrow
      obtain ⟨-, hnamed⟩ := named_iff hs (AttachmentRequest.next_cases (hfresh r hr) hout)
      exact hnamed.mp (hreaches _ (step_next.mpr ⟨r, out, hr, hout, rfl⟩)) ref href hrow
    | nextPurge i outcome =>
      intro p hp ref href hrow
      obtain ⟨out, hout⟩ := Purge.next_of_deletes config.s3 config.deliveredHours outcome hrow
      obtain ⟨-, hnamed⟩ := named_iff hs (Purge.next_cases hout)
      exact hnamed.mp (hreaches _ (step_nextPurge.mpr ⟨p, out, hp, hout, rfl⟩)) ref href hrow
    | putObject url now =>
      intro hurl hgood
      exact hreaches _ (if_pos ⟨hurl, hgood⟩) url.key List.mem_cons_self
    | _ => trivial

instance decidableFreshKeys (a : AttachmentStatement) (s : AttachmentServer) :
    Decidable (FreshKeys a s) :=
  match a with
  | .next i env _ => inferInstanceAs (Decidable (∀ r ∈ s.requests[i]?, ∀ body ∈ r.creates?,
      ∀ ref ∈ s.stored.refs, ref.storageKey ≠ storageKey env r.me body))
  | .register _ _ _ _ | .request _ | .addSession _ | .begin _ _ | .purge _ | .nextPurge _ _
  | .putObject _ _ => isTrue trivial

/-- With new keys for new attachments: in every run each object keeps a row that names it,
exactly when no statement deletes the row of an object that is still stored, and nothing is
uploaded to a key whose row is gone. -/
theorem objects_named_iff (config : Config) (statements : List AttachmentStatement)
    (hfresh : Always (step config) FreshKeys statements start) :
    Always (step config) ObjectFirst statements start ↔
      Always (step config) (Reaches (step config) fun t => t.stored.AllNamed) statements start := by
  refine always_iff_of_always Kept ?_ ?_ kept_start hfresh
  · intro a s t hs hkeys hfirst ht
    exact kept_step hs hkeys hfirst ht
  · intro a s hs hkeys
    exact objectFirst_iff hs hkeys

/-- Of a server with a store. -/
def sampleConfig : Config := ⟨true, 24, fun hash password => hash == password⟩

/-- The clock, with the keys and ids drawn from a number on. -/
def sampleEnv (now first : Nat) : RequestEnv := ⟨now, fun i => first + i⟩

/-- A user sets a profile picture, and uploads it. -/
def avatarUploaded : List AttachmentStatement :=
  [.register 1 10 "secret" "user", .begin ⟨1, 10⟩ (.postAttachment ⟨none, 3, []⟩),
    .next 0 (sampleEnv 0 0) .done, .next 0 (sampleEnv 0 0) .done, .next 0 (sampleEnv 0 50) .done,
    .next 0 (sampleEnv 0 0) .done, .putObject ⟨.avatar 1 50, UPLOAD_TTL⟩ 1000]

/-- The user sets another one, and the store deletes the first. -/
def avatarReplaced : List AttachmentStatement :=
  avatarUploaded ++ [.begin ⟨1, 10⟩ (.postAttachment ⟨none, 4, []⟩), .next 1 (sampleEnv 0 0) .done,
    .next 1 (sampleEnv 0 0) .done, .next 1 (sampleEnv 0 0) .done, .next 1 (sampleEnv 0 60) .done]

theorem avatarReplaced_named :
    (Always (step sampleConfig) ObjectFirst avatarReplaced start ↔
      Always (step sampleConfig) (Reaches (step sampleConfig) fun t => t.stored.AllNamed)
        avatarReplaced start) ∧
    (run (step sampleConfig) avatarReplaced start).map (fun s => (s.stored.objects,
      s.stored.refs.map (·.storageKey))) = some ([], [.avatar 1 60]) :=
  ⟨objects_named_iff sampleConfig avatarReplaced (by decide), by decide⟩

/-! ## A deleted account -/

/-- The user deletes the account. -/
def accountDeleted : List AttachmentStatement :=
  avatarUploaded ++ [.begin ⟨1, 10⟩ (.deleteMe "secret"), .next 1 (sampleEnv 0 0) .done,
    .next 1 (sampleEnv 0 0) .done]

/-- The row goes with the account, and the picture stays. -/
theorem accountDeleted_unnamed : Always (step sampleConfig) FreshKeys accountDeleted start ∧
    ∃ s, run (step sampleConfig) accountDeleted start = some s ∧
      s.stored.objects = [.avatar 1 50] ∧ s.stored.refs = [] ∧ ¬ s.stored.AllNamed := by
  refine ⟨by decide, _, rfl, by decide, by decide, ?_⟩
  intro hnamed
  obtain ⟨ref, href, -⟩ := hnamed (.avatar 1 50) (by decide)
  cases href

end AttachmentServer

end ZiaCrypte.Server
