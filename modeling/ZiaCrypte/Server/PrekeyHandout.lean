import ZiaCrypte.Server.Prekeys
import ZiaCrypte.Lib.Run

/-!
# `GET prekey-bundle(s)`, one statement at a time

A request reads the devices of a user and then, for each, the current signed prekey
and a one-time prekey, which it marks in a statement of its own. The route for one
bundle is the loop of the other over the oldest device. Between two statements of
a request come those of others, and uploads.
-/
namespace ZiaCrypte.Server

open ZiaCrypte.Engine ZiaCrypte.Lib

/-- One entry of a response; the row of its one-time prekey is kept. -/
structure HandedBundle where
  deviceId : Uuid
  identityKey : Bytes
  signedPrekey : Bytes
  signedPrekeySignature : Bytes
  oneTimePrekey : Option OneTimePrekey
  deriving DecidableEq

/-- Where a request stands with the first of its remaining devices. -/
inductive HandoutStage where
  | visiting
  | signed (s : SignedPrekey)
  | selected (s : SignedPrekey) (k : OneTimePrekey)
  | answered
  deriving DecidableEq

structure BundleRequest where
  /-- The devices still to visit. -/
  devices : List DeviceKeys
  stage : HandoutStage
  bundles : List HandedBundle
  deriving DecidableEq

/-- The tables, and the requests in the order they began. -/
structure Handout where
  tables : PrekeyTables
  requests : List BundleRequest

inductive HandoutStatement where
  | upload (u : PrekeyUpload)
  /-- `findMany` for all the bundles of a user, `findFirst` for one. -/
  | findDevices (userId : Uuid) (all : Bool)
  | findSigned (request : Nat)
  | findOneTime (request : Nat)
  | update (request : Nat) (now : Nat)
  | respond (request : Nat)

def handedBundle (d : DeviceKeys) (s : SignedPrekey) (k : Option OneTimePrekey) : HandedBundle where
  deviceId := d.id
  identityKey := d.identityPublicKey
  signedPrekey := s.publicKey
  signedPrekeySignature := s.signature
  oneTimePrekey := k

namespace BundleRequest

/-- The one-time prekeys in the bundles. -/
def taken (r : BundleRequest) : List Uuid := (r.bundles.filterMap (·.oneTimePrekey)).map (·.id)

/-- The one that is selected and not yet marked. -/
def selecting (r : BundleRequest) : Option Uuid :=
  match r.stage with
  | .selected _ k => some k.id
  | _ => none

def held (r : BundleRequest) : List Uuid := r.selecting.toList ++ r.taken

/-- The bundle of the first device is complete. -/
def complete (r : BundleRequest) (devices : List DeviceKeys) (b : HandedBundle) : BundleRequest :=
  { devices := devices, stage := .visiting, bundles := r.bundles ++ [b] }

/-- A device without a signed prekey is passed over. -/
def findSigned (t : PrekeyTables) (r : BundleRequest) : Option BundleRequest :=
  match r.stage, r.devices with
  | .visiting, d :: ds =>
      match t.currentSigned d.id with
      | none => some { r with devices := ds }
      | some s => some { r with stage := .signed s }
  | _, _ => none

/-- Without a one-time prekey left the bundle goes without. -/
def findOneTime (t : PrekeyTables) (r : BundleRequest) : Option BundleRequest :=
  match r.stage, r.devices with
  | .signed s, d :: ds =>
      match t.nextOneTime d.id with
      | none => some (r.complete ds (handedBundle d s none))
      | some k => some { r with stage := .selected s k }
  | _, _ => none

/-- The row that is marked, and the request after it. -/
def update (r : BundleRequest) : Option (Uuid × BundleRequest) :=
  match r.stage, r.devices with
  | .selected s k, d :: ds => some (k.id, r.complete ds (handedBundle d s (some k)))
  | _, _ => none

/-- Without a bundle the answer is 404. -/
def respond (r : BundleRequest) : Option BundleRequest :=
  match r.stage, r.devices with
  | .visiting, [] => some { r with stage := .answered }
  | _, _ => none

end BundleRequest

namespace Handout

def start (tables : PrekeyTables) : Handout := ⟨tables, []⟩

/-- A user without active devices is answered 404 at once. -/
def visit (devices : List DeviceKeys) (h : Handout) : Handout :=
  if devices.isEmpty then h else { h with requests := h.requests ++ [⟨devices, .visiting, []⟩] }

def findDevices (userId : Uuid) (all : Bool) (h : Handout) : Handout :=
  let devices := h.tables.activeDevices userId
  h.visit (if all then devices else devices.take 1)

/-- A statement that is not the next one of its request is not one of the run. -/
def step : HandoutStatement → Handout → Option Handout
  | .upload u, h => some { h with tables := h.tables.uploadPrekeys u }
  | .findDevices userId all, h => some (h.findDevices userId all)
  | .findSigned i, h => do
      let r ← h.requests[i]?
      let r ← r.findSigned h.tables
      pure { h with requests := h.requests.set i r }
  | .findOneTime i, h => do
      let r ← h.requests[i]?
      let r ← r.findOneTime h.tables
      pure { h with requests := h.requests.set i r }
  | .update i now, h => do
      let r ← h.requests[i]?
      let r ← r.update
      pure ⟨h.tables.consume r.1 now, h.requests.set i r.2⟩
  | .respond i, h => do
      let r ← h.requests[i]?
      let r ← r.respond
      pure { h with requests := h.requests.set i r }

/-- The one-time prekeys in the responses so far. -/
def handedOut (h : Handout) : List Uuid :=
  (h.requests.filter (·.stage = .answered)).flatMap BundleRequest.taken

/-- Every one-time prekey is in at most one response, and once there. -/
def HandedOnce (h : Handout) : Prop := h.handedOut.Nodup

end Handout

/-- The prekey a request reads is not held by another one that has still to mark it. -/
def Unheld : HandoutStatement → Handout → Prop
  | .findOneTime i, h => ∀ r ∈ h.requests[i]?, ∀ d ∈ r.devices.head?,
      ∀ k ∈ h.tables.nextOneTime d.id, ∀ r' ∈ h.requests, r'.selecting ≠ some k.id
  | _, _ => True

/-! ## The statements of one request -/

namespace BundleRequest

variable {r r' : BundleRequest} {t : PrekeyTables}

theorem same_of_selecting (hselecting : r'.selecting = r.selecting)
    (hbundles : r'.bundles = r.bundles) : r'.held = r.held ∧ r'.taken = r.taken := by
  have htaken : r'.taken = r.taken := by rw [taken, taken, hbundles]
  exact ⟨by rw [held, held, hselecting, htaken], htaken⟩

theorem findSigned_same (h : r.findSigned t = some r') :
    r'.held = r.held ∧ r'.taken = r.taken := by
  unfold findSigned at h
  split at h
  · rename_i d ds hstage hdevices
    split at h
    · obtain rfl := Option.some.inj h
      exact ⟨rfl, rfl⟩
    · obtain rfl := Option.some.inj h
      exact same_of_selecting (by simp only [selecting, hstage]) rfl
  · cases h

theorem findOneTime_cases (h : r.findOneTime t = some r') :
    r'.taken = r.taken ∧ (r'.held = r.held ∨
      ∃ d k, r.devices.head? = some d ∧ t.nextOneTime d.id = some k ∧ r'.held = k.id :: r.held) := by
  unfold findOneTime at h
  split at h
  · rename_i s d ds hstage hdevices
    split at h
    · obtain rfl := Option.some.inj h
      have htaken : (r.complete ds (handedBundle d s none)).taken = r.taken := by
        simp [taken, complete, handedBundle]
      refine ⟨htaken, Or.inl ?_⟩
      rw [held, held, htaken]
      simp only [selecting, hstage, complete]
    · rename_i k hk
      obtain rfl := Option.some.inj h
      refine ⟨rfl, Or.inr ⟨d, k, by rw [hdevices]; rfl, hk, ?_⟩⟩
      simp only [held, selecting, hstage, taken]
      rfl
  · cases h

theorem update_cases {id : Uuid} (h : r.update = some (id, r')) :
    r.held = id :: r.taken ∧ r'.taken = r.taken ++ [id] ∧ r'.held = r'.taken := by
  unfold update at h
  split at h
  · rename_i s k d ds hstage hdevices
    obtain ⟨rfl, rfl⟩ := Prod.mk.inj (Option.some.inj h)
    refine ⟨by simp only [held, selecting, hstage]; rfl, ?_, rfl⟩
    simp [taken, complete, handedBundle]
  · cases h

theorem respond_same (h : r.respond = some r') : r'.held = r.held ∧ r'.taken = r.taken := by
  unfold respond at h
  split at h
  · rename_i hstage _
    obtain rfl := Option.some.inj h
    exact same_of_selecting (by simp only [selecting, hstage]) rfl
  · cases h

theorem taken_sublist_held (r : BundleRequest) : r.taken.Sublist r.held :=
  List.sublist_append_right _ _

end BundleRequest

/-! ## The invariant -/

/-- No row is held twice, and what a request has taken is marked. -/
structure HandoutInv (h : Handout) : Prop where
  ids : (h.tables.oneTimePrekeys.map (·.id)).Nodup
  stored : ∀ r ∈ h.requests, ∀ id ∈ r.held, id ∈ h.tables.oneTimePrekeys.map (·.id)
  apart : (h.requests.flatMap BundleRequest.held).Nodup
  marked : ∀ r ∈ h.requests, ∀ k ∈ h.tables.oneTimePrekeys, k.id ∈ r.taken → k.consumedAt ≠ none

variable {h h' : Handout}

theorem handoutInv_start {tables : PrekeyTables}
    (hids : (tables.oneTimePrekeys.map (·.id)).Nodup) : HandoutInv (.start tables) :=
  ⟨hids, fun _ hr => absurd hr List.not_mem_nil, List.nodup_nil,
    fun _ hr => absurd hr List.not_mem_nil⟩

theorem HandoutInv.upload (hinv : HandoutInv h) (u : PrekeyUpload) :
    HandoutInv { h with tables := h.tables.uploadPrekeys u } := by
  rcases h.tables.oneTimePrekeys_uploadPrekeys u with hsame | ⟨hnodup, hadded⟩
  · refine ⟨?_, ?_, hinv.apart, ?_⟩ <;> dsimp only <;> rw [hsame]
    · exact hinv.ids
    · exact hinv.stored
    · exact hinv.marked
  · have hids : ((h.tables.uploadPrekeys u).oneTimePrekeys.map (·.id)) =
        (h.tables.oneTimePrekeys ++ u.oneTimePrekeys).map (·.id) := by
      rw [hadded, List.map_append, List.map_append, List.map_map]
      rfl
    refine ⟨by rw [hids]; exact hnodup, ?_, hinv.apart, ?_⟩
    · intro r hr id hid
      rw [hids, List.map_append]
      exact List.mem_append_left _ (hinv.stored r hr id hid)
    · -- A request holds rows that were there before, so none of the new ones.
      intro r hr k hk hid
      dsimp only at hk
      rw [hadded] at hk
      rcases List.mem_append.mp hk with hold | hnew
      · exact hinv.marked r hr k hold hid
      · have hbefore := hinv.stored r hr _ (r.taken_sublist_held.subset hid)
        obtain ⟨k', hk', rfl⟩ := List.mem_map.mp hnew
        rw [List.map_append] at hnodup
        exact absurd rfl ((List.nodup_append.mp hnodup).2.2 _ hbefore _
          (List.mem_map.mpr ⟨k', hk', rfl⟩))

theorem HandoutInv.visit (hinv : HandoutInv h) (devices : List DeviceKeys) :
    HandoutInv (h.visit devices) := by
  unfold Handout.visit
  split
  · exact hinv
  · refine ⟨hinv.ids, fun r hr => ?_, ?_, fun r hr => ?_⟩
    · rcases mem_concat_cases hr with hold | hnew
      · exact hinv.stored r hold
      · obtain rfl := hnew
        exact fun id hid => absurd hid List.not_mem_nil
    · rw [List.flatMap_append, List.flatMap_singleton]
      rw [show BundleRequest.held _ = [] from rfl, List.append_nil]
      exact hinv.apart
    · rcases mem_concat_cases hr with hold | hnew
      · exact hinv.marked r hold
      · obtain rfl := hnew
        exact fun k _ hid => absurd hid List.not_mem_nil

/-- A request that goes on without taking or holding anything new. -/
theorem HandoutInv.goesOn (hinv : HandoutInv h) {i : Nat} {r r' : BundleRequest}
    (hr : h.requests[i]? = some r) (hheld : r'.held = r.held) (htaken : r'.taken = r.taken) :
    HandoutInv { h with requests := h.requests.set i r' } := by
  have hmem := List.mem_of_getElem? hr
  refine ⟨hinv.ids, fun q hq => ?_, ?_, fun q hq => ?_⟩
  · rcases mem_set_cases hq with hold | rfl
    · exact hinv.stored q hold
    · rw [hheld]
      exact hinv.stored r hmem
  · exact (flatMap_set_same hr hheld).nodup_iff.mpr hinv.apart
  · rcases mem_set_cases hq with hold | rfl
    · exact hinv.marked q hold
    · rw [htaken]
      exact hinv.marked r hmem

/-- A request that comes to hold a row that nobody holds. -/
theorem HandoutInv.selects (hinv : HandoutInv h) {i : Nat} {r r' : BundleRequest}
    (hr : h.requests[i]? = some r) (htaken : r'.taken = r.taken) {d : DeviceKeys}
    {k : OneTimePrekey} (hk : h.tables.nextOneTime d.id = some k)
    (hheld : r'.held = k.id :: r.held)
    (hfree : ∀ q ∈ h.requests, q.selecting ≠ some k.id) :
    HandoutInv { h with requests := h.requests.set i r' } := by
  have hmem := List.mem_of_getElem? hr
  obtain ⟨hrow, havailable⟩ := PrekeyTables.nextOneTime_mem hk
  have hnew : k.id ∉ h.requests.flatMap BundleRequest.held := by
    intro hin
    obtain ⟨q, hq, hid⟩ := List.mem_flatMap.mp hin
    rcases List.mem_append.mp hid with hselecting | htaken'
    · exact hfree q hq (Option.mem_toList.mp hselecting)
    · exact hinv.marked q hq k hrow htaken' havailable
  refine ⟨hinv.ids, fun q hq => ?_, ?_, fun q hq => ?_⟩
  · rcases mem_set_cases hq with hold | rfl
    · exact hinv.stored q hold
    · rw [hheld]
      intro id hid
      rcases List.mem_cons.mp hid with rfl | hrest
      · exact List.mem_map_of_mem hrow
      · exact hinv.stored r hmem id hrest
  · have hmore : r'.held.Perm ([k.id] ++ r.held) := by rw [hheld]; rfl
    exact (flatMap_set_perm hr hmore).nodup_iff.mpr (List.nodup_cons.mpr ⟨hnew, hinv.apart⟩)
  · rcases mem_set_cases hq with hold | rfl
    · exact hinv.marked q hold
    · rw [htaken]
      exact hinv.marked r hmem

theorem HandoutInv.update (hinv : HandoutInv h) {i : Nat} {r r' : BundleRequest}
    (hr : h.requests[i]? = some r) {id : Uuid} (hupdate : r.update = some (id, r')) (now : Nat) :
    HandoutInv ⟨h.tables.consume id now, h.requests.set i r'⟩ := by
  have hmem := List.mem_of_getElem? hr
  obtain ⟨hheld, htaken, hheld'⟩ := BundleRequest.update_cases hupdate
  have hperm : r'.held.Perm r.held := by
    rw [hheld', htaken, hheld]
    exact List.perm_append_singleton _ _
  refine ⟨?_, fun q hq => ?_, ?_, fun q hq k hk hid => ?_⟩
  · rw [PrekeyTables.ids_consume]
    exact hinv.ids
  · rw [PrekeyTables.ids_consume]
    rcases mem_set_cases hq with hold | rfl
    · exact hinv.stored q hold
    · exact fun j hj => hinv.stored r hmem j (hperm.subset hj)
  · have hsame : r'.held.Perm ([] ++ r.held) := hperm
    exact (flatMap_set_perm hr hsame).nodup_iff.mpr hinv.apart
  · rcases PrekeyTables.mem_consume hk with hdate | ⟨hne, hrow⟩
    · exact hdate
    · rcases mem_set_cases hq with hold | rfl
      · exact hinv.marked q hold k hrow hid
      · rw [htaken] at hid
        rcases mem_concat_cases hid with hbefore | hlast
        · exact hinv.marked r hmem k hrow hbefore
        · exact absurd hlast hne

theorem HandoutInv.step (hinv : HandoutInv h) {c : HandoutStatement} (hfree : Unheld c h)
    (hstep : Handout.step c h = some h') : HandoutInv h' := by
  cases c with
  | upload u =>
    obtain rfl := Option.some.inj hstep
    exact hinv.upload u
  | findDevices userId all =>
    obtain rfl := Option.some.inj hstep
    exact hinv.visit _
  | findSigned i =>
    obtain ⟨r, hr, hrest⟩ := Option.bind_eq_some_iff.mp hstep
    obtain ⟨r', hr', hret⟩ := Option.bind_eq_some_iff.mp hrest
    obtain rfl := Option.some.inj hret
    obtain ⟨hheld, htaken⟩ := BundleRequest.findSigned_same hr'
    exact hinv.goesOn hr hheld htaken
  | findOneTime i =>
    obtain ⟨r, hr, hrest⟩ := Option.bind_eq_some_iff.mp hstep
    obtain ⟨r', hr', hret⟩ := Option.bind_eq_some_iff.mp hrest
    obtain rfl := Option.some.inj hret
    obtain ⟨htaken, hheld | ⟨d, k, hd, hk, hheld⟩⟩ := BundleRequest.findOneTime_cases hr'
    · exact hinv.goesOn hr hheld htaken
    · exact hinv.selects hr htaken hk hheld (hfree r hr d hd k hk)
  | update i now =>
    obtain ⟨r, hr, hrest⟩ := Option.bind_eq_some_iff.mp hstep
    obtain ⟨⟨id, r'⟩, hr', hret⟩ := Option.bind_eq_some_iff.mp hrest
    obtain rfl := Option.some.inj hret
    exact hinv.update hr hr' now
  | respond i =>
    obtain ⟨r, hr, hrest⟩ := Option.bind_eq_some_iff.mp hstep
    obtain ⟨r', hr', hret⟩ := Option.bind_eq_some_iff.mp hrest
    obtain rfl := Option.some.inj hret
    obtain ⟨hheld, htaken⟩ := BundleRequest.respond_same hr'
    exact hinv.goesOn hr hheld htaken

/-- What has been handed out is among what the requests have taken. -/
theorem HandoutInv.handedOnce (hinv : HandoutInv h) : h.HandedOnce := by
  have htaken : (h.requests.flatMap BundleRequest.taken).Nodup :=
    hinv.apart.sublist (List.Sublist.flatMap_right _ fun r _ => r.taken_sublist_held)
  exact htaken.sublist (List.filter_sublist.flatMap _)

/-- Whatever statements of requests and uploads follow one another: where no request
reads a prekey that another one has still to mark, each is handed out at most once. -/
theorem prekeys_handedOnce {tables : PrekeyTables}
    (hids : (tables.oneTimePrekeys.map (·.id)).Nodup) {statements : List HandoutStatement}
    {h : Handout} (hfree : Always Handout.step Unheld statements (.start tables))
    (hrun : run Handout.step statements (.start tables) = some h) : h.HandedOnce :=
  (run_invariant_of_always HandoutInv (fun _ _ _ hinv hC hstep => hinv.step hC hstep)
    (handoutInv_start hids) hfree hrun).handedOnce

/-! ## Two requesters of one prekey -/

instance (h : Handout) : Decidable h.HandedOnce :=
  inferInstanceAs (Decidable h.handedOut.Nodup)

def sampleTables : PrekeyTables where
  devices := [{ id := 20, userId := 7, isActive := true, identityPublicKey := [1], createdAt := 5 }]
  signedPrekeys := [⟨30, 20, [2], [3], true⟩]
  oneTimePrekeys := [⟨40, 20, [4], none, 6⟩, ⟨41, 20, [5], none, 7⟩]

/-- The second request reads before the first one marks. -/
def overlappingRequests : List HandoutStatement :=
  [.findDevices 7 true, .findDevices 7 false, .findSigned 0, .findSigned 1, .findOneTime 0,
    .findOneTime 1, .update 0 100, .update 1 101, .respond 0, .respond 1]

theorem overlappingRequests_shareAPrekey :
    (sampleTables.oneTimePrekeys.map (·.id)).Nodup ∧
    ∃ h, run Handout.step overlappingRequests (.start sampleTables) = some h ∧
      h.handedOut = [40, 40] ∧ ¬ h.HandedOnce :=
  ⟨by decide, _, rfl, by decide, by decide⟩

/-- The second request reads when the first one has marked. -/
def laterRequest : List HandoutStatement :=
  [.findDevices 7 true, .findDevices 7 false, .findSigned 0, .findSigned 1, .findOneTime 0,
    .update 0 100, .findOneTime 1, .update 1 101, .respond 0, .respond 1]

instance (c : HandoutStatement) (h : Handout) : Decidable (Unheld c h) := by
  cases c <;> unfold Unheld <;> infer_instance

theorem laterRequest_handedOnce :
    ∃ h, run Handout.step laterRequest (.start sampleTables) = some h ∧
      h.handedOut = [40, 41] ∧ h.HandedOnce := by
  have hids : (sampleTables.oneTimePrekeys.map (·.id)).Nodup := by decide
  have hfree : Always Handout.step Unheld laterRequest (.start sampleTables) := by decide
  exact ⟨_, rfl, by decide, prekeys_handedOnce hids hfree rfl⟩

end ZiaCrypte.Server
