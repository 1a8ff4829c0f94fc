import ZiaCrypte.Server.Database
import ZiaCrypte.Lib.Slots
import Mathlib.Data.List.Sort

/-!
# `devices.routes.ts`: the prekeys of a device

The tables behind `POST /devices/:deviceId/prekeys` and the two bundle routes, and
their statements. An upload is one transaction, so others see it whole or not at
all.
-/
namespace ZiaCrypte.Server

open ZiaCrypte.Engine ZiaCrypte.Lib

structure DeviceKeys extends Device where
  identityPublicKey : Bytes
  createdAt : Nat
  deriving DecidableEq

structure SignedPrekey where
  id : Uuid
  deviceId : Uuid
  publicKey : Bytes
  signature : Bytes
  isCurrent : Bool
  deriving DecidableEq

structure OneTimePrekey where
  id : Uuid
  deviceId : Uuid
  publicKey : Bytes
  consumedAt : Option Nat
  createdAt : Nat
  deriving DecidableEq

structure PrekeyTables where
  devices : List DeviceKeys
  signedPrekeys : List SignedPrekey
  oneTimePrekeys : List OneTimePrekey

/-- What `POST prekeys` writes, with the ids and times the database gives the rows. -/
structure PrekeyUpload where
  deviceId : Uuid
  signedPrekey : Option SignedPrekey
  oneTimePrekeys : List OneTimePrekey

namespace PrekeyTables

/-- The oldest device first; rows of one time keep the order of the table. -/
def activeDevices (t : PrekeyTables) (userId : Uuid) : List DeviceKeys :=
  (t.devices.filter fun d => d.userId == userId && d.isActive).insertionSort
    fun d d' => d.createdAt ≤ d'.createdAt

def currentSigned (t : PrekeyTables) (deviceId : Uuid) : Option SignedPrekey :=
  t.signedPrekeys.find? fun s => s.deviceId == deviceId && s.isCurrent

/-- The oldest prekey of the device with `consumedAt: null`. -/
def nextOneTime (t : PrekeyTables) (deviceId : Uuid) : Option OneTimePrekey :=
  ((t.oneTimePrekeys.filter fun k => k.deviceId == deviceId && k.consumedAt.isNone).insertionSort
    fun k k' => k.createdAt ≤ k'.createdAt).head?

/-- By the primary key, whatever `consumedAt` is. -/
def consume (t : PrekeyTables) (id : Uuid) (now : Nat) : PrekeyTables :=
  { t with oneTimePrekeys := t.oneTimePrekeys.map fun k =>
      if k.id = id then { k with consumedAt := some now } else k }

def uploadSigned (t : PrekeyTables) (deviceId : Uuid) (s : SignedPrekey) : PrekeyTables :=
  { t with signedPrekeys :=
      (t.signedPrekeys.map fun s' =>
        if s'.deviceId = deviceId ∧ s'.isCurrent then { s' with isCurrent := false } else s') ++
      [{ s with deviceId := deviceId, isCurrent := true }] }

def uploadOneTime (t : PrekeyTables) (deviceId : Uuid) (ks : List OneTimePrekey) :
    PrekeyTables :=
  { t with oneTimePrekeys := t.oneTimePrekeys ++
      ks.map fun k => { k with deviceId := deviceId, consumedAt := none } }

/-- The ids of the new rows are new. -/
def admits (t : PrekeyTables) (ks : List OneTimePrekey) : Bool :=
  decide ((t.oneTimePrekeys ++ ks).map (·.id)).Nodup

/-- `POST prekeys`; a transaction that meets an id twice leaves everything. -/
def uploadPrekeys (t : PrekeyTables) (u : PrekeyUpload) : PrekeyTables :=
  if t.admits u.oneTimePrekeys then
    (match u.signedPrekey with
      | none => t
      | some s => t.uploadSigned u.deviceId s).uploadOneTime u.deviceId u.oneTimePrekeys
  else t

/-- The count of `GET prekeys`. -/
def oneTimePrekeysRemaining (t : PrekeyTables) (deviceId : Uuid) : Nat :=
  (t.oneTimePrekeys.filter fun k => k.deviceId == deviceId && k.consumedAt.isNone).length

/-- A row has the device or refers to it. -/
def mentions (t : PrekeyTables) (deviceId : Uuid) : Bool :=
  t.devices.any (·.id == deviceId) || t.signedPrekeys.any (·.deviceId == deviceId) ||
    t.oneTimePrekeys.any (·.deviceId == deviceId)

/-- `createDevice`: nothing is written when another device has the identity key, or
an id is taken. -/
def createDevice (t : PrekeyTables) (d : DeviceKeys) (s : SignedPrekey)
    (ks : List OneTimePrekey) : Option PrekeyTables :=
  if t.devices.any (·.identityPublicKey == d.identityPublicKey) || t.mentions d.id ||
      !t.admits ks then none
  else some
    { devices := t.devices ++ [d]
      signedPrekeys := t.signedPrekeys ++ [{ s with deviceId := d.id, isCurrent := true }]
      oneTimePrekeys := t.oneTimePrekeys ++
        ks.map fun k => { k with deviceId := d.id, consumedAt := none } }

/-! ## What the statements read and write -/

theorem nextOneTime_mem {t : PrekeyTables} {deviceId : Uuid} {k : OneTimePrekey}
    (h : t.nextOneTime deviceId = some k) : k ∈ t.oneTimePrekeys ∧ k.consumedAt = none := by
  have hmem := (List.mem_insertionSort _).mp (List.mem_of_mem_head? h)
  obtain ⟨hk, hfree⟩ := List.mem_filter.mp hmem
  rw [Bool.and_eq_true, Option.isNone_iff_eq_none] at hfree
  exact ⟨hk, hfree.2⟩

theorem nextOneTime_deviceId {t : PrekeyTables} {deviceId : Uuid} {k : OneTimePrekey}
    (h : t.nextOneTime deviceId = some k) : k.deviceId = deviceId := by
  have hmem := (List.mem_insertionSort _).mp (List.mem_of_mem_head? h)
  obtain ⟨_, hown⟩ := List.mem_filter.mp hmem
  rw [Bool.and_eq_true, beq_iff_eq] at hown
  exact hown.1

/-- What the tables have for a device once it is created. -/
theorem createDevice_some {t t' : PrekeyTables} {d : DeviceKeys} {s : SignedPrekey}
    {ks : List OneTimePrekey} (h : t.createDevice d s ks = some t') :
    t'.devices.find? (·.id == d.id) = some d ∧
      t'.currentSigned d.id = some { s with deviceId := d.id, isCurrent := true } ∧
      ∀ k ∈ t'.oneTimePrekeys, k.deviceId = d.id → ∃ k' ∈ ks, k.publicKey = k'.publicKey := by
  unfold createDevice at h
  split at h
  · cases h
  rename_i hnew
  obtain rfl := Option.some.inj h
  simp only [mentions, Bool.or_eq_true, not_or, List.any_eq_true, not_exists, not_and,
    beq_iff_eq] at hnew
  obtain ⟨⟨_, ⟨hdevices, hsigned⟩, honeTime⟩, _⟩ := hnew
  refine ⟨?_, ?_, ?_⟩
  · rw [List.find?_append, List.find?_eq_none.mpr (by simpa using hdevices)]
    simp
  · rw [currentSigned, List.find?_append, List.find?_eq_none.mpr]
    · simp
    · intro s' hs' hmatch
      rw [Bool.and_eq_true, beq_iff_eq] at hmatch
      exact hsigned s' hs' hmatch.1
  · intro k hk hown
    rcases List.mem_append.mp hk with hold | hadded
    · exact absurd hown (honeTime k hold)
    · obtain ⟨k', hk', rfl⟩ := List.mem_map.mp hadded
      exact ⟨k', hk', rfl⟩

theorem ids_consume (t : PrekeyTables) (id : Uuid) (now : Nat) :
    (t.consume id now).oneTimePrekeys.map (·.id) = t.oneTimePrekeys.map (·.id) := by
  rw [consume, List.map_map]
  refine List.map_congr_left fun k _ => ?_
  change (if k.id = id then ({ k with consumedAt := some now } : OneTimePrekey) else k).id = k.id
  split <;> rfl

/-- A row after an update is consumed, or is the row of before. -/
theorem mem_consume {t : PrekeyTables} {id : Uuid} {now : Nat} {k : OneTimePrekey}
    (h : k ∈ (t.consume id now).oneTimePrekeys) :
    k.consumedAt ≠ none ∨ k.id ≠ id ∧ k ∈ t.oneTimePrekeys := by
  obtain ⟨k', hk', rfl⟩ := List.mem_map.mp h
  by_cases hid : k'.id = id
  · rw [if_pos hid]
    exact Or.inl (Option.some_ne_none now)
  · rw [if_neg hid]
    exact Or.inr ⟨hid, hk'⟩

/-- Without a signed prekey an upload leaves the other two tables. -/
theorem uploadPrekeys_oneTimeOnly (t : PrekeyTables) (deviceId : Uuid) (ks : List OneTimePrekey) :
    (t.uploadPrekeys ⟨deviceId, none, ks⟩).devices = t.devices ∧
      (t.uploadPrekeys ⟨deviceId, none, ks⟩).signedPrekeys = t.signedPrekeys := by
  unfold uploadPrekeys
  split
  · exact ⟨rfl, rfl⟩
  · exact ⟨rfl, rfl⟩

theorem oneTimePrekeys_uploadPrekeys (t : PrekeyTables) (u : PrekeyUpload) :
    (t.uploadPrekeys u).oneTimePrekeys = t.oneTimePrekeys ∨
      ((t.oneTimePrekeys ++ u.oneTimePrekeys).map (·.id)).Nodup ∧
      (t.uploadPrekeys u).oneTimePrekeys = t.oneTimePrekeys ++
        u.oneTimePrekeys.map fun k => { k with deviceId := u.deviceId, consumedAt := none } := by
  unfold uploadPrekeys
  split
  · rename_i hadmits
    refine Or.inr ⟨of_decide_eq_true hadmits, ?_⟩
    cases u.signedPrekey <;> rfl
  · exact Or.inl rfl

end PrekeyTables

end ZiaCrypte.Server
