import ZiaCrypte.Inbox.Utf8
import ZiaCrypte.Lib.Base64
import ZiaCrypte.Lib.LinkedMap
import Mathlib.Data.List.Induction

/-!
# `IdentityPinning`

Each operation rewrites whole records, and `load` makes them again from the vault. The history
of a registry says what it is to hold: its keys, and who was verified.
-/
namespace ZiaCrypte.Inbox.Registre

open ZiaCrypte.Lib ZiaCrypte.Engine

/-- A `DateTime` in its range, by its microseconds. -/
structure DateTime where
  microseconds : Int
  inRange : microseconds.natAbs ≤ maxMicroseconds.natAbs
  deriving DecidableEq

def DateTime.fromMillisecondsSinceEpoch (ms : Int) : Option DateTime :=
  if h : (ms * 1000).natAbs ≤ maxMicroseconds.natAbs then some ⟨ms * 1000, h⟩ else none

def DateTime.milliseconds (t : DateTime) : Int := millisecondsSinceEpoch t.microseconds

structure ContactIdentity where
  deviceId : Text
  userId : Text
  identityKey : Bytes
  verified : Bool
  firstSeen : DateTime
  deriving DecidableEq

namespace ContactIdentity

def hasSameKey (i : ContactIdentity) (other : Bytes) : Bool :=
  i.identityKey.length == other.length &&
    (List.range i.identityKey.length).all fun j => i.identityKey.getD j 0 == other.getD j 0

def toJson (i : ContactIdentity) : Json :=
  .obj [(text "d", .str i.deviceId), (text "u", .str i.userId),
    (text "k", .str (Base64.encode false i.identityKey)), (text "v", .bool i.verified),
    (text "t", .num (some i.firstSeen.milliseconds))]

def fromJson (json : List (Text × Json)) : Option ContactIdentity := do
  let deviceId ← (field json "d").asString
  let userId ← (field json "u").asString
  let identityKey ← Base64.decode (← (field json "k").asString)
  let verified ← (field json "v").asBool?
  let firstSeen ← DateTime.fromMillisecondsSinceEpoch (← (field json "t").asInt)
  some ⟨deviceId, userId, identityKey, verified.getD false, firstSeen⟩

end ContactIdentity

structure IdentityChangedException where
  deviceId : Text
  userId : Text
  previous : Bytes
  current : Bytes
  deriving DecidableEq

end ZiaCrypte.Inbox.Registre

namespace ZiaCrypte.Inbox

open ZiaCrypte.Lib ZiaCrypte.Engine Registre

/-- The registry in memory, and what the vault has under `contact_identities`. -/
structure Registre where
  known : LinkedMap Text ContactIdentity
  coffre : Option Bytes
  deriving DecidableEq

namespace Registre

def registreJson (known : LinkedMap Text ContactIdentity) : Json :=
  .arr (known.entries.map fun e => e.2.toJson)

section

variable (jsonEncode : Json → Text) (jsonDecode : Text → Option Json)

def contenu (known : LinkedMap Text ContactIdentity) : Bytes :=
  utf8 (jsonEncode (registreJson known))

def save (s : Registre) : Registre := { s with coffre := some (contenu jsonEncode s.known) }

/-- `none` where it throws. -/
def lire (raw : Bytes) : Option (List ContactIdentity) := do
  let list ← (← jsonDecode (← utf8Decode raw)).asList
  list.mapM fun entry => entry.asMap.bind ContactIdentity.fromJson

def load (s : Registre) : Registre :=
  match s.coffre with
  | none => s
  | some raw =>
      if raw.isEmpty then s
      else match lire jsonDecode raw with
        | none => { s with known := s.known.clear }
        | some list =>
            { s with known := list.foldl (fun known i => known.insert i.deviceId i) s.known.clear }

def checkAndPin (deviceId userId : Text) (identityKey : Bytes) (now : DateTime) (s : Registre) :
    Except IdentityChangedException ContactIdentity × Registre :=
  match s.known.get? deviceId with
  | none =>
      let pinned : ContactIdentity := ⟨deviceId, userId, identityKey, false, now⟩
      (.ok pinned, save jsonEncode { s with known := s.known.insert deviceId pinned })
  | some existing =>
      if existing.hasSameKey identityKey = false then
        (.error ⟨deviceId, userId, existing.identityKey, identityKey⟩, s)
      else (.ok existing, s)

def acceptChange (deviceId userId : Text) (identityKey : Bytes) (now : DateTime) (s : Registre) :
    Registre :=
  save jsonEncode
    { s with known := s.known.insert deviceId ⟨deviceId, userId, identityKey, false, now⟩ }

def markVerified (deviceId : Text) (verified : Bool) (s : Registre) : Registre :=
  match s.known.get? deviceId with
  | none => s
  | some existing =>
      save jsonEncode
        { s with known := s.known.insert deviceId { existing with verified := verified } }

def forget (deviceId : Text) (s : Registre) : Registre :=
  if (s.known.get? deviceId).isSome then
    save jsonEncode { s with known := s.known.erase deviceId }
  else s

/-! ## Histories -/

inductive Operation where
  | checkAndPin (deviceId userId : Text) (identityKey : Bytes) (now : DateTime)
  | acceptChange (deviceId userId : Text) (identityKey : Bytes) (now : DateTime)
  | markVerified (deviceId : Text) (verified : Bool)
  | forget (deviceId : Text)
  | save
  | load
  /-- A registry of its own that loads what the vault has. -/
  | relaunch
  deriving DecidableEq

def step (s : Registre) : Operation → Registre
  | .checkAndPin deviceId userId identityKey now =>
      (checkAndPin jsonEncode deviceId userId identityKey now s).2
  | .acceptChange deviceId userId identityKey now =>
      acceptChange jsonEncode deviceId userId identityKey now s
  | .markVerified deviceId verified => markVerified jsonEncode deviceId verified s
  | .forget deviceId => forget jsonEncode deviceId s
  | .save => save jsonEncode s
  | .load => load jsonDecode s
  | .relaunch => load jsonDecode { s with known := .empty }

def start : Registre := ⟨.empty, none⟩

def etat (ops : List Operation) : Registre := ops.foldl (step jsonEncode jsonDecode) start

end

/-- What a file keeps of a time. -/
def DateTime.relu (t : DateTime) : DateTime where
  microseconds := t.milliseconds * 1000
  inRange := by
    have h := t.inRange
    unfold DateTime.milliseconds millisecondsSinceEpoch maxMicroseconds at *
    omega

theorem fromMilliseconds_milliseconds (t : DateTime) :
    DateTime.fromMillisecondsSinceEpoch t.milliseconds = some t.relu := dif_pos t.relu.inRange

theorem milliseconds_relu (t : DateTime) : t.relu.milliseconds = t.milliseconds :=
  Int.mul_ediv_cancel _ (by decide)

def ContactIdentity.relu (i : ContactIdentity) : ContactIdentity :=
  { i with firstSeen := i.firstSeen.relu }

theorem toJson_relu (i : ContactIdentity) : i.relu.toJson = i.toJson := by
  unfold ContactIdentity.toJson ContactIdentity.relu
  rw [milliseconds_relu]

theorem fromJson_toJson (i : ContactIdentity) :
    i.toJson.asMap.bind ContactIdentity.fromJson = some i.relu := by
  have hkey := Base64.decode_encode false i.identityKey
  have htime := fromMilliseconds_milliseconds i.firstSeen
  have hfields : i.toJson.asMap.bind ContactIdentity.fromJson =
      (Base64.decode (Base64.encode false i.identityKey)).bind fun identityKey =>
        (DateTime.fromMillisecondsSinceEpoch i.firstSeen.milliseconds).bind fun firstSeen =>
          some ⟨i.deviceId, i.userId, identityKey, i.verified, firstSeen⟩ := rfl
  rw [hfields, hkey, Option.bind_some, htime]
  rfl

section

variable (jsonEncode : Json → Text) (jsonDecode : Text → Option Json)

/-- The text of a registry is an array, has no half of a surrogate pair, and is read back. -/
structure Lisible (known : LinkedMap Text ContactIdentity) : Prop where
  bienForme : isWellFormed (jsonEncode (registreJson known)) = true
  crochet : (jsonEncode (registreJson known)).head? = some 0x5B
  jsonDecode : jsonDecode (jsonEncode (registreJson known)) = some (registreJson known)

end

variable {jsonEncode : Json → Text} {jsonDecode : Text → Option Json}
  {known : LinkedMap Text ContactIdentity} {s : Registre}

theorem lire_contenu (h : Lisible jsonEncode jsonDecode known) :
    lire jsonDecode (contenu jsonEncode known) = some (known.entries.map fun e => e.2.relu) := by
  have hutf8 : utf8Decode (contenu jsonEncode known) =
      some (jsonEncode (registreJson known)) := by
    refine utf8Decode_utf8_iff.mpr ⟨h.bienForme, ?_⟩
    rw [h.crochet]
    decide
  have hlist := mapM_map_some (f := fun entry => entry.asMap.bind ContactIdentity.fromJson)
    (g := fun e => e.2.toJson) (h := fun e => e.2.relu) (l := known.entries)
    fun e _ => fromJson_toJson e.2
  unfold lire
  rw [hutf8, Option.bind_eq_bind, Option.bind_some, h.jsonDecode]
  exact hlist

theorem contenu_ne_nil (h : Lisible jsonEncode jsonDecode known) :
    (contenu jsonEncode known).isEmpty = false := by
  obtain ⟨rest, hrest⟩ := List.head?_eq_some_iff.mp h.crochet
  have hbracket : isWellFormed [0x5B] = true := by decide
  have happend := utf8_append hbracket rest
  unfold contenu
  rw [hrest, show (0x5B : UInt16) :: rest = [0x5B] ++ rest from rfl, happend]
  rfl

/-! ## The registry and the vault -/

variable (jsonEncode) in
/-- Each record stands under its own device, and the vault has what memory has. -/
structure Sain (s : Registre) : Prop where
  nommees : ∀ e ∈ s.known.entries, e.2.deviceId = e.1
  distinctes : s.known.keys.Nodup
  sauvee : s.coffre = none ∧ s.known.entries = [] ∨ s.coffre = some (contenu jsonEncode s.known)

theorem sain_insert (h : Sain jsonEncode s) {i : ContactIdentity} {deviceId : Text}
    (hname : i.deviceId = deviceId) :
    Sain jsonEncode (save jsonEncode { s with known := s.known.insert deviceId i }) where
  nommees e he := by
    rcases LinkedMap.mem_entries_insert he with rfl | he
    · exact hname
    · exact h.nommees e he
  distinctes := LinkedMap.nodup_keys_insert h.distinctes _ _
  sauvee := .inr rfl

theorem sain_erase (h : Sain jsonEncode s) (deviceId : Text) :
    Sain jsonEncode (save jsonEncode { s with known := s.known.erase deviceId }) where
  nommees e he := by
    refine h.nommees e ?_
    change e ∈ (s.known.erase deviceId).entries at he
    unfold LinkedMap.erase at he
    split at he
    · exact List.mem_of_mem_filter he
    · exact he
  distinctes := LinkedMap.nodup_keys_erase h.distinctes _
  sauvee := .inr rfl

/-- A registry that loads what another saved has the records of that one. -/
theorem entries_load (s' : Registre) (h : Sain jsonEncode s)
    (hlisible : Lisible jsonEncode jsonDecode s.known) (hcoffre : s'.coffre = s.coffre)
    (hknown : s'.known = s.known ∨ s'.known = .empty) :
    (load jsonDecode s').known.entries = s.known.entries.map (fun e => (e.1, e.2.relu)) ∧
      (load jsonDecode s').coffre = s.coffre := by
  rcases h.sauvee with ⟨hnone, hempty⟩ | hsome
  · have hload : load jsonDecode s' = s' := by
      unfold load
      rw [hcoffre, hnone]
    rw [hload, hempty]
    refine ⟨?_, hcoffre⟩
    rcases hknown with hknown | hknown
    · rw [hknown, hempty]
      rfl
    · rw [hknown]
      rfl
  · have hclear : s'.known.clear.entries = [] := by
      unfold LinkedMap.clear
      split
      · rename_i hnil
        exact List.isEmpty_iff.mp hnil
      · rfl
    have hkeys : s'.known.clear.keys = [] := by
      rw [LinkedMap.keys, hclear]
      rfl
    have hnames : (s.known.entries.map fun e => e.2.relu).map (·.deviceId) = s.known.keys := by
      rw [List.map_map]
      exact List.map_congr_left h.nommees
    have hfold := LinkedMap.entries_foldl_insert (·.deviceId) id
      (l := s.known.entries.map fun e => e.2.relu) (m := s'.known.clear)
      (by rw [hkeys, hnames]; exact h.distinctes)
    have hload : load jsonDecode s' =
        ⟨(s.known.entries.map fun e => e.2.relu).foldl
          (fun known i => known.insert i.deviceId i) s'.known.clear, s'.coffre⟩ := by
      unfold load
      rw [hcoffre, hsome]
      dsimp only
      rw [contenu_ne_nil hlisible, if_neg Bool.false_ne_true, lire_contenu hlisible]
    rw [hload]
    refine ⟨hfold.trans ?_, hcoffre⟩
    rw [hclear, List.nil_append, List.map_map]
    exact List.map_congr_left fun e he => Prod.ext (h.nommees e he) rfl

theorem sain_load (s' : Registre) (h : Sain jsonEncode s)
    (hlisible : Lisible jsonEncode jsonDecode s.known) (hcoffre : s'.coffre = s.coffre)
    (hknown : s'.known = s.known ∨ s'.known = .empty) : Sain jsonEncode (load jsonDecode s') := by
  obtain ⟨hentries, hsaved⟩ := entries_load s' h hlisible hcoffre hknown
  constructor
  · intro e he
    rw [hentries] at he
    obtain ⟨e', he', rfl⟩ := List.mem_map.mp he
    exact h.nommees e' he'
  · have hkeys : (load jsonDecode s').known.keys = s.known.keys := by
      unfold LinkedMap.keys
      rw [hentries, List.map_map]
      rfl
    rw [hkeys]
    exact h.distinctes
  · have hjson : registreJson (load jsonDecode s').known = registreJson s.known := by
      unfold registreJson
      rw [hentries, List.map_map]
      exact congrArg Json.arr (List.map_congr_left fun e _ => toJson_relu e.2)
    rw [hsaved, hentries, contenu, hjson]
    exact h.sauvee.imp (fun ⟨hnone, hempty⟩ => ⟨hnone, by rw [hempty]; rfl⟩) id

theorem sain_step (h : Sain jsonEncode s) (hlisible : Lisible jsonEncode jsonDecode s.known)
    (o : Operation) : Sain jsonEncode (step jsonEncode jsonDecode s o) := by
  cases o with
  | checkAndPin deviceId userId identityKey now =>
    change Sain jsonEncode (checkAndPin jsonEncode deviceId userId identityKey now s).2
    unfold checkAndPin
    split
    · exact sain_insert h rfl
    · split <;> exact h
  | acceptChange deviceId userId identityKey now =>
    exact sain_insert h rfl
  | markVerified deviceId verified =>
    change Sain jsonEncode (markVerified jsonEncode deviceId verified s)
    unfold markVerified
    split
    · exact h
    · rename_i existing hexisting
      have hname : existing.deviceId = deviceId :=
        h.nommees _ (LinkedMap.mem_entries_of_get? hexisting)
      exact sain_insert h hname
  | forget deviceId =>
    change Sain jsonEncode (forget jsonEncode deviceId s)
    unfold forget
    split
    · exact sain_erase h deviceId
    · exact h
  | save => exact ⟨h.nommees, h.distinctes, .inr rfl⟩
  | load => exact sain_load s h hlisible rfl (.inl rfl)
  | relaunch => exact sain_load ⟨.empty, s.coffre⟩ h hlisible rfl (.inr rfl)

/-! ## One record -/

def cle (d : Text) (s : Registre) : Option Bytes := (s.known.get? d).map (·.identityKey)

/-- The registry, and the changes that wait for the user. -/
structure Service where
  pinning : Registre
  identityAlerts : LinkedMap Text IdentityChangedException

namespace Service

section

variable (jsonEncode : Json → Text) (jsonDecode : Text → Option Json)

/-- The check before a session, which catches the exception. -/
def controler (deviceId userId : Text) (identityKey : Bytes) (now : DateTime) (v : Service) :
    Service :=
  match Registre.checkAndPin jsonEncode deviceId userId identityKey now v.pinning with
  | (.ok _, pinning) => { v with pinning := pinning }
  | (.error alert, pinning) => ⟨pinning, v.identityAlerts.insert deviceId alert⟩

def markVerified (deviceId : Text) (verified : Bool) (v : Service) : Service :=
  { v with pinning := Registre.markVerified jsonEncode deviceId verified v.pinning }

def acceptIdentityChange (deviceId : Text) (now : DateTime) (v : Service) : Service :=
  match v.identityAlerts.get? deviceId with
  | none => v
  | some alert =>
      ⟨acceptChange jsonEncode deviceId alert.userId alert.current now v.pinning,
        v.identityAlerts.erase deviceId⟩

inductive Appel where
  | controler (deviceId userId : Text) (identityKey : Bytes) (now : DateTime)
  | markVerified (deviceId : Text) (verified : Bool)
  | acceptIdentityChange (deviceId : Text) (now : DateTime)
  | relaunch

def appeler (v : Service) : Appel → Service
  | .controler deviceId userId identityKey now =>
      controler jsonEncode deviceId userId identityKey now v
  | .markVerified deviceId verified => markVerified jsonEncode deviceId verified v
  | .acceptIdentityChange deviceId now => acceptIdentityChange jsonEncode deviceId now v
  | .relaunch => ⟨load jsonDecode { v.pinning with known := .empty }, .empty⟩

end

/-- What a call does to the registry. -/
def operations (v : Service) : Appel → List Operation
  | .controler deviceId userId identityKey now => [.checkAndPin deviceId userId identityKey now]
  | .markVerified deviceId verified => [.markVerified deviceId verified]
  | .acceptIdentityChange deviceId now => (v.identityAlerts.get? deviceId).toList.map fun alert =>
      .acceptChange deviceId alert.userId alert.current now
  | .relaunch => [.relaunch]

theorem pinning_appeler (v : Service) (a : Appel) :
    (appeler jsonEncode jsonDecode v a).pinning =
      (v.operations a).foldl (step jsonEncode jsonDecode) v.pinning := by
  cases a with
  | controler deviceId userId identityKey now =>
    change (controler jsonEncode deviceId userId identityKey now v).pinning =
      (Registre.checkAndPin jsonEncode deviceId userId identityKey now v.pinning).2
    unfold controler
    split
    · rename_i hcheck
      rw [hcheck]
    · rename_i hcheck
      rw [hcheck]
  | markVerified deviceId verified => rfl
  | acceptIdentityChange deviceId now =>
    change (acceptIdentityChange jsonEncode deviceId now v).pinning =
      ((v.identityAlerts.get? deviceId).toList.map fun alert =>
        Operation.acceptChange deviceId alert.userId alert.current now).foldl
          (step jsonEncode jsonDecode) v.pinning
    unfold acceptIdentityChange
    cases v.identityAlerts.get? deviceId <;> rfl
  | relaunch => rfl

/-- The registry of a service has a history of its own. -/
theorem pinning_etat (appels : List Appel) :
    ∃ ops, (appels.foldl (appeler jsonEncode jsonDecode) ⟨start, .empty⟩).pinning =
      etat jsonEncode jsonDecode ops := by
  induction appels using List.reverseRecOn with
  | nil => exact ⟨[], rfl⟩
  | append_singleton appels a ih =>
    obtain ⟨ops, hops⟩ := ih
    rw [List.foldl_append, List.foldl_cons, List.foldl_nil, pinning_appeler, hops]
    exact ⟨ops ++ _, (List.foldl_append ..).symm⟩

/-- A change is accepted for the key that was refused, and nobody has verified that one. -/
theorem acceptIdentityChange_refused (v : Service) (deviceId : Text) (now : DateTime)
    {alert : IdentityChangedException} (h : v.identityAlerts.get? deviceId = some alert) :
    (acceptIdentityChange jsonEncode deviceId now v).pinning.known.get? deviceId =
      some ⟨deviceId, alert.userId, alert.current, false, now⟩ := by
  unfold acceptIdentityChange
  rw [h]
  exact LinkedMap.get?_insert_self _ _ _

end Service

/-! ## A device that is verified, and a launch after it -/

end Registre

end ZiaCrypte.Inbox
