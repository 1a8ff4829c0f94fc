import ZiaCrypte.Chat.Effects
import ZiaCrypte.Engine.Instances

/-!
# Runs that can be computed

A property of the events of a run that a `Bool` decides is checked by replaying
the run. `samplePlatform` is a platform on which runs evaluate.
-/
namespace ZiaCrypte.Chat

open ZiaCrypte.Engine ZiaCrypte.Lib

variable {K : Type} {P : Platform K} {user : UserId} {device : DeviceId} {engine : ZiaEngine K}

/-- A property of every event of a run. -/
def Throughout (P : Platform K) (user : UserId) (device : DeviceId) (engine : ZiaEngine K)
    (Q : ChatEvent K → Client K → Prop) (p : ChatPool K) : Prop :=
  Always (chatSemantics P).step Q p.trace (.initial user device engine)

/-- The run of a schedule, and whether `bad` happens in it. -/
def chatScan (P : Platform K) (user : UserId) (device : DeviceId) (engine : ZiaEngine K)
    (bad : ChatEvent K → Client K → Bool) (choices : List (ChatChoice K)) : Option Bool :=
  (chatRun P user device engine choices).map fun p =>
    (chatSemantics P).scan bad p.trace (.initial user device engine)

theorem chatScan_eq_some {bad : ChatEvent K → Client K → Bool} {choices : List (ChatChoice K)}
    {b : Bool} (h : chatScan P user device engine bad choices = some b) :
    ∃ p, chatRun P user device engine choices = some p ∧
      (chatSemantics P).scan bad p.trace (.initial user device engine) = b :=
  Option.map_eq_some_iff.mp h

/-- A run in which `bad` happens does not have the property. -/
theorem not_throughout_of_scan (bad : ChatEvent K → Client K → Bool)
    {Q : ChatEvent K → Client K → Prop} (hbad : ∀ e s, Q e s → bad e s = false)
    {choices : List (ChatChoice K)}
    (h : chatScan P user device engine bad choices = some true) :
    ∃ p, chatRun P user device engine choices = some p ∧
      ¬ Throughout P user device engine Q p := by
  obtain ⟨p, hp, hscan⟩ := chatScan_eq_some h
  refine ⟨p, hp, fun hall => ?_⟩
  rw [(chatSemantics P).scan_of_always hbad hall] at hscan
  cases hscan

theorem throughout_of_scan (bad : ChatEvent K → Client K → Bool)
    {Q : ChatEvent K → Client K → Prop} (hgood : ∀ e s, bad e s = false → Q e s)
    {choices : List (ChatChoice K)}
    (h : chatScan P user device engine bad choices = some false) :
    ∃ p, chatRun P user device engine choices = some p ∧ Throughout P user device engine Q p := by
  obtain ⟨p, hp, hscan⟩ := chatScan_eq_some h
  exact ⟨p, hp, (chatSemantics P).always_of_scan hgood hscan⟩

/-! ## A platform on which runs evaluate -/

/-- One byte for the kind of payload, then its text. -/
def sampleEncode : Payload → Bytes
  | .message text => 0 :: text
  | .annonce name => 1 :: name
  | .controle text => 2 :: text
  | .cleGroupe key => [3, .ofNat key]
  | .jeton device jeton => [4, .ofNat device, .ofNat jeton]
  | .sync conv _ _ _ => [5, .ofNat conv]

def sampleDecode : Bytes → Payload
  | 1 :: name => .annonce name
  | 2 :: text => .controle text
  | [3, key] => .cleGroupe key.toNat
  | _ :: text => .message text
  | [] => .message []

/-- Every signature is good, and keys of both kinds are the same bytes. -/
def samplePlatform : Platform Key where
  toPrimitives := sample
  zero := keyZero
  ed25519Verify _ _ _ := true
  ed25519ToX25519Public := some
  ed25519ToX25519Private := some
  mlkem768Encapsulate _ _ := none
  mlkem768Decapsulate _ _ := none
  encodePayload := sampleEncode
  decodePayload := sampleDecode

/-- A device whose keys are all `b`. -/
def sampleEngine (b : UInt8) : ZiaEngine Key where
  identityPublic := sampleKey b
  identityPrivate := sampleKey b
  signedPrekey := some ⟨sampleKey b, sampleKey b, []⟩
  pqPrekey := none
  oneTimePrekeys := []
  requirePq := false

/-- The bundle of that device. -/
def sampleBundle (device : DeviceId) (b : UInt8) : BundleJson where
  deviceId := device
  identityKey := sampleKey b
  signedPrekey := sampleKey b
  signedPrekeySignature := []
  oneTimePrekey := none

/-- The handshake of that device. -/
def sampleHandshake (b : UInt8) : ZiaHandshakeMaterial where
  initiatorIdentityKey := sampleKey b
  initiatorEphemeralKey := sampleKey b
  usedOneTimePrekey := none
  pqCiphertext := none

/-- The thread is answered and goes on, once for each answer. -/
def answered (thread : Nat) (answers : List (Outside K)) : List (ChatChoice K) :=
  answers.flatMap fun x => [.settle thread x, .resume thread]

/-- What a handshake of the sample platform draws. -/
def sampleOpening (b : UInt8) : Outside Key := .opening ⟨sampleKey b, sampleKey b, sampleEnv b⟩

/-- A session is adopted. -/
def sampleLaunch : List (ChatChoice Key) :=
  .start .adoptSession :: answered 0 (List.replicate 6 .done)

/-- A chat with user 2 is started; the session with its device 9 is saved. -/
def sampleChat : List (ChatChoice Key) :=
  sampleLaunch ++ .start (.startChatWith none) :: answered 1
    (.number 2 :: .number 5 :: List.replicate 3 .done ++
      .bundles [sampleBundle 9 2] :: List.replicate 3 .done ++
      sampleOpening 6 :: .done :: .bundles [] :: List.replicate 6 .done)

/-- The process dies, and conversation 5 is opened in the next launch. -/
def sampleRestart : List (ChatChoice Key) :=
  .crash :: .start .adoptSession :: answered 0 (List.replicate 8 .done) ++
    .start (.openConversation 5) :: answered 1 (List.replicate 4 .done)

example : (chatRun samplePlatform 1 1 (sampleEngine 1) sampleLaunch).map (·.state.phase) =
    some .connected := by decide +kernel

end ZiaCrypte.Chat
