import ZiaCrypte.Inbox.Openings

/-!
# The name of a peer

A message of a conversation that is not known yet names it after its sender. Opening
a message does not read that name.
-/
namespace ZiaCrypte.Inbox

open ZiaCrypte.Lib ZiaCrypte.Engine ZiaCrypte.Chat

variable {E : Type} (P : Platform E) (conv name : Text) (s : State E)

def Conversation.nomme (name : Text) (c : Conversation) : Conversation :=
  { c with peerUsername := name }

def nommes (conv name : Text) (cs : LinkedMap Text Conversation) : LinkedMap Text Conversation :=
  match cs.get? conv with
  | none => cs
  | some c => cs.insert conv (c.nomme name)

/-- The same client, with another name for the peer of a conversation. -/
def State.nomme (s : State E) (conv name : Text) : State E :=
  { s with conversations := nommes conv name s.conversations }

theorem nommes_insert (cs : LinkedMap Text Conversation) (c : Conversation) :
    nommes conv name (cs.insert conv c) = cs.insert conv (c.nomme name) := by
  rw [nommes, LinkedMap.get?_insert_self]
  exact LinkedMap.insert_insert cs conv c _

theorem insert_nommes (cs : LinkedMap Text Conversation) (c : Conversation) :
    (nommes conv name cs).insert conv c = cs.insert conv c := by
  unfold nommes
  split
  · rfl
  · exact LinkedMap.insert_insert cs conv _ c

theorem get?_nommes (cs : LinkedMap Text Conversation) :
    (nommes conv name cs).get? conv = (cs.get? conv).map (Conversation.nomme name) := by
  unfold nommes
  cases hc : cs.get? conv with
  | none => exact hc
  | some c => rw [LinkedMap.get?_insert_self, Option.map_some]

theorem conv?_nomme :
    (s.nomme conv name).conv? conv = (s.conv? conv).map (Conversation.nomme name) :=
  get?_nommes conv name s.conversations

theorem nomme_putConv (c : Conversation) :
    (s.putConv conv c).nomme conv name = s.putConv conv (c.nomme name) := by
  rw [State.nomme, State.putConv, nommes_insert]
  rfl

theorem putConv_nomme (c : Conversation) :
    (s.nomme conv name).putConv conv c = s.putConv conv c := by
  rw [State.nomme, State.putConv, insert_nommes]
  rfl

theorem putConv_nomme_outside (e : E) (c : Conversation) :
    { s.nomme conv name with outside := e }.putConv conv c =
      { s with outside := e }.putConv conv c :=
  putConv_nomme conv name { s with outside := e } c

/-! ## Opening -/

def Opening.map (f : State E → State E) : Opening E → Opening E
  | .skipped s => .skipped (f s)
  | .thrown s => .thrown (f s)
  | .clair s sender plain => .clair (f s) sender plain

theorem restoreEach_nomme (devices : List Text) :
    restoreEach P conv devices (s.nomme conv name) =
      (restoreEach P conv devices s).nomme conv name := by
  induction devices generalizing s with
  | nil => rfl
  | cons device devices ih =>
    rw [restoreEach, restoreEach, ← ih, conv?_nomme]
    congr 1
    cases hc : s.conv? conv with
    | none => rfl
    | some c =>
      have hblob : (s.nomme conv name).coffre.sess.get? (conv, device) =
          s.coffre.sess.get? (conv, device) := rfl
      rw [Option.map_some, hblob]
      dsimp only [Conversation.nomme]
      split
      · rfl
      · split
        · rfl
        · split
          · rfl
          · have houtside : (s.nomme conv name).outside = s.outside := rfl
            rw [houtside]
            split
            · rfl
            · rw [nomme_putConv]
              exact putConv_nomme_outside conv name s _ _

theorem restoreSessions_nomme :
    restoreSessions P conv (s.nomme conv name) = (restoreSessions P conv s).nomme conv name := by
  rw [restoreSessions, restoreSessions, conv?_nomme, Option.map_map]
  exact restoreEach_nomme P conv name s _

variable (sender : Text) (m : Incoming)

theorem openGroup_nomme :
    openGroup P conv sender m (s.nomme conv name) =
      (openGroup P conv sender m s).map (State.nomme · conv name) := by
  unfold openGroup
  split
  · rfl
  · have houtside : (s.nomme conv name).outside = s.outside := rfl
    rw [houtside]
    dsimp only
    split <;> rfl

theorem openWithSession_nomme (header : Bytes) :
    openWithSession P conv sender header m (s.nomme conv name) =
      (openWithSession P conv sender header m s).map (State.nomme · conv name) := by
  unfold openWithSession
  have hsession : ((s.nomme conv name).conv? conv).bind (·.sessions.get? sender) =
      (s.conv? conv).bind (·.sessions.get? sender) := by
    rw [conv?_nomme]
    cases s.conv? conv <;> rfl
  rw [hsession]
  split
  · rfl
  · split
    · rfl
    · have houtside : (s.nomme conv name).outside = s.outside := rfl
      rw [houtside]
      dsimp only
      split <;> rfl

theorem checkAndPin_nomme (senderUserId : Json) (identityKey : PublicKey) :
    checkAndPin sender senderUserId identityKey (s.nomme conv name) =
      match checkAndPin sender senderUserId identityKey s with
      | .accepted s => .accepted (s.nomme conv name)
      | .changed s => .changed (s.nomme conv name)
      | .thrown => .thrown := by
  unfold checkAndPin
  split
  · rfl
  · rfl
  · have hknown : (s.nomme conv name).known = s.known := rfl
    rw [hknown]
    split
    · rfl
    · split <;> rfl

theorem openPairwise_nomme (unpacked : Envelope.Unpacked) :
    openPairwise P conv sender unpacked m (s.nomme conv name) =
      (openPairwise P conv sender unpacked m s).map (State.nomme · conv name) := by
  unfold openPairwise
  rw [conv?_nomme]
  cases unpacked.handshake with
  | none => exact openWithSession_nomme P conv name s sender m _
  | some handshake =>
    cases s.conv? conv with
    | none => exact openWithSession_nomme P conv name s sender m _
    | some c =>
      simp only [Option.map_some, Conversation.nomme]
      cases c.sessions.containsKey sender with
      | true => exact openWithSession_nomme P conv name s sender m _
      | false =>
        rw [if_neg Bool.false_ne_true, if_neg Bool.false_ne_true, checkAndPin_nomme]
        cases checkAndPin sender m.senderUserId handshake.initiatorIdentityKey s with
        | thrown => rfl
        | changed s' => rfl
        | accepted s' =>
          have houtside : (s'.nomme conv name).outside = s'.outside := rfl
          dsimp only
          rw [houtside]
          split
          · rfl
          · rw [← openWithSession_nomme, nomme_putConv]
            congr 1
            exact putConv_nomme_outside conv name s' _ _

theorem openMessage_nomme :
    openMessage P conv m (s.nomme conv name) =
      (openMessage P conv m s).map (State.nomme · conv name) := by
  unfold openMessage
  split
  · rfl
  · split
    · rfl
    · split
      · exact openGroup_nomme P conv name s _ m
      · split
        · rfl
        · exact openPairwise_nomme P conv name s _ m _

end ZiaCrypte.Inbox
