import ZiaCrypte.Inbox.PollOnce

/-!
# A platform read from tables

What the codecs and the engine answer on the inputs a table lists; nothing else
decodes or opens. ASCII text is the same bytes in UTF-8.
-/
namespace ZiaCrypte.Inbox

open ZiaCrypte.Lib ZiaCrypte.Engine

def ascii (s : String) : Bytes := s.toList.map fun c => c.toNat.toUInt8

structure Script where
  json : List (Text × Json)
  base64 : List (Text × Bytes)
  opened : List (Bytes × Bytes)

def scripted (script : Script) : Platform Unit where
  jsonDecode raw := script.json.lookup raw
  utf8Decode bytes :=
    if bytes.all (· < 128) then some (bytes.map fun b => b.toUInt16) else none
  utf8DecodeMalformed bytes := bytes.map fun b => if b < 128 then b.toUInt16 else 0xFFFD
  base64Decode raw := script.base64.lookup raw
  sealedOpen envelope _ := (script.opened.lookup envelope, ())
  acceptSession _ _ := (none, ())
  importSession _ _ := (none, ())
  exportSession _ _ := (none, ())
  decrypt _ _ ciphertext _ := (script.opened.lookup ciphertext, ())
  senderKeyDecrypt _ _ ciphertext _ := (script.opened.lookup ciphertext, ())
  senderKeyProcess _ _ _ _ := ()
  diffuserLu _ _ _ := ([], ())

/-- A client that has just logged in. -/
def loggedIn (userId username : Text) : State Unit where
  userId := some userId
  username := some username
  conversations := .empty
  activeConversationId := none
  statuts := .empty
  avatars := .empty
  jetonsRemise := .empty
  known := .empty
  identityAlerts := .empty
  accusesLectureActifs := false
  error := false
  coffre := ⟨.empty, .empty, [], .empty, .empty, .empty, .empty⟩
  outside := ()

/-! ## Bob, who writes with the key of his device -/

def bonjourPayload : Bytes := ascii "\x7b\"t\":\"bonjour\"\x7d"

/-- A message of Bob's in our conversation. -/
def fromBob (ciphertext : Text) : Incoming where
  sealed := .bool false
  channelId := .null
  conversationId := .str (text "bob")
  senderDeviceId := .str (text "bob-1")
  senderUsername := .str (text "bob")
  senderUserId := .str (text "u-bob")
  header := .str (text "Ag==")
  ciphertext := .str ciphertext
  timestampMs := .num (some 0)

def talkOfBob : State Unit :=
  (loggedIn (text "me") (text "moi")).putConv (text "bob")
    { Conversation.new (text "bob") (text "bob") 0 with peerUserId := some (text "u-bob") }

end ZiaCrypte.Inbox
