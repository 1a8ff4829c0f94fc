import ZiaCrypte.Engine.Bytes
import Mathlib.Algebra.Group.Int.Defs

/-!
# The values `jsonDecode` gives and the casts the client makes

A cast that throws is `none`. A nullable cast gives a value that may be absent, and
throws on anything else.
-/
namespace ZiaCrypte.Inbox

open ZiaCrypte.Engine

/-- A Dart string, by its UTF-16 code units. -/
abbrev Text := List UInt16

def text (s : String) : Text := s.toList.map fun c => c.toNat.toUInt16

/-- A number is what its `toInt()` gives; an infinite one has none. A key of an object
stands there once. -/
inductive Json where
  | null
  | bool (b : Bool)
  | num (toInt : Option Int)
  | str (s : Text)
  | arr (elements : List Json)
  | obj (fields : List (Text × Json))

namespace Json

def asMap : Json → Option (List (Text × Json))
  | .obj fields => some fields
  | _ => none

def asList : Json → Option (List Json)
  | .arr elements => some elements
  | _ => none

def asList? : Json → Option (Option (List Json))
  | .null => some none
  | j => j.asList.map some

def asString : Json → Option Text
  | .str s => some s
  | _ => none

def asString? : Json → Option (Option Text)
  | .null => some none
  | j => j.asString.map some

def asBool : Json → Option Bool
  | .bool b => some b
  | _ => none

def asBool? : Json → Option (Option Bool)
  | .null => some none
  | j => j.asBool.map some

/-- `(j as num).toInt()` -/
def asInt : Json → Option Int
  | .num n => n
  | _ => none

/-- `(j as num?)?.toInt()` -/
def asInt? : Json → Option (Option Int)
  | .null => some none
  | j => j.asInt.map some

/-- `j == true` -/
def isTrue : Json → Bool
  | .bool b => b
  | _ => false

def isNull : Json → Bool
  | .null => true
  | _ => false

end Json

/-- `json[key]`, which is null where the key is missing. -/
def field (fields : List (Text × Json)) (key : String) : Json :=
  ((fields.find? (·.1 == text key)).map (·.2)).getD .null

def containsKey (fields : List (Text × Json)) (key : String) : Bool :=
  fields.any (·.1 == text key)

/-- A decoder that answers on each element. -/
theorem mapM_map_some {α β γ : Type} {f : β → Option γ} {g : α → β} {h : α → γ} {l : List α}
    (hf : ∀ a ∈ l, f (g a) = some (h a)) : (l.map g).mapM f = some (l.map h) := by
  induction l with
  | nil => rfl
  | cons a l ih =>
    rw [List.map_cons, List.mapM_cons, hf a List.mem_cons_self,
      ih fun b hb => hf b (List.mem_cons_of_mem _ hb)]
    rfl

/-! ## Text and time -/

/-- The code units `trim` takes off. -/
def isWhite (c : UInt16) : Bool :=
  (9 ≤ c && c ≤ 13) || c == 32 || c == 0x85 || c == 0xA0 || c == 0x1680 ||
    (0x2000 ≤ c && c ≤ 0x200A) || c == 0x2028 || c == 0x2029 || c == 0x202F || c == 0x205F ||
    c == 0x3000 || c == 0xFEFF

def trim (t : Text) : Text := ((t.dropWhile isWhite).reverse.dropWhile isWhite).reverse

/-- `t.startsWith(prefixe)` -/
def startsWith (t prefixe : Text) : Bool := prefixe.isPrefixOf t

/-- The 64 bits of a Dart integer. -/
def wrap64 (n : Int) : Int := (n + 2 ^ 63) % 2 ^ 64 - 2 ^ 63

/-- A `DateTime` is the microseconds since the epoch, and has a range. -/
def maxMicroseconds : Int := 8640000000000000000

def dateTime (microseconds : Int) : Option Int :=
  if microseconds.natAbs ≤ maxMicroseconds.natAbs then some microseconds else none

/-- `DateTime.fromMillisecondsSinceEpoch` -/
def fromMilliseconds (ms : Int) : Option Int := dateTime (ms * 1000)

def millisecondsSinceEpoch (at' : Int) : Int := at' / 1000

end ZiaCrypte.Inbox
