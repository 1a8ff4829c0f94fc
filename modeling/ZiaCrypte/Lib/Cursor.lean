import Mathlib.Data.List.Basic
import Mathlib.Data.List.Infix

/-!
# Bounds-checked readers over a buffer

A reader takes a buffer and an offset to a value and the offset after it, or
fails. It carries the fact that what it read does not depend on what follows.
`Reads` relates a reader to the bytes that encode a value, and composes along
`bind`. A format whose reader insists on the end of the buffer then accepts no
strict prefix and no strict extension of an encoding.
-/
namespace ZiaCrypte.Lib

structure Cursor (B α : Type) where
  read : List B → Nat → Option (α × Nat)
  stable : ∀ {data : List B} {off off' : Nat} {x : α} (ext : List B),
    read data off = some (x, off') → read (data ++ ext) off = some (x, off')

namespace Cursor

variable {B α β : Type}

instance : Monad (Cursor B) where
  pure x :=
    { read := fun _ off => some (x, off)
      stable := by
        intro data off off' y ext h
        exact h }
  bind c f :=
    { read := fun data off => (c.read data off).bind fun r => (f r.1).read data r.2
      stable := by
        intro data off off' y ext h
        obtain ⟨⟨x, mid⟩, hc, hf⟩ := Option.bind_eq_some_iff.mp h
        exact Option.bind_eq_some_iff.mpr ⟨(x, mid), c.stable ext hc, (f x).stable ext hf⟩ }

/-- `n` elements, checked to be there before `f` looks at them. -/
def field (n : Nat) (f : List B → α) : Cursor B α where
  read data off :=
    if off + n ≤ data.length then some (f ((data.drop off).take n), off + n) else none
  stable := by
    intro data off off' x ext h
    split at h
    · rename_i hfit
      cases h
      have hslice : ((data ++ ext).drop off).take n = (data.drop off).take n := by
        rw [List.drop_append_of_le_length (by omega), List.take_append_of_le_length]
        rw [List.length_drop]
        omega
      rw [if_pos (by rw [List.length_append]; omega), hslice]
    · cases h

/-- Reads nothing, and fails unless `p` holds. -/
def check (p : Bool) : Cursor B Unit where
  read _ off := if p then some ((), off) else none
  stable := by
    intro data off off' x ext h
    exact h

/-- The same reader `count` times. -/
def repeated (c : Cursor B α) : Nat → Cursor B (List α)
  | 0 => pure []
  | count + 1 => do
      let x ← c
      let xs ← repeated c count
      pure (x :: xs)

/-- `c` reads `x` off the bytes `enc`, wherever they stand. -/
def Reads (c : Cursor B α) (enc : List B) (x : α) : Prop :=
  ∀ before after, c.read (before ++ (enc ++ after)) before.length =
    some (x, before.length + enc.length)

theorem reads_pure (x : α) : Reads (pure x : Cursor B α) [] x := by
  intro before after
  rfl

theorem Reads.bind {c : Cursor B α} {f : α → Cursor B β} {enc enc' : List B} {x : α} {y : β}
    (hc : Reads c enc x) (hf : Reads (f x) enc' y) : Reads (c >>= f) (enc ++ enc') y := by
  intro before after
  have hfirst := hc before (enc' ++ after)
  have hsecond := hf (before ++ enc) after
  rw [List.append_assoc, List.length_append] at hsecond
  show (c.read _ _).bind _ = _
  rw [List.append_assoc enc, hfirst]
  simp only [Option.bind_some]
  rw [hsecond, List.length_append, Nat.add_assoc]

theorem reads_field {n : Nat} (f : List B → α) (enc : List B) (h : enc.length = n) :
    Reads (field n f) enc (f enc) := by
  intro before after
  subst h
  have hslice : ((before ++ (enc ++ after)).drop before.length).take enc.length = enc := by
    simp
  show (if _ then _ else _) = _
  rw [if_pos (by simp), hslice]

theorem Reads.repeated {c : Cursor B α} {enc : α → List B} (hc : ∀ x, Reads c (enc x) x)
    (xs : List α) : Reads (repeated c xs.length) (xs.flatMap enc) xs := by
  induction xs with
  | nil => exact reads_pure []
  | cons x xs ih =>
    have htail := ih.bind (f := fun ys => (pure (x :: ys) : Cursor B (List α)))
      (reads_pure (x :: xs))
    rw [List.append_nil] at htail
    rw [List.flatMap_cons]
    exact (hc x).bind (f := fun y => do
      let ys ← Cursor.repeated c xs.length
      pure (y :: ys)) htail

/-- A reader run on a whole buffer, which it must use up exactly. -/
def parse (c : Cursor B α) (data : List B) : Option α :=
  match c.read data 0 with
  | none => none
  | some (x, off) => if off = data.length then some x else none

theorem parse_eq_some {c : Cursor B α} {data : List B} {x : α} :
    c.parse data = some x ↔ c.read data 0 = some (x, data.length) := by
  unfold parse
  cases h : c.read data 0 with
  | none => simp
  | some r =>
    obtain ⟨y, off⟩ := r
    simp only [Option.some.injEq, Prod.mk.injEq]
    by_cases hoff : off = data.length <;> simp [hoff]

theorem Reads.read_zero {c : Cursor B α} {enc : List B} {x : α} (h : Reads c enc x)
    (after : List B) : c.read (enc ++ after) 0 = some (x, enc.length) := by
  have hread := h [] after
  rwa [List.nil_append, List.length_nil, Nat.zero_add] at hread

theorem Reads.parse_eq {c : Cursor B α} {enc : List B} {x : α} (h : Reads c enc x) :
    c.parse enc = some x := by
  have hread := h.read_zero []
  rw [List.append_nil] at hread
  exact parse_eq_some.mpr hread

theorem reads_check {p : Bool} (h : p = true) : Reads (check p : Cursor B Unit) [] () := by
  intro before after
  subst h
  rfl

/-- What goes on after a buffer that is accepted is not. -/
theorem parse_append {c : Cursor B α} {data ext : List B} {x : α} (h : c.parse data = some x)
    (hext : ext ≠ []) : c.parse (data ++ ext) = none := by
  rw [parse, c.stable ext (parse_eq_some.mp h)]
  have hlen := List.length_pos_iff.mpr hext
  simp only [List.length_append]
  rw [if_neg (by omega)]

/-- What stops inside a buffer that is accepted is not. -/
theorem parse_take {c : Cursor B α} {cut rest : List B} {x : α}
    (h : c.parse (cut ++ rest) = some x) (hrest : rest ≠ []) : c.parse cut = none := by
  by_contra hno
  obtain ⟨y, hy⟩ := Option.ne_none_iff_exists'.mp hno
  rw [parse_append hy hrest] at h
  cases h

/-- Nothing that starts as an encoding and goes on is accepted. -/
theorem Reads.parse_extension {c : Cursor B α} {enc ext : List B} {x : α} (h : Reads c enc x)
    (hext : ext ≠ []) : c.parse (enc ++ ext) = none :=
  parse_append h.parse_eq hext

/-- Nothing that stops inside an encoding is accepted. -/
theorem Reads.parse_prefix {c : Cursor B α} {cut rest : List B} {x : α}
    (h : Reads c (cut ++ rest) x) (hrest : rest ≠ []) : c.parse cut = none :=
  parse_take h.parse_eq hrest

end Cursor

end ZiaCrypte.Lib
