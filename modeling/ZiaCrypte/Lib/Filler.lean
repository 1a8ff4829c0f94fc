import ZiaCrypte.Lib.Cursor

/-!
# Readers that fill a target as they go

A reader may write each field into its target as soon as it has read it. It then
leaves a half-filled target behind when it fails. A filler keeps both: what a
complete read does to the target, and what a failed one leaves.
-/
namespace ZiaCrypte.Lib

structure Filler (B T α : Type) where
  /-- The value read, and what reading it does to the target. -/
  cursor : Cursor B (α × (T → T))
  /-- The target after a read that failed. -/
  left : List B → Nat → T → T

namespace Filler

variable {B T α β : Type}

instance : Monad (Filler B T) where
  pure x :=
    { cursor := pure (x, id)
      left := fun _ _ t => t }
  bind m f :=
    { cursor := do
        let r ← m.cursor
        let q ← (f r.1).cursor
        pure (q.1, q.2 ∘ r.2)
      left := fun data off t =>
        match m.cursor.read data off with
        | none => m.left data off t
        | some (r, off') => (f r.1).left data off' (r.2 t) }

/-- Reads a value and leaves the target alone. -/
def read (c : Cursor B α) : Filler B T α where
  cursor := do
    let x ← c
    pure (x, id)
  left _ _ t := t

/-- Writes to the target without reading. -/
def write (f : T → T) : Filler B T Unit where
  cursor := pure ((), f)
  left _ _ t := t

def check (p : Bool) : Filler B T Unit := read (Cursor.check p)

def repeated (m : Filler B T Unit) : Nat → Filler B T Unit
  | 0 => pure ()
  | count + 1 => do
      m
      repeated m count

/-- A filler run on a whole buffer: whether it accepts, and the target after it. -/
def parse (m : Filler B T Unit) (data : List B) (t : T) : Bool × T :=
  match m.cursor.read data 0 with
  | none => (false, m.left data 0 t)
  | some (r, off) => (decide (off = data.length), r.2 t)

/-- `m` reads `x` off the bytes `enc` and does `f` to the target. -/
def Reads (m : Filler B T α) (enc : List B) (x : α) (f : T → T) : Prop :=
  m.cursor.Reads enc (x, f)

theorem reads_pure (x : α) : Reads (pure x : Filler B T α) [] x id := Cursor.reads_pure _

theorem reads_read {c : Cursor B α} {enc : List B} {x : α} (h : c.Reads enc x) :
    Reads (read c : Filler B T α) enc x id := by
  have hread := h.bind (f := fun y => (pure (y, id) : Cursor B (α × (T → T))))
    (Cursor.reads_pure (x, id))
  rwa [List.append_nil] at hread

theorem reads_write (f : T → T) : Reads (write f : Filler B T Unit) [] () f :=
  Cursor.reads_pure _

theorem reads_check {p : Bool} (h : p = true) : Reads (check p : Filler B T Unit) [] () id :=
  reads_read (Cursor.reads_check h)

/-- Two steps, and what they do together. -/
theorem Reads.bind {m : Filler B T α} {k : α → Filler B T β} {enc enc' : List B} {x : α} {y : β}
    {f g h : T → T} (hm : Reads m enc x f) (hk : Reads (k x) enc' y g) (hfg : ∀ t, g (f t) = h t) :
    Reads (m >>= k) (enc ++ enc') y h := by
  obtain rfl : g ∘ f = h := funext hfg
  have htail := Cursor.Reads.bind (f := fun q : β × (T → T) => pure (q.1, q.2 ∘ f)) hk
    (Cursor.reads_pure (y, g ∘ f))
  rw [List.append_nil] at htail
  exact Cursor.Reads.bind (f := fun r : α × (T → T) => do
    let q ← (k r.1).cursor
    pure (q.1, q.2 ∘ r.2)) hm htail

/-- A step that reads nothing, in front of what reads `enc`. -/
theorem Reads.bind_nil {m : Filler B T α} {k : α → Filler B T β} {enc : List B} {x : α} {y : β}
    {f g h : T → T} (hm : Reads m [] x f) (hk : Reads (k x) enc y g)
    (hfg : ∀ t, g (f t) = h t) : Reads (m >>= k) enc y h :=
  hm.bind hk hfg

/-- A list of elements, each of which does `put x` to the target. -/
theorem Reads.repeated {m : Filler B T Unit} {enc : β → List B} {put : β → T → T}
    (hm : ∀ x, Reads m (enc x) () (put x)) (xs : List β) :
    Reads (repeated m xs.length) (xs.flatMap enc) () (fun t => xs.foldl (fun t x => put x t) t) := by
  induction xs with
  | nil => exact reads_pure ()
  | cons x xs ih =>
    rw [List.flatMap_cons]
    exact (hm x).bind ih fun _ => rfl

theorem Reads.parse_eq {m : Filler B T Unit} {enc : List B} {f : T → T} (h : Reads m enc () f)
    (t : T) : m.parse enc t = (true, f t) := by
  have hread := h.read_zero []
  rw [List.append_nil] at hread
  simp [parse, hread]

/-- An encoding with more behind it is refused once it has filled the target. -/
theorem Reads.parse_append {m : Filler B T Unit} {enc ext : List B} {f : T → T}
    (h : Reads m enc () f) (hext : ext ≠ []) (t : T) : m.parse (enc ++ ext) t = (false, f t) := by
  have hlen := List.length_pos_iff.mpr hext
  have hread := h.read_zero ext
  simp only [parse, hread, List.length_append, Prod.mk.injEq, decide_eq_false_iff_not, and_true]
  omega

/-- A second step that fails where the first one stopped. -/
theorem bind_read_none {m : Filler B T α} {k : α → Filler B T β} {data : List B} {off mid : Nat}
    {x : α} {f : T → T} (hm : m.cursor.read data off = some ((x, f), mid))
    (hk : (k x).cursor.read data mid = none) : (m >>= k).cursor.read data off = none := by
  show (m.cursor.read data off).bind _ = none
  rw [hm]
  show ((k x).cursor.read data mid).bind _ = none
  rw [hk]
  rfl

/-- Acceptance is the cursor's, whatever the target. -/
theorem parse_accepts_iff {m : Filler B T Unit} {data : List B} {t : T} :
    (m.parse data t).1 = true ↔ ∃ f, m.cursor.parse data = some ((), f) := by
  unfold parse Cursor.parse
  cases h : m.cursor.read data 0 with
  | none => simp
  | some r =>
    obtain ⟨⟨_, f⟩, off⟩ := r
    by_cases hoff : off = data.length <;> simp [hoff]

theorem parse_accepted {m : Filler B T Unit} {data : List B} {t : T} {f : T → T}
    (h : m.cursor.parse data = some ((), f)) : m.parse data t = (true, f t) := by
  simp [parse, Cursor.parse_eq_some.mp h]

theorem parse_none {m : Filler B T Unit} {data : List B} (h : m.cursor.read data 0 = none)
    (t : T) : (m.parse data t).1 = false := by
  rw [parse, h]

theorem parse_append {m : Filler B T Unit} {data ext : List B} {t : T}
    (h : (m.parse data t).1 = true) (hext : ext ≠ []) (t' : T) :
    (m.parse (data ++ ext) t').1 = false := by
  obtain ⟨f, hf⟩ := parse_accepts_iff.mp h
  rw [Bool.eq_false_iff]
  intro hacc
  obtain ⟨g, hg⟩ := parse_accepts_iff.mp hacc
  rw [Cursor.parse_append hf hext] at hg
  cases hg

theorem parse_take {m : Filler B T Unit} {cut rest : List B} {t : T}
    (h : (m.parse (cut ++ rest) t).1 = true) (hrest : rest ≠ []) (t' : T) :
    (m.parse cut t').1 = false := by
  obtain ⟨f, hf⟩ := parse_accepts_iff.mp h
  rw [Bool.eq_false_iff]
  intro hacc
  obtain ⟨g, hg⟩ := parse_accepts_iff.mp hacc
  rw [Cursor.parse_take hf hrest] at hg
  cases hg

/-! ## What a successful read ensures -/

/-- From a target with `P`, a read that succeeds leaves one with `Q`. -/
def Triple (P : T → Prop) (m : Filler B T α) (Q : α → T → Prop) : Prop :=
  ∀ data off x f off', m.cursor.read data off = some ((x, f), off') → ∀ t, P t → Q x (f t)

theorem Triple.weaken {P : T → Prop} {Q Q' : α → T → Prop} {m : Filler B T α} (h : Triple P m Q)
    (hQ : ∀ x t, Q x t → Q' x t) : Triple P m Q' := by
  intro data off x f off' hread t ht
  exact hQ x _ (h data off x f off' hread t ht)

theorem triple_pure {P : T → Prop} (x : α) : Triple P (pure x : Filler B T α) fun _ => P := by
  intro data off y f off' hread t ht
  obtain ⟨hpair, rfl⟩ := Prod.mk.inj (Option.some.inj hread)
  obtain ⟨rfl, rfl⟩ := Prod.mk.inj hpair
  exact ht

theorem triple_read {P : T → Prop} (c : Cursor B α) : Triple P (read c) fun _ => P := by
  intro data off y f off' hread t ht
  obtain ⟨⟨x, mid⟩, _, hret⟩ := Option.bind_eq_some_iff.mp hread
  obtain ⟨hpair, rfl⟩ := Prod.mk.inj (Option.some.inj hret)
  obtain ⟨rfl, rfl⟩ := Prod.mk.inj hpair
  exact ht

theorem triple_write {P : T → Prop} {Q : Unit → T → Prop} {g : T → T}
    (h : ∀ t, P t → Q () (g t)) : Triple P (write g : Filler B T Unit) Q := by
  intro data off y f off' hread t ht
  obtain ⟨hpair, rfl⟩ := Prod.mk.inj (Option.some.inj hread)
  obtain ⟨rfl, rfl⟩ := Prod.mk.inj hpair
  exact h t ht

theorem bind_read_some {m : Filler B T α} {k : α → Filler B T β} {data : List B} {off off' : Nat}
    {y : β} {h : T → T} (hread : (m >>= k).cursor.read data off = some ((y, h), off')) :
    ∃ x f g mid, m.cursor.read data off = some ((x, f), mid) ∧
      (k x).cursor.read data mid = some ((y, g), off') ∧ h = g ∘ f := by
  obtain ⟨⟨⟨x, f⟩, mid⟩, hm, hrest⟩ := Option.bind_eq_some_iff.mp hread
  obtain ⟨⟨⟨y', g⟩, off₂⟩, hk, hret⟩ := Option.bind_eq_some_iff.mp hrest
  obtain ⟨hpair, rfl⟩ := Prod.mk.inj (Option.some.inj hret)
  obtain ⟨rfl, rfl⟩ := Prod.mk.inj hpair
  exact ⟨x, f, g, mid, hm, hk, rfl⟩

theorem read_some {c : Cursor B α} {data : List B} {off off' : Nat} {x : α} {f : T → T}
    (h : (read c : Filler B T α).cursor.read data off = some ((x, f), off')) :
    c.read data off = some (x, off') ∧ f = id := by
  obtain ⟨⟨y, mid⟩, hc, hret⟩ := Option.bind_eq_some_iff.mp h
  obtain ⟨hpair, rfl⟩ := Prod.mk.inj (Option.some.inj hret)
  obtain ⟨rfl, rfl⟩ := Prod.mk.inj hpair
  exact ⟨hc, rfl⟩

theorem check_some {p : Bool} {data : List B} {off off' : Nat} {x : Unit} {f : T → T}
    (h : (check p : Filler B T Unit).cursor.read data off = some ((x, f), off')) :
    p = true ∧ off' = off := by
  obtain ⟨hread, _⟩ := read_some h
  unfold Cursor.check at hread
  dsimp only at hread
  split at hread
  · rename_i hp
    exact ⟨hp, (Prod.mk.inj (Option.some.inj hread)).2.symm⟩
  · cases hread

theorem Triple.bind {P : T → Prop} {R : α → T → Prop} {Q : β → T → Prop} {m : Filler B T α}
    {k : α → Filler B T β} (hm : Triple P m R) (hk : ∀ x, Triple (R x) (k x) Q) :
    Triple P (m >>= k) Q := by
  intro data off y h off' hread t ht
  obtain ⟨x, f, g, mid, hfirst, hsecond, rfl⟩ := bind_read_some hread
  exact hk x _ _ _ _ _ hsecond _ (hm _ _ _ _ _ hfirst t ht)

/-- `count` rounds, each of which takes the invariant one step further. -/
theorem Triple.repeated {I : Nat → T → Prop} {m : Filler B T Unit}
    (hm : ∀ n, Triple (I n) m fun _ => I (n + 1)) (count n : Nat) :
    Triple (I n) (repeated m count) fun _ => I (n + count) := by
  induction count generalizing n with
  | zero => exact triple_pure ()
  | succ count ih =>
    have hrest := ih (n + 1)
    rw [Nat.add_assoc, Nat.add_comm 1] at hrest
    exact (hm n).bind fun _ => hrest

theorem Triple.parse {P Q : T → Prop} {m : Filler B T Unit} (h : Triple P m fun _ => Q)
    {data : List B} {t : T} (hacc : (m.parse data t).1 = true) (ht : P t) :
    Q (m.parse data t).2 := by
  obtain ⟨f, hf⟩ := parse_accepts_iff.mp hacc
  rw [parse_accepted hf]
  exact h _ _ _ _ _ (Cursor.parse_eq_some.mp hf) t ht

end Filler

end ZiaCrypte.Lib
