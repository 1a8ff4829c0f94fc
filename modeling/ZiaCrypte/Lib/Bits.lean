import Mathlib.Data.List.Basic
import Mathlib.Tactic.Ring

/-!
# Bits in groups

Numbers as bits, the highest first, and lists cut into groups of one width, the last of which
may be shorter.
-/
namespace ZiaCrypte.Lib

def bits : Nat → Nat → List Bool
  | 0, _ => []
  | w + 1, n => n.testBit w :: bits w n

def ofBits (l : List Bool) : Nat := l.foldl (fun n b => n * 2 + b.toNat) 0

@[simp] theorem length_bits (w n : Nat) : (bits w n).length = w := by
  induction w with
  | zero => rfl
  | succ w ih => exact congrArg (· + 1) ih

theorem foldl_bits (l : List Bool) (m : Nat) :
    l.foldl (fun n b => n * 2 + b.toNat) m = m * 2 ^ l.length + ofBits l := by
  induction l generalizing m with
  | nil => simp [ofBits]
  | cons b l ih =>
    have hb : ofBits (b :: l) = b.toNat * 2 ^ l.length + ofBits l := by
      unfold ofBits
      rw [List.foldl_cons, ih, Nat.zero_mul, Nat.zero_add]
      rfl
    rw [List.foldl_cons, ih, hb, List.length_cons]
    ring

theorem ofBits_append (l l' : List Bool) :
    ofBits (l ++ l') = ofBits l * 2 ^ l'.length + ofBits l' := by
  unfold ofBits
  rw [List.foldl_append, foldl_bits]
  rfl

theorem ofBits_cons (b : Bool) (l : List Bool) :
    ofBits (b :: l) = b.toNat * 2 ^ l.length + ofBits l := by
  rw [← List.singleton_append, ofBits_append]
  cases b <;> rfl

theorem ofBits_lt (l : List Bool) : ofBits l < 2 ^ l.length := by
  induction l with
  | nil => exact Nat.one_pos
  | cons b l ih =>
    rw [ofBits_cons, List.length_cons, Nat.pow_succ]
    cases b <;> simp <;> omega

theorem ofBits_bits (w n : Nat) : ofBits (bits w n) = n % 2 ^ w := by
  induction w with
  | zero => exact (Nat.mod_one n).symm
  | succ w ih =>
    rw [bits, ofBits_cons, ih, length_bits, Nat.pow_succ, Nat.mod_mul,
      Nat.testBit_eq_decide_div_mod_eq]
    rcases Nat.mod_two_eq_zero_or_one (n / 2 ^ w) with h | h <;> simp [h, Nat.add_comm]

theorem bits_mod {w k : Nat} (h : w ≤ k) (n : Nat) : bits w (n % 2 ^ k) = bits w n := by
  induction w with
  | zero => rfl
  | succ w ih => rw [bits, bits, ih (Nat.le_of_succ_le h), Nat.testBit_mod_two_pow,
      decide_eq_true (Nat.lt_of_succ_le h), Bool.true_and]

theorem bits_ofBits (l : List Bool) : bits l.length (ofBits l) = l := by
  induction l with
  | nil => rfl
  | cons b l ih =>
    have hlt := ofBits_lt l
    have hmod : (b.toNat * 2 ^ l.length + ofBits l) % 2 ^ l.length = ofBits l := by
      rw [Nat.mul_comm, Nat.mul_add_mod, Nat.mod_eq_of_lt hlt]
    have hdiv : (b.toNat * 2 ^ l.length + ofBits l) / 2 ^ l.length = b.toNat := by
      rw [Nat.mul_comm, Nat.mul_add_div (Nat.two_pow_pos _), Nat.div_eq_of_lt hlt, Nat.add_zero]
    rw [ofBits_cons, List.length_cons, bits, ← bits_mod (Nat.le_refl _), hmod, ih,
      Nat.testBit_eq_decide_div_mod_eq, hdiv]
    cases b <;> rfl

/-! ## Groups -/

section

variable {α : Type}

/-- The first `k` groups of width `w`. -/
def groups (w : Nat) : Nat → List α → List (List α)
  | 0, _ => []
  | k + 1, l => l.take w :: groups w k (l.drop w)

/-- All of the list, the last group as short as it is. -/
def chunks (w : Nat) (l : List α) : List (List α) := groups w ((l.length + (w - 1)) / w) l

/-- The groups that are full. -/
def wholes (w : Nat) (l : List α) : List (List α) := groups w (l.length / w) l

variable {w : Nat} {l l' : List α}

theorem chunks_nil (hw : 0 < w) : chunks w ([] : List α) = [] := by
  unfold chunks
  rw [List.length_nil, Nat.zero_add, Nat.div_eq_of_lt (by omega)]
  rfl

/-- What is left at the end is one group. -/
theorem chunks_last (hl : 0 < l.length) (hw : l.length ≤ w) : chunks w l = [l] := by
  have hone : (l.length + (w - 1)) / w = 1 := by
    rw [Nat.div_eq_iff (by omega)]
    omega
  unfold chunks
  rw [hone, groups, groups, List.take_of_length_le hw]

theorem chunks_append (hw : 0 < w) (hl : l.length = w) :
    chunks w (l ++ l') = l :: chunks w l' := by
  have hcount : ((l ++ l').length + (w - 1)) / w = (l'.length + (w - 1)) / w + 1 := by
    rw [List.length_append, hl, Nat.add_assoc, Nat.add_comm w, Nat.add_div_right _ hw]
  unfold chunks
  rw [hcount, groups, List.take_left' hl, List.drop_left' hl]

theorem length_of_mem_groups {k : Nat} {g : List α} (h : g ∈ groups w k l) : g.length ≤ w := by
  induction k generalizing l with
  | zero => cases h
  | succ k ih =>
    rcases List.mem_cons.mp h with rfl | h
    · exact List.length_take_le w l
    · exact ih h

theorem length_of_mem_chunks {g : List α} (h : g ∈ chunks w l) : g.length ≤ w :=
  length_of_mem_groups h

theorem wholes_short (hl : l.length < w) : wholes w l = [] := by
  unfold wholes
  rw [Nat.div_eq_of_lt hl]
  rfl

theorem wholes_append (hw : 0 < w) (hl : l.length = w) :
    wholes w (l ++ l') = l :: wholes w l' := by
  have hcount : (l ++ l').length / w = l'.length / w + 1 := by
    rw [List.length_append, hl, Nat.add_comm w, Nat.add_div_right _ hw]
  unfold wholes
  rw [hcount, groups, List.take_left' hl, List.drop_left' hl]

end

/-- Bits in groups of another width, the last filled up with zeros, are the same bits with
less than a group of zeros behind them. -/
theorem flatMap_chunks {w : Nat} (hw : 0 < w) (l : List Bool) :
    ∃ zeros, zeros < w ∧ (chunks w l).flatMap (fun g => g.rightpad w false) =
      l ++ List.replicate zeros false := by
  induction hn : l.length using Nat.strongRecOn generalizing l with
  | ind n ih =>
    by_cases hnil : l = []
    · subst hnil
      exact ⟨0, hw, by rw [chunks_nil hw]; rfl⟩
    · have hpos : 0 < l.length := List.length_pos_iff.mpr hnil
      by_cases hle : l.length ≤ w
      · refine ⟨w - l.length, by omega, ?_⟩
        rw [chunks_last hpos hle, List.flatMap_singleton]
        rfl
      · have htake : (l.take w).length = w := List.length_take_of_le (by omega)
        obtain ⟨zeros, hzeros, heq⟩ := ih (l.drop w).length
          (by rw [List.length_drop]; omega) (l.drop w) rfl
        refine ⟨zeros, hzeros, ?_⟩
        have hsplit : chunks w l = l.take w :: chunks w (l.drop w) := by
          rw [← chunks_append hw htake, List.take_append_drop]
        have hpad : (l.take w).rightpad w false = l.take w := by
          unfold List.rightpad
          rw [htake, Nat.sub_self]
          exact List.append_nil _
        rw [hsplit, List.flatMap_cons, heq, hpad, ← List.append_assoc, List.take_append_drop]

end ZiaCrypte.Lib
