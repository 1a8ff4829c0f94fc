import ZiaCrypte.Update.UpdateService
import Mathlib.Order.RelClasses
import Mathlib.Data.List.Chain
import Mathlib.Data.List.Lex
import Mathlib.Data.Int.Order.Basic

/-!
# The order of versions

`isNewer` compares three numbers of each version, whatever its text: it is the order of these
numbers, read backwards.
-/
namespace ZiaCrypte.Update

open ZiaCrypte.Inbox (Text text)

/-- The numbers that are compared; a version with fewer ends in zeros. -/
def composantes : Nat → List Int → List Int
  | 0, _ => []
  | n + 1, a => a.headD 0 :: composantes n a.tail

theorem newer_iff (n : Nat) (a b : List Int) :
    newer n a b = true ↔ List.Lex (· < ·) (composantes n b) (composantes n a) := by
  induction n generalizing a b with
  | zero => exact ⟨fun h => (by cases h), fun h => absurd h List.not_lex_nil⟩
  | succ n ih =>
    rw [newer, composantes, composantes, List.cons_lex_cons_iff]
    by_cases hsame : a.headD 0 = b.headD 0
    · rw [if_neg (not_not.mpr hsame), ih, hsame]
      exact ⟨fun h => .inr ⟨rfl, h⟩, fun h => (h.resolve_left (Int.lt_irrefl _)).2⟩
    · rw [if_pos hsame, decide_eq_true_iff]
      exact ⟨Or.inl, fun h => h.resolve_right fun hrest => hsame hrest.1.symm⟩

/-- The numbers of a version. -/
def numeros (v : Text) : List Int := composantes 3 (parse v)

theorem isNewer_iff (candidate current : Text) :
    isNewer candidate current = true ↔ List.Lex (· < ·) (numeros current) (numeros candidate) :=
  newer_iff 3 _ _

/-- A strict weak order of the numbers orders the texts. -/
instance isNewer_order :
    IsStrictWeakOrder Text fun candidate current => isNewer candidate current = true := by
  have : IsStrictWeakOrder (List Int) (List.Lex (· < ·)) := isStrictWeakOrder_of_isOrderConnected
  have hrelation : (fun candidate current => isNewer candidate current = true) =
      Order.Preimage numeros (Function.swap (List.Lex (· < ·))) := by
    funext candidate current
    exact propext (isNewer_iff candidate current)
  rw [hrelation]
  infer_instance

theorem isNewer_asymm {v w : Text} (h : isNewer v w = true) : isNewer w v = false := by
  rw [Bool.eq_false_iff]
  exact asymm_of (fun candidate current => isNewer candidate current = true) h

/-- Versions that were installed one after the other, each as an update of the one before. -/
def MisesAJour (versions : List Text) : Prop :=
  versions.IsChain fun current candidate => isNewer candidate current = true

/-- `isNewer` is a strict weak order; a sequence of updates only goes up, so none comes twice and
none is a downgrade. -/
theorem isNewer_strictWeakOrder :
    IsStrictWeakOrder Text (fun candidate current => isNewer candidate current = true) ∧
    (∀ v w, isNewer v w = true → isNewer w v = false) ∧
    ∀ versions, MisesAJour versions →
      versions.Pairwise fun before after =>
        isNewer after before = true ∧ isNewer before after = false ∧ before ≠ after := by
  refine ⟨isNewer_order, fun v w => isNewer_asymm, fun versions hversions => ?_⟩
  have htrans : IsTrans Text fun current candidate => isNewer candidate current = true :=
    ⟨fun u v w huv hvw => isNewer_order.trans w v u hvw huv⟩
  refine (List.isChain_iff_pairwise.mp hversions).imp fun {before after} hnewer => ?_
  refine ⟨hnewer, isNewer_asymm hnewer, ?_⟩
  rintro rfl
  exact isNewer_order.irrefl before hnewer

/-- Versions in formats of their own. -/
def sampleVersions : List Text := [text "0.9.12", text "v0.10.0-beta", text "0.10.1+7", text "1"]

theorem sampleVersions_increase :
    MisesAJour sampleVersions ∧ sampleVersions.Pairwise fun before after =>
      isNewer after before = true ∧ isNewer before after = false ∧ before ≠ after := by
  have hchain : MisesAJour sampleVersions := by
    unfold MisesAJour
    decide
  exact ⟨hchain, isNewer_strictWeakOrder.2.2 sampleVersions hchain⟩

end ZiaCrypte.Update
