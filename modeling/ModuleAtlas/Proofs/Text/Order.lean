import ModuleAtlas.Graph.Basic
import Mathlib.Data.List.Sort
/-!
The order of texts is linear, so things that are told apart by a text have one arrangement only
in which their texts increase (`eq_of_perm_of_sorted`): two ways of listing them agree.
-/
namespace ModuleAtlas

instance : Std.IsLinearOrder CodePoint where
  le_refl _ := Nat.le_refl _
  le_trans _ _ _ := Nat.le_trans
  le_antisymm _ _ ab ba := CodePoint.toNat_injective (Nat.le_antisymm ab ba)
  le_total _ _ := Nat.le_total _ _

instance : Std.LawfulOrderLT CodePoint where
  lt_iff _ _ := Nat.lt_iff_le_and_not_ge

instance : @LawfulBEq Text Label.toBEq := inferInstanceAs (LawfulBEq (List CodePoint))

namespace Text

/-- A text comes before another unless the other comes strictly before it. -/
theorem le_iff {a b : Text} : le a b ↔ ¬ List.Lex (· < ·) b a := by
  rw [le, Bool.not_eq_true', List.lex_eq_false_iff_not_lex]
  simp only [decide_eq_true_eq]

theorem le_trans {a b c : Text} (ab : le a b) (bc : le b c) : le a c :=
  le_iff.2 (List.le_trans (le_iff.1 ab) (le_iff.1 bc))

theorem le_total (a b : Text) : le a b || le b a := by
  rw [Bool.or_eq_true, le_iff, le_iff]
  exact List.le_total a b

theorem le_refl (a : Text) : le a a := by simpa using le_total a a

theorem le_antisymm {a b : Text} (ab : le a b) (ba : le b a) : a = b :=
  List.le_antisymm (le_iff.1 ab) (le_iff.1 ba)

section
variable {β : Type} (key : β → Text)

/-- The things stand in the order of their texts. -/
def Sorted (xs : List β) : Prop := xs.Pairwise fun x y => le (key x) (key y)

instance (xs : List β) : Decidable (Sorted key xs) := inferInstanceAs (Decidable (xs.Pairwise _))

/-- The things stand in the order of their texts, and no two have the same text. -/
def StrictlySorted (xs : List β) : Prop :=
  xs.Pairwise fun x y => le (key x) (key y) ∧ key x ≠ key y

theorem mergeSort_sorted (xs : List β) :
    Sorted key (xs.mergeSort fun x y => le (key x) (key y)) := by
  have order : ∀ x y z, le (key x) (key y) → le (key y) (key z) → le (key x) (key z) :=
    fun _ _ _ => le_trans
  exact List.pairwise_mergeSort order (fun x y => le_total (key x) (key y)) xs

/-- There is one arrangement only if the text tells the things apart. -/
theorem eq_of_perm_of_sorted {xs ys : List β} (apart : ∀ x ∈ xs, ∀ y ∈ ys, key x = key y → x = y)
    (same : xs.Perm ys) (left : Sorted key xs) (right : Sorted key ys) : xs = ys :=
  same.eq_of_pairwise (fun x y inLeft inRight xy yx => apart x inLeft y inRight (le_antisymm xy yx))
    left right

end

/-- Where things stand in the order of two of their texts, the first text tells the order of the
second. -/
theorem le_of_sorted {β : Type} {first second : β → Text} {xs : List β} (left : Sorted first xs)
    (right : Sorted second xs) (follows : ∀ x y, first x = first y → second x = second y) :
    ∀ x ∈ xs, ∀ y ∈ xs, le (first x) (first y) → le (second x) (second y) := by
  have forth : xs.Pairwise fun x y => le (first x) (first y) → le (second x) (second y) := by
    apply right.imp
    intro x y behind _
    exact behind
  have back : xs.Pairwise fun x y => le (first y) (first x) → le (second y) (second x) := by
    apply left.imp
    intro x y before after
    rw [follows x y (le_antisymm before after)]
    exact le_refl _
  exact List.Pairwise.forall_of_forall_of_flip (fun x _ _ => le_refl _) forth back

/-! ## Groups -/

/-- Taking the things of each of some texts is taking the things of any of them. -/
theorem flatMap_filter_perm {β : Type} (key : β → Text) (xs : List β) {keys : List Text}
    (distinct : keys.Nodup) :
    (keys.flatMap fun k => xs.filter fun x => key x == k).Perm
      (xs.filter fun x => keys.contains (key x)) := by
  induction keys with
  | nil => simp
  | cons k keys ih =>
    obtain ⟨fresh, distinct⟩ := List.nodup_cons.1 distinct
    have cut := List.filter_append_perm (fun x => key x == k)
      (xs.filter fun x => (k :: keys).contains (key x))
    have first : ((xs.filter fun x => (k :: keys).contains (key x)).filter fun x => key x == k) =
        xs.filter fun x => key x == k := by
      rw [List.filter_filter]
      apply List.filter_congr
      intro x _
      by_cases same : key x = k <;> simp [same]
    have others : ((xs.filter fun x => (k :: keys).contains (key x)).filter
        fun x => !(key x == k)) = xs.filter fun x => keys.contains (key x) := by
      rw [List.filter_filter]
      apply List.filter_congr
      intro x _
      by_cases same : key x = k
      · simp [same, fresh]
      · simp [same]
    rw [first, others] at cut
    rw [List.flatMap_cons]
    exact ((ih distinct).append_left _).trans cut

/-! ## Sorting -/

theorem sort_perm (ts : List Text) : (sort ts).Perm ts := List.mergeSort_perm ts le

theorem sort_sorted (ts : List Text) : Sorted id (sort ts) := mergeSort_sorted id ts

theorem sort_eq_self {ts : List Text} (sorted : Sorted id ts) : sort ts = ts :=
  List.mergeSort_of_pairwise sorted

theorem sort_strictlySorted {ts : List Text} (distinct : ts.Nodup) :
    StrictlySorted id (sort ts) :=
  (sort_sorted ts).and ((sort_perm ts).nodup_iff.2 distinct)

end Text
end ModuleAtlas
