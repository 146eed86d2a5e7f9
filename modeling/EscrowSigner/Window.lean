import Mathlib.Algebra.Order.Ring.Int
import Mathlib.Algebra.Order.BigOperators.Group.List
import Mathlib.Algebra.BigOperators.Group.List.Lemmas

/-! Sliding windows over weighted entries.  Each entry has a time and a weight, and a window of
width `w` that ends at `t` holds the entries of `(t - w, t]`.  An entry that fits the window that
ends at its own time, and comes no earlier than the window demands, fits every window. -/

namespace Window

variable {ι : Type} {p q : ι → Bool} {weight : ι → Int} {l l' : List ι}

/-- The weight of the entries that `p` selects. -/
def load (p : ι → Bool) (weight : ι → Int) (l : List ι) : Int := ((l.filter p).map weight).sum

@[simp] theorem load_nil : load p weight [] = 0 := rfl

theorem load_cons (x : ι) :
    load p weight (x :: l) = (if p x then weight x else 0) + load p weight l := by
  unfold load
  rw [List.filter_cons]
  split <;> simp

theorem load_perm (h : l.Perm l') : load p weight l = load p weight l' :=
  ((h.filter p).map weight).sum_eq

theorem load_nonneg (hw : ∀ x ∈ l, 0 ≤ weight x) : 0 ≤ load p weight l :=
  List.sum_nonneg fun n hn => by
    obtain ⟨x, hx, rfl⟩ := List.mem_map.mp hn
    exact hw x (List.mem_of_mem_filter hx)

/-- A selection weighs no less when it misses nothing but entries without weight. -/
theorem load_mono (hw : ∀ x ∈ l, 0 ≤ weight x)
    (h : ∀ x ∈ l, p x = true → q x = true ∨ weight x = 0) :
    load p weight l ≤ load q weight l := by
  induction l with
  | nil => exact le_rfl
  | cons x l ih =>
    have ih := ih (fun y hy => hw y (List.mem_cons_of_mem x hy))
      fun y hy => h y (List.mem_cons_of_mem x hy)
    have hx := hw x List.mem_cons_self
    rw [load_cons, load_cons]
    cases hp : p x with
    | true =>
      rcases h x List.mem_cons_self hp with hq | hzero
      · rw [hq]
        exact Int.add_le_add_left ih _
      · simp only [hzero, ite_self]
        exact Int.add_le_add_left ih _
    | false =>
      rw [if_neg Bool.false_ne_true]
      split <;> omega

theorem load_filter (r : ι → Bool) :
    load p weight (l.filter r) = load (fun x => p x && r x) weight l := by
  simp only [load, List.filter_filter]

/-- Some of the entries weigh no more than all. -/
theorem load_filter_le (hw : ∀ x ∈ l, 0 ≤ weight x) (r : ι → Bool) :
    load p weight (l.filter r) ≤ load p weight l := by
  rw [load_filter]
  exact load_mono hw fun x _ hx => .inl (Bool.and_eq_true_iff.mp hx).1

/-- A change of the entries that selects no further one and keeps the weights. -/
theorem load_map_le {f : ι → ι} (hw : ∀ x ∈ l, 0 ≤ weight x)
    (h : ∀ x ∈ l, p (f x) = true → q x = true ∧ weight (f x) = weight x) :
    load p weight (l.map f) ≤ load q weight l := by
  induction l with
  | nil => exact le_rfl
  | cons x l ih =>
    have ih := ih (fun y hy => hw y (List.mem_cons_of_mem x hy))
      fun y hy => h y (List.mem_cons_of_mem x hy)
    have hx := hw x List.mem_cons_self
    rw [List.map_cons, load_cons, load_cons]
    cases hp : p (f x) with
    | true =>
      obtain ⟨hq, hweight⟩ := h x List.mem_cons_self hp
      rw [hq, hweight]
      exact Int.add_le_add_left ih _
    | false =>
      rw [if_neg Bool.false_ne_true]
      split <;> omega

variable {time : ι → Int} {w t cap : Int}

/-- The entries of the window of width `w` that ends at `t`. -/
def within (time : ι → Int) (w t : Int) (x : ι) : Bool := t - w < time x && time x ≤ t

/-- The entries after an instant. -/
def since (time : ι → Int) (t : Int) (x : ι) : Bool := t < time x

/-- The sliding window: an entry that fits on top of everything after the start of its own window
keeps every window within the cap. -/
theorem admits {x : ι} (hw : ∀ y ∈ l, 0 ≤ weight y)
    (hold : ∀ t, load (fun y => q y && within time w t y) weight l ≤ cap)
    (hfit : load (fun y => q y && since time (time x - w) y) weight l + weight x ≤ cap) (t : Int) :
    load (fun y => q y && within time w t y) weight (x :: l) ≤ cap := by
  rw [load_cons]
  split
  · rename_i hx
    simp only [within, Bool.and_eq_true, decide_eq_true_eq] at hx
    have : load (fun y => q y && within time w t y) weight l ≤
        load (fun y => q y && since time (time x - w) y) weight l := by
      refine load_mono hw fun y _ hy => ?_
      simp only [within, since, Bool.and_eq_true, decide_eq_true_eq] at hy ⊢
      exact .inl ⟨hy.1, by omega⟩
    omega
  · simpa using hold t

end Window
