import Mathlib.Data.List.Basic

/-! Work that may be interrupted and done again.  A state holds a list of items, and a step on an item
either leaves the state alone or takes the item off the list.  So a pass over the list that breaks off is
continued by the next one, and a pass after a whole one finds nothing to do. -/

namespace Worklist

variable {σ ι : Type*} {work : σ → List ι} {step : σ → ι → σ} {Inv : σ → Prop} {idle : ι → Prop}
  {s s' : σ}

/-- The steps of a worklist: a step on an idle item does nothing, one on another item takes it off. -/
structure Lawful (work : σ → List ι) (step : σ → ι → σ) (Inv : σ → Prop) (idle : ι → Prop) : Prop where
  skips : ∀ s a, idle a → step s a = s
  keeps : ∀ s a, Inv s → a ∈ work s → Inv (step s a)
  removes : ∀ s before a after, Inv s → ¬ idle a → work s = before ++ a :: after →
    work (step s a) = before ++ after

/-- A whole pass. -/
def complete (work : σ → List ι) (step : σ → ι → σ) (s : σ) : σ := (work s).foldl step s

/-- What passes leave that break off anywhere. -/
inductive Interrupted (work : σ → List ι) (step : σ → ι → σ) (s : σ) : σ → Prop
  | refl : Interrupted work step s s
  | pass {s' : σ} (done rest : List ι) (h : Interrupted work step s s') (hwork : work s' = done ++ rest) :
      Interrupted work step s (done.foldl step s')

theorem Lawful.foldl_idle (h : Lawful work step Inv idle) {items : List ι} (hidle : ∀ a ∈ items, idle a) :
    items.foldl step s = s := by
  induction items with
  | nil => rfl
  | cons a items ih =>
    rw [List.foldl_cons, h.skips s a (hidle a List.mem_cons_self)]
    exact ih fun b hb => hidle b (List.mem_cons_of_mem a hb)

/-- A pass that breaks off leaves idle items and those that it did not come to. -/
theorem Lawful.foldl (h : Lawful work step Inv idle) (passed done rest : List ι) (hs : Inv s)
    (hpassed : ∀ a ∈ passed, idle a) (hwork : work s = passed ++ (done ++ rest)) :
    Inv (done.foldl step s) ∧
      ∃ passed', (∀ a ∈ passed', idle a) ∧ work (done.foldl step s) = passed' ++ rest := by
  induction done generalizing s passed with
  | nil => exact ⟨hs, passed, hpassed, hwork⟩
  | cons a done ih =>
    rw [List.foldl_cons]
    by_cases ha : idle a
    · rw [h.skips s a ha]
      refine ih (passed ++ [a]) hs (fun b hb => ?_) (hwork.trans (by simp))
      rcases List.mem_append.mp hb with hb | hb
      · exact hpassed b hb
      · exact List.mem_singleton.mp hb ▸ ha
    · exact ih passed (h.keeps s a hs (hwork ▸ by simp)) hpassed (h.removes s passed a _ hs ha hwork)

/-- A whole pass after one that broke off ends where a whole pass would have. -/
theorem Lawful.complete_foldl (h : Lawful work step Inv idle) {done rest : List ι} (hs : Inv s)
    (hwork : work s = done ++ rest) :
    complete work step (done.foldl step s) = complete work step s := by
  obtain ⟨-, passed, hpassed, hleft⟩ :=
    h.foldl [] done rest hs (fun _ ha => absurd ha List.not_mem_nil) hwork
  unfold complete
  rw [hleft, hwork, List.foldl_append, List.foldl_append, h.foldl_idle hpassed]

theorem Lawful.interrupted (h : Lawful work step Inv idle) (hs : Inv s)
    (hpasses : Interrupted work step s s') : Inv s' ∧ complete work step s' = complete work step s := by
  induction hpasses with
  | refl => exact ⟨hs, rfl⟩
  | pass done rest _ hwork ih =>
    exact ⟨(h.foldl [] done rest ih.1 (fun _ ha => absurd ha List.not_mem_nil) hwork).1,
      (h.complete_foldl ih.1 hwork).trans ih.2⟩

/-- After a whole pass every item is idle. -/
theorem Lawful.idle_of_complete (h : Lawful work step Inv idle) (hs : Inv s) :
    ∀ a ∈ work (complete work step s), idle a := by
  obtain ⟨-, passed, hpassed, hleft⟩ := h.foldl [] (work s) [] hs
    (fun _ ha => absurd ha List.not_mem_nil) (List.append_nil (work s)).symm
  rw [List.append_nil] at hleft
  exact fun a ha => hpassed a (hleft ▸ ha)

/-- After a whole pass no pass changes anything, however far it comes. -/
theorem Lawful.foldl_complete (h : Lawful work step Inv idle) {done rest : List ι} (hs : Inv s)
    (hwork : work (complete work step s) = done ++ rest) :
    done.foldl step (complete work step s) = complete work step s :=
  h.foldl_idle fun a ha => h.idle_of_complete hs a (hwork ▸ List.mem_append_left rest ha)

end Worklist
