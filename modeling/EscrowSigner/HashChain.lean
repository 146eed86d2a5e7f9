import Mathlib.Data.List.Induction
import Mathlib.Data.List.Nodup

/-! Hash chains: lists of records, each of which stores a hash of its content over the hash of the
record before it.  A chain whose records are kept with their hashes can only lose records at its
end. -/

namespace HashChain

variable {ρ η γ : Type} {IsHead : η → Prop} {hash : η → ρ → η} {stored prev : ρ → η}
  {content : ρ → γ}

/-- Each record stores its hash over the stored hash of the one before it, the first over `head`. -/
def Chained (hash : η → ρ → η) (stored : ρ → η) : η → List ρ → Prop
  | _, [] => True
  | head, r :: rest => stored r = hash head r ∧ Chained hash stored (stored r) rest

/-- The records name the stored hash of the one before, the first names `head`. -/
def Linked (prev stored : ρ → η) : η → List ρ → Prop
  | _, [] => True
  | head, r :: rest => prev r = head ∧ Linked prev stored (stored r) rest

/-- The hash that the next record is written over. -/
def tip (stored : ρ → η) : η → List ρ → η
  | head, [] => head
  | _, r :: rest => tip stored (stored r) rest

/-- Every hash is a head, and over heads two hashes agree exactly when the heads and the contents
do. -/
structure Commits (IsHead : η → Prop) (hash : η → ρ → η) (content : ρ → γ) : Prop where
  closed : ∀ h r, IsHead (hash h r)
  iff : ∀ {h h'}, IsHead h → IsHead h' → ∀ r r',
    hash h r = hash h' r' ↔ h = h' ∧ content r = content r'

/-! ### Growth -/

section Growth

variable {head : η} {l m : List ρ} {r : ρ}

theorem tip_append : tip stored head (l ++ m) = tip stored (tip stored head l) m := by
  induction l generalizing head with
  | nil => rfl
  | cons r l ih => exact ih

@[simp] theorem tip_concat : tip stored head (l ++ [r]) = stored r := tip_append

theorem chained_append :
    Chained hash stored head (l ++ m) ↔
      Chained hash stored head l ∧ Chained hash stored (tip stored head l) m := by
  induction l generalizing head with
  | nil => exact (iff_of_eq (true_and _)).symm
  | cons r l ih => exact (and_congr_right fun _ => ih).trans and_assoc.symm

theorem chained_concat :
    Chained hash stored head (l ++ [r]) ↔
      Chained hash stored head l ∧ stored r = hash (tip stored head l) r :=
  chained_append.trans (and_congr_right fun _ => iff_of_eq (and_true _))

theorem linked_append :
    Linked prev stored head (l ++ m) ↔
      Linked prev stored head l ∧ Linked prev stored (tip stored head l) m := by
  induction l generalizing head with
  | nil => exact (iff_of_eq (true_and _)).symm
  | cons r l ih => exact (and_congr_right fun _ => ih).trans and_assoc.symm

/-- A change that keeps hashes and stored hashes keeps the tip. -/
theorem tip_map {f : ρ → ρ} (hf : ∀ r ∈ l, stored (f r) = stored r) :
    tip stored head (l.map f) = tip stored head l := by
  induction l generalizing head with
  | nil => rfl
  | cons r l ih =>
    show tip stored (stored (f r)) (l.map f) = tip stored (stored r) l
    rw [hf r List.mem_cons_self]
    exact ih fun r' hr' => hf r' (List.mem_cons_of_mem r hr')

/-- A change that keeps hashes and stored hashes keeps a chain. -/
theorem Chained.map {f : ρ → ρ} (h : Chained hash stored head l)
    (hf : ∀ r ∈ l, stored (f r) = stored r ∧ ∀ g, hash g (f r) = hash g r) :
    Chained hash stored head (l.map f) := by
  induction l generalizing head with
  | nil => trivial
  | cons r l ih =>
    obtain ⟨hstored, hhash⟩ := hf r List.mem_cons_self
    refine ⟨by rw [hstored, hhash, h.1], ?_⟩
    rw [hstored]
    exact ih h.2 fun r' hr' => hf r' (List.mem_cons_of_mem r hr')

end Growth

/-! ### Commitment -/

section Commitment

variable {head : η} {l m : List ρ} {r : ρ}

/-- A record stores its hash over the head that it names. -/
structure Tagged (IsHead : η → Prop) (hash : η → ρ → η) (stored prev : ρ → η) (r : ρ) : Prop where
  head : IsHead (prev r)
  hash : stored r = hash (prev r) r

theorem Tagged.isHead (hc : Commits IsHead hash content) (h : Tagged IsHead hash stored prev r) :
    IsHead (stored r) := h.hash ▸ hc.closed _ _

/-- A chain whose records are tagged is linked. -/
theorem Chained.linked (hc : Commits IsHead hash content) (hhead : IsHead head)
    (h : Chained hash stored head l) (htag : ∀ r ∈ l, Tagged IsHead hash stored prev r) :
    Linked prev stored head l := by
  induction l generalizing head with
  | nil => trivial
  | cons r l ih =>
    have hr := htag r List.mem_cons_self
    have hprev : prev r = head := ((hc.iff hr.head hhead _ _).mp (hr.hash.symm.trans h.1)).1
    exact ⟨hprev, ih (hr.isHead hc) h.2 fun r' hr' => htag r' (List.mem_cons_of_mem r hr')⟩

/-- The records of a linked chain are tagged. -/
theorem Chained.tagged (hclosed : ∀ h r, IsHead (hash h r)) (hhead : IsHead head)
    (h : Chained hash stored head l) (hlinked : Linked prev stored head l) :
    ∀ r ∈ l, Tagged IsHead hash stored prev r := by
  induction l generalizing head with
  | nil => exact fun r hr => absurd hr List.not_mem_nil
  | cons r l ih =>
    refine List.forall_mem_cons.mpr ⟨⟨?_, ?_⟩, ih ?_ h.2 hlinked.2⟩
    · rw [hlinked.1]
      exact hhead
    · rw [hlinked.1]
      exact h.1
    · rw [h.1]
      exact hclosed _ _

/-- Kept with the hashes of their originals, which are tagged, records form a chain exactly when
their contents are the originals' and the originals are linked. -/
theorem chained_edits_iff (hc : Commits IsHead hash content) (hhead : IsHead head)
    {edits : List (ρ × ρ)} (htag : ∀ e ∈ edits, Tagged IsHead hash stored prev e.1)
    (hkept : ∀ e ∈ edits, stored e.2 = stored e.1) :
    Chained hash stored head (edits.map Prod.snd) ↔
      (∀ e ∈ edits, content e.2 = content e.1) ∧ Linked prev stored head (edits.map Prod.fst) := by
  induction edits generalizing head with
  | nil => exact ⟨fun _ => ⟨fun _ he => absurd he List.not_mem_nil, trivial⟩, fun _ => trivial⟩
  | cons e edits ih =>
    have htag' := htag e List.mem_cons_self
    have hkept' := hkept e List.mem_cons_self
    have hfirst : stored e.2 = hash head e.2 ↔ content e.2 = content e.1 ∧ prev e.1 = head := by
      rw [hkept', htag'.hash, hc.iff htag'.head hhead]
      exact ⟨fun h => ⟨h.2.symm, h.1⟩, fun h => ⟨h.2, h.1.symm⟩⟩
    have hrest := ih (htag'.isHead hc) (fun e' he' => htag e' (List.mem_cons_of_mem e he'))
      fun e' he' => hkept e' (List.mem_cons_of_mem e he')
    simp only [List.map_cons, Chained, Linked, List.forall_mem_cons]
    rw [hfirst, hkept', hrest]
    exact ⟨fun h => ⟨⟨h.1.1, h.2.1⟩, h.1.2, h.2.2⟩, fun h => ⟨⟨h.1.1, h.2.1⟩, h.1.2, h.2.2⟩⟩

theorem Chained.isHead (hc : Commits IsHead hash content) (hhead : IsHead head)
    (h : Chained hash stored head l) : IsHead (tip stored head l) := by
  induction l generalizing head with
  | nil => exact hhead
  | cons r l ih => exact ih (h.1 ▸ hc.closed _ _) h.2

theorem tip_mem : tip stored head l ∈ head :: l.map stored := by
  induction l generalizing head with
  | nil => exact List.mem_cons_self
  | cons r l ih => exact List.mem_cons_of_mem head ih

/-- No two records of a chain store one hash, and none stores the head, when no hash is the head. -/
theorem Chained.nodup (hc : Commits IsHead hash content) (hhead : IsHead head)
    (hfresh : ∀ h r, hash h r ≠ head) (h : Chained hash stored head l) :
    (head :: l.map stored).Nodup := by
  induction l using List.reverseRecOn with
  | nil => exact List.nodup_singleton head
  | append_singleton l r ih =>
    obtain ⟨hl, hr⟩ := chained_concat.mp h
    have hn := ih hl
    rw [List.map_append, ← List.cons_append]
    refine hn.append (List.nodup_singleton _) (List.disjoint_singleton.mpr fun hmem => ?_)
    rcases List.mem_cons.mp hmem with heq | hmem
    · exact hfresh _ _ (hr.symm.trans heq)
    · -- the hash of an earlier record commits to an earlier tip, which is not the last one
      obtain ⟨r', hr', heq⟩ := List.mem_map.mp hmem
      obtain ⟨before, after, rfl⟩ := List.append_of_mem hr'
      obtain ⟨hbefore, hafter⟩ := chained_append.mp hl
      have htips := ((hc.iff (hl.isHead hc hhead) (hbefore.isHead hc hhead) _ _).mp
        (hr.symm.trans (heq.symm.trans hafter.1))).1
      rw [tip_append] at htips
      rw [List.map_append, ← List.cons_append] at hn
      exact (List.nodup_append.mp hn).2.2 _ tip_mem _ tip_mem htips.symm

theorem Linked.prev_mem (h : Linked prev stored head l) (hr : r ∈ l) :
    prev r ∈ head :: l.map stored := by
  induction l generalizing head with
  | nil => exact absurd hr List.not_mem_nil
  | cons r' l ih =>
    rcases List.mem_cons.mp hr with rfl | hr
    · exact List.mem_cons.mpr (.inl h.1)
    · exact List.mem_cons_of_mem head (ih h.2 hr)

/-- Records of a linked list that are linked among themselves lack only records at the end. -/
theorem Linked.prefix_of_subset (h : Linked prev stored head l)
    (hn : (head :: l.map stored).Nodup) (hm : m ⊆ l) (hlinked : Linked prev stored head m) :
    m <+: l := by
  induction l generalizing head m with
  | nil =>
    obtain rfl := List.subset_nil.mp hm
    exact List.prefix_rfl
  | cons r l ih =>
    cases m with
    | nil => exact List.nil_prefix
    | cons r' m =>
      obtain ⟨hhead, hn'⟩ := List.nodup_cons.mp hn
      obtain ⟨hr', hm'⟩ := List.cons_subset.mp hm
      rcases List.mem_cons.mp hr' with rfl | hbehind
      · -- the head of the list is named by its first record only
        refine (List.prefix_cons_inj r').mpr (ih h.2 hn' (fun r hr => ?_) hlinked.2)
        rcases List.mem_cons.mp (hm' hr) with rfl | hl
        · have hmem := hlinked.2.prev_mem hr
          rw [h.1] at hmem
          exact absurd (List.map_subset stored hm hmem) hhead
        · exact hl
      · have hmem := h.2.prev_mem hbehind
        rw [hlinked.1] at hmem
        exact absurd hmem hhead

theorem Linked.prefix (h : Linked prev stored head l) (hm : m <+: l) :
    Linked prev stored head m := by
  obtain ⟨rest, rfl⟩ := hm
  exact (linked_append.mp h).1

/-- What became of records that were edited and removed: each that is left, with its original, whose
stored hash it keeps. -/
structure Tampered (stored : ρ → η) (l : List ρ) (kept : List (ρ × ρ)) : Prop where
  left : (kept.map Prod.fst).Sublist l
  hashes : ∀ e ∈ kept, stored e.2 = stored e.1

variable {kept order : List (ρ × ρ)}

/-- In any order, the records that are left form a chain exactly when no content was edited and the
originals are linked in that order. -/
theorem Tampered.chained_iff (h : Tampered stored l kept) (hc : Commits IsHead hash content)
    (hhead : IsHead head) (htag : ∀ r ∈ l, Tagged IsHead hash stored prev r)
    (horder : order.Perm kept) :
    Chained hash stored head (order.map Prod.snd) ↔
      (∀ e ∈ kept, content e.2 = content e.1) ∧ Linked prev stored head (order.map Prod.fst) := by
  have hmem : ∀ e ∈ order, e ∈ kept := fun e he => horder.mem_iff.mp he
  rw [chained_edits_iff hc hhead
    (fun e he => htag e.1 (h.left.subset (List.mem_map_of_mem (hmem e he))))
    fun e he => h.hashes e (hmem e he)]
  exact and_congr_left fun _ => forall_congr' fun e => imp_congr_left horder.mem_iff

/-- In any order, the originals of a chain that are left are linked exactly when they are the first
ones. -/
theorem Tampered.linked_iff (h : Tampered stored l kept) (hc : Commits IsHead hash content)
    (hhead : IsHead head) (hfresh : ∀ h r, hash h r ≠ head)
    (htag : ∀ r ∈ l, Tagged IsHead hash stored prev r) (hl : Chained hash stored head l)
    (horder : order.Perm kept) :
    Linked prev stored head (order.map Prod.fst) ↔ order.map Prod.fst <+: l := by
  have hlinked := hl.linked hc hhead htag
  refine ⟨fun hm => ?_, hlinked.prefix⟩
  refine hlinked.prefix_of_subset (hl.nodup hc hhead hfresh) (fun r hr => ?_) hm
  exact h.left.subset (((horder.map Prod.fst).mem_iff).mp hr)

end Commitment

end HashChain
