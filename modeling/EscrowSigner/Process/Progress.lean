import EscrowSigner.Process.Threads
import Mathlib.Logic.Hydra

/-! Progress of threads: when every thread gives its turn back, a pool that cannot move has nothing left
to do, and a pool of finitely many threads cannot move for ever. -/

namespace Process

variable {κ σ ε α β ι : Type}

/-! ### Turns -/

namespace Thread

/-- The thread acquires and releases the turn in alternation, and ends without it. -/
def Polite : Bool → Thread κ σ ε α → Prop
  | held, ret _ => held = false
  | held, raise _ => held = false
  | held, own _ rest => ∀ c s, (rest c s).Polite held
  | held, locked _ rest => ∀ r, (rest r).Polite held
  | held, acquire rest => held = false ∧ rest.Polite true
  | held, release rest => held = true ∧ rest.Polite false

/-- The thread takes no turn. -/
def Plain : Thread κ σ ε α → Prop
  | ret _ => True
  | raise _ => True
  | own _ rest => ∀ c s, (rest c s).Plain
  | locked _ rest => ∀ r, (rest r).Plain
  | acquire _ => False
  | release _ => False

theorem plain_ofExcept (r : Except ε α) : (ofExcept r : Thread κ σ ε α).Plain := by
  cases r <;> trivial

theorem plain_whole (p : Process κ σ ε α) : (whole p).Plain := plain_ofExcept

variable {t : Thread κ σ ε α}

theorem Plain.bind {f : α → Thread κ σ ε β} (ht : t.Plain) (hf : ∀ a, (f a).Plain) :
    (t.bind f).Plain := by
  induction t with
  | ret a => exact hf a
  | raise e => trivial
  | own next rest ih => exact fun c s => ih c s (ht c s)
  | locked body rest ih => exact fun r => ih r (ht r)
  | acquire rest ih => exact ht.elim
  | release rest ih => exact ht.elim

theorem Plain.attempt (ht : t.Plain) : t.attempt.Plain := by
  induction t with
  | ret a => trivial
  | raise e => trivial
  | own next rest ih => exact fun c s => ih c s (ht c s)
  | locked body rest ih => exact fun r => ih r (ht r)
  | acquire rest ih => exact ht.elim
  | release rest ih => exact ht.elim

theorem Plain.polite (ht : t.Plain) : t.Polite false := by
  induction t with
  | ret a => rfl
  | raise e => rfl
  | own next rest ih => exact fun c s => ih c s (ht c s)
  | locked body rest ih => exact fun r => ih r (ht r)
  | acquire rest ih => exact ht.elim
  | release rest ih => exact ht.elim

/-- What is caught goes on to the end. -/
theorem Plain.polite_bind {held : Bool} {f : Except ε α → Thread κ σ ε β} (ht : t.Plain)
    (hf : ∀ r, (f r).Polite held) : (t.attempt.bind f).Polite held := by
  induction t with
  | ret a => exact hf _
  | raise e => exact hf _
  | own next rest ih => exact fun c s => ih c s (ht c s)
  | locked body rest ih => exact fun r => ih r (ht r)
  | acquire rest ih => exact ht.elim
  | release rest ih => exact ht.elim

theorem Plain.holding (ht : t.Plain) : t.holding.Polite false :=
  ⟨rfl, ht.polite_bind fun r => ⟨rfl, (plain_ofExcept r).polite⟩⟩

end Thread

namespace Running

/-- Where the thread stands, it keeps to its turns. -/
def Polite (held : Bool) : Running κ σ ε α → Prop
  | between t => t.Polite held
  | inside _ rest => ∀ r, (rest r).Polite held

/-- The thread has ended. -/
def Ended : Running κ σ ε α → Prop
  | between (.ret _) => True
  | between (.raise _) => True
  | _ => False

end Running

namespace Pool

variable [DecidableEq ι] {P P' : Pool ι κ σ ε α} {j k : ι}

/-- At most one thread is inside, and each keeps to its turns. -/
structure Orderly (P : Pool ι κ σ ε α) : Prop where
  alone : ∀ j k, (P.threads j).Inside → (P.threads k).Inside → j = k
  polite : ∀ j, (P.threads j).Polite (P.turn = some j)

theorem orderly_start {s : σ} {ts : ι → Thread κ σ ε α} (hts : ∀ j, (ts j).Polite false) :
    Orderly (.start s ts) := ⟨fun _ _ h => h.elim, hts⟩

/-- One thread moves on, and the others stand where they stood. -/
theorem Orderly.move (h : Orderly P) {r : Running κ σ ε α} {s : σ} {turn : Option ι}
    (hr : r.Polite (turn = some j)) (hturn : ∀ k, k ≠ j → (turn = some k ↔ P.turn = some k))
    (halone : r.Inside → ∀ k, k ≠ j → ¬ (P.threads k).Inside) :
    Orderly ⟨s, turn, Function.update P.threads j r⟩ := by
  refine ⟨fun k l hk hl => ?_, fun k => ?_⟩
  · dsimp only at hk hl
    by_cases hkj : k = j
    · subst hkj
      rw [Function.update_self] at hk
      by_contra hne
      rw [Function.update_of_ne (Ne.symm hne)] at hl
      exact halone hk l (Ne.symm hne) hl
    · rw [Function.update_of_ne hkj] at hk
      by_cases hlj : l = j
      · subst hlj
        rw [Function.update_self] at hl
        exact absurd hk (halone hl k hkj)
      · rw [Function.update_of_ne hlj] at hl
        exact h.alone k l hk hl
  · dsimp only
    by_cases hkj : k = j
    · subst hkj
      rw [Function.update_self]
      exact hr
    · rw [Function.update_of_ne hkj]
      have hk := h.polite k
      simp only [hturn k hkj] at hk ⊢
      exact hk

theorem Orderly.step (h : Orderly P) (hs : Step P P') : Orderly P' := by
  cases hs with
  | @own j next rest c hj =>
    have hpolite := h.polite j
    rw [hj] at hpolite
    exact h.move (hpolite c _) (fun _ _ => Iff.rfl) fun hr => hr.elim
  | @lock j β body rest hj hfree =>
    have hpolite := h.polite j
    rw [hj] at hpolite
    exact h.move hpolite (fun _ _ => Iff.rfl) fun _ k _ => hfree k
  | @work j β next more rest c hj =>
    have hpolite := h.polite j
    rw [hj] at hpolite
    refine h.move hpolite (fun _ _ => Iff.rfl) fun _ k hk hin => hk (h.alone k j hin ?_)
    rw [hj]
    trivial
  | @unlock j β b rest hj =>
    have hpolite := h.polite j
    rw [hj] at hpolite
    exact h.move (hpolite _) (fun _ _ => Iff.rfl) fun hr => hr.elim
  | @fail j β e rest hj =>
    have hpolite := h.polite j
    rw [hj] at hpolite
    exact h.move (hpolite _) (fun _ _ => Iff.rfl) fun hr => hr.elim
  | @acquire j rest hj hfree =>
    have hpolite := h.polite j
    rw [hj] at hpolite
    refine h.move ?_ (fun k hk => ?_) fun hr => hr.elim
    · rw [decide_eq_true rfl]
      exact hpolite.2
    · rw [hfree]
      simpa using Ne.symm hk
  | @release j rest hj =>
    have hpolite := h.polite j
    rw [hj] at hpolite
    have hturn : P.turn = some j := of_decide_eq_true hpolite.1
    refine h.move ?_ (fun k hk => ?_) fun hr => hr.elim
    · rw [decide_eq_false nofun]
      exact hpolite.2
    · rw [hturn]
      simpa using Ne.symm hk

theorem Orderly.reaches (h : Orderly P) (hs : Reaches P P') : Orderly P' := by
  induction hs with
  | refl => exact h
  | tail _ hstep ih => exact ih.step hstep

/-- While a thread has something left to do, some thread can move. -/
theorem Orderly.moves [Nonempty κ] (h : Orderly P) (hj : ¬ (P.threads j).Ended) :
    ∃ P', Step P P' := by
  obtain ⟨c⟩ := ‹Nonempty κ›
  by_cases hin : ∃ k, (P.threads k).Inside
  · obtain ⟨k, hk⟩ := hin
    cases hP : P.threads k with
    | between t =>
      rw [hP] at hk
      exact hk.elim
    | inside body rest =>
      cases body with
      | ret b => exact ⟨_, .unlock hP⟩
      | raise e => exact ⟨_, .fail hP⟩
      | step next more => exact ⟨_, .work c hP⟩
  · have hfree : ∀ k, ¬ (P.threads k).Inside := fun k hk => hin ⟨k, hk⟩
    -- the thread whose turn it is, or the one that has something to do when it is nobody's
    obtain ⟨k, hk, hend⟩ : ∃ k, (P.turn = none ∨ P.turn = some k) ∧
        (P.turn = none → ¬ (P.threads k).Ended) := by
      cases hturn : P.turn with
      | none => exact ⟨j, .inl rfl, fun _ => hj⟩
      | some k => exact ⟨k, .inr rfl, nofun⟩
    have hpolite := h.polite k
    cases hP : P.threads k with
    | inside body rest =>
      refine absurd ?_ (hfree k)
      rw [hP]
      trivial
    | between t =>
      rw [hP] at hpolite hend
      cases t with
      | ret a =>
        rcases hk with hnone | hsome
        · exact absurd trivial (hend hnone)
        · exact absurd hsome (of_decide_eq_false hpolite)
      | raise e =>
        rcases hk with hnone | hsome
        · exact absurd trivial (hend hnone)
        · exact absurd hsome (of_decide_eq_false hpolite)
      | own next rest => exact ⟨_, .own c hP⟩
      | locked body rest => exact ⟨_, .lock hP hfree⟩
      | acquire rest =>
        exact ⟨_, .acquire hP (hk.resolve_right (of_decide_eq_false hpolite.1))⟩
      | release rest => exact ⟨_, .release hP⟩

/-! ### Termination -/

/-- What a thread can be one step later. -/
inductive After : Running κ σ ε α → Running κ σ ε α → Prop
  | own {next : κ → σ → σ} {rest : κ → σ → Thread κ σ ε α} (c : κ) (s : σ) :
      After (.between (rest c s)) (.between (.own next rest))
  | lock {β : Type} {body : Process κ σ ε β} {rest : Except ε β → Thread κ σ ε α} :
      After (.inside body rest) (.between (.locked body rest))
  | work {β : Type} {next : κ → σ → σ} {more : κ → σ → Process κ σ ε β}
      {rest : Except ε β → Thread κ σ ε α} (c : κ) (s : σ) :
      After (.inside (more c s) rest) (.inside (.step next more) rest)
  | unlock {β : Type} {b : β} {rest : Except ε β → Thread κ σ ε α} :
      After (.between (rest (.ok b))) (.inside (.ret b) rest)
  | fail {β : Type} {e : ε} {rest : Except ε β → Thread κ σ ε α} :
      After (.between (rest (.error e))) (.inside (.raise e : Process κ σ ε β) rest)
  | acquire {rest : Thread κ σ ε α} : After (.between rest) (.between (.acquire rest))
  | release {rest : Thread κ σ ε α} : After (.between rest) (.between (.release rest))

theorem acc_inside {body : Process κ σ ε β} {rest : Except ε β → Thread κ σ ε α}
    (hrest : ∀ r, Acc After (Running.between (rest r))) :
    Acc After (Running.inside body rest) := by
  induction body with
  | ret b =>
    refine .intro _ fun y hy => ?_
    cases hy
    exact hrest _
  | raise e =>
    refine .intro _ fun y hy => ?_
    cases hy
    exact hrest _
  | step next more ih =>
    refine .intro _ fun y hy => ?_
    cases hy
    exact ih _ _

theorem acc_between (t : Thread κ σ ε α) : Acc After (Running.between t) := by
  induction t with
  | ret a => exact .intro _ nofun
  | raise e => exact .intro _ nofun
  | own next rest ih =>
    refine .intro _ fun y hy => ?_
    cases hy
    exact ih _ _
  | locked body rest ih =>
    refine .intro _ fun y hy => ?_
    cases hy
    exact acc_inside ih
  | acquire rest ih =>
    refine .intro _ fun y hy => ?_
    cases hy
    exact ih
  | release rest ih =>
    refine .intro _ fun y hy => ?_
    cases hy
    exact ih

theorem wellFounded_after : WellFounded (After (κ := κ) (σ := σ) (ε := ε) (α := α)) := by
  refine ⟨fun r => ?_⟩
  cases r with
  | between t => exact acc_between t
  | inside body rest => exact acc_inside fun _ => acc_between _

theorem Step.after (h : Step P P') : ∃ j r, After r (P.threads j) ∧
    P'.threads = Function.update P.threads j r := by
  cases h with
  | own c h => exact ⟨_, _, h ▸ .own c _, rfl⟩
  | lock h hfree => exact ⟨_, _, h ▸ .lock, rfl⟩
  | work c h => exact ⟨_, _, h ▸ .work c _, rfl⟩
  | unlock h => exact ⟨_, _, h ▸ .unlock, rfl⟩
  | fail h => exact ⟨_, _, h ▸ .fail, rfl⟩
  | acquire h hfree => exact ⟨_, _, h ▸ .acquire, rfl⟩
  | release h => exact ⟨_, _, h ▸ .release, rfl⟩

/-- The threads of a pool, without their names. -/
def crowd [Fintype ι] (P : Pool ι κ σ ε α) : Multiset (Running κ σ ε α) :=
  Finset.univ.val.map P.threads

theorem Step.cut [Fintype ι] (h : Step P P') : Relation.CutExpand After P'.crowd P.crowd := by
  obtain ⟨j, r, hafter, hthreads⟩ := h.after
  have huniv : (Finset.univ : Finset ι).val = j ::ₘ (Finset.univ.erase j).val :=
    (Multiset.cons_erase (Finset.mem_univ_val j)).symm
  have hrest : (Finset.univ.erase j).val.map (Function.update P.threads j r) =
      (Finset.univ.erase j).val.map P.threads :=
    Multiset.map_congr rfl fun k hk => Function.update_of_ne (Finset.ne_of_mem_erase hk) _ _
  refine ⟨{r}, P.threads j, fun r' hr' => ?_, ?_⟩
  · rw [Multiset.mem_singleton.mp hr']
    exact hafter
  · unfold crowd
    rw [hthreads, huniv, Multiset.map_cons, Multiset.map_cons, hrest, Function.update_self,
      ← Multiset.singleton_add, ← Multiset.singleton_add]
    ac_rfl

/-- Finitely many threads cannot move for ever. -/
theorem wellFounded_step [Finite ι] :
    WellFounded fun P' P : Pool ι κ σ ε α => Step P P' := by
  obtain ⟨_⟩ := nonempty_fintype ι
  exact Subrelation.wf (r := InvImage (Relation.CutExpand After) crowd) Step.cut
    (InvImage.wf crowd wellFounded_after.cutExpand)

/-- Wherever finitely many threads have got to, they can all come to their ends. -/
theorem Orderly.ends [Finite ι] [Nonempty κ] (h : Orderly P) :
    ∃ P', Reaches P P' ∧ ∀ j, (P'.threads j).Ended := by
  induction wellFounded_step.apply P with
  | intro P _ ih =>
    by_cases hend : ∀ j, (P.threads j).Ended
    · exact ⟨P, .refl, hend⟩
    · obtain ⟨j, hj⟩ := not_forall.mp hend
      obtain ⟨P', hstep⟩ := h.moves hj
      obtain ⟨P'', hreach, hend⟩ := ih P' hstep (h.step hstep)
      exact ⟨P'', hreach.head hstep, hend⟩

end Pool

end Process
