import EscrowSigner.Process.Frame
import EscrowSigner.Process.Progress

/-! What threads do out of turn.  A thread that moves only while it has the turn, or whose steps are all
of a harmless kind, does nothing but harmless steps to the thread whose turn it is. -/

namespace Process

variable {κ σ ε α ι : Type} {R : κ → σ → σ → Prop}

/-! ### Threads -/

namespace Thread

/-- The thread moves only while it has the turn. -/
def Confined : Bool → Thread κ σ ε α → Prop
  | _, ret _ => True
  | _, raise _ => True
  | held, own _ rest => held = true ∧ ∀ c s, (rest c s).Confined held
  | held, locked _ rest => held = true ∧ ∀ r, (rest r).Confined held
  | _, acquire rest => rest.Confined true
  | _, release rest => rest.Confined false

variable {t : Thread κ σ ε α}

theorem Plain.confined_bind {β : Type} {f : Except ε α → Thread κ σ ε β} (ht : t.Plain)
    (hf : ∀ r, (f r).Confined true) : (t.attempt.bind f).Confined true := by
  induction t with
  | ret a => exact hf _
  | raise e => exact hf _
  | own next rest ih => exact ⟨rfl, fun c s => ih c s (ht c s)⟩
  | locked body rest ih => exact ⟨rfl, fun r => ih r (ht r)⟩
  | acquire rest ih => exact ht.elim
  | release rest ih => exact ht.elim

theorem confined_ofExcept (held : Bool) (r : Except ε α) :
    (ofExcept r : Thread κ σ ε α).Confined held := by
  cases r <;> trivial

/-- The body of a `with` moves in its turn. -/
theorem Plain.confined (ht : t.Plain) : t.holding.Confined false :=
  ht.confined_bind fun r => confined_ofExcept false r

end Thread

namespace Running

/-- What is left to do, without the locks. -/
def code : Running κ σ ε α → Process κ σ ε α
  | between t => t.code
  | inside body rest => body.attempt.bind fun r => (rest r).code

/-- Where the thread stands, it moves only while it has the turn. -/
def Confined (held : Bool) : Running κ σ ε α → Prop
  | between t => t.Confined held
  | inside _ rest => held = true ∧ ∀ r, (rest r).Confined held

/-- The thread moves only while it has the turn, or does nothing but steps in `R`. -/
def Mild (R : κ → σ → σ → Prop) (held : Bool) (r : Running κ σ ε α) : Prop :=
  r.Confined held ∨ r.code.Steps R

/-- Where the thread stands, it takes no turn any more. -/
def Plain : Running κ σ ε α → Prop
  | between t => t.Plain
  | inside _ rest => ∀ r, (rest r).Plain

end Running

/-! ### Pools -/

namespace Pool

variable [DecidableEq ι] {P P' : Pool ι κ σ ε α} {j : ι}

/-- Every thread of the pool is mild. -/
def Mild (R : κ → σ → σ → Prop) (P : Pool ι κ σ ε α) : Prop :=
  ∀ j, (P.threads j).Mild R (P.turn = some j)

/-- One thread moves on, and the others stand where they stood. -/
theorem Mild.move (h : Mild R P) {r : Running κ σ ε α} {s : σ} {turn : Option ι}
    (hr : r.Mild R (turn = some j)) (hturn : ∀ k, k ≠ j → (turn = some k ↔ P.turn = some k)) :
    Mild R ⟨s, turn, Function.update P.threads j r⟩ := by
  intro k
  dsimp only
  by_cases hkj : k = j
  · subst hkj
    rw [Function.update_self]
    exact hr
  · rw [Function.update_of_ne hkj]
    have hk := h k
    simp only [hturn k hkj] at hk ⊢
    exact hk

/-- What a step does to a thread that it is not a step of. -/
structure Spares (R : κ → σ → σ → Prop) (P P' : Pool ι κ σ ε α) (j : ι) : Prop where
  state : P'.state = P.state ∨ ∃ c, R c P.state P'.state
  turn : P.turn = some j → P'.turn = some j

/-- A step is one of the thread whose turn it is, or does no more than a step in `R`. -/
theorem Mild.step (ho : Orderly P) (h : Mild R P) (hs : Step P P') : Mild R P' ∧
    ∃ k r, After r (P.threads k) ∧ P'.threads = Function.update P.threads k r ∧
      (P.turn ≠ some k → ∀ j, Spares R P P' j) := by
  cases hs with
  | @own k next rest c hk =>
    have hmild := h k
    rw [hk] at hmild
    refine ⟨h.move (hmild.imp (fun hconf => hconf.2 c _) fun hsteps => (hsteps c _).2)
      fun _ _ => Iff.rfl, k, _, hk ▸ .own c _, rfl, fun hturn j => ⟨.inr ⟨c, ?_⟩, id⟩⟩
    rcases hmild with hconf | hsteps
    · exact absurd (of_decide_eq_true hconf.1) hturn
    · exact (hsteps c _).1
  | @lock k β body rest hk hfree =>
    have hmild := h k
    rw [hk] at hmild
    exact ⟨h.move hmild fun _ _ => Iff.rfl, k, _, hk ▸ .lock, rfl, fun _ _ => ⟨.inl rfl, id⟩⟩
  | @work k β next more rest c hk =>
    have hmild := h k
    rw [hk] at hmild
    refine ⟨h.move (hmild.imp id fun hsteps => (hsteps c _).2) fun _ _ => Iff.rfl, k, _,
      hk ▸ .work c _, rfl, fun hturn j => ⟨.inr ⟨c, ?_⟩, id⟩⟩
    rcases hmild with hconf | hsteps
    · exact absurd (of_decide_eq_true hconf.1) hturn
    · exact (hsteps c _).1
  | @unlock k β b rest hk =>
    have hmild := h k
    rw [hk] at hmild
    exact ⟨h.move (hmild.imp (fun hconf => hconf.2 _) id) fun _ _ => Iff.rfl, k, _,
      hk ▸ .unlock, rfl, fun _ _ => ⟨.inl rfl, id⟩⟩
  | @fail k β e rest hk =>
    have hmild := h k
    rw [hk] at hmild
    exact ⟨h.move (hmild.imp (fun hconf => hconf.2 _) id) fun _ _ => Iff.rfl, k, _,
      hk ▸ .fail, rfl, fun _ _ => ⟨.inl rfl, id⟩⟩
  | @acquire k rest hk hfree =>
    have hmild := h k
    rw [hk] at hmild
    refine ⟨h.move (hmild.imp (fun hconf => ?_) id) fun l hl => ?_, k, _, hk ▸ .acquire, rfl,
      fun _ j => ⟨.inl rfl, fun hj => ?_⟩⟩
    · rw [decide_eq_true rfl]
      exact hconf
    · rw [hfree]
      simpa using Ne.symm hl
    · rw [hfree] at hj
      cases hj
  | @release k rest hk =>
    have hmild := h k
    have hpolite := ho.polite k
    rw [hk] at hmild hpolite
    have hturn : P.turn = some k := of_decide_eq_true hpolite.1
    refine ⟨h.move (hmild.imp (fun hconf => ?_) id) fun l hl => ?_, k, _, hk ▸ .release, rfl,
      fun hnot => absurd hturn hnot⟩
    · rw [decide_eq_false nofun]
      exact hconf
    · rw [hturn]
      simpa using Ne.symm hl

theorem Mild.reaches (ho : Orderly P) (h : Mild R P) (hs : Reaches P P') : Mild R P' := by
  induction hs with
  | refl => exact h
  | tail hreach hstep ih => exact (ih.step (ho.reaches hreach) hstep).1

/-- A step of another thread. -/
def Others (j : ι) (P P' : Pool ι κ σ ε α) : Prop := Step P P' ∧ P'.threads j = P.threads j

/-- While a thread has the turn, a step of another is in `R`, and the turn stays. -/
theorem Mild.others (ho : Orderly P) (h : Mild R P) (hturn : P.turn = some j)
    (hs : Others j P P') : Spares R P P' j := by
  obtain ⟨hstep, hsame⟩ := hs
  obtain ⟨-, k, r, hafter, hthreads, hspares⟩ := h.step ho hstep
  refine hspares (fun hk => ?_) j
  -- the step of the thread itself would take it further
  obtain rfl : j = k := Option.some.inj (hturn.symm.trans hk)
  rw [hthreads, Function.update_self] at hsame
  rw [hsame] at hafter
  exact wellFounded_after.irrefl.irrefl _ hafter

/-- However far the others go while a thread has the turn: what steps in `R` keep is kept, and the turn
stays. -/
theorem Mild.undisturbed (ho : Orderly P) (h : Mild R P) (hturn : P.turn = some j)
    (hs : Relation.ReflTransGen (Others j) P P') {I : σ → Prop}
    (hI : ∀ c s s', I s → R c s s' → I s') (hstart : I P.state) :
    I P'.state ∧ P'.turn = some j := by
  suffices Orderly P' ∧ Mild R P' ∧ I P'.state ∧ P'.turn = some j from ⟨this.2.2.1, this.2.2.2⟩
  induction hs with
  | refl => exact ⟨ho, h, hstart, hturn⟩
  | tail _ hstep ih =>
    obtain ⟨ho, h, hkept, hturn⟩ := ih
    obtain ⟨hstate, hstays⟩ := h.others ho hturn hstep
    refine ⟨ho.step hstep.1, (h.step ho hstep.1).1, ?_, hstays hturn⟩
    rcases hstate with hsame | ⟨c, hR⟩
    · rw [hsame]
      exact hkept
    · exact hI c _ _ hkept hR

/-! ### What does not wait for the turn -/

variable {k : ι}

theorem Plain.after {r r' : Running κ σ ε α} (h : r.Plain) (hafter : After r' r) : r'.Plain := by
  cases hafter with
  | own c s => exact h c s
  | lock => exact h
  | work c s => exact h
  | unlock => exact h _
  | fail => exact h _
  | acquire => exact h.elim
  | release => exact h.elim

theorem plain_reaches (h : (P.threads k).Plain) (hs : Reaches P P') : (P'.threads k).Plain := by
  induction hs with
  | refl => exact h
  | tail _ hstep ih =>
    obtain ⟨l, r, hafter, hthreads⟩ := hstep.after
    rw [hthreads]
    by_cases hkl : k = l
    · subst hkl
      rw [Function.update_self]
      exact Plain.after ih hafter
    · rw [Function.update_of_ne hkl]
      exact ih

/-- When the one that was inside comes out, nobody is inside. -/
theorem not_inside_out {t : Thread κ σ ε α} (halone : ∀ l, l ≠ k → ¬ (P.threads l).Inside) (l : ι) :
    ¬ (Function.update P.threads k (.between t) l).Inside := by
  by_cases hlk : l = k
  · subst hlk
    rw [Function.update_self]
    exact id
  · rw [Function.update_of_ne hlk]
    exact halone l hlk

/-- A thread that is inside comes out, whatever the others wait for. -/
theorem comes_out [Nonempty κ] {β : Type} {body : Process κ σ ε β}
    {rest : Except ε β → Thread κ σ ε α} (hk : P.threads k = .inside body rest) (hkj : j ≠ k)
    (halone : ∀ l, l ≠ k → ¬ (P.threads l).Inside) :
    ∃ P' r, Relation.ReflTransGen (Others j) P P' ∧ P'.threads k = .between (rest r) ∧
      (∀ l, ¬ (P'.threads l).Inside) ∧ ∀ l, l ≠ k → P'.threads l = P.threads l := by
  obtain ⟨c⟩ := ‹Nonempty κ›
  induction body generalizing P with
  | ret b =>
    exact ⟨_, .ok b, .single ⟨.unlock hk, Function.update_of_ne hkj _ _⟩, Function.update_self _ _ _,
      not_inside_out halone, fun l hl => Function.update_of_ne hl _ _⟩
  | raise e =>
    exact ⟨_, .error e, .single ⟨.fail hk, Function.update_of_ne hkj _ _⟩, Function.update_self _ _ _,
      not_inside_out halone, fun l hl => Function.update_of_ne hl _ _⟩
  | step next more ih =>
    have hothers : ∀ l, l ≠ k →
        Function.update P.threads k (.inside (more c P.state) rest) l = P.threads l :=
      fun l hl => Function.update_of_ne hl _ _
    obtain ⟨P', r, hreach, hP', hfree, hsame⟩ := ih c P.state
      (P := { P.set k (.inside (more c P.state) rest) with state := next c P.state })
      (Function.update_self _ _ _) fun l hl => by
        dsimp only [set]
        rw [hothers l hl]
        exact halone l hl
    exact ⟨P', r, hreach.head ⟨.work c hk, Function.update_of_ne hkj _ _⟩, hP', hfree,
      fun l hl => (hsame l hl).trans (hothers l hl)⟩

/-- A thread that takes no turn comes to its end while nobody is inside. -/
theorem comes_to_end [Nonempty κ] {t : Thread κ σ ε α} (ht : t.Plain)
    (hk : P.threads k = .between t) (hkj : j ≠ k) (hfree : ∀ l, ¬ (P.threads l).Inside) :
    ∃ P', Relation.ReflTransGen (Others j) P P' ∧ (P'.threads k).Ended := by
  induction t generalizing P with
  | ret a =>
    refine ⟨P, .refl, ?_⟩
    rw [hk]
    trivial
  | raise e =>
    refine ⟨P, .refl, ?_⟩
    rw [hk]
    trivial
  | own next rest ih =>
    obtain ⟨c⟩ := ‹Nonempty κ›
    obtain ⟨P', hreach, hend⟩ := ih c P.state (ht c P.state)
      (P := { P.set k (.between (rest c P.state)) with state := next c P.state })
      (Function.update_self _ _ _) (not_inside_update hfree)
    exact ⟨P', hreach.head ⟨.own c hk, Function.update_of_ne hkj _ _⟩, hend⟩
  | locked body rest ih =>
    obtain ⟨P₁, r, hreach₁, hP₁, hfree₁, -⟩ := comes_out (P := P.set k (.inside body rest)) (j := j)
      (Function.update_self _ _ _) hkj fun l hl => by
        dsimp only [set]
        rw [Function.update_of_ne hl]
        exact hfree l
    obtain ⟨P', hreach, hend⟩ := ih r (ht r) hP₁ hfree₁
    have hlock : Others j P (P.set k (.inside body rest)) :=
      ⟨.lock hk hfree, Function.update_of_ne hkj _ _⟩
    exact ⟨P', (hreach₁.head hlock).trans hreach, hend⟩
  | acquire rest ih => exact ht.elim
  | release rest ih => exact ht.elim

/-- Where one thread stands outside the mutex for as long as it likes, another that takes no turn comes
to its end. -/
theorem Orderly.answers [Nonempty κ] (h : Orderly P) (hj : ¬ (P.threads j).Inside) (hkj : j ≠ k)
    (hplain : (P.threads k).Plain) :
    ∃ P', Relation.ReflTransGen (Others j) P P' ∧ (P'.threads k).Ended := by
  -- whoever is inside comes out first
  obtain ⟨P₁, hreach₁, hplain₁, hfree₁⟩ : ∃ P₁, Relation.ReflTransGen (Others j) P P₁ ∧
      (P₁.threads k).Plain ∧ ∀ l, ¬ (P₁.threads l).Inside := by
    by_cases hin : ∃ l, (P.threads l).Inside
    · obtain ⟨l, hl⟩ := hin
      cases hP : P.threads l with
      | between t =>
        rw [hP] at hl
        exact hl.elim
      | inside body rest =>
        have hjl : j ≠ l := by
          rintro rfl
          exact hj hl
        obtain ⟨P₁, r, hreach, hP₁, hfree, hsame⟩ := comes_out hP hjl
          fun m hm hmin => hm (h.alone m l hmin hl)
        refine ⟨P₁, hreach, ?_, hfree⟩
        by_cases hkl : k = l
        · subst hkl
          rw [hP] at hplain
          rw [hP₁]
          exact hplain r
        · rw [hsame k hkl]
          exact hplain
    · exact ⟨P, .refl, hplain, fun l hl => hin ⟨l, hl⟩⟩
  cases hP₁ : P₁.threads k with
  | between t =>
    rw [hP₁] at hplain₁
    obtain ⟨P', hreach, hend⟩ := comes_to_end hplain₁ hP₁ hkj hfree₁
    exact ⟨P', hreach₁.trans hreach, hend⟩
  | inside body rest =>
    refine absurd ?_ (hfree₁ k)
    rw [hP₁]
    trivial

end Pool

end Process
