import Mathlib.Data.List.Induction
import EscrowSigner.Machine.Answers
import EscrowSigner.Machine.Halt

/-! The life of a row: a step of the service leaves what the books hold under a key as it is, or
moves it along.  `_set_state` looks at no state, so this rests on what its callers have established:
the phase of the machine. -/

namespace EscrowSigner

/-- The states that a row may go to next. -/
def RowState.successors : RowState → List RowState
  | .reserved => [.signed, .dead, .mined]
  | .signed => [.broadcast, .dead, .mined]
  | .broadcast => [.dead, .mined]
  | .dead => [.reserved]
  | .mined | .superseded => []

/-- A live row may be released, and may turn out to be mined. -/
theorem RowState.successors_of_live {state : RowState} (h : state.live = true) :
    .dead ∈ state.successors ∧ .mined ∈ state.successors := by
  cases state <;> simp_all [live, successors]

/-- What a step may make of what the books hold under a key. -/
inductive Moves : Option SpendRow → Option SpendRow → Prop
  | stays (r : Option SpendRow) : Moves r r
  | enters (r : SpendRow) (h : r.state = .reserved) : Moves none (some r)
  | moves (r r' : SpendRow) (h : r'.state ∈ r.state.successors) : Moves (some r) (some r')

/-- A mined row does not move. -/
theorem Moves.mined {r : SpendRow} {r' : Option SpendRow} (h : Moves (some r) r')
    (hr : r.state = .mined) : r' = some r := by
  cases h with
  | stays => rfl
  | moves _ r' h =>
    rw [hr] at h
    cases h

/-- No row is superseded, and one whose transaction may be out names it. -/
def Orderly (r : SpendRow) : Prop :=
  r.state ≠ .superseded ∧ (r.state = .signed ∨ r.state = .broadcast → r.txHash ≠ "")

namespace Machine

open Policy Process

variable {i : Instance} {env : State → Choice → Prop} {ok : State → Call → List Choice → Prop}
  {φ φ' : Phase} {s s' : State} {rows rows' : List SpendRow}

/-! ### Steps -/

def rowAt (k : Key) (rows : List SpendRow) : Option SpendRow := rows.find? fun r => r.key == k

theorem mem_of_rowAt {k : Key} {r : SpendRow} (h : rowAt k rows = some r) :
    r ∈ rows ∧ r.key = k :=
  ⟨List.mem_of_find?_eq_some h, by simpa using List.find?_some h⟩

theorem rowAt_mapRow {k k' : Key} {f : SpendRow → SpendRow} (hf : ∀ r, (f r).key = r.key) :
    rowAt k (mapRow k' f rows) = (rowAt k rows).map fun r => if r.key = k' then f r else r := by
  have hkey : ∀ r : SpendRow, (if r.key = k' then f r else r).key = r.key := by
    intro r
    split
    · exact hf r
    · rfl
  simp only [rowAt, mapRow, List.find?_map, Function.comp_def, hkey]

/-- A change of the row of a key to a successor of its state. -/
theorem moves_mapRow {k : Key} {f : SpendRow → SpendRow} (hf : ∀ r, (f r).key = r.key)
    (hnext : ∀ r ∈ rows, r.key = k → (f r).state ∈ r.state.successors) (k' : Key) :
    Moves (rowAt k' rows) (rowAt k' (mapRow k f rows)) := by
  rw [rowAt_mapRow hf]
  cases hr : rowAt k' rows with
  | none => exact .stays none
  | some r =>
    simp only [Option.map_some]
    split
    · rename_i hk
      exact .moves r (f r) (hnext r (mem_of_rowAt hr).1 hk)
    · exact .stays (some r)

theorem Places.moves {p : Plan} {seq ts nonce : Int} {row : SpendRow}
    (h : Places i p seq ts nonce rows rows' row) (hk : (rows.map SpendRow.key).Nodup) (k : Key) :
    Moves (rowAt k rows) (rowAt k rows') := by
  cases h with
  | fresh head hkey =>
    simp only [rowAt, List.find?_append]
    cases hr : rows.find? fun r => r.key == k with
    | some r => exact .stays (some r)
    | none =>
      simp only [Option.none_or, List.find?_singleton]
      split
      · exact .enters _ rfl
      · exact .stays none
  | revived r hr hkey hdead hamount hsame =>
    refine moves_mapRow (fun r => revived_key p seq ts nonce r) (fun r' hr' hk' => ?_) k
    rw [eq_of_key_eq hk hr' hr hk', revived_state, hdead]
    decide

/-- What is released is live. -/
theorem Falls.live {r : SpendRow} (h : Falls s r φ) (hsound : Sound i φ s) (hr : r ∈ s.rows) :
    r.state.live = true := by
  cases h with
  | held p row hkey =>
    rw [eq_of_key_eq hsound.keys hr hsound.phase.2.2 hkey, hsound.phase.2.1]
    rfl
  | rejected p row hkey =>
    rw [eq_of_key_eq hsound.keys hr hsound.phase.2.2 hkey]
    rfl
  | reverted | lapsed | neverSigned => exact hsound.phase.2
  | unsentSweep hc hs =>
    rw [hs]
    rfl
  | lostSweep instant hc hs ht h => exact hs

/-- Every step of the machine moves rows along. -/
theorem moves_step (hsound : Sound i φ s) (hstep : Step i env ok (φ, s) (φ', s')) (k : Key) :
    Moves (rowAt k s.rows) (rowAt k s'.rows) := by
  cases hstep with
  | receive | finish | settle | pass | stamp | find | count | setNext | sign | balk | record | send
  | giveBack => exact .stays _
  | grant he hj hfit hcut hshown hts hseq hplace hbind => exact hplace.moves hsound.keys k
  | @mark _ c p row he =>
    obtain ⟨hkey, hstate, hrow⟩ := hsound.phase
    refine moves_mapRow (fun _ => ?_) (fun r hr hk => ?_) k
    · rfl
    rw [eq_of_key_eq hsound.keys hr hrow hk, hstate]
    show RowState.signed ∈ RowState.reserved.successors
    decide
  | @broadcast _ c p row he =>
    refine moves_mapRow (fun _ => ?_) (fun r hr hk => ?_) k
    · rfl
    rw [eq_of_key_eq hsound.keys hr hsound.phase.2.2 hk]
    show RowState.broadcast ∈ RowState.signed.successors
    decide
  | @mine _ c row f u he hu =>
    refine moves_mapRow (fun _ => ?_) (fun r hr hk => ?_) k
    · rfl
    rw [eq_of_key_eq hsound.keys hr hsound.phase.1 hk]
    exact (RowState.successors_of_live hsound.phase.2).2
  | @kill _ _ c r reason he hr hfalls =>
    refine moves_mapRow (fun _ => ?_) (fun r' hr' hk => ?_) k
    · rfl
    rw [eq_of_key_eq hsound.keys hr' hr hk]
    exact (RowState.successors_of_live (hfalls.live hsound hr)).1

theorem orderly_mapRow {k : Key} {f : SpendRow → SpendRow} (h : ∀ r ∈ rows, Orderly r)
    (hf : ∀ r, Orderly (f r)) : ∀ r ∈ mapRow k f rows, Orderly r := by
  intro r hr
  obtain ⟨r', hr', ⟨-, rfl⟩ | ⟨-, rfl⟩⟩ := mem_mapRow.mp hr
  · exact hf r'
  · exact h _ hr'

theorem orderly_step (hsound : Sound i φ s) (h : ∀ r ∈ s.rows, Orderly r)
    (hstep : Step i env ok (φ, s) (φ', s')) : ∀ r ∈ s'.rows, Orderly r := by
  cases hstep with
  | receive | finish | settle | pass | stamp | find | count | setNext | sign | balk | record | send
  | giveBack => exact h
  | @grant _ c p row rows ts seq cut he hj hfit hcut hshown hts hseq hplace hbind =>
    intro r hr
    rcases (hplace.mem hsound.keys).mp hr with rfl | ⟨hr, -⟩
    · simp [Orderly, hplace.state_eq]
    · exact h r hr
  | mark he | broadcast he =>
    exact orderly_mapRow h fun r => ⟨by simp, fun _ => hexString_ne _⟩
  | mine he hu => exact orderly_mapRow h fun r => by simp [Orderly, Ledger.RowUpdates.apply]
  | kill reason he hr hfalls => exact orderly_mapRow h fun r => by simp [Orderly]

/-! ### Runs -/

/-- One more step of a call from a world where it can come in moves rows along. -/
theorem Reaches.moves {w : World} (h : Reaches i (fun _ _ => True) (fun _ _ _ => True) .running w)
    (call : Call) (script : List Choice) (c : Choice) (k : Key) :
    Moves ((execute i call script w).2.tables.get k)
      ((execute i call (script ++ [c]) w).2.tables.get k) := by
  obtain ⟨φ, hat, hφ⟩ := h.left
  have hserve := At.serve (c := call) (hat.receive script hφ trivial) rfl
  by_cases hstop : (execute i call script w).1 = .stopped
  · obtain ⟨φ', hrun, -, hcommits⟩ := Wp.run_next hserve (admits_true _ script _) hstop
    rcases hcommits c trivial with htables | ⟨φ'', hstep⟩
    · have htables : (execute i call (script ++ [c]) w).2.tables =
          (execute i call script w).2.tables := htables
      rw [htables]
      exact .stays _
    · exact moves_step (sound_run hrun (sound_initial i)) hstep k
  · have hsame : execute i call (script ++ [c]) w = execute i call script w :=
      run_append_of_ended [c] hstop
    rw [hsame]
    exact .stays _

/-- A whole call leaves a mined row as it is. -/
theorem Reaches.mined {w : World} (h : Reaches i (fun _ _ => True) (fun _ _ _ => True) .running w)
    (call : Call) (script : List Choice) {k : Key} {r : SpendRow}
    (hr : w.tables.get k = some r) (hmined : r.state = .mined) :
    (execute i call script w).2.tables.get k = some r := by
  induction script using List.reverseRecOn with
  | nil =>
    have hnil : (execute i call [] w).2 = w.record (.call call) := run_nil_snd _ _
    rw [hnil]
    exact hr
  | append_singleton script c ih =>
    have hmoves := h.moves call script c k
    rw [ih] at hmoves
    exact hmoves.mined hmined

/-- From a world between two calls on, a mined row stays as it is. -/
theorem Onwards.mined {w₀ w : World} {status : Status}
    (h₀ : Reaches i (fun _ _ => True) (fun _ _ _ => True) .running w₀)
    (h : Onwards i (fun _ _ _ => True) w₀ status w) {r : SpendRow}
    (hr : r ∈ w₀.tables.spend.rows) (hmined : r.state = .mined) : r ∈ w.tables.spend.rows := by
  have hget : Reaches i (fun _ _ => True) (fun _ _ _ => True) status w ∧
      w.tables.get r.key = some r := by
    induction h with
    | start => exact ⟨h₀, get_eq_some hr⟩
    | call c script h hok ih =>
      exact ⟨ih.1.call c script trivial (admits_true _ _ _), ih.1.mined c script ih.2 hmined⟩
    | restart h ih => exact ⟨ih.1.restart, ih.2⟩
  exact (mem_of_get hget.2).1

/-- Every row only moves along, at every step of every call; a mined row stays as it is for good; no
row is superseded, and a row whose transaction may be out names it. -/
theorem rows_move_along {status : Status} {w : World}
    (h : Reaches i (fun _ _ => True) (fun _ _ _ => True) status w) :
    (∀ r ∈ w.tables.spend.rows, Orderly r) ∧
    (status = .running → ∀ call script c k,
      Moves ((execute i call script w).2.tables.get k)
        ((execute i call (script ++ [c]) w).2.tables.get k)) ∧
    ∀ w₀, status = .running ∧ w₀ = w ∨ w₀ = w.restart →
      ∀ status' w', Onwards i (fun _ _ _ => True) w₀ status' w' →
        ∀ r ∈ w.tables.spend.rows, r.state = .mined → r ∈ w'.tables.spend.rows := by
  obtain ⟨φ, -, horderly⟩ := Reaches.invariant (I := fun _ s => ∀ r ∈ s.rows, Orderly r) h
    (fun r hr => absurd hr List.not_mem_nil) fun _ _ _ _ hsound hI hstep =>
      orderly_step hsound hI hstep
  refine ⟨horderly, ?_, ?_⟩
  · rintro rfl call script c k
    exact h.moves call script c k
  · rintro w₀ (⟨rfl, rfl⟩ | rfl) status' w' honwards r hr hmined
    · exact Onwards.mined h honwards hr hmined
    · exact Onwards.mined h.restart honwards hr hmined

section Sample

open EscrowSigner.Sample

/-- A debit is collected: its row is mined for good. -/
theorem rows_move_along_mined : ∃ w : World,
    (∃ r ∈ w.tables.spend.rows, r.state = .mined) ∧ (∀ r ∈ w.tables.spend.rows, Orderly r) ∧
    ∀ status' w', Onwards (signer unlimited "") (fun _ _ _ => True) w.restart status' w' →
      ∀ r ∈ w.tables.spend.rows, r.state = .mined → r ∈ w'.tables.spend.rows := by
  obtain ⟨status, w, hw, hmined⟩ := Reach.exists_of_play (i := signer unlimited "")
    (Q := fun _ => True) (E := fun _ _ => True) (K := fun _ _ _ => True)
    (P := fun _ w => ∃ r ∈ w.tables.spend.rows, r.state = .mined)
    [boot { time := 0 : Outside }.script, debit 1 { time := 0 : Outside }.script,
      boot { time := 1, used := true : Outside }.script] (fun _ _ _ _ => trivial)
    (by decide +kernel)
  obtain ⟨horderly, -, hstays⟩ := rows_move_along (hw.mono (fun _ _ _ => trivial) fun _ _ _ h => h)
  exact ⟨w, hmined, horderly, hstays _ (.inr rfl)⟩

end Sample

end Machine

end EscrowSigner
