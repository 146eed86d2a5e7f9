import EscrowSigner.Codec

/-! `receipt_used`: whether a receipt has been collected, asked per channel on a V2 escrow and globally on
a V1 escrow.  The pool remembers which escrows are V1.  An `eth_call` is answered by a node that may
answer anything at any time, so a history of calls is a list of requests and a node. -/

namespace EscrowSigner.Chainio

/-- The questions of `receipt_used`. -/
inductive Question
  | isReceiptUsed (channelId receiptId : Bytes)
  | settleWindow
  | usedReceipts (receiptId : Bytes)
deriving DecidableEq, Repr

/-- The calldata of a question. -/
def Question.calldata (x : Externals) : Question → Bytes
  | isReceiptUsed channelId receiptId =>
    Calldata.selector x "isReceiptUsed(bytes32,bytes32)" ++ channelId ++ receiptId
  | settleWindow => Calldata.selector x "SETTLE_WINDOW()"
  | usedReceipts receiptId => Calldata.selector x "usedReceipts(bytes32)" ++ receiptId

/-- Whether a question is the one for a V1 escrow. -/
def Question.isV1 : Question → Bool
  | usedReceipts _ => true
  | isReceiptUsed .. | settleWindow => false

/-- How an `eth_call` ends. -/
inductive Outcome
  | outage (message : String)
  | revert (name : String)
  | answer (out : Bytes)
deriving DecidableEq, Repr

/-- An `eth_call` that was made. -/
structure Asked where
  escrow : String
  question : Question
  outcome : Outcome
deriving DecidableEq, Repr

/-- What a pool keeps: the escrows it took for V1, and its calls, the newest first. -/
structure Pool where
  v1Escrows : List String
  asked : List Asked
deriving DecidableEq, Repr

def Pool.fresh : Pool := ⟨[], []⟩

/-- A node: how the next call on an escrow ends, after the calls before it. -/
abbrev Node := List Asked → String → Bytes → Outcome

variable (x : Externals) (node : Node)

def ethCall (escrow : String) (question : Question) (pool : Pool) : Outcome × Pool :=
  let outcome := node pool.asked escrow (question.calldata x)
  (outcome, { pool with asked := ⟨escrow, question, outcome⟩ :: pool.asked })

/-- `out[-32:]`. -/
def lastWord (out : Bytes) : Bytes := out.drop (out.length - 32)

/-- The question for a V2 escrow: the result, or nothing where the escrow is V1. -/
def askV2 (escrow : String) (receiptId channelId : Bytes) (pool : Pool) :
    Option (Except Exn Bool) × Pool :=
  let (used, pool) := ethCall x node escrow (.isReceiptUsed channelId receiptId) pool
  match used with
  | .revert _ =>
    let (window, pool) := ethCall x node escrow .settleWindow pool
    match window with
    | .revert _ => (none, { pool with v1Escrows := pool.v1Escrows.insert (lower escrow) })
    | .outage message => (some (.error (.rpcUnavailable message)), pool)
    | .answer _ =>
      (some (.error (.rpcUnavailable "isReceiptUsed reverted on a V2 escrow")), pool)
  | .outage message => (some (.error (.rpcUnavailable message)), pool)
  | .answer out =>
    if out.length < 32 then
      (some (.error (.rpcUnavailable s!"isReceiptUsed returned {out.length} bytes")), pool)
    else (some (.ok (fromBytes (lastWord out) != 0)), pool)

/-- The question for a V1 escrow. -/
def askV1 (escrow : String) (receiptId : Bytes) (pool : Pool) : Except Exn Bool × Pool :=
  let (used, pool) := ethCall x node escrow (.usedReceipts receiptId) pool
  match used with
  | .revert name => (.error (.reverted name), pool)
  | .outage message => (.error (.rpcUnavailable message), pool)
  | .answer out => (.ok (if out = [] then false else fromBytes (lastWord out) != 0), pool)

/-- The part of `receipt_used` before the question for a V1 escrow. -/
def tryV2 (escrow : String) (receiptId : Bytes) (channelId : Option Bytes) (pool : Pool) :
    Option (Except Exn Bool) × Pool :=
  match channelId with
  | some channel =>
    if lower escrow ∉ pool.v1Escrows then askV2 x node escrow receiptId channel pool
    else (none, pool)
  | none => (none, pool)

def receiptUsed (escrow : String) (receiptId : Bytes) (channelId : Option Bytes) (pool : Pool) :
    Except Exn Bool × Pool :=
  match tryV2 x node escrow receiptId channelId pool with
  | (some result, pool) => (result, pool)
  | (none, pool) => askV1 x node escrow receiptId pool

/-! ### What a result rests on -/

/-- An exception that refuses the request. -/
def Refuses (result : Except Exn Bool) : Prop :=
  ∃ text, result = .error (.rpcUnavailable text) ∨ result = .error (.reverted text)

/-- The reverts by which a V1 escrow is known: those of both questions that only a V2 escrow answers. -/
def IdentifiesV1 (made : List Asked) (a : Asked) : Prop :=
  a.question.isV1 = false ∧ (∃ b ∈ made, b.question = .settleWindow) ∧
    ∀ b ∈ made, b.question.isV1 = false → ∃ name, b.outcome = .revert name

/-- A call that is no answer: an outage, a revert that does not show that the escrow is V1, or less than a
word. -/
def NoAnswer (made : List Asked) (a : Asked) : Prop :=
  match a.outcome with
  | .outage _ => True
  | .revert _ => ¬ IdentifiesV1 made a
  | .answer out => out.length < 32

/-- A result, with the calls that were made for it, the newest first: "not used" is a zero word that was
read last, and where a call is no answer, the request is refused. -/
structure Faithful (made : List Asked) (result : Except Exn Bool) : Prop where
  unused : result = .ok false → ∃ a rest out, made = a :: rest ∧ a.outcome = .answer out ∧
    32 ≤ out.length ∧ fromBytes (lastWord out) = 0
  refused : ∀ a ∈ made, NoAnswer made a → Refuses result

/-- When a call of `receipt_used` comes to the V1 question, and the calls of the pool by then: without a
channel, on an escrow taken for V1, or after the reverts that show that it is V1. -/
inductive ComesToV1 (escrow : String) (receiptId : Bytes) (pool : Pool) :
    Option Bytes → List Asked → Prop
  | unnamed : ComesToV1 escrow receiptId pool none pool.asked
  | known {channelId : Bytes} (h : lower escrow ∈ pool.v1Escrows) :
    ComesToV1 escrow receiptId pool (some channelId) pool.asked
  | found {channelId : Bytes} {name name' : String} {asked : Asked} (h : lower escrow ∉ pool.v1Escrows)
    (hasked : asked = ⟨escrow, .isReceiptUsed channelId receiptId, .revert name⟩)
    (hused : node pool.asked escrow ((Question.isReceiptUsed channelId receiptId).calldata x) =
      .revert name)
    (hwindow : node (asked :: pool.asked) escrow (Question.settleWindow.calldata x) = .revert name') :
    ComesToV1 escrow receiptId pool (some channelId)
      (⟨escrow, .settleWindow, .revert name'⟩ :: asked :: pool.asked)

/-- The V1 question, if the request comes to it, is not answered with less than a word. -/
def WholeV1 (escrow : String) (receiptId : Bytes) (channelId : Option Bytes) (pool : Pool) : Prop :=
  ∀ asked, ComesToV1 x node escrow receiptId pool channelId asked → ∀ out,
    node asked escrow ((Question.usedReceipts receiptId).calldata x) = .answer out → 32 ≤ out.length

variable {x node} {escrow : String} {receiptId : Bytes} {pool : Pool}

theorem Faithful.of_refusal {made : List Asked} {e : Exn}
    (h : Refuses (.error e)) : Faithful made (.error e) :=
  ⟨fun hok => (by cases hok), fun _ _ _ => h⟩

theorem refuses_unavailable (message : String) : Refuses (.error (.rpcUnavailable message)) :=
  ⟨message, .inl rfl⟩

/-- A whole word is an answer, and is read last. -/
theorem Faithful.of_answer {a : Asked} {made : List Asked} {out : Bytes}
    (ha : a.outcome = .answer out) (hout : 32 ≤ out.length)
    (hmade : ∀ b ∈ made, ¬ NoAnswer (a :: made) b) :
    Faithful (a :: made) (.ok (fromBytes (lastWord out) != 0)) := by
  refine ⟨fun hfalse => ⟨a, made, out, rfl, ha, hout, ?_⟩, fun b hb hno => ?_⟩
  · simpa using Except.ok.inj hfalse
  · rcases List.mem_cons.mp hb with rfl | hb
    · rw [NoAnswer, ha] at hno
      exact absurd hout (not_le.mpr hno)
    · exact absurd hno (hmade b hb)

/-- What the question for a V2 escrow comes to: a result, or two reverts that show a V1 escrow. -/
theorem askV2_made (channelId : Bytes) : ∃ made,
    (askV2 x node escrow receiptId channelId pool).2.asked = made ++ pool.asked ∧
      (∀ result, (askV2 x node escrow receiptId channelId pool).1 = some result →
        Faithful made result) ∧
      ((askV2 x node escrow receiptId channelId pool).1 = none →
        ∀ a ∈ made, ∀ a', a'.question.isV1 = true → IdentifiesV1 (a' :: made) a) := by
  simp only [askV2, ethCall]
  cases node pool.asked escrow ((Question.isReceiptUsed channelId receiptId).calldata x) with
  | outage message =>
    refine ⟨[_], rfl, fun result h => ?_, fun h => by cases h⟩
    cases h
    exact .of_refusal (refuses_unavailable _)
  | answer out =>
    refine ⟨[⟨escrow, .isReceiptUsed channelId receiptId, .answer out⟩], ?_⟩
    dsimp only
    split
    · refine ⟨rfl, fun result h => ?_, fun h => by cases h⟩
      cases h
      exact .of_refusal (refuses_unavailable _)
    · rename_i hlong
      refine ⟨rfl, fun result h => ?_, fun h => by cases h⟩
      cases h
      exact .of_answer rfl (not_lt.mp hlong) fun _ hb => absurd hb List.not_mem_nil
  | revert name =>
    dsimp only
    cases node (⟨escrow, .isReceiptUsed channelId receiptId, .revert name⟩ :: pool.asked) escrow
      (Question.settleWindow.calldata x) with
    | outage message =>
      refine ⟨[_, _], rfl, fun result h => ?_, fun h => by cases h⟩
      cases h
      exact .of_refusal (refuses_unavailable _)
    | answer out =>
      refine ⟨[_, _], rfl, fun result h => ?_, fun h => by cases h⟩
      cases h
      exact .of_refusal (refuses_unavailable _)
    | revert name' =>
      refine ⟨[⟨escrow, .settleWindow, .revert name'⟩,
        ⟨escrow, .isReceiptUsed channelId receiptId, .revert name⟩], rfl, fun result h => (by cases h),
        fun _ a ha a' ha' => ⟨?_, ⟨_, List.mem_cons_of_mem _ List.mem_cons_self, rfl⟩,
          fun b hb hv => ?_⟩⟩
      · rcases List.mem_pair.mp ha with rfl | rfl <;> rfl
      · rcases List.mem_cons.mp hb with rfl | hb
        · cases ha'.symm.trans hv
        · rcases List.mem_pair.mp hb with rfl | rfl
          · exact ⟨_, rfl⟩
          · exact ⟨_, rfl⟩

variable (x node escrow receiptId pool) in
/-- The V1 question is one more call. -/
theorem askV1_made : ∃ a, (askV1 x node escrow receiptId pool).2.asked = a :: pool.asked ∧
    a.question.isV1 = true ∧
      a.outcome = (ethCall x node escrow (.usedReceipts receiptId) pool).1 := by
  simp only [askV1, ethCall]
  cases node pool.asked escrow ((Question.usedReceipts receiptId).calldata x) <;>
    exact ⟨_, rfl, rfl, rfl⟩

/-- Its result is faithful exactly if its answer is no part of a word. -/
theorem askV1_faithful {a : Asked} {made : List Asked}
    (ha : a.outcome = (ethCall x node escrow (.usedReceipts receiptId) pool).1)
    (hmade : ∀ b ∈ made, IdentifiesV1 (a :: made) b) :
    Faithful (a :: made) (askV1 x node escrow receiptId pool).1 ↔
      ∀ out, a.outcome = .answer out → 32 ≤ out.length := by
  rw [ha]
  simp only [askV1]
  cases houtcome : (ethCall x node escrow (.usedReceipts receiptId) pool).1 with
  | outage message =>
    exact ⟨fun _ out h => (by cases h), fun _ => .of_refusal (refuses_unavailable _)⟩
  | revert name =>
    exact ⟨fun _ out h => (by cases h), fun _ => .of_refusal ⟨name, .inr rfl⟩⟩
  | answer out =>
    dsimp only
    constructor
    · intro h out' hout'
      cases hout'
      refine not_lt.mp fun hshort => ?_
      obtain ⟨text, hrefused | hrefused⟩ := h.refused a List.mem_cons_self (by
        rw [NoAnswer, ha, houtcome]
        exact hshort)
      · cases hrefused
      · cases hrefused
    · intro h
      have hlong := h out rfl
      have hne : out ≠ [] := by
        rintro rfl
        exact absurd hlong (by decide)
      rw [if_neg hne]
      refine .of_answer (ha.trans houtcome) hlong fun b hb hno => ?_
      obtain ⟨name, hname⟩ := (hmade b hb).2.2 b (List.mem_cons_of_mem _ hb) (hmade b hb).1
      rw [NoAnswer, hname] at hno
      exact hno (hmade b hb)

variable (x node escrow receiptId pool) in
theorem tryV2_made (channelId : Option Bytes) : ∃ made,
    (tryV2 x node escrow receiptId channelId pool).2.asked = made ++ pool.asked ∧
      (∀ result, (tryV2 x node escrow receiptId channelId pool).1 = some result →
        Faithful made result) ∧
      ((tryV2 x node escrow receiptId channelId pool).1 = none →
        ∀ a ∈ made, ∀ a', a'.question.isV1 = true → IdentifiesV1 (a' :: made) a) := by
  unfold tryV2
  split
  · split
    · exact askV2_made _
    · exact ⟨[], rfl, fun _ h => (by cases h), fun _ _ ha => absurd ha List.not_mem_nil⟩
  · exact ⟨[], rfl, fun _ h => (by cases h), fun _ _ ha => absurd ha List.not_mem_nil⟩

/-- The calls before the V1 question. -/
theorem comesToV1_iff {channelId : Option Bytes} {asked : List Asked} :
    ComesToV1 x node escrow receiptId pool channelId asked ↔
      (tryV2 x node escrow receiptId channelId pool).1 = none ∧
        (tryV2 x node escrow receiptId channelId pool).2.asked = asked := by
  constructor
  · intro h
    cases h with
    | unnamed => exact ⟨rfl, rfl⟩
    | known h => simp only [tryV2, h, not_true_eq_false, if_false, and_self]
    | found h hasked hused hwindow =>
      subst hasked
      simp only [tryV2, h, not_false_eq_true, if_true, askV2, ethCall, hused, hwindow, and_self]
  · rintro ⟨hnone, rfl⟩
    cases channelId with
    | none => exact .unnamed
    | some channelId =>
      unfold tryV2 at hnone ⊢
      by_cases h : lower escrow ∈ pool.v1Escrows
      · simp only [h, not_true_eq_false, if_false]
        exact .known h
      simp only [h, not_false_eq_true, if_true, askV2, ethCall] at hnone ⊢
      cases hused : node pool.asked escrow ((Question.isReceiptUsed channelId receiptId).calldata x) with
      | outage message =>
        rw [hused] at hnone
        cases hnone
      | answer out =>
        simp only [hused] at hnone
        split at hnone <;> cases hnone
      | revert name =>
        simp only [hused] at hnone ⊢
        cases hwindow : node (⟨escrow, .isReceiptUsed channelId receiptId, .revert name⟩ :: pool.asked)
            escrow (Question.settleWindow.calldata x) with
        | outage message =>
          rw [hwindow] at hnone
          cases hnone
        | answer out =>
          rw [hwindow] at hnone
          cases hnone
        | revert name' => exact .found h rfl hused hwindow

/-- A call of `receipt_used`, whatever was called before it and however its own calls end, says "not used"
only of a zero word that it read last, and refuses where a call was no answer: exactly if the V1 question,
where it comes to it, is not answered with less than a word. -/
theorem unused_only_read (escrow : String) (receiptId : Bytes) (channelId : Option Bytes)
    (pool : Pool) :
    (∃ made, (receiptUsed x node escrow receiptId channelId pool).2.asked = made ++ pool.asked ∧
      Faithful made (receiptUsed x node escrow receiptId channelId pool).1) ↔
    WholeV1 x node escrow receiptId channelId pool := by
  obtain ⟨made, hmade, hresult, hnone⟩ := tryV2_made x node escrow receiptId pool channelId
  unfold WholeV1 receiptUsed
  simp only [comesToV1_iff]
  generalize tryV2 x node escrow receiptId channelId pool = r at hmade hresult hnone
  obtain ⟨result, pool'⟩ := r
  cases result with
  | some result =>
    exact ⟨fun _ _ h => (by cases h.1), fun _ => ⟨made, hmade, hresult result rfl⟩⟩
  | none =>
    dsimp only at hmade ⊢
    obtain ⟨a, hasked, hv1, houtcome⟩ := askV1_made x node escrow receiptId pool'
    have hids : ∀ b ∈ made, IdentifiesV1 (a :: made) b := fun b hb => hnone rfl b hb a hv1
    have hiff := askV1_faithful houtcome hids
    rw [houtcome] at hiff
    rw [hasked]
    constructor
    · rintro ⟨made', happend, hfaithful⟩ asked ⟨-, rfl⟩
      rw [hmade] at happend
      have hsame : a :: made = made' := List.append_cancel_right (happend : (a :: made) ++ _ = _)
      exact hiff.mp (hsame ▸ hfaithful)
    · exact fun h => ⟨a :: made, congrArg (a :: ·) hmade, hiff.mpr (h _ ⟨rfl, rfl⟩)⟩

/-- An empty answer on an escrow that was just found to be V1 is taken for "not used". -/
theorem unused_not_only_read : ∃ (x : Externals) (node : Node) (receiptId channelId : Bytes),
    (receiptUsed x node "0xe5" receiptId (some channelId) .fresh).1 = .ok false ∧
      ¬ ∃ made, (receiptUsed x node "0xe5" receiptId (some channelId) .fresh).2.asked =
        made ++ Pool.fresh.asked ∧ Faithful made (.ok false) := by
  let node : Node := fun asked _ _ =>
    if asked.length < 2 then .revert "unknown_revert" else .answer []
  refine ⟨Sample.unhashed, node, zeroBytes 31 ++ [1], zeroBytes 31 ++ [2], rfl, ?_⟩
  rintro ⟨made, hmade, hfaithful⟩
  obtain ⟨a, rest, out, rfl, hout, hlong, -⟩ := hfaithful.unused rfl
  have hhead : a.outcome = .answer [] := by
    rw [← (List.cons.inj hmade).1]
    rfl
  rw [hout] at hhead
  cases hhead
  exact absurd hlong (by decide)

/-! ### Which escrows are taken for V1 -/

/-- A call of `receipt_used` that was made, with its own calls and its result. -/
structure Served where
  escrow : String
  receiptId : Bytes
  channelId : Option Bytes
  made : List Asked
  result : Except Exn Bool

/-- Whether a call did not end in an outage. -/
def Served.answered (s : Served) : Bool :=
  match s.result with
  | .error (.rpcUnavailable _) => false
  | .error _ | .ok _ => true

/-- Whether a question is the one about a receipt on its channel. -/
def Question.isPerChannel : Question → Bool
  | isReceiptUsed .. => true
  | settleWindow | usedReceipts _ => false

variable (x node) in
/-- The histories of calls on one pool, the newest first. -/
inductive History : Pool → List Served → Prop
  | fresh : History .fresh []
  | call {pool : Pool} {served : List Served} (h : History pool served) (escrow : String)
    (receiptId : Bytes) (channelId : Option Bytes) (made : List Asked)
    (hmade : (receiptUsed x node escrow receiptId channelId pool).2.asked = made ++ pool.asked) :
    History (receiptUsed x node escrow receiptId channelId pool).2
      (⟨escrow, receiptId, channelId, made,
        (receiptUsed x node escrow receiptId channelId pool).1⟩ :: served)

/-- How often an escrow was asked about a receipt on its channel, by calls that did not end in an
outage. -/
def asksPerChannel (escrow : String) (served : List Served) : Nat :=
  ((served.filter fun s => lower s.escrow = lower escrow ∧ s.answered).flatMap (·.made)).countP
    (·.question.isPerChannel)

variable (x node) in
/-- A call that does not come to the V1 question. -/
structure EndsOnV2 (escrow : String) (receiptId channelId : Bytes) (pool pool' : Pool)
    (result : Except Exn Bool) : Prop where
  escrows : pool'.v1Escrows = pool.v1Escrows
  unknown : lower escrow ∉ pool.v1Escrows
  asked : ∃ made, pool'.asked = made ++ pool.asked ∧ ∀ a ∈ made, a.question.isV1 = false
  refused : (∀ asked out,
    node asked escrow ((Question.isReceiptUsed channelId receiptId).calldata x) ≠ .answer out) →
    ∃ message, result = .error (.rpcUnavailable message)

/-- What a result from the questions for a V2 escrow comes from. -/
theorem endsOnV2 {channelId : Option Bytes} {result : Except Exn Bool}
    (h : (tryV2 x node escrow receiptId channelId pool).1 = some result) :
    ∃ channel, channelId = some channel ∧ EndsOnV2 x node escrow receiptId channel pool
      (tryV2 x node escrow receiptId channelId pool).2 result := by
  cases channelId with
  | none => cases h
  | some channel =>
    refine ⟨channel, rfl, ?_⟩
    unfold tryV2 at h ⊢
    by_cases hmem : lower escrow ∈ pool.v1Escrows
    · simp only [hmem, not_true_eq_false, if_false] at h
      cases h
    simp only [hmem, not_false_eq_true, if_true, askV2, ethCall] at h ⊢
    cases hused : node pool.asked escrow ((Question.isReceiptUsed channel receiptId).calldata x) with
    | outage message =>
      simp only [hused, Option.some.injEq] at h ⊢
      subst h
      exact ⟨rfl, hmem, ⟨[_], rfl, by simp [Question.isV1]⟩, fun _ => ⟨message, rfl⟩⟩
    | answer out =>
      have hanswered : ¬ ∀ asked out,
          node asked escrow ((Question.isReceiptUsed channel receiptId).calldata x) ≠ .answer out :=
        fun hnone => hnone _ _ hused
      simp only [hused] at h ⊢
      split at h <;> split <;>
        exact ⟨rfl, hmem, ⟨[_], rfl, by simp [Question.isV1]⟩, fun hnone => absurd hnone hanswered⟩
    | revert name =>
      simp only [hused] at h ⊢
      cases hwindow : node (⟨escrow, .isReceiptUsed channel receiptId, .revert name⟩ :: pool.asked)
          escrow (Question.settleWindow.calldata x) with
      | revert name' =>
        simp only [hwindow] at h
        cases h
      | outage message =>
        simp only [hwindow, Option.some.injEq] at h ⊢
        subst h
        exact ⟨rfl, hmem, ⟨[_, _], rfl, by simp [Question.isV1]⟩, fun _ => ⟨_, rfl⟩⟩
      | answer out =>
        simp only [hwindow, Option.some.injEq] at h ⊢
        subst h
        exact ⟨rfl, hmem, ⟨[_, _], rfl, by simp [Question.isV1]⟩, fun _ => ⟨_, rfl⟩⟩

/-- The escrows taken for V1 when the V1 question comes up. -/
theorem ComesToV1.escrows {channelId : Option Bytes} {asked : List Asked}
    (h : ComesToV1 x node escrow receiptId pool channelId asked) (v : String) :
    v ∈ (tryV2 x node escrow receiptId channelId pool).2.v1Escrows ↔
      v ∈ pool.v1Escrows ∨ channelId ≠ none ∧ v = lower escrow := by
  cases h with
  | unnamed => simp [tryV2]
  | known h =>
    simp only [tryV2, h, not_true_eq_false, if_false, ne_eq, reduceCtorEq, not_false_eq_true, true_and]
    exact ⟨.inl, fun hv => hv.elim id fun hv => hv ▸ h⟩
  | found h hasked hused hwindow =>
    subst hasked
    simp only [tryV2, h, not_false_eq_true, if_true, askV2, ethCall, hused, hwindow,
      List.mem_insert_iff, ne_eq, reduceCtorEq, true_and]
    exact or_comm

theorem askV1_escrows :
    (askV1 x node escrow receiptId pool).2.v1Escrows = pool.v1Escrows := by
  simp only [askV1, ethCall]
  cases node pool.asked escrow ((Question.usedReceipts receiptId).calldata x) <;> rfl

theorem receiptUsed_some {channelId : Option Bytes} {result : Except Exn Bool}
    (h : (tryV2 x node escrow receiptId channelId pool).1 = some result) :
    receiptUsed x node escrow receiptId channelId pool =
      (result, (tryV2 x node escrow receiptId channelId pool).2) := by
  unfold receiptUsed
  split
  · rename_i htry
    rw [htry] at h ⊢
    cases h
    rfl
  · rename_i htry
    rw [htry] at h
    cases h

theorem receiptUsed_none {channelId : Option Bytes}
    (h : (tryV2 x node escrow receiptId channelId pool).1 = none) :
    receiptUsed x node escrow receiptId channelId pool =
      askV1 x node escrow receiptId (tryV2 x node escrow receiptId channelId pool).2 := by
  unfold receiptUsed
  split
  · rename_i htry
    rw [htry] at h
    cases h
  · rename_i htry
    rw [htry]

variable (x node escrow receiptId pool) in
/-- A call of `receipt_used` ends on the questions for a V2 escrow or comes to the V1 question. -/
theorem receiptUsed_cases (channelId : Option Bytes) :
    (∃ channel, channelId = some channel ∧
      EndsOnV2 x node escrow receiptId channel pool
        (receiptUsed x node escrow receiptId channelId pool).2
        (receiptUsed x node escrow receiptId channelId pool).1) ∨
    (∃ asked a, ComesToV1 x node escrow receiptId pool channelId asked ∧
      (receiptUsed x node escrow receiptId channelId pool).2.asked = a :: asked ∧
      a.question.isV1 = true ∧
      ∀ v, v ∈ (receiptUsed x node escrow receiptId channelId pool).2.v1Escrows ↔
        v ∈ pool.v1Escrows ∨ channelId ≠ none ∧ v = lower escrow) := by
  cases hresult : (tryV2 x node escrow receiptId channelId pool).1 with
  | some result =>
    rw [receiptUsed_some hresult]
    exact .inl (endsOnV2 hresult)
  | none =>
    rw [receiptUsed_none hresult, askV1_escrows]
    have hcomes := comesToV1_iff.mpr ⟨hresult, rfl⟩
    obtain ⟨a, hasked, hv1, -⟩ := askV1_made x node escrow receiptId
      (tryV2 x node escrow receiptId channelId pool).2
    exact .inr ⟨_, a, hcomes, hasked, hv1, hcomes.escrows⟩

variable {served : List Served}

/-- An escrow whose settle window never reverts is not taken for V1, and is not asked the V1 question by a
call with a channel. -/
theorem History.never_learned (h : History x node pool served)
    (hwindow : ∀ asked spelled name, lower spelled = lower escrow →
      node asked spelled (Question.settleWindow.calldata x) ≠ .revert name) :
    lower escrow ∉ pool.v1Escrows ∧
      ∀ s ∈ served, s.channelId ≠ none → lower s.escrow = lower escrow →
        ∀ a ∈ s.made, a.question.isV1 = false := by
  induction h with
  | fresh => exact ⟨List.not_mem_nil, fun s hs => absurd hs List.not_mem_nil⟩
  | @call pool served h spelled receiptId channelId made hmade ih =>
    rcases receiptUsed_cases x node spelled receiptId pool channelId with
      ⟨channel, rfl, hends⟩ | ⟨asked, a, hcomes, hasked, hv1, hescrows⟩
    · refine ⟨hends.escrows ▸ ih.1, fun s hs => ?_⟩
      rcases List.mem_cons.mp hs with rfl | hs
      · intro _ _
        obtain ⟨made', hmade', hv1⟩ := hends.asked
        rwa [List.append_cancel_right (hmade.symm.trans hmade')]
      · exact ih.2 s hs
    · -- without a channel nothing is learned; with one, the escrow is another
      have hother : channelId ≠ none → lower spelled ≠ lower escrow := by
        intro hchannel hsame
        cases hcomes with
        | unnamed => exact hchannel rfl
        | known hmem => exact ih.1 (hsame ▸ hmem)
        | found _ _ _ hreverted => exact hwindow _ _ _ hsame hreverted
      refine ⟨fun hmem => ?_, fun s hs => ?_⟩
      · rcases (hescrows _).mp hmem with hmem | ⟨hchannel, hsame⟩
        · exact ih.1 hmem
        · exact hother hchannel hsame.symm
      · rcases List.mem_cons.mp hs with rfl | hs
        · exact fun hchannel hsame => absurd hsame (hother hchannel)
        · exact ih.2 s hs

theorem asksPerChannel_cons (s : Served) :
    asksPerChannel escrow (s :: served) =
      (if lower s.escrow = lower escrow ∧ s.answered then s.made.countP (·.question.isPerChannel)
        else 0) + asksPerChannel escrow served := by
  unfold asksPerChannel
  by_cases hs : lower s.escrow = lower escrow ∧ s.answered
  · rw [List.filter_cons_of_pos (by simpa using hs), List.flatMap_cons, List.countP_append, if_pos hs]
  · rw [List.filter_cons_of_neg (by simpa using hs), if_neg hs, Nat.zero_add]

/-- The question on a channel is asked before the V1 question only on an escrow that was not yet taken
for V1. -/
theorem ComesToV1.perChannel {channelId : Option Bytes} {asked : List Asked}
    (h : ComesToV1 x node escrow receiptId pool channelId asked) :
    ∃ made, asked = made ++ pool.asked ∧ (made.countP (·.question.isPerChannel) = 0 ∨
      made.countP (·.question.isPerChannel) = 1 ∧ lower escrow ∉ pool.v1Escrows ∧
        channelId ≠ none) := by
  cases h with
  | unnamed => exact ⟨[], rfl, .inl rfl⟩
  | known => exact ⟨[], rfl, .inl rfl⟩
  | found h hasked =>
    subst hasked
    exact ⟨[_, _], rfl, .inr ⟨rfl, h, Option.some_ne_none _⟩⟩

theorem Question.not_perChannel {q : Question} (h : q.isV1 = true) : q.isPerChannel = false := by
  cases q with
  | isReceiptUsed | settleWindow => cases h
  | usedReceipts => rfl

/-- An escrow that never answers the questions of V2 is asked about a channel by one call at most, outages
apart; after that it is taken for V1. -/
theorem History.learned_once (h : History x node pool served)
    (hnever : ∀ asked spelled (q : Question) out, lower spelled = lower escrow → q.isV1 = false →
      node asked spelled (q.calldata x) ≠ .answer out) :
    asksPerChannel escrow served ≤ 1 ∧
      (asksPerChannel escrow served ≠ 0 → lower escrow ∈ pool.v1Escrows) := by
  induction h with
  | fresh => exact ⟨Nat.zero_le 1, fun h => absurd rfl h⟩
  | @call pool served h spelled receiptId channelId made hmade ih =>
    rw [asksPerChannel_cons]
    rcases receiptUsed_cases x node spelled receiptId pool channelId with
      ⟨channel, rfl, hends⟩ | ⟨asked, a, hcomes, hasked, hv1, hescrows⟩
    · rw [if_neg ?_, Nat.zero_add, hends.escrows]
      · exact ih
      · rintro ⟨hsame, hanswered⟩
        obtain ⟨message, hresult⟩ := hends.refused fun _ _ => hnever _ _ _ _ hsame rfl
        rw [Served.answered, hresult] at hanswered
        cases hanswered
    · have hkept : lower escrow ∈ pool.v1Escrows → lower escrow ∈
          (receiptUsed x node spelled receiptId channelId pool).2.v1Escrows :=
        fun hmem => (hescrows _).mpr (.inl hmem)
      split
      · rename_i hserved
        obtain ⟨made', hmade', hcount⟩ := hcomes.perChannel
        have hcons : made = a :: made' := by
          rw [hasked, hmade'] at hmade
          exact (List.append_cancel_right (hmade : (a :: made') ++ _ = _)).symm
        rw [hcons, List.countP_cons, Question.not_perChannel hv1]
        rcases hcount with hcount | ⟨hcount, hunknown, hchannel⟩
        · rw [hcount]
          exact ⟨by simpa using ih.1, fun hne => hkept (ih.2 (by simpa using hne))⟩
        · -- the first such call: none before it, and the escrow is known from now on
          have hzero : asksPerChannel escrow served = 0 :=
            not_not.mp fun hne => hunknown (hserved.1 ▸ ih.2 hne)
          rw [hcount, hzero]
          exact ⟨by simp, fun _ => (hescrows _).mpr (.inr ⟨hchannel, hserved.1.symm⟩)⟩
      · rw [Nat.zero_add]
        exact ⟨ih.1, fun hne => hkept (ih.2 hne)⟩

/-- Over every history, an escrow whose settle window never reverts is not taken for V1 and not asked the
V1 question about a channel, and an escrow that answers no question of V2 is asked about a channel once,
outages apart. -/
theorem questions_apart (h : History x node pool served) (escrow : String) :
    ((∀ asked spelled name, lower spelled = lower escrow →
        node asked spelled (Question.settleWindow.calldata x) ≠ .revert name) →
      lower escrow ∉ pool.v1Escrows ∧
        ∀ s ∈ served, s.channelId ≠ none → lower s.escrow = lower escrow →
          ∀ a ∈ s.made, a.question.isV1 = false) ∧
    ((∀ asked spelled (q : Question) out, lower spelled = lower escrow → q.isV1 = false →
        node asked spelled (q.calldata x) ≠ .answer out) →
      asksPerChannel escrow served ≤ 1) :=
  ⟨h.never_learned, fun hnever => (h.learned_once hnever).1⟩

/-- Three calls: a revert on a V2 escrow, and two on an escrow that answers nothing, in two spellings. -/
theorem questions_apart_thrice : ∃ (node : Node) (pool : Pool) (served : List Served),
    History Sample.unhashed node pool served ∧ served.length = 3 ∧
      lower "0xE5" ∉ pool.v1Escrows ∧ asksPerChannel "0xF1" served ≤ 1 := by
  let node : Node := fun _ spelled data =>
    if lower spelled = "0xe5" ∧ data = Question.settleWindow.calldata Sample.unhashed then
      .answer (zeroBytes 32)
    else .revert "unknown_revert"
  have h₁ : History Sample.unhashed node _ _ := History.fresh.call "0xe5" [1] (some [2])
    [⟨"0xe5", .settleWindow, .answer (zeroBytes 32)⟩,
      ⟨"0xe5", .isReceiptUsed [2] [1], .revert "unknown_revert"⟩] (by decide)
  have h₂ := h₁.call "0xF1" [1] (some [2])
    [⟨"0xF1", .usedReceipts [1], .revert "unknown_revert"⟩,
      ⟨"0xF1", .settleWindow, .revert "unknown_revert"⟩,
      ⟨"0xF1", .isReceiptUsed [2] [1], .revert "unknown_revert"⟩] (by decide)
  have h₃ := h₂.call "0xf1" [3] (some [2])
    [⟨"0xf1", .usedReceipts [3], .revert "unknown_revert"⟩] (by decide)
  have hv2 : lower "0xE5" = "0xe5" := by decide
  have hv1 : lower "0xF1" ≠ "0xe5" := by decide
  refine ⟨node, _, _, h₃, rfl, ((questions_apart h₃ "0xE5").1 ?_).1, (questions_apart h₃ "0xF1").2 ?_⟩
  · intro asked spelled name hspelled
    simp [node, hspelled, hv2]
  · intro asked spelled q out hspelled hq
    simp [node, hspelled, hv1]

end EscrowSigner.Chainio
