import EscrowSigner.Integrity.Runs
import EscrowSigner.Policy.Interface
import EscrowSigner.Server.Receipts

/-! The server with its threads: every accepted request has a thread of its own, a call has the turn of the
signing lock, and the methods of the ledger run under its mutex.  Whatever the schedule, the threads
see and leave what they would if each method ran at once, so the books go through nothing but
operations of the ledger one after the other. -/

namespace EscrowSigner.Server

open Policy Integrity
open Process (Thread Threads Pool Built)
open Ledger (Method)

variable {i : Instance} {front : Front} {int : String → Option Int} {α β ι : Type}

/-! ### The code of the tasks -/

theorem composed_decide (d : Decision) : Composed i.ext (decide i d) := by
  refine (composed_audit _).attempt.bind fun r => ?_
  split
  · exact Built.pure _
  · split <;> exact Built.pure _

theorem composed_post (rawBody : Bytes) : Composed i.ext (post i rawBody) := by
  refine (composed_handle i rawBody).attempt.bind fun r => ?_
  split
  · exact composed_decide _
  · exact composed_decide _

theorem composed_get (path : String) : Composed i.ext (get i path) := by
  unfold get
  split
  · exact composed_readMemory.bind fun _ => composed_readMemory.bind fun _ =>
      composed_readMemory.bind fun _ => (composed_method .halted).bind fun _ => Built.pure _
  split
  · exact (composed_method .stats).bind fun _ => composed_readMemory.bind fun _ => Built.pure _
  split
  · unfold getReceipt
    split
    · refine (composed_method (.get _)).bind fun row => ?_
      split <;> exact Built.pure _
    · exact Built.pure _
  · exact Built.pure _

theorem composed_task (task : Task) : Composed i.ext (task.code i) := by
  cases task with
  | call c =>
    cases c with
    | boot =>
      exact ((composed_boot i).bind fun _ => Built.pure _).bind fun _ => Built.pure _
    | handle raw => exact (composed_post raw).bind fun _ => Built.pure _
    | sweep => exact (composed_sweepProceeds i).bind fun _ => Built.pure _
  | audited d => exact (composed_decide d).bind fun _ => Built.pure _
  | read path => exact (composed_get path).bind fun _ => Built.pure _
  | plain reply => exact Built.pure _
  | fails e => exact Built.raise _

/-! ### Threads -/

/-- The thread of a call: it waits for its turn, and the call is noted. -/
def callThread (c : Call) (body : Thread Choice World Exn (Option Reply)) :
    Thread Choice World Exn (Option Reply) :=
  (Thread.own (fun _ w => w.record (.call c)) fun _ _ => body).holding

/-- The threads that do a task: the code of the task, where nothing but the methods of the ledger is
under its mutex, and a call under the signing lock. -/
inductive Does (i : Instance) : Task → Thread Choice World Exn (Option Reply) → Prop
  | call (c : Call) {body : Thread Choice World Exn (Option Reply)}
      (h : Threads World.db World.mem (Method i.ext) ((Task.call c).code i) body) :
      Does i (.call c) (callThread c body)
  | other {task : Task} {t : Thread Choice World Exn (Option Reply)} (hcall : ∀ c, task ≠ .call c)
      (h : Threads World.db World.mem (Method i.ext) (task.code i) t) : Does i task t

/-- The thread of something that comes to the server. -/
def Hosts (i : Instance) (front : Front) (int : String → Option Int)
    (t : Thread Choice World Exn (Option Reply)) : Prop :=
  ∃ a : Arrival, Does i (a.task front int) t

theorem exists_does (task : Task) : ∃ t, Does i task t := by
  obtain ⟨t, ht⟩ := (composed_task (i := i) task).threads fun _ q hq => Interface.threads q hq
  cases task with
  | call c => exact ⟨_, .call c ht⟩
  | audited | read | plain | fails => exact ⟨t, .other nofun ht⟩

theorem Does.obeys {task : Task} {t : Thread Choice World Exn (Option Reply)} (h : Does i task t) :
    t.Obeys World.db World.mem (Method i.ext) ∧ t.Polite false := by
  cases h with
  | @call c body h =>
    constructor
    · exact Thread.Obeys.holding ⟨fun _ _ => ⟨rfl, fun _ h => ⟨h, rfl⟩⟩, fun _ _ => h.2.1⟩
    · have hplain : (Thread.own (fun _ w => w.record (.call c)) fun _ _ => body : Thread Choice
          World Exn (Option Reply)).Plain := fun _ _ => h.2.2
      exact hplain.holding
  | other _ h => exact ⟨h.2.1, h.2.2.polite⟩

variable [DecidableEq ι] {ts : ι → Thread Choice World Exn (Option Reply)}
  {P : Pool ι Choice World Exn (Option Reply)} {w w₀ : World}

/-- Whatever the schedule of any number of requests, probes and sweeps: there is a run with the same
replies, memory and turn in which every method of the ledger runs at once, on the same database. -/
theorem threads_linearized (hts : ∀ j, Hosts i front int (ts j))
    (h : Pool.Reaches (.start w₀ ts) P) : ∃ Q, Pool.ReachesWhole (.start w₀ ts) Q ∧
      Pool.Follows World.db World.mem (Method i.ext) P Q :=
  Pool.reduces (fun _ => Method.local) (fun j => (hts j).choose_spec.obeys.1) h

/-- A step that leaves the database between two transactions as it is. -/
def Looks (_ : Choice) (w w' : World) : Prop := w.db.working = none → w'.db = w.db

theorem looks_select (f : Tables → Except Exn α) : (select f).Steps Looks := by
  refine Process.Steps.atomic fun c w hclosed => ?_
  rw [statement_eq hclosed]
  obtain ⟨⟨committed, working⟩, mem, clock, chain, log⟩ := w
  subst hclosed
  cases c.fault with
  | some fault => rfl
  | none =>
    dsimp only [World.tables]
    cases f committed <;> rfl

theorem looks_now : now.Steps Looks :=
  Process.Steps.bind (Process.Steps.atomic fun _ _ _ => rfl) fun _ => Process.Steps.pure _

theorem looks_halted : Ledger.halted.Steps Looks :=
  (looks_select _).bind fun _ => Process.Steps.pure _

theorem looks_stats : Ledger.stats.Steps Looks :=
  looks_now.bind fun _ => (looks_select _).bind fun _ => (looks_select _).bind fun _ =>
    (looks_select _).bind fun _ => (looks_select _).bind fun _ => looks_halted.bind fun _ =>
      (looks_select _).bind fun _ => Process.Steps.pure _

/-- A method of the ledger is one of its operations, or looks. -/
theorem method_operation {x : Externals} {p : Code β} (h : Method x β p) :
    (∃ op : Operation, op.code x = p.bind fun _ => .ret ()) ∨ p.Steps Looks := by
  have hunit : ∀ q : Code Unit, q = q.bind fun _ => .ret () := fun q => (Process.bind_ret q).symm
  cases h with
  | reserve caps a => exact .inl ⟨.reserve caps a, rfl⟩
  | reserveGasOnly caps a => exact .inl ⟨.reserveGasOnly caps a, rfl⟩
  | markSigned row txHash rawKeccak => exact .inl ⟨.markSigned row txHash rawKeccak, hunit _⟩
  | markBroadcast row txHash => exact .inl ⟨.markBroadcast row txHash, hunit _⟩
  | markMined row txHash feeWei => exact .inl ⟨.markMined row txHash feeWei, hunit _⟩
  | markDead row reason => exact .inl ⟨.markDead row reason, hunit _⟩
  | recordAttemptStatus txHash status => exact .inl ⟨.recordAttemptStatus txHash status, hunit _⟩
  | audit f => exact .inl ⟨.audit f, hunit _⟩
  | setNextNonce chainId fromAddr nonce => exact .inl ⟨.setNextNonce chainId fromAddr nonce, hunit _⟩
  | recordBoot address chainId escrow capsJson reconciled =>
    exact .inl ⟨.recordBoot address chainId escrow capsJson reconciled, hunit _⟩
  | verifyChains => exact .inr ((looks_select _).bind fun _ => looks_select _)
  | halted => exact .inr looks_halted
  | get | unresolved | attemptsFor => exact .inr (looks_select _)
  | stats => exact .inr looks_stats

/-- What comes after the end of a process does nothing to the state. -/
theorem run_forget (p : Code β) (script : List Choice) (w : World) :
    ((p.bind fun _ => .ret ()).run script w).2 = (p.run script w).2 ∧
      Status.after ((p.bind fun _ => .ret ()).run script w).1 = .after (p.run script w).1 := by
  induction p generalizing script w with
  | ret b => exact ⟨rfl, rfl⟩
  | raise e => exact ⟨rfl, rfl⟩
  | step next rest ih =>
    cases script with
    | nil => exact ⟨rfl, rfl⟩
    | cons c script => exact ih c w script _

/-- The database of a run of operations of the ledger, with the status of the run. -/
def Booked (x : Externals) (status : Status) (db : Db) : Prop :=
  ∃ w, Books x (fun _ _ _ => True) status w ∧ w.db = db

theorem Booked.closed {x : Externals} {db : Db} (h : Booked x .running db) : db.working = none := by
  obtain ⟨w, hw, rfl⟩ := h
  exact hw.sound.2 rfl

/-- A method goes on with the run, whichever way it ends. -/
theorem Booked.method {x : Externals} {p : Code β} (hp : Method x β p) (h : Booked x .running w.db)
    (script : List Choice) : ∃ status, Booked x status (p.run script w).2.db ∧
      ((p.run script w).1 ≠ .stopped → status = .running) := by
  have hclosed := h.closed
  obtain ⟨w', hw', hdb⟩ := h
  rcases method_operation hp with ⟨op, hop⟩ | hlooks
  · obtain ⟨hsame, hres⟩ := (Method.local p hp).run hdb script
    obtain ⟨hstate, hstatus⟩ := run_forget p script w'
    refine ⟨_, ⟨_, hw'.operation op script trivial, ?_⟩, fun hends => ?_⟩
    · unfold Operation.run
      rw [hop, hstate]
      exact hres
    · unfold Operation.run
      rw [hop, hstatus, hsame]
      cases ho : (p.run script w).1 with
      | returned | raised => rfl
      | stopped => exact absurd ho hends
  · have hdb' : (p.run script w).2.db = w.db := by
      refine hlooks.run (I := fun w' => w'.db = w.db) (fun c w₁ w₂ h₁ hlook => ?_) script rfl
      exact (hlook (h₁ ▸ hclosed)).trans h₁
    exact ⟨.running, ⟨w', hw', hdb.trans hdb'.symm⟩, fun _ => rfl⟩

/-- The worlds that the threads reach from a new database, life after life: a life is cut anywhere, and
the next one opens what was committed. -/
inductive Hosted (i : Instance) (front : Front) (int : String → Option Int) : World → Prop
  | initial : Hosted i front int .initial
  | life {w : World} {ι : Type} [DecidableEq ι] {ts : ι → Thread Choice World Exn (Option Reply)}
      {P : Pool ι Choice World Exn (Option Reply)} (h : Hosted i front int w)
      (hts : ∀ j, Hosts i front int (ts j)) (hrun : Pool.Reaches (.start w.restart ts) P) :
      Hosted i front int P.state

theorem Hosted.booked (h : Hosted i front int w) : ∃ status, Booked i.ext status w.db := by
  induction h with
  | initial => exact ⟨.running, .initial, .start, rfl⟩
  | @life w _ _ ts P h hts hrun ih =>
    obtain ⟨status, w', hw', hdb⟩ := ih
    have hstart : Booked i.ext .running w.restart.db :=
      ⟨w'.restart, hw'.reopen, congrArg (fun db : Db => (⟨db.committed, none⟩ : Db)) hdb⟩
    have hkept : ∀ β (p : Code β), Method i.ext β p → ∀ w script, Booked i.ext .running w.db →
        (p.run script w).1 ≠ .stopped → Booked i.ext .running (p.run script w).2.db := by
      intro β p hp w script hbooked hends
      obtain ⟨status, hafter, hrunning⟩ := hbooked.method hp script
      exact hrunning hends ▸ hafter
    rcases Pool.keeps (fun _ => Method.local) hkept (fun j => (hts j).choose_spec.obeys.1) hstart
      hrun with hfree | ⟨β, p, w₁, script, hp, h₁, hres⟩
    · exact ⟨.running, hfree⟩
    · obtain ⟨status, hbooked, -⟩ := h₁.method hp script
      exact ⟨status, hres ▸ hbooked⟩

/-- Whatever the schedule, and wherever each life of the server is cut: its database is that of a
sequence of operations of the ledger one after the other, and its books are sound. -/
theorem threads_booked (h : Hosted i front int w) :
    (∃ status w', Books i.ext (fun _ _ _ => True) status w' ∧ w'.db = w.db) ∧
      Sound i.ext w.tables := by
  obtain ⟨status, w', hw', hdb⟩ := h.booked
  refine ⟨⟨status, w', hw', hdb⟩, ?_⟩
  have htables : w'.tables = w.tables := congrArg Db.committed hdb
  exact htables ▸ hw'.sound.1

/-! ### A sample -/

section Sample

open EscrowSigner.Sample

/-- The first debit, and a look at its receipt. -/
def sampleArrival : Bool → Arrival
  | true => .post debitPost
  | false => .get debitPath

theorem exists_sampleThreads : ∃ ts : Bool → Thread Choice World Exn (Option Reply),
    ∀ j, Hosts (signer unlimited "") smallFront readsOne (ts j) := by
  choose ts hts using fun j => exists_does (i := signer unlimited "")
    ((sampleArrival j).task smallFront readsOne)
  exact ⟨ts, fun j => ⟨_, hts j⟩⟩

/-- They come to their ends side by side. -/
theorem sampleThreads_ended {ts : Bool → Thread Choice World Exn (Option Reply)}
    (hts : ∀ j, Hosts (signer unlimited "") smallFront readsOne (ts j)) (w : World) :
    ∃ P, Pool.Reaches (.start w ts) P ∧ ∀ j, (P.threads j).Ended := by
  have : Nonempty Choice := ⟨Integrity.quiet⟩
  exact (Pool.orderly_start fun j => (hts j).choose_spec.obeys.2).ends

/-- A debit and a look at its receipt have come to their ends as in a run where every method runs at
once. -/
theorem threads_linearized_sample : ∃ P Q : Pool Bool Choice World Exn (Option Reply),
    (∀ j, (P.threads j).Ended) ∧
      Pool.Follows World.db World.mem (Method (signer unlimited "").ext) P Q := by
  obtain ⟨ts, hts⟩ := exists_sampleThreads
  obtain ⟨P, hreach, hend⟩ := sampleThreads_ended hts .initial
  obtain ⟨Q, -, hfollows⟩ := threads_linearized hts hreach
  exact ⟨P, Q, hend, hfollows⟩

/-- The books after a debit and a look at its receipt, side by side. -/
theorem threads_booked_sample : ∃ P : Pool Bool Choice World Exn (Option Reply),
    (∀ j, (P.threads j).Ended) ∧ Sound (signer unlimited "").ext P.state.tables := by
  obtain ⟨ts, hts⟩ := exists_sampleThreads
  obtain ⟨P, hreach, hend⟩ := sampleThreads_ended hts World.initial.restart
  exact ⟨P, hend, (threads_booked (.life .initial hts hreach)).2⟩

end Sample

end EscrowSigner.Server
