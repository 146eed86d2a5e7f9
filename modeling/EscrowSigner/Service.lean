import EscrowSigner.Policy.Signer

/-! The service as it runs: it serves one call at a time, a call can be stopped before any of its
steps, and a stopped service starts again from what its database committed. -/

namespace EscrowSigner

/-- The code of a call, with the decision that it comes to, if any. -/
def serve (i : Instance) : Call → Code (Option Policy.Decision)
  | .boot => do
    Policy.boot i
    return none
  | .handle rawBody => do
    let decision ← Policy.handle i rawBody
    return some decision
  | .sweep => Policy.sweepProceeds i

namespace World

/-- A new database and a process that has just started. -/
def initial : World where
  db := ⟨.empty, none⟩
  mem := .fresh
  clock := 0
  chain := ⟨[], [], 0, 0⟩
  log := []

/-- A new process on the same database. -/
def restart (w : World) : World := { w with db := ⟨w.tables, none⟩, mem := .fresh }

end World

/-- Whether the process still runs. -/
inductive Status
  | running
  | stopped
deriving DecidableEq, Repr

/-- A call that returned or raised leaves the process running. -/
def Status.after {ε α : Type} : Process.Outcome ε α → Status
  | .stopped => .stopped
  | .returned _ | .raised _ => .running

/-- The execution of a call on a script. -/
def execute (i : Instance) (c : Call) (script : List Choice) (w : World) :
    Process.Outcome Exn (Option Policy.Decision) × World :=
  (serve i c).run script (w.record (.call c))

/-- The worlds that the service reaches from a new database, in the middle of a call or after it.
Every step meets a choice that `env` allows, and every call meets a world and a script that `ok`
allows. -/
inductive Reach (i : Instance) (env : World → Choice → Prop)
    (ok : World → Call → List Choice → Prop) : Status → World → Prop
  | initial : Reach i env ok .running .initial
  | call {w : World} (c : Call) (script : List Choice) (h : Reach i env ok .running w)
      (hok : ok w c script) (henv : (serve i c).Admits env script (w.record (.call c))) :
      Reach i env ok (.after (execute i c script w).1) (execute i c script w).2
  | restart {s : Status} {w : World} (h : Reach i env ok s w) : Reach i env ok .running w.restart

/-- Weaker conditions allow more. -/
theorem Reach.mono {i : Instance} {env env' : World → Choice → Prop}
    {ok ok' : World → Call → List Choice → Prop} {status : Status} {w : World}
    (h : Reach i env ok status w) (henv : ∀ w c, env w c → env' w c)
    (hok : ∀ w c script, ok w c script → ok' w c script) : Reach i env' ok' status w := by
  induction h with
  | initial => exact .initial
  | call c script h hc ha ih => exact ih.call c script (hok _ _ _ hc) (ha.mono henv)
  | restart h ih => exact ih.restart

end EscrowSigner
