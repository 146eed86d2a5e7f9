import EscrowSigner.Machine.Budget
import EscrowSigner.Machine.WriteAhead
import EscrowSigner.Machine.Halt
import EscrowSigner.Machine.LifeCycle
import EscrowSigner.Machine.Authority
import EscrowSigner.Integrity.Interference
import EscrowSigner.Integrity.Race
import EscrowSigner.Integrity.Jitter
import EscrowSigner.Integrity.Tampering
import EscrowSigner.Machine.Repetition
import EscrowSigner.Codec
import EscrowSigner.Chainio.GetChannel
import EscrowSigner.Chainio.CallMethod
import EscrowSigner.Machine.SwitchedOff
import EscrowSigner.Machine.Resumption
import EscrowSigner.Machine.Totals
import EscrowSigner.Rebaseline.Doctored
import EscrowSigner.Policy.Hints
import EscrowSigner.Server.Recorded
import EscrowSigner.Machine.Deeds
import EscrowSigner.Machine.Lives
import EscrowSigner.Machine.Testimony
import EscrowSigner.Machine.Trail
import EscrowSigner.Server.Access
import EscrowSigner.Server.Bystanders
import EscrowSigner.Server.Turns
