import Flowstate.Admission
import Flowstate.Advance
import Flowstate.Allowlist
import Flowstate.Arrival
import Flowstate.Binding
import Flowstate.Bookkeeping
import Flowstate.Canonical
import Flowstate.Causality
import Flowstate.Certificate
import Flowstate.Clock
import Flowstate.Coherence
import Flowstate.Cut
import Flowstate.Departure
import Flowstate.Digest
import Flowstate.Format
import Flowstate.Headroom
import Flowstate.Hosting
import Flowstate.Isolation
import Flowstate.Joining
import Flowstate.Ledger
import Flowstate.Lockstep
import Flowstate.Monotonicity
import Flowstate.Network
import Flowstate.Newest
import Flowstate.Polls
import Flowstate.Refinement
import Flowstate.Relabelling
import Flowstate.Reordering
import Flowstate.Screens
import Flowstate.Selection
import Flowstate.Soundness
import Flowstate.Speed
import Flowstate.Stream
import Flowstate.Tamper
import Flowstate.Termination
import Flowstate.Totality
import Flowstate.Trajectory
import Flowstate.Twins
import Flowstate.Uplink
import Flowstate.Varint
import Flowstate.Verdict
