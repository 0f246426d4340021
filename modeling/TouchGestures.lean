import TouchGestures.Router.Lemmas
import TouchGestures.Router.Nearest
import TouchGestures.Router.Tick
import TouchGestures.Router.Touch
import TouchGestures.Router.Transfer
import TouchGestures.Settings.Encoding
import TouchGestures.Proofs.Channel.Acceptance
import TouchGestures.Proofs.Channel.Rejected
import TouchGestures.Proofs.Channel.Spans
import TouchGestures.Proofs.Channel.Taps
import TouchGestures.Proofs.ContactTable.Roster
import TouchGestures.Proofs.Release.Policy
import TouchGestures.Proofs.Release.Refusal
import TouchGestures.Proofs.Release.Terminators
import TouchGestures.Proofs.Router.Ack
import TouchGestures.Proofs.Router.Suppression
import TouchGestures.Proofs.Router.Closing
import TouchGestures.Proofs.Router.Coherence
import TouchGestures.Proofs.Router.Continuing
import TouchGestures.Proofs.Router.Delivery
import TouchGestures.Proofs.Router.Entered
import TouchGestures.Proofs.Router.Freed
import TouchGestures.Proofs.Router.Isolation
import TouchGestures.Proofs.Router.Progress
import TouchGestures.Proofs.Router.Tally
import TouchGestures.Proofs.Router.Rejected
import TouchGestures.Proofs.Router.Replaced
import TouchGestures.Proofs.Router.Rows
import TouchGestures.Proofs.Router.Transferred
import TouchGestures.Proofs.Channel.InPlace
import TouchGestures.Proofs.Channel.Stale
import TouchGestures.Proofs.ContactTable.Refused
import TouchGestures.Proofs.Router.Emptied
import TouchGestures.Proofs.Router.Reordered
import TouchGestures.Proofs.Channel.Pinching
import TouchGestures.Proofs.Channel.Polling
import TouchGestures.Proofs.Channel.Scrolling
import TouchGestures.Proofs.Release.Attribution
import TouchGestures.Proofs.Channel.Consecutive
import TouchGestures.Proofs.Channel.Flings
import TouchGestures.Proofs.Detector.DoubleTaps
import TouchGestures.Proofs.Router.Nearest
import TouchGestures.Proofs.Channel.Slop
import TouchGestures.Proofs.EventIds
import TouchGestures.Proofs.Settings.RoundTrip
import TouchGestures.Proofs.Channel.Timers
