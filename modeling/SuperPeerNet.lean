import SuperPeerNet.Catalogue.Bounds
import SuperPeerNet.Catalogue.Lookup
import SuperPeerNet.Catalogue.Metadata
import SuperPeerNet.Catalogue.Payloads
import SuperPeerNet.Catalogue.Publication
import SuperPeerNet.Catalogue.Rebuilt
import SuperPeerNet.Catalogue.Reference
import SuperPeerNet.Catalogue.Refinement
import SuperPeerNet.Catalogue.RoundTrip
import SuperPeerNet.Catalogue.Store
import SuperPeerNet.Catalogue.Transfer
import SuperPeerNet.Chord.Conduct
import SuperPeerNet.Chord.Forgotten
import SuperPeerNet.Chord.Joins
import SuperPeerNet.Chord.Lookup
import SuperPeerNet.Chord.Network
import SuperPeerNet.Chord.Pointers
import SuperPeerNet.Chord.Repair
import SuperPeerNet.Chord.Settled
import SuperPeerNet.Chord.State
import SuperPeerNet.Client.Chunks
import SuperPeerNet.Client.Completion
import SuperPeerNet.Client.Delivery
import SuperPeerNet.Client.Download
import SuperPeerNet.Client.Indices
import SuperPeerNet.Client.Layout
import SuperPeerNet.Client.Publishing
import SuperPeerNet.Client.Upload
import SuperPeerNet.Client.Uploaded
import SuperPeerNet.Client.Workers
import SuperPeerNet.Cluster.Acknowledged
import SuperPeerNet.Cluster.Agreement
import SuperPeerNet.Cluster.Base
import SuperPeerNet.Cluster.Batches
import SuperPeerNet.Cluster.Broadcast
import SuperPeerNet.Cluster.Causes
import SuperPeerNet.Cluster.Concordance
import SuperPeerNet.Cluster.Create
import SuperPeerNet.Cluster.Decision
import SuperPeerNet.Cluster.Duplicates
import SuperPeerNet.Cluster.Election
import SuperPeerNet.Cluster.Handle
import SuperPeerNet.Cluster.Intake
import SuperPeerNet.Cluster.Ist
import SuperPeerNet.Cluster.Leaders
import SuperPeerNet.Cluster.Paging
import SuperPeerNet.Cluster.Proposed
import SuperPeerNet.Cluster.Provenance
import SuperPeerNet.Cluster.Recovery
import SuperPeerNet.Cluster.Stabilisation
import SuperPeerNet.Cluster.StableCoordinator
import SuperPeerNet.Cluster.System
import SuperPeerNet.Cluster.Tasks
import SuperPeerNet.Cluster.Ticks
import SuperPeerNet.Cluster.Transitions
import SuperPeerNet.Content
import SuperPeerNet.Framing
import SuperPeerNet.Gossip.Convergence
import SuperPeerNet.Gossip.Detector
import SuperPeerNet.Gossip.Epochs
import SuperPeerNet.Gossip.Heartbeat
import SuperPeerNet.Gossip.Ledger
import SuperPeerNet.Gossip.Malformed
import SuperPeerNet.Gossip.Merge
import SuperPeerNet.Gossip.Packets
import SuperPeerNet.Gossip.Registration
import SuperPeerNet.Gossip.Rumours
import SuperPeerNet.Gossip.Tombstones
import SuperPeerNet.Gossip.Verdicts
import SuperPeerNet.Library.BigEndian
import SuperPeerNet.Library.Bounded
import SuperPeerNet.Library.Circle
import SuperPeerNet.Library.Custody
import SuperPeerNet.Library.Dialogue
import SuperPeerNet.Library.Eviction
import SuperPeerNet.Library.Folding
import SuperPeerNet.Library.Framing
import SuperPeerNet.Library.KeyedList
import SuperPeerNet.Library.Leads
import SuperPeerNet.Library.Pieces
import SuperPeerNet.Library.Probing
import SuperPeerNet.Library.Ratchet
import SuperPeerNet.Library.Reading
import SuperPeerNet.Library.Register
import SuperPeerNet.Library.Ring
import SuperPeerNet.Library.Tickets
import SuperPeerNet.Library.Transition
import SuperPeerNet.Log.Commitment
import SuperPeerNet.Log.Durable
import SuperPeerNet.Log.Entry
import SuperPeerNet.Log.Failures
import SuperPeerNet.Log.Invariant
import SuperPeerNet.Log.Open
import SuperPeerNet.Log.Operations
import SuperPeerNet.Log.Outcomes
import SuperPeerNet.Log.Replay
import SuperPeerNet.Log.Representation
import SuperPeerNet.Log.Restart
import SuperPeerNet.Log.Torn
import SuperPeerNet.Log.Visibility
import SuperPeerNet.Membership
import SuperPeerNet.Node
import SuperPeerNet.Peer.Gathering
import SuperPeerNet.Peer.Genuine
import SuperPeerNet.Peer.Serving
import SuperPeerNet.Protocol
import SuperPeerNet.Rpc
import SuperPeerNet.Server.Ownership
import SuperPeerNet.Server.Sections
import SuperPeerNet.Service.Committed
import SuperPeerNet.Service.Lookup
import SuperPeerNet.Service.Store
import SuperPeerNet.Storage.Accounting
import SuperPeerNet.Storage.Cache
import SuperPeerNet.Storage.Crash
import SuperPeerNet.Storage.Disk
import SuperPeerNet.Storage.Frequency
import SuperPeerNet.Storage.Manifest
import SuperPeerNet.Storage.Operations
import SuperPeerNet.Storage.Order
import SuperPeerNet.Storage.Published
import SuperPeerNet.Storage.Readers
import SuperPeerNet.Storage.Retry
import SuperPeerNet.Storage.RoundTrip
import SuperPeerNet.Storage.Session
import SuperPeerNet.Storage.Slots
import SuperPeerNet.Storage.Steps
import SuperPeerNet.Storage.Upheld
import SuperPeerNet.Transactions
import SuperPeerNet.Wire
