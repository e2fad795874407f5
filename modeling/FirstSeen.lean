import FirstSeen.Attribute
import FirstSeen.Collections
import FirstSeen.Release
import FirstSeen.Proofs.Outcome
import FirstSeen.Proofs.Value.Containers
import FirstSeen.Proofs.Data
import FirstSeen.Proofs.Equality.Alike
import FirstSeen.Proofs.Equality.Decision
import FirstSeen.Proofs.Collision
import FirstSeen.Proofs.Tower.Machine
import FirstSeen.Proofs.Tower.Playing
import FirstSeen.Proofs.Tower.Judging
import FirstSeen.Proofs.Tower.Ground
import FirstSeen.Proofs.Tower.Placing
import FirstSeen.Proofs.Tower.Opening
import FirstSeen.Proofs.Tower.Raw
import FirstSeen.Proofs.Tower.Standing
import FirstSeen.Proofs.Tower.Building
import FirstSeen.Proofs.History.Beginning
import FirstSeen.Proofs.OneShot
import FirstSeen.Proofs.Rewinding
import FirstSeen.Proofs.Deduplication
import FirstSeen.Proofs.Merging
import FirstSeen.Proofs.Ending
import FirstSeen.Proofs.Consumption
import FirstSeen.Proofs.Distinctness
import FirstSeen.Proofs.Forcing
import FirstSeen.Proofs.Failing
import FirstSeen.Proofs.Flattening
import FirstSeen.Proofs.Obeying
import FirstSeen.Proofs.Lasting
import FirstSeen.Proofs.Peeking
import FirstSeen.Proofs.Finality
import FirstSeen.Proofs.Atomicity
import FirstSeen.Proofs.Supplying
import FirstSeen.Proofs.Querying
import FirstSeen.Proofs.History.Bearing
import FirstSeen.Proofs.Isolation
import FirstSeen.Proofs.Deepening
import FirstSeen.Proofs.Hiding
import FirstSeen.Proofs.Avoiding
import FirstSeen.Proofs.Forgetting
import FirstSeen.Proofs.Pouring
import FirstSeen.Proofs.Streaming
import FirstSeen.Proofs.Tower.Cascading
import FirstSeen.Proofs.Absorbing
import FirstSeen.Proofs.History.Lending
import FirstSeen.Proofs.Tower.Wrapping
import FirstSeen.Proofs.Rerunning
import FirstSeen.Proofs.Warning
import FirstSeen.Proofs.Lifecycle
import FirstSeen.Proofs.Spreading
import FirstSeen.Proofs.Turning
import FirstSeen.Proofs.Journaling
import FirstSeen.Proofs.Remembering
