import DataLineage.Main
import DataLineage.Proofs.Graph.Listing
import DataLineage.Proofs.Recording.Held
import DataLineage.Proofs.Recording.Closed
import DataLineage.Proofs.Recording.Readable
import DataLineage.Proofs.Search.Breadth
import DataLineage.Proofs.Walk.Pairs
import DataLineage.Proofs.Walk.Explore
import DataLineage.Proofs.Recording.Passing
import DataLineage.Proofs.Walk.Outlook
import DataLineage.Proofs.Walk.Result
import DataLineage.Proofs.Recording.Headers
import DataLineage.Proofs.Walk.Traverse
import DataLineage.Proofs.Graph.Answered
import DataLineage.Proofs.Graph.Seeded
import DataLineage.Proofs.Request.Context
import DataLineage.Proofs.Walk.Reference
import DataLineage.Proofs.Lineage.Exact
import DataLineage.Proofs.Walk.Linked
import DataLineage.Proofs.Lineage.Connected
import DataLineage.Proofs.Pattern.Strategies
import DataLineage.Proofs.Pattern.Sufficient
import DataLineage.Proofs.Pattern.Trails
import DataLineage.Proofs.Pattern.Meaning
import DataLineage.Proofs.Pattern.Matched
import DataLineage.Proofs.Request.Admitted
import DataLineage.Proofs.Lineage.Limited
import DataLineage.Proofs.Graph.Rows
import DataLineage.Proofs.Lineage.Dataset
import DataLineage.Proofs.Lineage.Around
import DataLineage.Proofs.Lineage.Mutual
import DataLineage.Proofs.Lineage.Contracted
import DataLineage.Proofs.Lineage.Twin
import DataLineage.Proofs.Recording.Twin
import DataLineage.Proofs.Walk.Twin
import DataLineage.Proofs.Database.Sent
import DataLineage.Proofs.Database.Loaded
import DataLineage.Proofs.Database.Served
import DataLineage.Proofs.Database.Agreed
import DataLineage.Proofs.Database.Stores
import DataLineage.Proofs.Walk.Nested
import DataLineage.Proofs.Request.Alike
import DataLineage.Proofs.Lineage.Placed
import DataLineage.Proofs.Lineage.Monotone
import DataLineage.Proofs.Graph.Accepted
import DataLineage.Proofs.Graph.Faithful
import DataLineage.Proofs.Graph.Exchanged
import DataLineage.Proofs.Lineage.Turned
import DataLineage.Proofs.Taxonomy.Closed
import DataLineage.Proofs.Taxonomy.Model
import DataLineage.Proofs.Walk.Worklist
import DataLineage.Proofs.Lineage.Neighbours
import DataLineage.Proofs.Database.Refused
import DataLineage.Proofs.Database.Grouped
import DataLineage.Proofs.Recording.Consistent
import DataLineage.Proofs.Recording.Sequences
import DataLineage.Proofs.Request.Precedence
import DataLineage.Proofs.Database.Readings
import DataLineage.Proofs.Graph.Mirrored
import DataLineage.Proofs.Graph.Stumbled
import DataLineage.Proofs.Listing.Ordered
import DataLineage.Proofs.Listing.Serialized
import DataLineage.Proofs.Listing.Canonical
import DataLineage.Proofs.Merging.Laws
import DataLineage.Proofs.Merging.Families
