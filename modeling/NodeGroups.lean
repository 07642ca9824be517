import NodeGroups.Command.Program
import NodeGroups.Json.MergePatch
import NodeGroups.Main
import NodeGroups.Proofs.Caches
import NodeGroups.Proofs.Changes
import NodeGroups.Proofs.Keys
import NodeGroups.Proofs.Correlation
import NodeGroups.Proofs.Bounds
import NodeGroups.Proofs.Owners
import NodeGroups.Proofs.References
import NodeGroups.Proofs.OwnerKeys
import NodeGroups.Proofs.GroupIds
import NodeGroups.Proofs.Listing
import NodeGroups.Proofs.Enumeration
import NodeGroups.Proofs.Lookup
import NodeGroups.Proofs.Machines
import NodeGroups.Proofs.Matching
import NodeGroups.Proofs.Members
import NodeGroups.Proofs.Signals
import NodeGroups.Proofs.Shrinking
import NodeGroups.Proofs.Resizing
import NodeGroups.Proofs.Ancestry
import NodeGroups.Proofs.NodeLookup
import NodeGroups.Proofs.NodeFaults
import NodeGroups.Proofs.Partition
import NodeGroups.Proofs.Scoping
import NodeGroups.Proofs.Membership
import NodeGroups.Proofs.Dependence
import NodeGroups.Proofs.HeldGroups
import NodeGroups.Proofs.Isolation
import NodeGroups.Proofs.ScopedWalk
import NodeGroups.Proofs.Revision
import NodeGroups.Proofs.Represented
import NodeGroups.Proofs.Succession
import NodeGroups.Proofs.AfterResize
import NodeGroups.Proofs.Agreement
import NodeGroups.Proofs.ListingOrder
import NodeGroups.Proofs.Backends
import NodeGroups.Proofs.Ledgers
import NodeGroups.Proofs.ListPaths
import NodeGroups.Proofs.Startup
import NodeGroups.Proofs.Scanning
import NodeGroups.Proofs.Reading
import NodeGroups.Proofs.Encoding
import NodeGroups.Proofs.Shapes
import NodeGroups.Proofs.Output
import NodeGroups.Proofs.GroupNames
import NodeGroups.Proofs.CacheHistory
import NodeGroups.Proofs.Patching
