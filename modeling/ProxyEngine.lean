import ProxyEngine.Boundary
import ProxyEngine.Descriptor.Field
import ProxyEngine.Engine
import ProxyEngine.Operation.Operand
import ProxyEngine.Proofs.Context.Steps
import ProxyEngine.Proofs.Heap.Directory
import ProxyEngine.Proofs.Context.Ageing
import ProxyEngine.Proofs.Collector.Collection
import ProxyEngine.Proofs.Context.Depth
import ProxyEngine.Proofs.Engine.Dispatch
import ProxyEngine.Proofs.Operation.Restatement
import ProxyEngine.Proofs.Wrapper.Chain
import ProxyEngine.Proofs.Wrapper.Assignment
import ProxyEngine.Proofs.Trap.Contract
import ProxyEngine.Proofs.Behaviour.Propagation
import ProxyEngine.Proofs.Engine.History
import ProxyEngine.Proofs.Engine.Law
import ProxyEngine.Proofs.Object.Permanence
import ProxyEngine.Proofs.Engine.DispatchDepth
import ProxyEngine.Proofs.Engine.Failure
import ProxyEngine.Proofs.Object.Lineage
import ProxyEngine.Proofs.Trap.Forwarding
import ProxyEngine.Proofs.Engine.Invariant
import ProxyEngine.Proofs.Collector.Finalization
import ProxyEngine.Proofs.Context.Provenance
import ProxyEngine.Proofs.Context.Roots
import ProxyEngine.Proofs.Collector.Dangling
import ProxyEngine.Proofs.Object.Ancestry
import ProxyEngine.Proofs.Object.Lookup
import ProxyEngine.Proofs.Context.Room
import ProxyEngine.Proofs.Engine.Delivery
import ProxyEngine.Proofs.Engine.Termination
import ProxyEngine.Proofs.Engine.Runaway
import ProxyEngine.Proofs.Trap.Relay
import ProxyEngine.Proofs.Context.Rewriting
import ProxyEngine.Proofs.Engine.Barred
import ProxyEngine.Proofs.Engine.Exhaustion
import ProxyEngine.Proofs.Context.Region
import ProxyEngine.Proofs.Behaviour.Attention
import ProxyEngine.Proofs.Engine.Twins
import ProxyEngine.Proofs.Collector.Invisibility
import ProxyEngine.Proofs.Object.Stale
import ProxyEngine.Proofs.Object.Assignment
import ProxyEngine.Proofs.Behaviour.Commitment
import ProxyEngine.Proofs.Engine.Atomicity
import ProxyEngine.Proofs.Context.Vocabulary
import ProxyEngine.Proofs.Engine.Frugality
import ProxyEngine.Proofs.Engine.Construction
import ProxyEngine.Proofs.Object.Definition
import ProxyEngine.Proofs.Object.KeyOrder
import ProxyEngine.Proofs.Object.Succession
import ProxyEngine.Proofs.Object.Inheritance
import ProxyEngine.Proofs.Wrapper.Prototype
import ProxyEngine.Proofs.Key.Spelling
import ProxyEngine.Proofs.Value.Sameness
import ProxyEngine.Proofs.Heap.Wear
import ProxyEngine.Proofs.Options.Members
import ProxyEngine.Proofs.Atom.Numbering
