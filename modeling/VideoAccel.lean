import VideoAccel.Bits.Call
import VideoAccel.Kernel.Channel
import VideoAccel.Kernel.DmaHeap
import VideoAccel.Picture.Avc.Elements
import VideoAccel.Picture.Hevc.Elements
import VideoAccel.Platform.Scripted
import VideoAccel.Proofs.Auxiliary.Binding
import VideoAccel.Proofs.Auxiliary.Budget
import VideoAccel.Proofs.Auxiliary.Cache
import VideoAccel.Proofs.Auxiliary.Coherence
import VideoAccel.Proofs.Auxiliary.Failure
import VideoAccel.Proofs.Auxiliary.Layout
import VideoAccel.Proofs.Auxiliary.Packing
import VideoAccel.Proofs.Auxiliary.Scratch
import VideoAccel.Proofs.Auxiliary.Selection
import VideoAccel.Proofs.Backend.Anchoring
import VideoAccel.Proofs.Backend.Announcement
import VideoAccel.Proofs.Backend.Buffers
import VideoAccel.Proofs.Backend.Custody
import VideoAccel.Proofs.Backend.Displacement
import VideoAccel.Proofs.Backend.Filling
import VideoAccel.Proofs.Backend.Geometry
import VideoAccel.Proofs.Backend.Initial
import VideoAccel.Proofs.Backend.Leftovers
import VideoAccel.Proofs.Backend.Motion
import VideoAccel.Proofs.Backend.Outcomes
import VideoAccel.Proofs.Backend.Ownership
import VideoAccel.Proofs.Backend.Programming
import VideoAccel.Proofs.Backend.Reuse
import VideoAccel.Proofs.Batch.Loading
import VideoAccel.Proofs.Batch.Status
import VideoAccel.Proofs.Bits.BitStrings
import VideoAccel.Proofs.Bits.Calls
import VideoAccel.Proofs.Bits.Concatenation
import VideoAccel.Proofs.Bits.Layout
import VideoAccel.Proofs.Bits.Packing
import VideoAccel.Proofs.Bits.Refusal
import VideoAccel.Proofs.Demand.Basic
import VideoAccel.Proofs.Demand.Filling
import VideoAccel.Proofs.Demand.Frames
import VideoAccel.Proofs.Demand.Header
import VideoAccel.Proofs.Demand.Memory
import VideoAccel.Proofs.Demand.Packing
import VideoAccel.Proofs.Demand.Provisions
import VideoAccel.Proofs.Demand.Registers
import VideoAccel.Proofs.Demand.Steps
import VideoAccel.Proofs.Emission.Addresses
import VideoAccel.Proofs.Emission.Handles
import VideoAccel.Proofs.Emission.Steps
import VideoAccel.Proofs.Emission.Tables
import VideoAccel.Proofs.Frame.Alignment
import VideoAccel.Proofs.Frame.Strides
import VideoAccel.Proofs.Header.Format
import VideoAccel.Proofs.Header.Parameters
import VideoAccel.Proofs.Header.ReferenceLists
import VideoAccel.Proofs.Header.ReferenceSets
import VideoAccel.Proofs.Header.Region
import VideoAccel.Proofs.Header.Tiles
import VideoAccel.Proofs.Kernel.Channel
import VideoAccel.Proofs.Kernel.Messages
import VideoAccel.Proofs.Memory.Accounting
import VideoAccel.Proofs.Memory.Conservation
import VideoAccel.Proofs.Memory.Contents
import VideoAccel.Proofs.Memory.Recycling
import VideoAccel.Proofs.Memory.Stores
import VideoAccel.Proofs.Memory.Transfer
import VideoAccel.Proofs.Pipeline.Announcement
import VideoAccel.Proofs.Pipeline.Atomicity
import VideoAccel.Proofs.Pipeline.Basic
import VideoAccel.Proofs.Pipeline.Binding
import VideoAccel.Proofs.Pipeline.Custody
import VideoAccel.Proofs.Pipeline.Displacement
import VideoAccel.Proofs.Pipeline.Motion
import VideoAccel.Proofs.Pipeline.Operations
import VideoAccel.Proofs.Pipeline.Overflow
import VideoAccel.Proofs.Pipeline.Reachable
import VideoAccel.Proofs.Pipeline.Reuse
import VideoAccel.Proofs.Platform.Accounts
import VideoAccel.Proofs.Platform.Bench
import VideoAccel.Proofs.Platform.Calls
import VideoAccel.Proofs.Platform.Freshness
import VideoAccel.Proofs.Reference.Resolution
import VideoAccel.Proofs.Reference.Substitution
import VideoAccel.Proofs.Register.Cells
import VideoAccel.Proofs.Register.Fields
import VideoAccel.Proofs.Register.Image
import VideoAccel.Proofs.Register.Settling
import VideoAccel.Proofs.RegisterSet.Leftovers
import VideoAccel.Proofs.RegisterSet.Occupancy
import VideoAccel.Proofs.Registry
import VideoAccel.Proofs.Rounding
import VideoAccel.Proofs.Session.Alignment
import VideoAccel.Proofs.Session.Attempts
import VideoAccel.Proofs.Session.Dispatch
import VideoAccel.Proofs.Session.Moving
import VideoAccel.Proofs.Session.Opening
import VideoAccel.Proofs.Session.Ownership
import VideoAccel.Proofs.Session.Refusal
import VideoAccel.Proofs.Session.Tasks
import VideoAccel.Proofs.Session.Transparency
import VideoAccel.Proofs.Strategy.Addresses
import VideoAccel.Proofs.Strategy.Areas
import VideoAccel.Proofs.Strategy.Coded
import VideoAccel.Proofs.Strategy.Footprint
import VideoAccel.Proofs.Strategy.FrameNumbers
import VideoAccel.Proofs.Strategy.Geometry
import VideoAccel.Proofs.Strategy.Handles
import VideoAccel.Proofs.Strategy.Offsets
import VideoAccel.Proofs.Strategy.Order
import VideoAccel.Proofs.Strategy.Parameters
import VideoAccel.Proofs.Strategy.Parts
import VideoAccel.Proofs.Strategy.ReferenceCells
import VideoAccel.Proofs.Strategy.ReferenceRegisters
import VideoAccel.Proofs.Strategy.ReferenceWrites
import VideoAccel.Proofs.Strategy.References
import VideoAccel.Proofs.Strategy.RegionWrites
import VideoAccel.Proofs.Strategy.Regions
import VideoAccel.Proofs.Strategy.Scaling
import VideoAccel.Proofs.Strategy.Writes
import VideoAccel.Proofs.Traffic.Attribution
import VideoAccel.Proofs.Traffic.Completion
import VideoAccel.Proofs.Traffic.Exactness
import VideoAccel.Proofs.Traffic.Recording
import VideoAccel.Proofs.Traffic.Tally
import VideoAccel.Proofs.Traffic.Tickets
import VideoAccel.Proofs.Traffic.Transparency
import VideoAccel.Session
