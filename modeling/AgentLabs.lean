import AgentLabs.Math.Run
import AgentLabs.Math.Dict
import AgentLabs.Math.Index
import AgentLabs.Math.Rounding
import AgentLabs.Math.Table
import AgentLabs.Math.PathWalk
import AgentLabs.Math.Segments
import AgentLabs.Math.EventLog
import AgentLabs.Math.Lease
import AgentLabs.Math.DependencyOrder
import AgentLabs.Math.KeyOrder
import AgentLabs.Math.Monitor
import AgentLabs.Math.Program
import AgentLabs.Math.Journal
import AgentLabs.Math.Workflow
import AgentLabs.Math.Triple
import AgentLabs.Math.Strategy
import AgentLabs.Math.Coalesce
import AgentLabs.Math.Greedy
import AgentLabs.Math.Grouping
import AgentLabs.Math.Rankings
import AgentLabs.Math.Statistics
import AgentLabs.Math.Packing
import AgentLabs.Math.Slices
import AgentLabs.Math.Fallible
import AgentLabs.Text.PythonStr
import AgentLabs.Text.Regex
import AgentLabs.Text.Json
import AgentLabs.Text.JsonAccess
import AgentLabs.Text.JsonLines
import AgentLabs.Text.JsonText
import AgentLabs.Text.JsonSorted
import AgentLabs.Text.JsonSpelled
import AgentLabs.Text.Halves
import AgentLabs.Text.Lines
import AgentLabs.Text.Utf8
import AgentLabs.Text.PipeTables
import AgentLabs.Text.Numerals
import AgentLabs.Text.Glob
import AgentLabs.GuardLab.Contracts
import AgentLabs.GuardLab.Workspace
import AgentLabs.GuardLab.Tools
import AgentLabs.GuardLab.Permission
import AgentLabs.GuardLab.Confinement
import AgentLabs.GuardLab.Delivery
import AgentLabs.GuardLab.Disclosure
import AgentLabs.GuardLab.Spans
import AgentLabs.GuardLab.Pii
import AgentLabs.GuardLab.Evaluate
import AgentLabs.GuardLab.Marking
import AgentLabs.GuardLab.Memory
import AgentLabs.GuardLab.Outbox
import AgentLabs.GuardLab.Output
import AgentLabs.GuardLab.Input
import AgentLabs.GuardLab.Drafts
import AgentLabs.GuardLab.Injection
import AgentLabs.GuardLab.Answer
import AgentLabs.BusinessLab.Store
import AgentLabs.BusinessLab.Environment
import AgentLabs.BusinessLab.Answers
import AgentLabs.BusinessLab.Artifact
import AgentLabs.BusinessLab.Evaluators
import AgentLabs.BusinessLab.Conservation
import AgentLabs.BusinessLab.Lifecycle
import AgentLabs.BusinessLab.SideEffects
import AgentLabs.BusinessLab.Policy
import AgentLabs.BusinessLab.Scripted
import AgentLabs.BusinessLab.Episodes
import AgentLabs.BusinessLab.Points
import AgentLabs.BusinessLab.Courses
import AgentLabs.BusinessLab.Completion
import AgentLabs.BusinessLab.Compliance
import AgentLabs.BusinessLab.Conformance
import AgentLabs.BusinessLab.Reporting
import AgentLabs.BusinessLab.Gate
import AgentLabs.BusinessLab.Accounting
import AgentLabs.BusinessLab.Grading
import AgentLabs.BusinessLab.Cards
import AgentLabs.BusinessLab.Freezing
import AgentLabs.BusinessLab.EpisodeRecord
import AgentLabs.BusinessLab.Calibration
import AgentLabs.BusinessLab.ErrorFrame
import AgentLabs.BusinessLab.Idempotency
import AgentLabs.BusinessLab.Totality
import AgentLabs.Interview.Evidence
import AgentLabs.Interview.Workflow
import AgentLabs.Interview.History
import AgentLabs.Interview.Publication
import AgentLabs.Interview.Reconciliation
import AgentLabs.Interview.Interleaving
import AgentLabs.Interview.Calls
import AgentLabs.Interview.Recovery
import AgentLabs.Interview.Atomicity
import AgentLabs.Interview.Limits
import AgentLabs.Interview.Malformed
import AgentLabs.GuardLab.Approval
import AgentLabs.GuardLab.Binding
import AgentLabs.GuardLab.Consumption
import AgentLabs.Retrieval.Evidence
import AgentLabs.Retrieval.Manifests
import AgentLabs.Retrieval.Served
import AgentLabs.Retrieval.Context
import AgentLabs.Retrieval.Scope
import AgentLabs.Retrieval.Provenance
import AgentLabs.Retrieval.Growth
import AgentLabs.Retrieval.Turns
import AgentLabs.Retrieval.Conversations
import AgentLabs.Retrieval.Pairing
import AgentLabs.Retrieval.Ranking
import AgentLabs.Retrieval.Chunking
import AgentLabs.Retrieval.Preparation
import AgentLabs.Retrieval.Tables
import AgentLabs.Retrieval.Answers
import AgentLabs.Retrieval.AnswerTables
import AgentLabs.Rag.Registry
import AgentLabs.Rag.Ownership
import AgentLabs.Rag.Ingestion
import AgentLabs.Rag.Heads
import AgentLabs.Rag.Offers
import AgentLabs.Rag.Seeding
import AgentLabs.Rag.Evidence
import AgentLabs.Rag.Worker
import AgentLabs.Rag.Graphs
import AgentLabs.Rag.GraphParts
import AgentLabs.Rag.Adaptive
import AgentLabs.Rag.Architectures
import AgentLabs.Rag.Contracts
import AgentLabs.Rag.Merging
import AgentLabs.Rag.PairedAnalysis
import AgentLabs.Rag.Coordinates
import AgentLabs.Rag.Selection
import AgentLabs.Rag.Windows
import AgentLabs.Rag.Reading
import AgentLabs.Rag.Meter
import AgentLabs.Rag.Backend
import AgentLabs.Rag.Enrichment
import AgentLabs.Rag.BackendRun
import AgentLabs.Rag.Grounding
import AgentLabs.Rag.Threads
import AgentLabs.Rag.Supervisor
import AgentLabs.Rag.SupervisorRun
import AgentLabs.CodingSkills.Diff
