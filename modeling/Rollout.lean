import Rollout.Api.Server
import Rollout.Main
import Rollout.Shell.Run
import Rollout.Shutdown
import Rollout.Workflow.Session
import Rollout.Proofs.Action
import Rollout.Proofs.Acted
import Rollout.Proofs.History
import Rollout.Proofs.Simulation
import Rollout.Proofs.Trace
import Rollout.Proofs.LockDiscipline
import Rollout.Proofs.PreflightGate
import Rollout.Proofs.Order
import Rollout.Proofs.Provenance
import Rollout.Proofs.EngineCalls
import Rollout.Proofs.Engines
import Rollout.Proofs.Ownership
import Rollout.Proofs.Exclusion
import Rollout.Proofs.MutualExclusion
import Rollout.Proofs.Refusal
import Rollout.Proofs.StoreAgreement
import Rollout.Proofs.Exit
import Rollout.Proofs.Answers
import Rollout.Proofs.Interleaving
import Rollout.Proofs.Tenure
import Rollout.Proofs.Serial
import Rollout.Proofs.Configuration
import Rollout.Proofs.Patches
import Rollout.Proofs.Telling
import Rollout.Proofs.Overtaking
import Rollout.Proofs.Frozen
import Rollout.Proofs.Fitting
import Rollout.Proofs.Completion
import Rollout.Proofs.Errand
import Rollout.Proofs.Settlement
import Rollout.Proofs.Watching
import Rollout.Proofs.Polling
import Rollout.Proofs.Permission
import Rollout.Proofs.LogTail
import Rollout.Proofs.Balance
import Rollout.Proofs.Spelling
import Rollout.Proofs.Decoding
import Rollout.Proofs.Utf8
import Rollout.Proofs.Exchange
import Rollout.Proofs.BlockText
import Rollout.Proofs.LineFeed
import Rollout.Proofs.Draining
import Rollout.Proofs.HostSettings
import Rollout.Proofs.ValueChecks
import Rollout.Proofs.Overriding
import Rollout.Proofs.Defaults
import Rollout.Proofs.Components
import Rollout.Proofs.Silence
import Rollout.Proofs.Arrangement
import Rollout.Proofs.Reachability
import Rollout.Proofs.Description
import Rollout.Proofs.Laying
import Rollout.Proofs.Sections
import Rollout.Proofs.Layers
import Rollout.Proofs.Decimals
import Rollout.Proofs.Retyping
