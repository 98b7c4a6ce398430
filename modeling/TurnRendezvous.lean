import TurnRendezvous.Describe
import TurnRendezvous.Invite
import TurnRendezvous.Match.Json
import TurnRendezvous.Probe
import TurnRendezvous.Proofs.Agent.Accepted
import TurnRendezvous.Proofs.Agent.Activity
import TurnRendezvous.Proofs.Agent.Callbacks
import TurnRendezvous.Proofs.Agent.Detached
import TurnRendezvous.Proofs.Agent.Dismissal
import TurnRendezvous.Proofs.Agent.Farewell
import TurnRendezvous.Proofs.Agent.Handover
import TurnRendezvous.Proofs.Agent.Invited
import TurnRendezvous.Proofs.Agent.Started
import TurnRendezvous.Proofs.Agent.Submissions
import TurnRendezvous.Proofs.Agent.Tenant
import TurnRendezvous.Proofs.Agent.Verification
import TurnRendezvous.Proofs.Agent.Waiting
import TurnRendezvous.Proofs.Ending
import TurnRendezvous.Proofs.Feed
import TurnRendezvous.Proofs.Gate
import TurnRendezvous.Proofs.Hub.Arrivals
import TurnRendezvous.Proofs.Hub.Ended
import TurnRendezvous.Proofs.Hub.Holding
import TurnRendezvous.Proofs.Hub.Ledger
import TurnRendezvous.Proofs.Hub.Sound
import TurnRendezvous.Proofs.Hub.Tenure
import TurnRendezvous.Proofs.Hub.Tidings
import TurnRendezvous.Proofs.Hub.View
import TurnRendezvous.Proofs.Invite
import TurnRendezvous.Proofs.Jitter
import TurnRendezvous.Proofs.Job.Forgetting
import TurnRendezvous.Proofs.Lobby.Errands
import TurnRendezvous.Proofs.Lobby.Interchange
import TurnRendezvous.Proofs.Lobby.Suggestion
import TurnRendezvous.Proofs.Match
import TurnRendezvous.Proofs.Outbox
import TurnRendezvous.Proofs.Spellings
import TurnRendezvous.Proofs.Timing
import TurnRendezvous.Proofs.Watch
import TurnRendezvous.Proofs.World.Agreement
import TurnRendezvous.Proofs.World.Course
import TurnRendezvous.Proofs.World.Gathering
import TurnRendezvous.Proofs.World.Hosted
import TurnRendezvous.Proofs.World.Invited
import TurnRendezvous.Proofs.World.Ownership
import TurnRendezvous.Proofs.World.Quitting
import TurnRendezvous.Proofs.World.Watchful
import TurnRendezvous.Scenario.Basic
import TurnRendezvous.Scenario.Bench
import TurnRendezvous.Scenario.Hall
import TurnRendezvous.Scenario.Lookout
import TurnRendezvous.Scenario.Rehearsal
import TurnRendezvous.Proofs.Job.Ensemble
