import ReadThrough.Settings.Environment
import ReadThrough.Session
import ReadThrough.Proofs.Deadline
import ReadThrough.Proofs.Settings
import ReadThrough.Proofs.Ending
import ReadThrough.Proofs.Shard.Names
import ReadThrough.Proofs.Shard.Reading
import ReadThrough.Proofs.Cache.Reading
import ReadThrough.Proofs.Cache.Writing
import ReadThrough.Proofs.Cache.Acts
import ReadThrough.Proofs.Cache.Coherence
import ReadThrough.Proofs.Cache.Homes
import ReadThrough.Proofs.Cache.RoundTrip
import ReadThrough.Proofs.Cache.History
import ReadThrough.Proofs.Scheduler
import ReadThrough.Proofs.Scheduler.Crew
import ReadThrough.Proofs.Scheduler.Manned
import ReadThrough.Proofs.Session
import ReadThrough.Proofs.Cache.LastWrite
import ReadThrough.Proofs.Scheduler.Turns
import ReadThrough.Proofs.Scheduler.Strokes
import ReadThrough.Proofs.Scheduler.Moves
import ReadThrough.Proofs.Scheduler.SingleFlight
import ReadThrough.Proofs.Scheduler.Settling
import ReadThrough.Proofs.Session.Rest
import ReadThrough.Proofs.Shard.Race
import ReadThrough.Proofs.Cache.Attempts
import ReadThrough.Proofs.Cache.Twins
import ReadThrough.Proofs.Cache.Atomicity
import ReadThrough.Proofs.Cache.Conflicts
import ReadThrough.Proofs.Cache.Capacity
import ReadThrough.Proofs.Scheduler.Boarding
import ReadThrough.Proofs.Scheduler.Landing
import ReadThrough.Proofs.Scheduler.Leaks
import ReadThrough.Proofs.Scheduler.Freshness
import ReadThrough.Proofs.Shard.Removing
import ReadThrough.Proofs.Cache.Local
import ReadThrough.Proofs.Cache.Interchange
import ReadThrough.Proofs.Cache.SoleRequest
import ReadThrough.Proofs.Cache.Ledger
import ReadThrough.Proofs.Cache.Chores
import ReadThrough.Proofs.Cache.Sweeping
import ReadThrough.Proofs.Scheduler.Errands
import ReadThrough.Proofs.Scheduler.Bound
import ReadThrough.Proofs.Scheduler.SoleRequest
import ReadThrough.Proofs.Scheduler.Incidents
import ReadThrough.Proofs.Scheduler.Punctual
import ReadThrough.Proofs.Scheduler.Hours
import ReadThrough.Proofs.Scheduler.Ticks
import ReadThrough.Proofs.Cache.Places
import ReadThrough.Proofs.Cache.Blame
import ReadThrough.Proofs.Cache.Absence
import ReadThrough.Proofs.Cache.Faults
import ReadThrough.Proofs.Cache.Deposits
import ReadThrough.Proofs.Scheduler.Items
import ReadThrough.Proofs.Scheduler.Absences
import ReadThrough.Proofs.Scheduler.Faults
import ReadThrough.Proofs.Scheduler.Responses
import ReadThrough.Proofs.Shard.Eviction
import ReadThrough.Proofs.Cache.Holding
import ReadThrough.Proofs.Cache.Deleting
import ReadThrough.Proofs.Cache.Rewriting
import ReadThrough.Proofs.Cache.Evicting
import ReadThrough.Proofs.Cache.Keeping
import ReadThrough.Proofs.Scheduler.Requested
import ReadThrough.Proofs.Shard.Schedule
import ReadThrough.Proofs.Cache.Untouched
import ReadThrough.Proofs.Cache.Elections
import ReadThrough.Proofs.Cache.Schedule
import ReadThrough.Proofs.Cache.PlainReads
import ReadThrough.Proofs.Cache.Ripening
import ReadThrough.Proofs.Cache.Gathering
import ReadThrough.Proofs.Scheduler.LostRefreshes
import ReadThrough.Proofs.Cache.Identity
import ReadThrough.Proofs.Scheduler.Stores
import ReadThrough.Proofs.Scheduler.Sparing
import ReadThrough.Proofs.Scheduler.FailedFetches
import ReadThrough.Proofs.Scheduler.Callers
import ReadThrough.Proofs.Scheduler.Batches
