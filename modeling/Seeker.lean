import Seeker.Library.Exec
import Seeker.Library.Loops
import Seeker.Library.Polyline
import Seeker.Library.Ragged
import Seeker.Library.Occupancy
import Seeker.Globals
import Seeker.State
import Seeker.Cpufreq
import Seeker.Machine
import Seeker.Governors
import Seeker.MutateCommon
import Seeker.Auction
import Seeker.Greedy
import Seeker.GreedyTable
import Seeker.Residency
import Seeker.SearchState
import Seeker.MapIpc
import Seeker.AdaptiveLadder
import Seeker.Migrate
import Seeker.Pds
import Seeker.Confinement
import Seeker.PmuReadings
import Seeker.Pull
import Seeker.DelayedWork
import Seeker.Probe
import Seeker.MigrationPool
import Seeker.Library.LinkedHeap
import Seeker.LogQueue
import Seeker.Retries
import Seeker.ScriptArray
import Seeker.ArrayOperators
import Seeker.MaxMin
import Seeker.MaxMinRows
import Seeker.MaxMinOrder
import Seeker.Interp
import Seeker.Resample
import Seeker.FreqTable
import Seeker.FreqIndex
import Seeker.Registry
import Seeker.Accounting
import Seeker.Hints
import Seeker.Library.Knapsack
import Seeker.Mck
import Seeker.Retire
import Seeker.DemandTransform
import Seeker.DynamicProg
import Seeker.Library.Staged
import Seeker.HwCounters
import Seeker.ModuleInit
import Seeker.Library.Regex
import Seeker.LogText
import Seeker.Library.ExchangeSort
import Seeker.FreqOrder
import Seeker.Library.Withdrawal
import Seeker.PruneStates
import Seeker.AllowedStates
import Seeker.FreqIsolation
import Seeker.Library.Nearest
import Seeker.SearchChoice
import Seeker.IpcBands
import Seeker.Library.Champion
import Seeker.AuctionRound
import Seeker.Library.Shares
import Seeker.Apportion
import Seeker.AuctionDemand
import Seeker.FreqChange
import Seeker.WakeUp
import Seeker.AwakeSet
import Seeker.Library.Gather
import Seeker.DemandProxy
import Seeker.AuctionReach
import Seeker.DemandNearest
import Seeker.Library.BitFields
import Seeker.MsrFields
import Seeker.Library.Sections
import Seeker.Launch
import Seeker.LaunchGrammar
import Seeker.CpuLoad
import Seeker.Library.Sweep
import Seeker.BidMatrix
import Seeker.PmuFixed
import Seeker.Seekerlogd
import Seeker.UserMck
import Seeker.LaunchRun
import Seeker.MigrationExit
import Seeker.ModuleExit
import Seeker.Recommendations
import Seeker.Library.Triangular
import Seeker.Smooth
