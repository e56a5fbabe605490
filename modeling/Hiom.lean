import Hiom.Lib.Machine
import Hiom.Lib.Prog
import Hiom.Lib.Pmem
import Hiom.Cold.Table
import Hiom.Cold.Chain
import Hiom.Cold.Shape
import Hiom.Cold.Region
import Hiom.Cold.Bulk
import Hiom.Cold.Tier
import Hiom.Cold.Scan
import Hiom.Cold.Map
import Hiom.Cold.Refinement
import Hiom.Cold.Growth
import Hiom.Cold.Readers
import Hiom.Cold.Traffic
import Hiom.Cold.Persist
import Hiom.Cold.Durable
import Hiom.Cold.Crash
import Hiom.Cold.Power
import Hiom.Cold.Room
import Hiom.Lib.Count
import Hiom.Lib.Held
import Hiom.Commit.Lane
import Hiom.Commit.Wait
import Hiom.Frontier.Pending
import Hiom.Frontier.Model
import Hiom.Frontier.Accounts
import Hiom.Frontier.Sound
import Hiom.Frontier.Ring
import Hiom.Checkpoint.Slots
import Hiom.Checkpoint.Atomic
import Hiom.Viper.Blocks
import Hiom.Viper.Lock
import Hiom.Viper.Flush
import Hiom.Viper.Seqlock
import Hiom.Hot.SlotState
import Hiom.Hot.Pins
import Hiom.Viper.Intents
import Hiom.Viper.Repair
import Hiom.Viper.Registry
import Hiom.Viper.Pages
import Hiom.Viper.Custody
import Hiom.Viper.Phantoms
import Hiom.Viper.Deadlock
import Hiom.Lib.Sweep
import Hiom.Lib.Chunks
import Hiom.Hot.Code
import Hiom.Hot.Sieve
import Hiom.Hot.Cache
import Hiom.Hot.Unique
import Hiom.Viper.Records
import Hiom.Viper.Writer
import Hiom.Hot.Codec
import Hiom.Hot.Simd
import Hiom.Client.Keys
import Hiom.Recovery.Replay
import Hiom.Recovery.Ranges
import Hiom.Cceh.Segment
import Hiom.Cceh.Index
import Hiom.Viper.Lives
import Hiom.Viper.Plain
import Hiom.Viper.Contents
import Hiom.Viper.Calls
import Hiom.Viper.Clients
import Hiom.Viper.Map
import Hiom.Lib.Loop
import Hiom.Viper.Reclaim
import Hiom.Cceh.Fresh
import Hiom.Viper.Restart
import Hiom.Lib.Bytes
import Hiom.Viper.Strings
import Hiom.Viper.Spans
import Hiom.Viper.Inserts
import Hiom.Viper.Texts
import Hiom.Hot.Guards
import Hiom.Cold.Dictionary
import Hiom.Lib.Runs
import Hiom.Client.Tiers
import Hiom.Client.Store
import Hiom.Client.Index
import Hiom.Client.Drains
import Hiom.Client.Mirror
import Hiom.Client.Pages
import Hiom.Client.Reads
import Hiom.Client.Calls
import Hiom.Client.Kills
import Hiom.Client.Map
