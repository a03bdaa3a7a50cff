import EntropySupply.Binary64
import EntropySupply.Bytes
import EntropySupply.Entropy.Checked
import EntropySupply.Entropy.Cost
import EntropySupply.Entropy.Draw
import EntropySupply.Entropy.Managed
import EntropySupply.Entropy.Request
import EntropySupply.Entropy.Thresholds
import EntropySupply.Entropy.Tracked
import EntropySupply.Generator.Basic
import EntropySupply.Generator.Congruential
import EntropySupply.Generator.Pcg
import EntropySupply.Generator.Playback
import EntropySupply.Generator.Sampling
import EntropySupply.Generator.Xoshiro
import EntropySupply.Interruption
import EntropySupply.Notice
import EntropySupply.Producer.Basic
import EntropySupply.Producer.Line
import EntropySupply.Producer.Run
import EntropySupply.Proofs.Binary64
import EntropySupply.Proofs.Bytes
import EntropySupply.Proofs.Entropy.Agreement
import EntropySupply.Proofs.Entropy.Balance
import EntropySupply.Proofs.Entropy.Budget
import EntropySupply.Proofs.Entropy.Charges
import EntropySupply.Proofs.Entropy.Chronicle
import EntropySupply.Proofs.Entropy.Coverage
import EntropySupply.Proofs.Entropy.Harvest
import EntropySupply.Proofs.Entropy.Limits
import EntropySupply.Proofs.Entropy.Segments
import EntropySupply.Proofs.Entropy.Solvency
import EntropySupply.Proofs.Entropy.Steps
import EntropySupply.Proofs.Generator.Lockstep
import EntropySupply.Proofs.Generator.Period
import EntropySupply.Proofs.Generator.Skips
import EntropySupply.Proofs.Producer.Answers
import EntropySupply.Proofs.Producer.Blocks
import EntropySupply.Proofs.Producer.Supply
import EntropySupply.Proofs.Queue.Attempts
import EntropySupply.Proofs.Queue.Bounded
import EntropySupply.Proofs.Queue.Conservation
import EntropySupply.Proofs.Queue.Fifo
import EntropySupply.Proofs.Queue.Handles
import EntropySupply.Proofs.Queue.Portions
import EntropySupply.Proofs.Queue.Recording
import EntropySupply.Proofs.Queue.Transfers
import EntropySupply.Proofs.Queue.Transparency
import EntropySupply.Proofs.Queue.Turns
import EntropySupply.Proofs.Reseed.Counts
import EntropySupply.Proofs.Reseed.Credit
import EntropySupply.Proofs.Reseed.Distances
import EntropySupply.Proofs.Reseed.Folding
import EntropySupply.Proofs.Reseed.Padding
import EntropySupply.Proofs.Ring.Cells
import EntropySupply.Proofs.Ring.Contention
import EntropySupply.Proofs.Ring.Contents
import EntropySupply.Proofs.Ring.Copies
import EntropySupply.Proofs.Ring.Delivery
import EntropySupply.Proofs.Ring.Draining
import EntropySupply.Proofs.Ring.Exclusion
import EntropySupply.Proofs.Ring.Flow
import EntropySupply.Proofs.Ring.Frame
import EntropySupply.Proofs.Ring.Ledger
import EntropySupply.Proofs.Ring.Moves
import EntropySupply.Proofs.Ring.Observers
import EntropySupply.Proofs.Ring.Order
import EntropySupply.Proofs.Ring.Tiling
import EntropySupply.Proofs.Source.Pacing
import EntropySupply.Proofs.Traffic.Accounts
import EntropySupply.Proofs.Traffic.Alone
import EntropySupply.Proofs.Traffic.Blocking
import EntropySupply.Proofs.Traffic.Books
import EntropySupply.Proofs.Traffic.Closing
import EntropySupply.Proofs.Traffic.Threads
import EntropySupply.Queue.Basic
import EntropySupply.Queue.Capped
import EntropySupply.Queue.Channel
import EntropySupply.Queue.Exchange
import EntropySupply.Queue.Operation
import EntropySupply.Queue.Pool
import EntropySupply.Queue.Room
import EntropySupply.Queue.Site
import EntropySupply.Queue.Slack
import EntropySupply.Queue.Turn
import EntropySupply.Reseed.Basic
import EntropySupply.Reseed.Mixing
import EntropySupply.Reseed.Replacing
import EntropySupply.Reseed.Skip
import EntropySupply.Reseed.Skipping
import EntropySupply.Reseed.Stepping
import EntropySupply.Ring.Audit
import EntropySupply.Ring.Basic
import EntropySupply.Ring.Capacity
import EntropySupply.Ring.Session
import EntropySupply.Ring.Slots
import EntropySupply.Ring.Space
import EntropySupply.Settings.Format
import EntropySupply.Settings.Formats
import EntropySupply.Settings.Token
import EntropySupply.Settings.Tree
import EntropySupply.SetupError
import EntropySupply.Sha256
import EntropySupply.Source.Basic
import EntropySupply.Source.Failure
import EntropySupply.Source.Plan
import EntropySupply.Source.Retrying
import EntropySupply.Source.Script
import EntropySupply.Source.Sleep
import EntropySupply.Text.Duration
import EntropySupply.Text.Hidden
import EntropySupply.Text.Quoted
import EntropySupply.Version
import EntropySupply.Whitening
import EntropySupply.Ziggurat
import EntropySupply.Ziggurat.ExponentialLayers
import EntropySupply.Ziggurat.NormalLayers
