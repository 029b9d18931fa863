import LoopbackLock.Address.Host
import LoopbackLock.Address.Reader
import LoopbackLock.Address.Written
import LoopbackLock.Contest.Basic
import LoopbackLock.Exchange.Chance
import LoopbackLock.Exchange.Request
import LoopbackLock.Holder.Attendant
import LoopbackLock.Holder.Basic
import LoopbackLock.Holder.Registry
import LoopbackLock.Lock.Call
import LoopbackLock.Lock.Challenge
import LoopbackLock.Lock.Contention
import LoopbackLock.Lock.Dismantling
import LoopbackLock.Lock.Error
import LoopbackLock.Lock.Gate
import LoopbackLock.Lock.Shared
import LoopbackLock.Lock.Vigil
import LoopbackLock.Network.Basic
import LoopbackLock.Network.Link
import LoopbackLock.Occupant.Decoy
import LoopbackLock.Occupant.Hearing
import LoopbackLock.Occupant.Puppet
import LoopbackLock.Proofs.World.Exclusion
import LoopbackLock.Proofs.Holder.Owning
import LoopbackLock.Proofs.Holder.Registry
import LoopbackLock.Proofs.Estate.Basic
import LoopbackLock.Proofs.Estate.Handles
import LoopbackLock.Proofs.Estate.Accounts
import LoopbackLock.Proofs.Estate.Turns
import LoopbackLock.Proofs.Estate.Pens
import LoopbackLock.Proofs.Estate.Speech
import LoopbackLock.Proofs.Estate.Answered
import LoopbackLock.Proofs.Estate.Registrar
import LoopbackLock.Proofs.Estate.Releasing
import LoopbackLock.Proofs.Network.Evolving
import LoopbackLock.Proofs.World.Evolving
import LoopbackLock.Proofs.World.Regular
import LoopbackLock.Proofs.World.Release
import LoopbackLock.Proofs.World.Waiters
import LoopbackLock.Proofs.Estate.Filing
import LoopbackLock.Proofs.Wire.FirstLine
import LoopbackLock.Proofs.Network.Delivery
import LoopbackLock.Proofs.Lock.Calling
import LoopbackLock.Proofs.Estate.Whole
import LoopbackLock.Proofs.World.Wholeness
import LoopbackLock.Proofs.World.Calling
import LoopbackLock.Scenario.Basic
import LoopbackLock.Scenario.Session
import LoopbackLock.Settings.Basic
import LoopbackLock.Settings.Document
import LoopbackLock.Settings.Environment
import LoopbackLock.Settings.File
import LoopbackLock.Settings.Written
import LoopbackLock.Text.Blank
import LoopbackLock.Text.Delay
import LoopbackLock.Text.Numeral
import LoopbackLock.Text.Unprintable
import LoopbackLock.Text.Utf8
import LoopbackLock.Timing.Course
import LoopbackLock.Toml.Binary64
import LoopbackLock.Toml.Cursor
import LoopbackLock.Toml.Diagnostic
import LoopbackLock.Toml.Document
import LoopbackLock.Toml.Item
import LoopbackLock.Toml.Number
import LoopbackLock.Toml.Quoted
import LoopbackLock.Toml.Value
import LoopbackLock.Wire.Fault
import LoopbackLock.Wire.LineReader
import LoopbackLock.Wire.LineWriter
import LoopbackLock.Wire.Message
import LoopbackLock.World.Basic
import LoopbackLock.World.Event
import LoopbackLock.World.Timed
import LoopbackLock.Proofs.World.Hearing
import LoopbackLock.Proofs.World.Cooperation
import LoopbackLock.Proofs.Wire.Lines
import LoopbackLock.Proofs.Wire.Transcript
import LoopbackLock.Proofs.Wire.Framing
import LoopbackLock.Proofs.Wire.EndOfFile
import LoopbackLock.Proofs.Wire.RoundTrip
import LoopbackLock.Proofs.Lock.Mutex
import LoopbackLock.Proofs.Lock.Listening
import LoopbackLock.Proofs.Lock.Household
import LoopbackLock.Proofs.Lock.Failure
import LoopbackLock.Proofs.World.Household
import LoopbackLock.Proofs.Timing.Ensuing
import LoopbackLock.Proofs.Network.Leaving
import LoopbackLock.Proofs.World.Aside
import LoopbackLock.Proofs.World.Asking
import LoopbackLock.Proofs.World.Answering
import LoopbackLock.Proofs.World.Patience
import LoopbackLock.Proofs.World.Readiness
import LoopbackLock.Proofs.World.Promptness
import LoopbackLock.Proofs.World.Oversleeping
import LoopbackLock.Proofs.World.Announced
import LoopbackLock.Proofs.Contest.Counting
import LoopbackLock.Proofs.Text.Numeral
import LoopbackLock.Proofs.Text.Utf8
import LoopbackLock.Proofs.Text.Blank
import LoopbackLock.Proofs.Address.RoundTrip
import LoopbackLock.Proofs.Toml.Values
import LoopbackLock.Proofs.Toml.Numbers
import LoopbackLock.Proofs.Toml.Moments
import LoopbackLock.Proofs.Toml.Pairs
import LoopbackLock.Proofs.Toml.Grammar
import LoopbackLock.Proofs.Toml.Lines
import LoopbackLock.Proofs.Settings.Fields
import LoopbackLock.Proofs.Settings.Overriding
import LoopbackLock.Proofs.Settings.RoundTrip
import LoopbackLock.Proofs.Settings.Environment
import LoopbackLock.Proofs.Lock.Rounds
import LoopbackLock.Proofs.Lock.Acquiring
import LoopbackLock.Proofs.World.Origins
import LoopbackLock.Proofs.Estate.Clearing
import LoopbackLock.Proofs.World.Idleness
import LoopbackLock.Proofs.Wire.Opening
import LoopbackLock.Proofs.Wire.Portions
import LoopbackLock.Proofs.Wire.Recognition
import LoopbackLock.Proofs.Lock.Surroundings
import LoopbackLock.Proofs.Lock.Verdicts
import LoopbackLock.Proofs.Lock.Released
import LoopbackLock.Proofs.Network.Arrival
import LoopbackLock.Proofs.World.Attending
import LoopbackLock.Proofs.World.Speaking
import LoopbackLock.Proofs.World.Discipline
import LoopbackLock.Proofs.World.Pruning
import LoopbackLock.Proofs.Estate.Outliving
import LoopbackLock.Proofs.World.Orphaned
import LoopbackLock.Proofs.Lock.Farewell
import LoopbackLock.Proofs.Estate.Settled
import LoopbackLock.Proofs.World.Steady
import LoopbackLock.Proofs.World.Concluding
import LoopbackLock.Proofs.World.Completion
import LoopbackLock.Proofs.Lock.Gathering
import LoopbackLock.Proofs.Lock.Rousing
import LoopbackLock.Proofs.Wire.Demand
import LoopbackLock.Proofs.Wire.Deciding
import LoopbackLock.Proofs.Occupant.Talk
import LoopbackLock.Proofs.Occupant.Standoff
import LoopbackLock.Proofs.Occupant.Facing
import LoopbackLock.Proofs.Occupant.Silence
