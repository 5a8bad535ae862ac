import HollowGrid.Lib.Bytes
import HollowGrid.Lib.Machine
import HollowGrid.Lib.Keeps
import HollowGrid.Lib.Text
import HollowGrid.Json
import HollowGrid.Server
import HollowGrid.Rooms
import HollowGrid.Actions
import HollowGrid.Ledger
import HollowGrid.Hub
import HollowGrid.Format
import HollowGrid.Emit
import HollowGrid.Store
import HollowGrid.Social
import HollowGrid.Deeds
import HollowGrid.Rescue
import HollowGrid.Policy
import HollowGrid.Combat
import HollowGrid.Callback
import HollowGrid.Tidy
import HollowGrid.Lines
import HollowGrid.Reports
import HollowGrid.Replies
import HollowGrid.Permits
import HollowGrid.Commands
import HollowGrid.Play
import HollowGrid.Login
import HollowGrid.Played
import HollowGrid.Steps
import HollowGrid.Lib.Slots
import HollowGrid.Registry
import HollowGrid.Fights
import HollowGrid.Keeper
import HollowGrid.Null
import HollowGrid.Closing
import HollowGrid.Outbox
import HollowGrid.Forgery
import HollowGrid.Caches
import HollowGrid.Parts
import HollowGrid.Frames
import HollowGrid.Engaged
import HollowGrid.Limits
import HollowGrid.Tally
import HollowGrid.Pairs
import HollowGrid.Rat
import HollowGrid.Menu
import HollowGrid.Counts
import HollowGrid.Fragments
import HollowGrid.Lib.Shelf
import HollowGrid.Stores
import HollowGrid.Casts
import HollowGrid.Identity
import HollowGrid.Wounds
import HollowGrid.Clockwork
import HollowGrid.Swings
import HollowGrid.Beats
import HollowGrid.Unanswered
import HollowGrid.Registers
import HollowGrid.Lib.Memory
import HollowGrid.Records
import HollowGrid.Rolls
import HollowGrid.Overreads
import HollowGrid.Gifts
import HollowGrid.Clipping
import HollowGrid.Kits
import HollowGrid.Lib.Files
import HollowGrid.Saving
import HollowGrid.Lib.JsonText
import HollowGrid.Panels
import HollowGrid.Composed
import HollowGrid.Listings
import HollowGrid.Matching
import HollowGrid.Trades
import HollowGrid.Pruning
import HollowGrid.Resolving
import HollowGrid.Pardons
import HollowGrid.Voices
import HollowGrid.Marks
import HollowGrid.Rosters
import HollowGrid.Pings
import HollowGrid.Aliases
import HollowGrid.Escapes
import HollowGrid.Admins
import HollowGrid.Phrases
import HollowGrid.Trims
import HollowGrid.Inventory
import HollowGrid.Lib.Keys
import HollowGrid.Tables
import HollowGrid.Paths
import HollowGrid.Lib.Heads
import HollowGrid.Phases
import HollowGrid.Tellings
import HollowGrid.Skies
import HollowGrid.Hours
import HollowGrid.Days
import HollowGrid.Lib.Ram
import HollowGrid.Buffer
import HollowGrid.Lib.Stack
import HollowGrid.Discipline
import HollowGrid.Seats
import HollowGrid.Profiles
import HollowGrid.Lib.Archive
import HollowGrid.Lib.Simulation
import HollowGrid.Errands
import HollowGrid.Returns
import HollowGrid.Duplicates
import HollowGrid.Secrets
import HollowGrid.Lineage
import HollowGrid.Arcs
import HollowGrid.Neighbours
import HollowGrid.Economy
import HollowGrid.Walks
import HollowGrid.Lib.Argv
import HollowGrid.Startup
import HollowGrid.Health
import HollowGrid.Admission
import HollowGrid.Mirrors
