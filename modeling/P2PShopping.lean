import P2PShopping.Library.Runs
import P2PShopping.Library.Collections
import P2PShopping.Library.Cell
import P2PShopping.Library.Traces
import P2PShopping.Library.Queues
import P2PShopping.Library.Buffers
import P2PShopping.Library.Numerals
import P2PShopping.Library.InputStream
import P2PShopping.Library.Lines
import P2PShopping.Library.Automata
import P2PShopping.Library.Progress
import P2PShopping.Library.Monitors
import P2PShopping.Util.ThreadPool
import P2PShopping.Util.PoolThreads
import P2PShopping.Util.ConcurrentQueue
import P2PShopping.Wire.Schema
import P2PShopping.Wire.Dump
import P2PShopping.Client.Client
import P2PShopping.Client.Presence
import P2PShopping.Client.Inventory
import P2PShopping.Client.Offers
import P2PShopping.Client.Goodbye
import P2PShopping.Client.Arguments
import P2PShopping.Client.CommandLine
import P2PShopping.Client.CommandLoop
import P2PShopping.Server.SearchHistory
import P2PShopping.Server.Sessions
import P2PShopping.Server.Agreement
import P2PShopping.Server.Rejection
import P2PShopping.Server.Readings
import P2PShopping.Server.StoreLog
import P2PShopping.Server.Windows
import P2PShopping.Server.Gate
import P2PShopping.Server.Commute
import P2PShopping.Server.Transitions
import P2PShopping.Server.Identifiers
import P2PShopping.Server.Shutdown
import P2PShopping.System.Answers
import P2PShopping.System.Outcomes
import P2PShopping.System.Sales
import P2PShopping.System.Rest
import P2PShopping.System.OneSearch
import P2PShopping.System.Threads
import P2PShopping.System.Delivery
import P2PShopping.Library.OrderedMaps
import P2PShopping.Library.Simulation
import P2PShopping.Wire.Lexer
import P2PShopping.Wire.Lexing
import P2PShopping.Wire.SaxParser
import P2PShopping.Wire.Scanning
import P2PShopping.Wire.RoundTrip
import P2PShopping.Wire.Canonical
import P2PShopping.Wire.Alike
import P2PShopping.System.Texts
import P2PShopping.System.Quiescence
import P2PShopping.System.DeadEnds
import P2PShopping.Library.Serial
import P2PShopping.Server.Sections
import P2PShopping.Library.Relational
import P2PShopping.Server.Congruence
import P2PShopping.Server.Copies
import P2PShopping.System.Realised
