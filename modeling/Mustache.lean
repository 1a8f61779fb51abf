import Mustache.Loader.FileTree
import Mustache.Render.Walk
import Mustache.Tree.Block
import Mustache.Value.Model
import Mustache.Proofs.Calls
import Mustache.Proofs.Grammar
import Mustache.Proofs.Dict
import Mustache.Proofs.Numerals
import Mustache.Proofs.Search
import Mustache.Proofs.Scanning
import Mustache.Proofs.RoundTrip
import Mustache.Proofs.Plain
import Mustache.Proofs.Sections
import Mustache.Proofs.Origin
import Mustache.Proofs.Faithful
import Mustache.Proofs.Lambda
import Mustache.Proofs.Occurrence
import Mustache.Proofs.Arguments
import Mustache.Proofs.Exact
import Mustache.Proofs.Exec
import Mustache.Proofs.Quiet
import Mustache.Proofs.Streaming
import Mustache.Proofs.Reach
import Mustache.Proofs.Alike
import Mustache.Proofs.Cache
import Mustache.Proofs.Escaping
import Mustache.Proofs.Filling
import Mustache.Proofs.Partition
import Mustache.Proofs.Joint
import Mustache.Proofs.Ranks
import Mustache.Proofs.Bodies
import Mustache.Proofs.Paths
import Mustache.Proofs.Lookup
import Mustache.Proofs.Rounds
import Mustache.Proofs.Stops
import Mustache.Proofs.Locales
import Mustache.Proofs.Patterns
import Mustache.Proofs.Places
import Mustache.Proofs.Offences
import Mustache.Proofs.Finality
import Mustache.Proofs.Stores
import Mustache.Proofs.Chains
import Mustache.Proofs.Confinement
import Mustache.Proofs.Quotation
import Mustache.Proofs.Passes
import Mustache.Proofs.Callables
import Mustache.Proofs.Elements
import Mustache.Proofs.Splitting
import Mustache.Date.Gregorian
