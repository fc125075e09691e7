import Otf2Dump.Writer.Basic
import Otf2Dump.Writer.TypeSizes
import Otf2Dump.Writer.Requests
import Otf2Dump.Writer.Collectives
import Otf2Dump.Writer.Registry
import Otf2Dump.Writer.GlobalIds
import Otf2Dump.Writer.Definitions
import Otf2Dump.Writer.Run
import Otf2Dump.Handlers
import Otf2Dump.EventCount
import Otf2Dump.Tracker.Machine
import Otf2Dump.Tracker.Invariants
import Otf2Dump.Tracker.Refinement
import Otf2Dump.Tracker.Runs
import Otf2Dump.Tracker.Waitall
import Otf2Dump.Tracker.Completions
import Otf2Dump.Agreement.Forest
import Otf2Dump.Agreement.Termination
import Otf2Dump.Agreement.Protocol
import Otf2Dump.Agreement.Traversal
import Otf2Dump.Agreement.Uniqueness
import Otf2Dump.Groups
import Otf2Dump.Regions.Records
import Otf2Dump.Regions.Definitions
import Otf2Dump.Timestamps
import Otf2Dump.Regions.Brackets
import Otf2Dump.DerivedSizes
import Otf2Dump.Volumes
import Otf2Dump.Locations
