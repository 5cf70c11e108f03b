import Callbook.Library.ByteOrder
import Callbook.Library.Maps
import Callbook.Library.Tally
import Callbook.Library.Lists
import Callbook.Library.Framing
import Callbook.Library.Scanner
import Callbook.Library.Keystream
import Callbook.Library.Bisect
import Callbook.Library.Text
import Callbook.Library.Utf8
import Callbook.Library.Panic
import Callbook.Library.StableSort
import Callbook.Library.StableClasses
import Callbook.Library.Upsert
import Callbook.Library.MergeAll
import Callbook.Library.Firsts
import Callbook.Library.NormalForms
import Callbook.Library.FileTree
import Callbook.Library.Usize
import Callbook.Library.Lines
import Callbook.Library.Sections
import Callbook.Library.Sampling
import Callbook.Callsign
import Callbook.Callsign.NormalForm
import Callbook.Interest.Basic
import Callbook.UsCsv.Basic
import Callbook.UsCsv.Properties
import Callbook.Modern.Basic
import Callbook.Country.Basic
import Callbook.Country.Priority
import Callbook.Country.Panics
import Callbook.Country.Ranges
import Callbook.Country.RuleLines
import Callbook.Country.Catalog
import Callbook.Dat.Basic
import Callbook.Dat.Properties
import Callbook.Dat.Scores
import Callbook.Record.Basic
import Callbook.Record.Properties
import Callbook.Record.Prefilter
import Callbook.Record.Tags
import Callbook.Modern.Properties
import Callbook.Record.Fields
import Callbook.Record.Encode
import Callbook.Record.Interests
import Callbook.Record.Sidecars
import Callbook.Idx.Basic
import Callbook.Idx.Properties
import Callbook.Idx.Lines
import Callbook.Idx.Encode
import Callbook.Idx.Verify
import Callbook.Idx.Searches
import Callbook.Idx.Directory
import Callbook.Hci.Basic
import Callbook.Hci.Index
import Callbook.Hci.Statistics
import Callbook.Hci.Encode
import Callbook.Hci.Verify
import Callbook.Hci.Ordinals
import Callbook.Counts.Basic
import Callbook.Counts.Search
import Callbook.Counts.Encode
import Callbook.Database.Basic
import Callbook.Database.Properties
import Callbook.Database.Merge
import Callbook.Database.Groups
import Callbook.Database.Consistency
import Callbook.Database.Total
import Callbook.Database.Records
import Callbook.Database.Slices
import Callbook.Database.Candidates
import Callbook.Database.HciProvenance
import Callbook.Database.IdxProvenance
import Callbook.Database.HciCompleteness
import Callbook.Database.HciHeaders
import Callbook.Database.RoundTrip
import Callbook.Database.Entries
import Callbook.Database.StatKeys
import Callbook.Database.Trace
import Callbook.Database.TraceEntries
import Callbook.Database.DefaultCountry
import Callbook.Database.Statistics
import Callbook.Photos.Basic
import Callbook.Photos.Links
import Callbook.Photos.Assets
import Callbook.Photos.Order
import Callbook.Photos.Profile
import Callbook.Boundary.RoundTrip
import Callbook.Boundary.StateMap
import Callbook.Scan.Basic
import Callbook.Scan.Interest
import Callbook.Scan.Tags
import Callbook.Scan.Statistics
import Callbook.Scan.UnknownCodes
import Callbook.Ffi.Buffer
import Callbook.Library.SharedCaches
import Callbook.Database.Caches
import Callbook.Database.PostingStarts
import Callbook.Library.Handles
import Callbook.Database.Stations
import Callbook.Ffi.Structured
import Callbook.Ffi.Accessors
import Callbook.Ffi.Exports
import Callbook.Python.Refinement
