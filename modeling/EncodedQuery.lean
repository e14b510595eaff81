import EncodedQuery.Json.Reader
import EncodedQuery.Json.Writer
import EncodedQuery.Instant.Stored
import EncodedQuery.Check.Query
import EncodedQuery.Source.Tables
import EncodedQuery.Source.Dictionary
import EncodedQuery.Picker.Range
import EncodedQuery.Reference.Picker
import EncodedQuery.Settings.Basic
import EncodedQuery.Builder.View
import EncodedQuery.Saved.Store
import EncodedQuery.Main
import EncodedQuery.Proofs.Query.Segment
import EncodedQuery.Proofs.Query.Split
import EncodedQuery.Proofs.Query.RoundTrip
import EncodedQuery.Proofs.Condition.Encode
import EncodedQuery.Proofs.Condition.Reload
import EncodedQuery.Proofs.Builder.Gate
import EncodedQuery.Proofs.Builder.Accord
import EncodedQuery.Proofs.Builder.Failure
import EncodedQuery.Proofs.Builder.Course
import EncodedQuery.Proofs.Instant.Stored
import EncodedQuery.Proofs.Condition.Described
import EncodedQuery.Proofs.Reference.Workers
import EncodedQuery.Proofs.Reference.Delivery
import EncodedQuery.Proofs.Builder.Searching
import EncodedQuery.Proofs.Json.Words
import EncodedQuery.Proofs.Builder.Ranges
import EncodedQuery.Proofs.Json.Document
import EncodedQuery.Proofs.Saved.Store
import EncodedQuery.Proofs.Builder.Saving
import EncodedQuery.Proofs.Source.Tables
import EncodedQuery.Proofs.Builder.Escape
import EncodedQuery.Proofs.Builder.Picking
import EncodedQuery.Proofs.Builder.Verdict
import EncodedQuery.Proofs.Builder.Origin
import EncodedQuery.Proofs.Check.Silent
import EncodedQuery.Proofs.Check.Bounds
import EncodedQuery.Proofs.Saved.Map
import EncodedQuery.Proofs.Record.Opposite
import EncodedQuery.Proofs.Reference.Search
import EncodedQuery.Proofs.Date.Shift
import EncodedQuery.Proofs.Picker.Entry
import EncodedQuery.Proofs.Picker.Turns
import EncodedQuery.Proofs.Builder.RangeEntry
import EncodedQuery.Proofs.Condition.Stack
import EncodedQuery.Proofs.Instant.Apart
import EncodedQuery.Proofs.Check.Structure
import EncodedQuery.Proofs.Source.Fallback
import EncodedQuery.Proofs.Shell.Store
import EncodedQuery.Proofs.Builder.Marks
import EncodedQuery.Proofs.Picker.Page
import EncodedQuery.Proofs.Shell.Compile
import EncodedQuery.Proofs.Widget.Parted
