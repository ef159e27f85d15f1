import TagSearch.Text.Basic
import TagSearch.Text.Word
import TagSearch.Text.Case
import TagSearch.Text.Canonical
import TagSearch.Clause
import TagSearch.Token.Basic
import TagSearch.Token.Lexer
import TagSearch.Token.Tree
import TagSearch.Search
import TagSearch.Scan.Flat
import TagSearch.Scan.Nested
import TagSearch.Hoist
import TagSearch.Lookup
import TagSearch.Json
import TagSearch.Range
import TagSearch.Size
import TagSearch.Time.Age
import TagSearch.Value.Coerce
import TagSearch.Record.Basic
import TagSearch.Query.Error
import TagSearch.Query.Level
import TagSearch.Pattern.Reader
import TagSearch.Query.Compile
import TagSearch.Toml.Reader
import TagSearch.Toml.Writer
import TagSearch.Alias
import TagSearch.Record.Index
import TagSearch.Record.Cache
import TagSearch.Report.Summary
import TagSearch.Config.Reader
import TagSearch.Config.Writer
import TagSearch.Command.Help
import TagSearch.Main
import TagSearch.Proofs.Backtracking
import TagSearch.Proofs.Counting
import TagSearch.Proofs.Idempotence
import TagSearch.Proofs.Deletion
import TagSearch.Proofs.Chains
import TagSearch.Proofs.Privacy
import TagSearch.Proofs.Surroundings
import TagSearch.Proofs.Siblings
import TagSearch.Proofs.CanonicalForm
import TagSearch.Proofs.Caching
import TagSearch.Proofs.Persistence
import TagSearch.Proofs.Provenance
import TagSearch.Proofs.CanonicalTags
import TagSearch.Proofs.FieldShapes
import TagSearch.Proofs.Gathering
import TagSearch.Proofs.Slices
import TagSearch.Proofs.Truncation
import TagSearch.Proofs.Flattening
import TagSearch.Proofs.Places
import TagSearch.Proofs.Marks
import TagSearch.Proofs.Distribution
import TagSearch.Proofs.Sorting
import TagSearch.Proofs.Matching
import TagSearch.Proofs.Finding
import TagSearch.Proofs.Loading
import TagSearch.Proofs.Wildcards
import TagSearch.Proofs.Days
import TagSearch.Proofs.Numerals
import TagSearch.Proofs.Spelling
import TagSearch.Proofs.Covering
import TagSearch.Proofs.Counters
import TagSearch.Proofs.Weights
