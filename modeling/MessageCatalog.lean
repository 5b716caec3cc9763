import MessageCatalog.Main
import MessageCatalog.Translator.Editing
import MessageCatalog.Proofs.Plural.Exact
import MessageCatalog.Proofs.Plural.Grammar
import MessageCatalog.Proofs.Plural.Parsing
import MessageCatalog.Proofs.Plural.Munching
import MessageCatalog.Proofs.Plural.Lexing
import MessageCatalog.Proofs.Plural.Stuck
import MessageCatalog.Proofs.Plural.Offenders
import MessageCatalog.Proofs.Mo.Words
import MessageCatalog.Proofs.Mo.Layout
import MessageCatalog.Proofs.StableSort
import MessageCatalog.Proofs.Text.Utf8
import MessageCatalog.Proofs.Mo.RoundTrip
import MessageCatalog.Proofs.Files.Contents
import MessageCatalog.Proofs.OrderedMap
import MessageCatalog.Proofs.Text.Search
import MessageCatalog.Proofs.Catalog.Merging
import MessageCatalog.Proofs.Files.CatalogFile
import MessageCatalog.Proofs.Mo.Rewriting
import MessageCatalog.Proofs.Mo.Images
import MessageCatalog.Proofs.Translator.Sources
import MessageCatalog.Proofs.Cache.Transparency
import MessageCatalog.Proofs.Translator.Saving
import MessageCatalog.Proofs.Translator.Resaving
import MessageCatalog.Proofs.Catalog.Header
import MessageCatalog.Proofs.Catalog.Rebuilding
import MessageCatalog.Proofs.Translator.Lifetime
import MessageCatalog.Proofs.Translator.Texts
import MessageCatalog.Proofs.Session.Payload
import MessageCatalog.Proofs.Translator.Operations
import MessageCatalog.Proofs.Translator.Durability
import MessageCatalog.Proofs.Session.History
import MessageCatalog.Proofs.Session.Recorded
import MessageCatalog.Proofs.Translator.Handover
import MessageCatalog.Proofs.Translator.Privacy
import MessageCatalog.Proofs.Mo.FixedPoint
import MessageCatalog.Proofs.Mo.Searching
import MessageCatalog.Proofs.Session.Interleaving
import MessageCatalog.Proofs.Cache.Clients
import MessageCatalog.Proofs.Mo.Truncation
import MessageCatalog.Proofs.Translator.FailedSaves
import MessageCatalog.Proofs.Translator.Answers
import MessageCatalog.Proofs.Translator.Editing
import MessageCatalog.Proofs.Plural.Headers
import MessageCatalog.Proofs.Plural.Counts
import MessageCatalog.Proofs.Format.Filling
import MessageCatalog.Proofs.Format.Masks
import MessageCatalog.Proofs.Format.Interpolation
import MessageCatalog.Proofs.Format.Integers
import MessageCatalog.Proofs.Format.Spelling
import MessageCatalog.Proofs.Catalog.Changes
import MessageCatalog.Proofs.Po.Reading
import MessageCatalog.Proofs.Translator.Tables
