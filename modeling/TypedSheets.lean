import TypedSheets.Main
import TypedSheets.Proofs.OrderedMap
import TypedSheets.Proofs.Conformance
import TypedSheets.Proofs.Literals
import TypedSheets.Proofs.Paths
import TypedSheets.Proofs.Writing
import TypedSheets.Proofs.RowTyping
import TypedSheets.Proofs.Flattening
import TypedSheets.Proofs.Sameness
import TypedSheets.Proofs.RowOutcome
import TypedSheets.Proofs.Document
import TypedSheets.Proofs.KeyDocument
import TypedSheets.Proofs.Scope
import TypedSheets.Proofs.Resolution
import TypedSheets.Proofs.ClosedCatalog
import TypedSheets.Proofs.GlobalRecords
import TypedSheets.Proofs.DocumentShape
import TypedSheets.Proofs.SchemaReading
import TypedSheets.Proofs.Numerals
import TypedSheets.Proofs.ReadingBack
import TypedSheets.Proofs.ColumnOrder
import TypedSheets.Proofs.TypeGrammar
import TypedSheets.Proofs.NestedViews
import TypedSheets.Proofs.KeptCells
import TypedSheets.Proofs.DataSection
import TypedSheets.Proofs.WellFormedSchema
import TypedSheets.Proofs.Relocation
import TypedSheets.Proofs.AgreeingCatalogs
import TypedSheets.Proofs.RelocatedOutput
import TypedSheets.Proofs.ShownBlocks
import TypedSheets.Proofs.SpreadViews
import TypedSheets.Proofs.IgnoredRows
import TypedSheets.Proofs.SchemaPart
import TypedSheets.Proofs.StrictLenient
import TypedSheets.Proofs.DistinctKeys
import TypedSheets.Proofs.SheetOrder
import TypedSheets.Proofs.IdentifierWords
import TypedSheets.Proofs.CellReferences
import TypedSheets.Proofs.LocatedFaults
import TypedSheets.Proofs.FileTrees
import TypedSheets.Proofs.RunOutputs
import TypedSheets.Proofs.EnumNumbers
import TypedSheets.Proofs.DeclaredNames
import TypedSheets.Proofs.EmittedTypes
import TypedSheets.Proofs.MemberDeclarations
import TypedSheets.Proofs.EntityMembers
import TypedSheets.Proofs.UndefinedTypes
import TypedSheets.Proofs.Worklist
import TypedSheets.Proofs.RecursiveTypes
import TypedSheets.Proofs.FolderListing
import TypedSheets.Proofs.BitPatterns
import TypedSheets.Proofs.KeyHashing
import TypedSheets.Proofs.ReportSpans
