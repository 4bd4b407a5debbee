import SourceAtlas.Main
import SourceAtlas.Json.Printer
import SourceAtlas.Json.Reader
import SourceAtlas.Settings.Encoding
import SourceAtlas.Proofs.ScanAccounting
import SourceAtlas.Proofs.MaskedStructure
import SourceAtlas.Proofs.Scoping
import SourceAtlas.Proofs.RootScope
import SourceAtlas.Proofs.SurveyAgreement
import SourceAtlas.Proofs.MaskedBytes
import SourceAtlas.Proofs.Scans
import SourceAtlas.Proofs.BodyScans
import SourceAtlas.Proofs.PartialTier
import SourceAtlas.Proofs.Words
import SourceAtlas.Proofs.CutScans
import SourceAtlas.Proofs.CutDeclarations
import SourceAtlas.Proofs.MinimalTier
import SourceAtlas.Proofs.ExactDiscovery
import SourceAtlas.Proofs.AddedFiles
import SourceAtlas.Proofs.LineNumbers
import SourceAtlas.Proofs.TreePositions
import SourceAtlas.Proofs.Outlines
import SourceAtlas.Proofs.WellFormedModels
import SourceAtlas.Proofs.DefinitionLines
import SourceAtlas.Proofs.DeclarationLines
import SourceAtlas.Proofs.PathSignals
import SourceAtlas.Proofs.JsonTexts
import SourceAtlas.Proofs.RoundTrips
import SourceAtlas.Proofs.PathWalks
import SourceAtlas.Proofs.WrittenTrees
import SourceAtlas.Proofs.AnalyzeRuns
import SourceAtlas.Proofs.Deliveries
import SourceAtlas.Proofs.RewrittenFiles
import SourceAtlas.Proofs.ClassifiedFiles
import SourceAtlas.Proofs.RepeatedMasking
import SourceAtlas.Proofs.MaskedLines
import SourceAtlas.Proofs.TextCuts
import SourceAtlas.Proofs.VerbatimLiterals
import SourceAtlas.Proofs.DeclarationCuts
import SourceAtlas.Proofs.Delimiters
import SourceAtlas.Proofs.BraceMatching
import SourceAtlas.Proofs.NestedTexts
import SourceAtlas.Proofs.Pieces
import SourceAtlas.Proofs.ParameterLists
import SourceAtlas.Proofs.ContentPhrases
import SourceAtlas.Proofs.BaseLists
import SourceAtlas.Proofs.ConstantOrder
import SourceAtlas.Proofs.Directives
import SourceAtlas.Proofs.SameAttributes
import SourceAtlas.Proofs.SpentBudgets
import SourceAtlas.Proofs.PartialCaps
import SourceAtlas.Proofs.PlacedLines
import SourceAtlas.Proofs.CommentLines
import SourceAtlas.Proofs.DocumentationTexts
import SourceAtlas.Proofs.FileDocumentation
import SourceAtlas.Proofs.DocstringTexts
import SourceAtlas.Proofs.ConstantNames
import SourceAtlas.Proofs.TokenGaps
import SourceAtlas.Proofs.RecordedNames
import SourceAtlas.Proofs.Respacing
import SourceAtlas.Proofs.SpacedNames
import SourceAtlas.Proofs.NameRules
import SourceAtlas.Proofs.ExcludedPaths
import SourceAtlas.Proofs.Layouts
import SourceAtlas.Proofs.CleanedDocumentation
import SourceAtlas.Proofs.LineEndings
import SourceAtlas.Proofs.Lookups
