import CommandBinding.Aliases
import CommandBinding.Binding
import CommandBinding.CallName
import CommandBinding.Category
import CommandBinding.Checker
import CommandBinding.Code
import CommandBinding.CodeText
import CommandBinding.Codec
import CommandBinding.CommandLine
import CommandBinding.Data
import CommandBinding.Data.Json
import CommandBinding.Data.Json.Reading
import CommandBinding.Data.Yaml
import CommandBinding.Data.Yaml.Cursor
import CommandBinding.Data.Yaml.Node
import CommandBinding.Data.Yaml.Scalar
import CommandBinding.Data.Yaml.Symbol
import CommandBinding.Expansion
import CommandBinding.Files
import CommandBinding.Files.Path
import CommandBinding.Files.Sources
import CommandBinding.Finding
import CommandBinding.Main
import CommandBinding.Peer
import CommandBinding.Peer.Code
import CommandBinding.Peer.Generation
import CommandBinding.Program
import CommandBinding.Proofs.AliasSpellings
import CommandBinding.Proofs.AscendingTexts
import CommandBinding.Proofs.BareFunctions
import CommandBinding.Proofs.BindingConsistency
import CommandBinding.Proofs.BindingFindings
import CommandBinding.Proofs.BindingReports
import CommandBinding.Proofs.BindingRules
import CommandBinding.Proofs.CallArguments
import CommandBinding.Proofs.CapturedNames
import CommandBinding.Proofs.CheckArguments
import CommandBinding.Proofs.CheckVerdict
import CommandBinding.Proofs.CheckedExpansion
import CommandBinding.Proofs.CommandNames
import CommandBinding.Proofs.DataRoundTrip
import CommandBinding.Proofs.DeclaredInputs
import CommandBinding.Proofs.DefaultReading
import CommandBinding.Proofs.EnclosedText
import CommandBinding.Proofs.ExpandedFunctions
import CommandBinding.Proofs.ExpansionOutcomes
import CommandBinding.Proofs.FlagAliases
import CommandBinding.Proofs.FunctionHeads
import CommandBinding.Proofs.FunctionNames
import CommandBinding.Proofs.GluedLexemes
import CommandBinding.Proofs.GroupResolution
import CommandBinding.Proofs.GroupWords
import CommandBinding.Proofs.IndependentReports
import CommandBinding.Proofs.ItemForms
import CommandBinding.Proofs.ItemRuns
import CommandBinding.Proofs.JsonReading
import CommandBinding.Proofs.LabelHalves
import CommandBinding.Proofs.LeafReading
import CommandBinding.Proofs.LexemeReading
import CommandBinding.Proofs.Lexemes
import CommandBinding.Proofs.LocalPatterns
import CommandBinding.Proofs.LocalReading
import CommandBinding.Proofs.LocalTypes
import CommandBinding.Proofs.LowerCase
import CommandBinding.Proofs.NestedTokens
import CommandBinding.Proofs.OperatorReading
import CommandBinding.Proofs.OptionKeys
import CommandBinding.Proofs.ParserRuns
import CommandBinding.Proofs.PathOrder
import CommandBinding.Proofs.PeerFrames
import CommandBinding.Proofs.PeerReadings
import CommandBinding.Proofs.PeerStatements
import CommandBinding.Proofs.PieceReading
import CommandBinding.Proofs.PlainNames
import CommandBinding.Proofs.ReadDirectives
import CommandBinding.Proofs.ReaderRests
import CommandBinding.Proofs.Rebinding
import CommandBinding.Proofs.RelistedTrees
import CommandBinding.Proofs.RepeatedExpansion
import CommandBinding.Proofs.RepeatedSteps
import CommandBinding.Proofs.ReportedItems
import CommandBinding.Proofs.Reports
import CommandBinding.Proofs.RereadFunctions
import CommandBinding.Proofs.RereadInputs
import CommandBinding.Proofs.ReservedTypes
import CommandBinding.Proofs.SharedAliases
import CommandBinding.Proofs.SourceFiles
import CommandBinding.Proofs.StatePlacement
import CommandBinding.Proofs.StateSynthesis
import CommandBinding.Proofs.StateWiring
import CommandBinding.Proofs.Steps
import CommandBinding.Proofs.TextPieces
import CommandBinding.Proofs.TightText
import CommandBinding.Proofs.TokenGaps
import CommandBinding.Proofs.TokenSpacing
import CommandBinding.Proofs.UnknownNames
import CommandBinding.Proofs.UnnamedCommands
import CommandBinding.Proofs.UsableNames
import CommandBinding.Proofs.WordReading
import CommandBinding.Proofs.WrappedShape
import CommandBinding.Proofs.WrappedText
import CommandBinding.Proofs.WrapperRecognition
import CommandBinding.Proofs.WrittenFunctions
import CommandBinding.Report
import CommandBinding.Report.Format
import CommandBinding.Settings
import CommandBinding.SettingsFile
import CommandBinding.ShadowGroup
import CommandBinding.Source.Attribute
import CommandBinding.Source.Declaration
import CommandBinding.Source.DirectiveArguments
import CommandBinding.Source.File
import CommandBinding.Source.FunctionItem
import CommandBinding.Source.Grammar
import CommandBinding.Source.Grammar.Attribute
import CommandBinding.Source.Grammar.Expression
import CommandBinding.Source.Grammar.Function
import CommandBinding.Source.Grammar.Generics
import CommandBinding.Source.Grammar.Item
import CommandBinding.Source.Grammar.Nonterminal
import CommandBinding.Source.Grammar.Operator
import CommandBinding.Source.Grammar.Path
import CommandBinding.Source.Grammar.Pattern
import CommandBinding.Source.Grammar.Statement
import CommandBinding.Source.Grammar.Type
import CommandBinding.Source.KeyedArguments
import CommandBinding.Source.ListItem
import CommandBinding.Source.Name
import CommandBinding.Source.ParameterOptions
import CommandBinding.Source.Parser
import CommandBinding.Source.Tree
import CommandBinding.StateThread
import CommandBinding.TaggedValues
import CommandBinding.Token
import CommandBinding.Token.Lexer
import CommandBinding.Token.Number
import CommandBinding.Token.Quoted
import CommandBinding.Unicode.AlphanumericTable
import CommandBinding.Unicode.IdentifierContinueTable
import CommandBinding.Unicode.IdentifierStartTable
import CommandBinding.Unicode.Properties
import CommandBinding.Unicode.UnprintedTable
import CommandBinding.Unicode.UppercaseTable
import CommandBinding.Words
import CommandBinding.WorkFunction
