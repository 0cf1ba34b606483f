import StagedLexer.Blueprint
import StagedLexer.ByteSet
import StagedLexer.Bytes
import StagedLexer.Code.Assembler
import StagedLexer.Code.Basic
import StagedLexer.Code.Names
import StagedLexer.Code.Optimize
import StagedLexer.Dot
import StagedLexer.Emission
import StagedLexer.Error
import StagedLexer.Event
import StagedLexer.Folder
import StagedLexer.Graph
import StagedLexer.Json.Basic
import StagedLexer.Json.Parser
import StagedLexer.Json.Snapshot
import StagedLexer.JsonTokens
import StagedLexer.Note
import StagedLexer.Outcome
import StagedLexer.Proofs.Assembly
import StagedLexer.Proofs.BoundReaders
import StagedLexer.Proofs.BranchCode
import StagedLexer.Proofs.CallHistory
import StagedLexer.Proofs.CallSites
import StagedLexer.Proofs.Chunking
import StagedLexer.Proofs.CodeStream
import StagedLexer.Proofs.Confirmation
import StagedLexer.Proofs.Construction
import StagedLexer.Proofs.ControlFlow
import StagedLexer.Proofs.DeclarationOrder
import StagedLexer.Proofs.DotReading
import StagedLexer.Proofs.DroppedText
import StagedLexer.Proofs.EmittedCalls
import StagedLexer.Proofs.EmittedLiterals
import StagedLexer.Proofs.EmittedText
import StagedLexer.Proofs.ErrorPropagation
import StagedLexer.Proofs.Execution
import StagedLexer.Proofs.FaithfulSets
import StagedLexer.Proofs.ForestArena
import StagedLexer.Proofs.ForestConstruction
import StagedLexer.Proofs.ForestContent
import StagedLexer.Proofs.ForestShape
import StagedLexer.Proofs.GeneratedFlow
import StagedLexer.Proofs.GeneratedScope
import StagedLexer.Proofs.GeneratedTypes
import StagedLexer.Proofs.Induction
import StagedLexer.Proofs.JsonChunking
import StagedLexer.Proofs.JsonText
import StagedLexer.Proofs.LiteralReading
import StagedLexer.Proofs.Literals
import StagedLexer.Proofs.NameOrder
import StagedLexer.Proofs.Naming
import StagedLexer.Proofs.NeverFailing
import StagedLexer.Proofs.NormalForm
import StagedLexer.Proofs.Normalization
import StagedLexer.Proofs.NumberSearch
import StagedLexer.Proofs.OptimizedFlow
import StagedLexer.Proofs.OptimizedReading
import StagedLexer.Proofs.OptimizedRoutine
import StagedLexer.Proofs.OptimizerFixedPoint
import StagedLexer.Proofs.PassRun
import StagedLexer.Proofs.PendingToken
import StagedLexer.Proofs.PlainReaders
import StagedLexer.Proofs.ProgramActions
import StagedLexer.Proofs.ProgramRun
import StagedLexer.Proofs.ProgramShape
import StagedLexer.Proofs.ProgramTokens
import StagedLexer.Proofs.ProgramValues
import StagedLexer.Proofs.ReadBounds
import StagedLexer.Proofs.ReadTermination
import StagedLexer.Proofs.ReaderBindings
import StagedLexer.Proofs.ReaderCode
import StagedLexer.Proofs.ReaderFragment
import StagedLexer.Proofs.ReaderShapes
import StagedLexer.Proofs.Redirect
import StagedLexer.Proofs.RegisterUse
import StagedLexer.Proofs.Renumbering
import StagedLexer.Proofs.RepetitionBounds
import StagedLexer.Proofs.Replacement
import StagedLexer.Proofs.Rescan
import StagedLexer.Proofs.RoutineProgram
import StagedLexer.Proofs.RoutineRefinement
import StagedLexer.Proofs.RoutineScope
import StagedLexer.Proofs.RulePriority
import StagedLexer.Proofs.ScanLoop
import StagedLexer.Proofs.ScanStep
import StagedLexer.Proofs.Scoping
import StagedLexer.Proofs.SearchBounds
import StagedLexer.Proofs.SearchStates
import StagedLexer.Proofs.SetMembership
import StagedLexer.Proofs.SetRanges
import StagedLexer.Proofs.ShadowedRule
import StagedLexer.Proofs.Snapshots
import StagedLexer.Proofs.SourceTokens
import StagedLexer.Proofs.StatementParsing
import StagedLexer.Proofs.StatementPass
import StagedLexer.Proofs.StatementProgram
import StagedLexer.Proofs.StatementRun
import StagedLexer.Proofs.StatementShape
import StagedLexer.Proofs.StatementText
import StagedLexer.Proofs.StatementTypes
import StagedLexer.Proofs.StraightCode
import StagedLexer.Proofs.SymbolicReading
import StagedLexer.Proofs.TokenShapes
import StagedLexer.Proofs.Trail
import StagedLexer.Proofs.TrieArena
import StagedLexer.Proofs.TrieDrawing
import StagedLexer.Proofs.TrieGraphs
import StagedLexer.Proofs.TrieInsertion
import StagedLexer.Proofs.TrieNumbers
import StagedLexer.Proofs.TrieOrder
import StagedLexer.Proofs.TrieReaders
import StagedLexer.Proofs.TrieWays
import StagedLexer.Proofs.VariableRenaming
import StagedLexer.Proofs.Visits
import StagedLexer.Proofs.WellScoped
import StagedLexer.Reader.Basic
import StagedLexer.Reader.Build
import StagedLexer.Reading
import StagedLexer.Regex
import StagedLexer.Regex.Automaton
import StagedLexer.Regex.ClassQuery
import StagedLexer.Regex.Expr
import StagedLexer.Regex.OnePass
import StagedLexer.Regex.Parser
import StagedLexer.Regex.Pattern
import StagedLexer.Regex.Program
import StagedLexer.Regex.Search
import StagedLexer.Regex.Switches
import StagedLexer.Regex.SyntaxError
import StagedLexer.Routine.Basic
import StagedLexer.Routine.Machine
import StagedLexer.Routine.Readers
import StagedLexer.Routine.Statement
import StagedLexer.Rule
import StagedLexer.Scan
import StagedLexer.Source.Parser
import StagedLexer.Source.Run
import StagedLexer.Source.Syntax
import StagedLexer.Source.Token
import StagedLexer.StreamState
import StagedLexer.Text.Break
import StagedLexer.Text.Category
import StagedLexer.Text.CodeSet
import StagedLexer.Text.Edition
import StagedLexer.Text.Encoded
import StagedLexer.Text.Letter
import StagedLexer.Text.Literal
import StagedLexer.Text.LooseName
import StagedLexer.Text.Property
import StagedLexer.Text.Quoted
import StagedLexer.Text.Script
import StagedLexer.Text.Utf8
import StagedLexer.Tokenizer
import StagedLexer.Trie.Arena
import StagedLexer.Trie.Basic
import StagedLexer.Trie.Forest
