import Syntagm.Compiled.Cache
import Syntagm.Grammar.Document
import Syntagm.Parse.Reparse
import Syntagm.Proofs.Evaluation
import Syntagm.Proofs.Memory
import Syntagm.Proofs.Unlimited
import Syntagm.Proofs.Locality
import Syntagm.Proofs.Lexicon
import Syntagm.Proofs.Lowering
import Syntagm.Proofs.Stream
import Syntagm.Proofs.MemoValidity
import Syntagm.Proofs.Recovery
import Syntagm.Proofs.Session
import Syntagm.Proofs.Lossless
import Syntagm.Proofs.Derivation
import Syntagm.Proofs.Agreement
import Syntagm.Proofs.Incremental
import Syntagm.Proofs.EditedText
import Syntagm.Proofs.Analysis
import Syntagm.Proofs.LeftCorner
import Syntagm.Proofs.Comparison
import Syntagm.Proofs.Pruning
import Syntagm.Proofs.ActiveCalls
import Syntagm.Proofs.Memoization
import Syntagm.Proofs.Sites
import Syntagm.Proofs.Stages
import Syntagm.Proofs.Advance
import Syntagm.Proofs.Diagnostics
import Syntagm.Proofs.LongestMatch
import Syntagm.Proofs.Tokenization
import Syntagm.Proofs.Climbing
import Syntagm.Proofs.Language
import Syntagm.Proofs.Likeness
import Syntagm.Proofs.Lockstep
import Syntagm.Proofs.Skeleton
import Syntagm.Proofs.Hiding
import Syntagm.Proofs.Splicing
import Syntagm.Proofs.CacheContents
import Syntagm.Proofs.SharedCache
import Syntagm.Proofs.EmptyMatches
import Syntagm.Proofs.Shifting
import Syntagm.Proofs.Rendering
import Syntagm.Proofs.ExpressionRoundTrip
import Syntagm.Proofs.GrammarRoundTrip
import Syntagm.Proofs.CycleSearch
import Syntagm.Proofs.LeastSolution
import Syntagm.Proofs.Coverage
import Syntagm.Proofs.WellFormed
import Syntagm.Proofs.PatternMeaning
import Syntagm.Proofs.PatternMatching
import Syntagm.Proofs.PatternReading
import Syntagm.Proofs.PatternSource
import Syntagm.Proofs.TokenMeaning
import Syntagm.Proofs.NestedBlocks
import Syntagm.Proofs.DelimitedStrings
import Syntagm.Proofs.Positions
import Syntagm.Proofs.NodeSpans
import Syntagm.Proofs.TokenPositions
import Syntagm.Proofs.LineOffsets
import Syntagm.Proofs.Escapes
import Syntagm.Proofs.SmallestElement
import Syntagm.Proofs.MissingTokens
import Syntagm.Proofs.Insertions
import Syntagm.Proofs.StreamContents
import Syntagm.Proofs.EditConsistency
import Syntagm.Proofs.CallTrees
import Syntagm.Proofs.Termination
import Syntagm.Proofs.Classification
import Syntagm.Proofs.Expansion
import Syntagm.Proofs.KindSets
