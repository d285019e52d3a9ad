import Mustache.Main
import Mustache.Proofs.Truncation
import Mustache.Proofs.Reading
import Mustache.Proofs.StandAlone
import Mustache.Proofs.Nesting
import Mustache.Proofs.SectionText
import Mustache.Proofs.TagText
import Mustache.Proofs.Printing
import Mustache.Proofs.InStep
import Mustache.Proofs.TreesInStep
import Mustache.Proofs.Preservation
import Mustache.Proofs.Agreement
import Mustache.Proofs.CacheKeys
import Mustache.Proofs.CachedRendering
import Mustache.Proofs.Histories
import Mustache.Proofs.Caching
import Mustache.Proofs.Extension
import Mustache.Proofs.LineByLine
import Mustache.Proofs.Data
import Mustache.Proofs.Output
import Mustache.Proofs.Yielding
import Mustache.Proofs.DataRendering
import Mustache.Proofs.Spelling
import Mustache.Proofs.Concatenation
import Mustache.Proofs.DigitRuns
import Mustache.Proofs.Totality
import Mustache.Proofs.Visible
import Mustache.Proofs.InlinePartial
import Mustache.Proofs.SectionSpelling
import Mustache.Proofs.BoundName
import Mustache.Proofs.EchoSection
import Mustache.Proofs.PlainText
import Mustache.Proofs.TagLines
import Mustache.Proofs.NestedIndentation
import Mustache.Proofs.Markup
import Mustache.Proofs.Behaviour
import Mustache.Proofs.ParseInStep
import Mustache.Proofs.SectionLambdas
import Mustache.Proofs.OpenPartials
import Mustache.Proofs.PartialDepth
import Mustache.Proofs.BalancedSections
import Mustache.Proofs.Flattening
import Mustache.Proofs.Spans
import Mustache.Proofs.Remembering
import Mustache.Proofs.MemoizedLookups
import Mustache.Proofs.ScopeKeeping
import Mustache.Proofs.CacheLedger
import Mustache.Proofs.CacheAccounting
import Mustache.Proofs.CacheReplacement
import Mustache.Proofs.ReplacedCaches
import Mustache.Proofs.ParsedTrees
import Mustache.Proofs.Following
import Mustache.Proofs.ChainsAlike
import Mustache.Proofs.ScalarFrames
import Mustache.Proofs.IndentedTags
import Mustache.Proofs.MentionedNames
import Mustache.Proofs.DataInStep
import Mustache.Proofs.SuppliedPartials
import Mustache.Proofs.CommentLines
import Mustache.Proofs.PartialLines
import Mustache.Proofs.Refusals
import Mustache.Proofs.NearestAnswer
import Mustache.Proofs.SectionBodies
import Mustache.Proofs.KeywordFrame
import Mustache.Proofs.Positions
import Mustache.Proofs.Excerpts
import Mustache.Proofs.Unescaping
import Mustache.Proofs.ChoiceLoaders
import Mustache.Proofs.FileListing
import Mustache.Proofs.CommandRuns
import Mustache.Proofs.PartialMarks
import Mustache.Proofs.TagCuts
import Mustache.Proofs.MemberTests
