import StackProfile.Binary64
import StackProfile.CallTree
import StackProfile.Coarsen
import StackProfile.Codec
import StackProfile.Color
import StackProfile.Command.Arguments
import StackProfile.Command.Invocation
import StackProfile.Command.Run
import StackProfile.Comparison
import StackProfile.Config
import StackProfile.Engine
import StackProfile.Entry
import StackProfile.Filter
import StackProfile.Folded
import StackProfile.Frame
import StackProfile.Json.Decode
import StackProfile.Json.Draft
import StackProfile.Json.Render
import StackProfile.Json.Value
import StackProfile.Layout
import StackProfile.Main
import StackProfile.Metric
import StackProfile.Outline
import StackProfile.Palette
import StackProfile.Pattern.Category
import StackProfile.Pattern.CharSet
import StackProfile.Pattern.Folding
import StackProfile.Pattern.Property
import StackProfile.Pattern.Read
import StackProfile.Pattern.Regex
import StackProfile.Pattern.Script
import StackProfile.Profile
import StackProfile.Provider
import StackProfile.Query
import StackProfile.Response
import StackProfile.Rows
import StackProfile.Saturate
import StackProfile.Span
import StackProfile.Style
import StackProfile.Summary
import StackProfile.Text
import StackProfile.Tooltip
import StackProfile.Utf8
import StackProfile.Proofs.SoundTree
import StackProfile.Proofs.SoundProfile
import StackProfile.Proofs.Slots
import StackProfile.Proofs.Cells
import StackProfile.Proofs.Walk
import StackProfile.Proofs.FunctionEntries
import StackProfile.Proofs.Session
import StackProfile.Proofs.Sheet
import StackProfile.Proofs.Painting
import StackProfile.Proofs.PointLookup
import StackProfile.Proofs.RowContents
import StackProfile.Proofs.RowTiling
import StackProfile.Proofs.EqualQueries
import StackProfile.Proofs.History
import StackProfile.Proofs.Completion
import StackProfile.Proofs.DistinctTree
import StackProfile.Proofs.PathWeight
import StackProfile.Proofs.ProfileTrees
import StackProfile.Proofs.FoldedLines
import StackProfile.Proofs.FileLines
import StackProfile.Proofs.SampleCount
import StackProfile.Proofs.AlikeTree
import StackProfile.Proofs.SameWeights
import StackProfile.Proofs.AlikeProfile
import StackProfile.Proofs.AlikeSession
import StackProfile.Proofs.LineOrder
import StackProfile.Proofs.MergeSteps
import StackProfile.Proofs.Hierarchy
import StackProfile.Proofs.CoarserProfile
import StackProfile.Proofs.CoarsenTwice
import StackProfile.Proofs.FirstFrame
import StackProfile.Proofs.AlikeEngine
import StackProfile.Proofs.AnnotatedTree
import StackProfile.Proofs.ComparedProfile
import StackProfile.Proofs.GrownTree
import StackProfile.Proofs.Links
import StackProfile.Proofs.ElementForest
import StackProfile.Proofs.OutlineIndex
import StackProfile.Proofs.UncutSlots
import StackProfile.Proofs.OwnWeight
import StackProfile.Proofs.GroupedSamples
import StackProfile.Proofs.UncutRows
import StackProfile.Proofs.SamplesShown
import StackProfile.Proofs.TrimmedTree
import StackProfile.Proofs.Reordered
import StackProfile.Proofs.MergeLaws
import StackProfile.Proofs.SiblingOrder
import StackProfile.Proofs.EntryEnds
import StackProfile.Proofs.NestedLookup
import StackProfile.Proofs.OutlineSteps
import StackProfile.Proofs.BuiltQuery
import StackProfile.Proofs.Cancellation
import StackProfile.Proofs.CheckedLayout
import StackProfile.Proofs.CheckedRows
import StackProfile.Proofs.DepthFilters
import StackProfile.Proofs.JsonText
import StackProfile.Proofs.Records
import StackProfile.Proofs.Wire
import StackProfile.Proofs.ByteOrder
import StackProfile.Proofs.DepthLiterals
import StackProfile.Proofs.FilterGrammar
import StackProfile.Proofs.MergedSummaries
import StackProfile.Proofs.BuiltRecipe
import StackProfile.Proofs.ColumnLists
import StackProfile.Proofs.TooltipFields
import StackProfile.Proofs.ShownStatistics
import StackProfile.Proofs.SampleTimes
import StackProfile.Proofs.StyleReferences
import StackProfile.Proofs.PlacedSiblings
import StackProfile.Proofs.NormalFloats
import StackProfile.Proofs.DecimalPlaces
import StackProfile.Proofs.RoundedUnits
