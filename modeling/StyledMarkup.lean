import StyledMarkup.JsonReader
import StyledMarkup.Main
import StyledMarkup.Proofs.OpenTags
import StyledMarkup.Proofs.ScopeTrace
import StyledMarkup.Proofs.WordText
import StyledMarkup.Proofs.LockStep
import StyledMarkup.Proofs.NormalForm
import StyledMarkup.Proofs.StyledContent
import StyledMarkup.Proofs.PiecewiseCompaction
import StyledMarkup.Proofs.Rereading
import StyledMarkup.Proofs.Faithfulness
import StyledMarkup.Proofs.LevelTurns
import StyledMarkup.Proofs.StyleHistory
import StyledMarkup.Proofs.Stretches
import StyledMarkup.Proofs.TwoAttributes
import StyledMarkup.Proofs.ReadDocuments
import StyledMarkup.Proofs.Frames
import StyledMarkup.Proofs.KeptLooks
import StyledMarkup.Proofs.Alternation
import StyledMarkup.Proofs.RepeatedConversion
import StyledMarkup.Proofs.Retracing
import StyledMarkup.Proofs.Nesting
import StyledMarkup.Proofs.MeetingWords
import StyledMarkup.Proofs.VisibleText
import StyledMarkup.Proofs.LongestMatch
import StyledMarkup.Proofs.ScopedStyles
import StyledMarkup.Proofs.SpelledStyles
import StyledMarkup.Proofs.ReadableDocuments
import StyledMarkup.Proofs.DroppedInput
import StyledMarkup.Proofs.UnknownTags
import StyledMarkup.Proofs.Transitions
import StyledMarkup.Proofs.WrittenAttributes
import StyledMarkup.Proofs.EmphasisTags
import StyledMarkup.Proofs.ShortestTransitions
import StyledMarkup.Proofs.TagOutcome
import StyledMarkup.Proofs.Listings
import StyledMarkup.Proofs.TokenListings
import StyledMarkup.Proofs.GivenFlags
import StyledMarkup.Proofs.OverriddenSettings
import StyledMarkup.Proofs.PrintedOutput
import StyledMarkup.Proofs.ConvertCommand
