import CurlSnippet.Main
import CurlSnippet.Request.OfJson
import CurlSnippet.Proofs.WordSpelling
import CurlSnippet.Proofs.CommandMeaning
import CurlSnippet.Proofs.CommandSpelling
import CurlSnippet.Proofs.SnippetBody
import CurlSnippet.Proofs.SnippetCharacters
import CurlSnippet.Proofs.SnippetFields
import CurlSnippet.Proofs.WholeNumbers
import CurlSnippet.Proofs.WordLayout
import CurlSnippet.Proofs.Conversions
import CurlSnippet.Proofs.ContentTypes
import CurlSnippet.Proofs.BodyOpening
import CurlSnippet.Proofs.BodyIdentity
import CurlSnippet.Proofs.RequestRecord
import CurlSnippet.Proofs.HeaderNames
import CurlSnippet.Proofs.SnippetWriting
import CurlSnippet.Proofs.RunFailures
import CurlSnippet.Proofs.ContinuedLines
import CurlSnippet.Proofs.ForcedHeaders
import CurlSnippet.Proofs.SentPayload
import CurlSnippet.Proofs.LineSources
import CurlSnippet.Proofs.PrintedValues
import CurlSnippet.Proofs.UrlStability
import CurlSnippet.Proofs.PercentDecoding
import CurlSnippet.Proofs.Base64Spelling
import CurlSnippet.Proofs.CredentialsHeader
import CurlSnippet.Proofs.UserInformation
import CurlSnippet.Proofs.NativeBodies
import CurlSnippet.Proofs.QuotedLiterals
import CurlSnippet.Proofs.SampleFiles
import CurlSnippet.Proofs.SettingsSources
import CurlSnippet.Proofs.SettingsSpacing
import CurlSnippet.Proofs.LiteralPlaces
