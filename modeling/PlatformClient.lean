import PlatformClient.Call.Client
import PlatformClient.Call.Error
import PlatformClient.Call.Execution
import PlatformClient.Call.Identity
import PlatformClient.Call.Options
import PlatformClient.Call.Payload
import PlatformClient.Call.Program
import PlatformClient.Call.Progress
import PlatformClient.Call.Request
import PlatformClient.Call.World
import PlatformClient.Command.Basic
import PlatformClient.Command.Execution
import PlatformClient.Command.Flag
import PlatformClient.Command.Input
import PlatformClient.Command.Reader
import PlatformClient.Command.Refusal
import PlatformClient.Command.Report
import PlatformClient.Command.Scan
import PlatformClient.Config.Basic
import PlatformClient.Config.Document
import PlatformClient.Config.Location
import PlatformClient.Config.Store
import PlatformClient.Files.Basic
import PlatformClient.Files.Fault
import PlatformClient.Files.Path
import PlatformClient.Files.Places
import PlatformClient.Http.Curl
import PlatformClient.Http.Exchange
import PlatformClient.Http.Headers
import PlatformClient.Http.Status
import PlatformClient.Http.Token
import PlatformClient.Json.Error
import PlatformClient.Json.Expect
import PlatformClient.Json.Printer
import PlatformClient.Json.Reader
import PlatformClient.Json.Value
import PlatformClient.Launch
import PlatformClient.Login.Error
import PlatformClient.Login.Grant
import PlatformClient.Login.Procedure
import PlatformClient.Main
import PlatformClient.Number.Binary64
import PlatformClient.Number.Shortest
import PlatformClient.Problem.Basic
import PlatformClient.Problem.Classification
import PlatformClient.Profile
import PlatformClient.Proofs.AlikeCalls
import PlatformClient.Proofs.AlikeExecution
import PlatformClient.Proofs.AlikeLogins
import PlatformClient.Proofs.AlikeRequests
import PlatformClient.Proofs.AlikeRuns
import PlatformClient.Proofs.Arrangement
import PlatformClient.Proofs.AtomicSaves
import PlatformClient.Proofs.Authorities
import PlatformClient.Proofs.BodyContracts
import PlatformClient.Proofs.CallAddresses
import PlatformClient.Proofs.CallCredentials
import PlatformClient.Proofs.CallEndings
import PlatformClient.Proofs.CommandPlans
import PlatformClient.Proofs.ConfigDocuments
import PlatformClient.Proofs.Course
import PlatformClient.Proofs.CurlCommands
import PlatformClient.Proofs.ErrorCascade
import PlatformClient.Proofs.ExitCodes
import PlatformClient.Proofs.FileTrees
import PlatformClient.Proofs.FinalResponses
import PlatformClient.Proofs.HeaderLines
import PlatformClient.Proofs.HeaderPrecedence
import PlatformClient.Proofs.Hosts
import PlatformClient.Proofs.IndicatorSessions
import PlatformClient.Proofs.Interruptions
import PlatformClient.Proofs.JsonMembers
import PlatformClient.Proofs.Moments
import PlatformClient.Proofs.Numerals
import PlatformClient.Proofs.Observers
import PlatformClient.Proofs.Outcomes
import PlatformClient.Proofs.PathParts
import PlatformClient.Proofs.PathSegments
import PlatformClient.Proofs.PercentEscapes
import PlatformClient.Proofs.PreparedRequests
import PlatformClient.Proofs.ProcessTurns
import PlatformClient.Proofs.ProfileLogins
import PlatformClient.Proofs.RefusedInput
import PlatformClient.Proofs.RequestCommand
import PlatformClient.Proofs.ResponseFiles
import PlatformClient.Proofs.ResponseHandling
import PlatformClient.Proofs.RetriedRequests
import PlatformClient.Proofs.RetryProtocol
import PlatformClient.Proofs.Runs
import PlatformClient.Proofs.SavedConfigurations
import PlatformClient.Proofs.Secrecy
import PlatformClient.Proofs.SharedCredential
import PlatformClient.Proofs.SharedDocuments
import PlatformClient.Proofs.Sharing
import PlatformClient.Proofs.ShellWords
import PlatformClient.Proofs.Surroundings
import PlatformClient.Proofs.TextParts
import PlatformClient.Proofs.TokenAddresses
import PlatformClient.Proofs.TokenPersistence
import PlatformClient.Proofs.TomlDocuments
import PlatformClient.Proofs.TomlStrings
import PlatformClient.Proofs.TransparentRefresh
import PlatformClient.Proofs.UrlRoundTrip
import PlatformClient.Proofs.UsableTokens
import PlatformClient.Proofs.Utf8RoundTrip
import PlatformClient.Proofs.WatchedCalls
import PlatformClient.Shell.Quote
import PlatformClient.Text.Abbreviation
import PlatformClient.Text.Base64
import PlatformClient.Text.Blank
import PlatformClient.Text.Quoted
import PlatformClient.Text.Unprintable
import PlatformClient.Text.Utf8
import PlatformClient.Toml.Draft
import PlatformClient.Toml.Printer
import PlatformClient.Toml.Reader
import PlatformClient.Toml.Value
import PlatformClient.Url.Basic
import PlatformClient.Url.Host
import PlatformClient.Url.Join
import PlatformClient.Url.Percent
import PlatformClient.Url.Reader
import PlatformClient.Proofs.AttachedPaths
import PlatformClient.Proofs.ServiceLogins
import PlatformClient.Proofs.JsonNumbers
import PlatformClient.Proofs.JsonStrings
import PlatformClient.Proofs.JsonDocuments
import PlatformClient.Proofs.BodyEncoding
import PlatformClient.Proofs.ProblemFields
import PlatformClient.Proofs.DecodeExcerpts
import PlatformClient.Proofs.TimeLimits
import PlatformClient.Proofs.CreatedDirectories
import PlatformClient.Proofs.ConfigDirectories
import PlatformClient.Proofs.CurlUploads
import PlatformClient.Proofs.DedicatedHeaders
import PlatformClient.Proofs.PrintedDocuments
import PlatformClient.Proofs.OptionScans
import PlatformClient.Proofs.InvocationOptions
import PlatformClient.Proofs.CommandLines
import PlatformClient.Proofs.FlagOptions
import PlatformClient.Proofs.Labels
import PlatformClient.Proofs.Base64RoundTrip
import PlatformClient.Proofs.IdentityHeaders
