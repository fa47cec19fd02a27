import CimdProxy.FrontDoor
import CimdProxy.PortRelaxation
import CimdProxy.ClientResponse
import CimdProxy.Expiry
import CimdProxy.RedirectTargets
import CimdProxy.RefreshChain
import CimdProxy.LastUse
import CimdProxy.TokenResources
import CimdProxy.LeakedToken
import CimdProxy.PermittedScopes
import CimdProxy.TableChecks
import CimdProxy.UpstreamReplies
import CimdProxy.PkceGate
import CimdProxy.PinnedRequest
import CimdProxy.StableRouting
import CimdProxy.TokenDamage
import CimdProxy.Redaction
import CimdProxy.PatSettings
import CimdProxy.SignedAssertions
import CimdProxy.ReportedFailures
import CimdProxy.SecretOutput
import CimdProxy.AbortedSignIn
import CimdProxy.OwnerLinks
import CimdProxy.DocumentCache
import CimdProxy.RegistrationRoutes
import CimdProxy.ClientSecrets
import CimdProxy.Sessions
import CimdProxy.CallBudget
import CimdProxy.RequestBudget
import CimdProxy.Discovery
import CimdProxy.ResumedFlow
import CimdProxy.ClientWire
import CimdProxy.CliAnswers
import CimdProxy.SignInSteps
import CimdProxy.SignInCompletes
