import WeaveAuth.Bff.CleanPath
import WeaveAuth.Bff.CompleteLogin
import WeaveAuth.Bff.CookieLines
import WeaveAuth.Bff.Custody
import WeaveAuth.Bff.JtiSimulation
import WeaveAuth.Bff.Jwks
import WeaveAuth.Bff.LoginCookie
import WeaveAuth.Bff.LoginAgreement
import WeaveAuth.Bff.LoginsInFlight
import WeaveAuth.Bff.LogoutDelivered
import WeaveAuth.Bff.Progress
import WeaveAuth.Bff.ProxyHeaders
import WeaveAuth.Bff.Redirects
import WeaveAuth.Bff.RefreshLockRuns
import WeaveAuth.Bff.Removal
import WeaveAuth.Bff.SessionCapRuns
import WeaveAuth.Bff.SessionEnd
import WeaveAuth.Bff.SessionIndex
import WeaveAuth.Bff.SessionLife
import WeaveAuth.Bff.SessionSurvives
import WeaveAuth.Bff.SharedCaches
import WeaveAuth.Bff.SingleFlight
import WeaveAuth.Bff.TokenOrigin
import WeaveAuth.Bff.TrustedOrigins
import WeaveAuth.Common.RateLimit
import WeaveAuth.Hooks.ProfileFields
import WeaveAuth.Hooks.Recovery
import WeaveAuth.Hooks.RegistrationAttempts
import WeaveAuth.Hooks.RevocationBudget
import WeaveAuth.Hooks.ScramblePassword
import WeaveAuth.Hooks.TokenHook
import WeaveAuth.Login.Catalog
import WeaveAuth.Login.Challenges
import WeaveAuth.Login.FormDocument
import WeaveAuth.Login.LocalUrl
import WeaveAuth.Login.LoginFields
import WeaveAuth.Login.Negotiation
import WeaveAuth.Login.Proxy
import WeaveAuth.Login.ProxyRuns
import WeaveAuth.Login.Template
import WeaveAuth.Login.ThrottleCount
import WeaveAuth.Login.ThrottleEviction
import WeaveAuth.Login.ThrottleGivenBack
import WeaveAuth.Login.ThrottleRate
import WeaveAuth.Login.ThrottleSweep
import WeaveAuth.Login.ThrottleWait
