import OpenMeteo.RateLimitThreads
import OpenMeteo.AbsoluteUrl
import OpenMeteo.ClientPaced
import OpenMeteo.RateLimitSafe
import OpenMeteo.Timeseries
import OpenMeteo.Backoff
import OpenMeteo.HttpHeaders
import OpenMeteo.AcquireAlone
import OpenMeteo.RateLimitLocked
import OpenMeteo.RateLimitProgress
import OpenMeteo.RateLimitDemand
import OpenMeteo.Coordinates
import OpenMeteo.ClientWire
import OpenMeteo.AcquireThreads
import OpenMeteo.ClientLatency
import OpenMeteo.ResponseTree
import OpenMeteo.RateLimitDeadline
import OpenMeteo.ClientDelivery
import OpenMeteo.RateLimitReleased
import OpenMeteo.BackoffRounded
