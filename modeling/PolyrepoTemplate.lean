import PolyrepoTemplate.Service.Isolation
import PolyrepoTemplate.Service.Staleness
import PolyrepoTemplate.Service.Provenance
import PolyrepoTemplate.Service.Interrupted
import PolyrepoTemplate.Service.Counters
import PolyrepoTemplate.Service.SessionTimeZone
import PolyrepoTemplate.Service.UpdatedAt
import PolyrepoTemplate.Service.UsableTtl
import PolyrepoTemplate.Service.Repair
import PolyrepoTemplate.Service.ConnectionPool
import PolyrepoTemplate.Lifecycle.Lifespan
import PolyrepoTemplate.Lifecycle.ErrorEvents
import PolyrepoTemplate.Lifecycle.RequestContext
import PolyrepoTemplate.Lifecycle.RequestId
import PolyrepoTemplate.Lifecycle.Transparency
import PolyrepoTemplate.Lifecycle.Startup
import PolyrepoTemplate.Lifecycle.Served
import PolyrepoTemplate.Config.AppConfig
import PolyrepoTemplate.Config.RedisConfig
import PolyrepoTemplate.Distribution.WorkingDirectory
import PolyrepoTemplate.Logger.ProcessHooks
import PolyrepoTemplate.Prometheus.Registration
import PolyrepoTemplate.Routes.SharedPool
