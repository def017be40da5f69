import MockHttp.Main
import MockHttp.Proofs.Http.Counting
import MockHttp.Proofs.Http.Independence
import MockHttp.Proofs.Http.Overlay
import MockHttp.Proofs.Http.Reach
import MockHttp.Proofs.Http.Targets
import MockHttp.Proofs.Settings.Resolution
import MockHttp.Proofs.Site.Bases
import MockHttp.Proofs.Site.Collisions
import MockHttp.Proofs.Site.Depth
import MockHttp.Proofs.Site.Endpoints
import MockHttp.Proofs.Site.HeaderOrder
import MockHttp.Proofs.Site.History
import MockHttp.Proofs.Site.Milestones
import MockHttp.Proofs.Site.Order
import MockHttp.Proofs.Site.Payload
import MockHttp.Proofs.Site.Reading
import MockHttp.Proofs.Site.Reports
import MockHttp.Proofs.Site.Slashes
import MockHttp.Proofs.Site.Written
import MockHttp.Proofs.Stop.History
import MockHttp.Proofs.Stop.Startup
import MockHttp.StopChannel
