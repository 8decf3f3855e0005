import LtlsKitting.Bindings.Responses
import LtlsKitting.Cabinet.Cells
import LtlsKitting.Cabinet.Lights
import LtlsKitting.Cabinet.Packets
import LtlsKitting.Client.Completion
import LtlsKitting.Client.Delivery
import LtlsKitting.Client.Lock
import LtlsKitting.Client.Navigation
import LtlsKitting.Client.RoundTrips
import LtlsKitting.Client.WireRuns
import LtlsKitting.Operations.RoundTrip
import LtlsKitting.Operations.Sections
import LtlsKitting.Sync.Serializability
import LtlsKitting.Sync.StockRace
import LtlsKitting.Sync.TagRace
import LtlsKitting.Web.Assignment
import LtlsKitting.Web.LoginForm
import LtlsKitting.Web.Logins
import LtlsKitting.Web.Messages
import LtlsKitting.Web.Reset
import LtlsKitting.Web.StoreRuns
