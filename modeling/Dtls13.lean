import Dtls13.Traffic.LinkRuns
import Dtls13.Conn.LateFragments
import Dtls13.Handshake.InboxExact
import Dtls13.Handshake.AuthenticationGate
import Dtls13.Handshake.History
import Dtls13.Driver.EpochDiscipline
import Dtls13.Driver.PlainNumbers
import Dtls13.Driver.UpdateLoops
import Dtls13.Driver.MessageNumbers
import Dtls13.Driver.RenamedFlights
import Dtls13.Listener.Routing
import Dtls13.Listener.Sessions
import Dtls13.Driver.Announcements
import Dtls13.Path.Rebinding
import Dtls13.Path.Budget
import Dtls13.Path.PeerNames
import Dtls13.Conn.AckEpochs
import Dtls13.Cookie.Binding
import Dtls13.Hello.Sealing
import Dtls13.Session.EarlyData
import Dtls13.Session.ClientCache
import Dtls13.Traffic.ReceiveEpochs
import Dtls13.Driver.AckRecords
import Dtls13.Listener.InitialDatagram
