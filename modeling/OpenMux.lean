import OpenMux.Lib.Run
import OpenMux.Lib.Dict
import OpenMux.Mpath.Theorems
import OpenMux.Wire.Theorems
import OpenMux.Federation.Theorems
import OpenMux.Streams.Theorems
import OpenMux.Origin.Theorems
import OpenMux.Access.Theorems
import OpenMux.Actions.Theorems
import OpenMux.Clients.Theorems
import OpenMux.Login.Theorems
import OpenMux.Peering.Theorems
import OpenMux.Arbitration.Theorems
import OpenMux.ConfigEditor.Theorems
import OpenMux.ConfigManager.Theorems
import OpenMux.Initiator.Theorems
import OpenMux.Power.Theorems
import OpenMux.Paths.Theorems
import OpenMux.Remote.Theorems
import OpenMux.Web.Theorems
import OpenMux.Delivery.Theorems
import OpenMux.Listeners.Theorems
import OpenMux.Heartbeat.Theorems
import OpenMux.Pdu.Theorems
import OpenMux.Pdu.Polling
import OpenMux.Command.Lemmas.Streams
import OpenMux.Command.Theorems
import OpenMux.Serial.Theorems
import OpenMux.Lib.FilePath
import OpenMux.Lib.Lines
import OpenMux.Lib.Transducer
import OpenMux.Logging.Lemmas.Lines
import OpenMux.Logging.Theorems
import OpenMux.Protocols.Handlers
import OpenMux.Protocols.Theorems
