import OpenMux.Listeners.Lemmas.Reload

/-!
# The listeners of the federation adapter
-/

namespace OpenMux.Listeners

open Py Transition

namespace Adapter

def serverCert : CertPaths := ⟨"server.crt".toList, "server.key".toList, by decide, by decide⟩

/-- One listener with these settings, that comes up. -/
def oneListener (settings : Mapping) : Reload := ⟨[settings], fun _ => ⟨true, true, true⟩⟩

/-- An entry without settings: it has TLS, with a generated certificate. -/
def defaultConf : Conf := (normalizeListenerConf []).get rfl

end Adapter

end OpenMux.Listeners
