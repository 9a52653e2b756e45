import HybridStream.Aode.Clients

/-!
# `Aode.Main` — how the components are wired

`aode/main.py`. The dictionary of HEA clients is keyed by the endpoint strings of the configuration.

So a tier is found among the clients by `host:port`, while telemetry is asked for under host names: `_ep_map` has
both, and the first colon separates them. What is said here about which tiers have a client and which telemetry names
there are is used by the results about moves and about blind controllers.
-/

namespace HybridStream
namespace Aode
namespace Main

open Lib

/-- `config.hea_endpoints` by default. -/
def defaultEndpoints : List String := ["hea-node-1:50051", "hea-node-2:50051", "hea-node-3:50051", "hea-node-4:50051"]

/-- `hea_clients` -/
def heaClients (heaEndpoints : List String) : HeaClients := Dict.ofList (heaEndpoints.map (fun ep => (ep, ⟨ep⟩)))

end Main
end Aode
end HybridStream
