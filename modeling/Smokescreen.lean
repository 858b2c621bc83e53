import Smokescreen.Go.Time
import Smokescreen.Go.Strconv
import Smokescreen.Go.Ascii
import Smokescreen.Go.Header
import Smokescreen.Go.Url
import Smokescreen.Conntrack
import Smokescreen.ConfigLoader
import Smokescreen.Goproxy.Filter
import Smokescreen.Goproxy.ServeHttp
import Smokescreen.Goproxy.Normalize
import Smokescreen.Goproxy.NewProxy
