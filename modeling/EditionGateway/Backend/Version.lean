/-!
The version of the backend protocol that the gateway speaks.
-/

namespace EditionGateway.Backend

def protocolVersion : Int32 := 767

def versionName : String := "1.21.1"

end EditionGateway.Backend
