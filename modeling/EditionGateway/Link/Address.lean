/-!
Addresses of peers.
-/

namespace EditionGateway

/-- Where a peer is: a host and a number on it, as they are written. -/
abbrev Address := String

end EditionGateway
