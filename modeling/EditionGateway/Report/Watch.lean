import EditionGateway.Gateway.InProcess
import EditionGateway.Report.Error
import EditionGateway.Report.Packet

/-!
What has happened in a gateway on links in memory since it was looked at.
-/

namespace EditionGateway

/-- The packets of a link, decoded. -/
def LinkNews.reportPackets {α : Type} (shape : Shape α) (n : LinkNews) : Json :=
  .array <| n.packets.map fun b =>
    match shape.decode b with
    | .ok p => shape.report p
    | .error e => e.report

def LinkNews.reportClient (n : LinkNews) (ended : Option GatewayError) : List (String × Json) :=
  (if n.packets.isEmpty then [] else [("packets", n.reportPackets Client.Packet.shape)])
    ++ (if n.thresholds.isEmpty then [] else [("compression", (n.thresholds : Json))])
    ++ (if n.closed then [("closed", (true : Json))] else [])
    ++ (ended.map fun e => ("end", e.ending)).toList

def LinkNews.reportBackend (n : LinkNews) : List (String × Json) :=
  if n.packets.isEmpty && !n.closed then []
  else [("packets", n.reportPackets Backend.Packet.shape), ("closed", n.closed)]

namespace Host

/-- The live sessions and their states. -/
def reportLive {σ : Type} (h : Host σ) : Json :=
  .array <| h.registry.handles.map fun x =>
    .array [x.id.label, x.username, (h.switchboard.get? x.channel).map (·.state.label)]

/-- Looks at the far ends of all links. `ended` holds the sessions whose ending has been reported.
-/
def look (h : Host InProcess) (ended : List SessionId) :
    List (String × Json) × List SessionId × Host InProcess :=
  let n := h.network
  let endings := h.seats.filterMap fun (id, seat) =>
    if ended.contains id then none else seat.session.ending?.map fun e => (id, e)
  let clients := n.clients.map fun (id, l) => (id, l.look)
  let backends := n.backends.map fun (id, l) => (id, l.look)
  let name (letter : String) (news : List (String × Json) × Nat) : String × List (String × Json) :=
    (letter ++ toString news.2, news.1)
  let fromClients := clients.map fun (id, x, _) => x.reportClient (endings.lookup id)
  let fromBackends := backends.map fun (_, x, _) => x.reportBackend
  let news := fromClients.zipIdx.map (name "c") ++ fromBackends.zipIdx.map (name "b")
  (("live", h.reportLive)
      :: (news.filter fun (_, ms) => !ms.isEmpty).map fun (k, ms) => (k, Json.obj ms),
    ended ++ endings.map (·.1),
    { h with network := { n with
      clients := clients.map fun (id, _, l) => (id, l)
      backends := backends.map fun (id, _, l) => (id, l) } })

end Host
end EditionGateway
