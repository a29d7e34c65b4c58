import EditionGateway.Linking.Error
import EditionGateway.Link.Frame
import EditionGateway.Session.Credentials

/-!
What a gateway needs of a network: for each session, the link of its client and the one to the
backend. Nothing waits; what has not come yet is `none`.
-/

namespace EditionGateway

class Network (σ : Type) where
  receiveClient : SessionId → σ → Option Received × σ
  sendClient : SessionId → Bytes → σ → Except LinkError Unit × σ
  compressClient : SessionId → Nat → σ → σ
  closeClient : SessionId → σ → σ
  /-- Starts to open the link to the backend. -/
  connect : SessionId → Credentials → σ → σ
  /-- Whether the link to the backend is open, or why it could not be opened. -/
  connected : SessionId → σ → Option (Except BackendError Unit) × σ
  receiveBackend : SessionId → σ → Option Received × σ
  sendBackend : SessionId → Bytes → σ → Except LinkError Unit × σ
  closeBackend : SessionId → σ → σ
  /-- The session is over. -/
  release : SessionId → σ → σ

end EditionGateway
