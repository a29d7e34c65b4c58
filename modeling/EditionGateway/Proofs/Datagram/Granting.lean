import EditionGateway.Datagram.Opening
import EditionGateway.Proofs.Datagram.History
import EditionGateway.Proofs.Datagram.Wire

/-!
What becomes of the sizes of connections. Each incident settles them, or it is a request for a
connection that is answered with a size: to a client that has a connection nothing happens then, and
another one gets a connection of that size. `Answer` says which of the three it is.
-/

namespace EditionGateway
namespace Datagram

/-- The size that a datagram tells a client who has asked for a connection. -/
def toldSize? (b : Bytes) : Option UInt16 :=
  match answerOf b with
  | .ok (some agreement) => some agreement.mtu
  | _ => none

theorem toldSize?_opened (guid : UInt64) (mtu : UInt16) : toldSize? (opened guid mtu) = some mtu := by
  have hguid : guid.toNat < Nat.pow 256 8 := guid.toNat_lt
  have hmtu : mtu.toNat < Nat.pow 256 2 := mtu.toNat_lt
  have hmark (r : Bytes) : Scan.number 1 ⟨openedMark :: r, 0⟩ = .ok (6, ⟨r, 1⟩) := rfl
  have hrun : ∃ k, answerOf.scan ⟨opened guid mtu, 0⟩ = .ok (some ⟨guid, mtu⟩, ⟨[], k⟩) := by
    have hrest : opened guid mtu = openedMark :: (Bytes.be 8 guid.toNat ++ (Bytes.be 2 mtu.toNat ++ [])) := by
      simp [opened]
    rw [hrest, answerOf.scan, Scan.bind_of_ok (hmark _), if_pos (by decide),
      Scan.bind_of_ok (Scan.number_be 8 _ _ _ hguid), Scan.bind_of_ok (Scan.number_be 2 _ _ _ hmtu),
      UInt64.ofNat_toNat, UInt16.ofNat_toNat]
    exact ⟨_, rfl⟩
  obtain ⟨k, hk⟩ := hrun
  have heval : answerOf (opened guid mtu) = .ok (some ⟨guid, mtu⟩) := by
    change (answerOf.scan ⟨opened guid mtu, 0⟩).map (·.1) = _
    rw [hk]
    rfl
  rw [toldSize?, heval]

theorem toldSize?_incompatible (guid : UInt64) : toldSize? (incompatible guid) = none := rfl

theorem toldSize?_pong (time guid : UInt64) (text : String) :
    toldSize? (pong time guid text) = none := rfl

theorem bind_reply (b : Bytes) (h : toldSize? b = none) : (Endpoint.reply b).bind toldSize? = none := by
  unfold Endpoint.reply
  split
  · exact h
  · rfl

theorem bind_reply_opened (guid : UInt64) (mtu : UInt16) :
    (Endpoint.reply (opened guid mtu)).bind toldSize? = some mtu := by
  have hshort : (opened guid mtu).length ≤ maxLength := by
    simp [opened, maxLength]
  rw [Endpoint.reply, if_pos hshort]
  exact toldSize?_opened guid mtu

namespace Connection

theorem deliver_mtu (c : Connection) (got : Except LinkError Bytes) : (c.deliver got).mtu = c.mtu := by
  unfold deliver
  split <;> rfl

theorem receive_mtu (c : Connection) (fed : Bool) : (c.receive fed).2.mtu = c.mtu := by
  unfold receive
  split <;> rfl

theorem send_mtu (c : Connection) (p : Bytes) : (c.send p).2.mtu = c.mtu := by
  unfold send
  split
  · rfl
  · dsimp only
    split
    · rfl
    · split <;> rfl

end Connection

namespace Endpoint

/-- Who is told a size when something happens, and which. -/
def tells (e : Endpoint) : Incident → Option (Address × UInt16)
  | .arrive advertisement firstSplit source b =>
    ((e.handle advertisement firstSplit source b).1.bind toldSize?).map (source, ·)
  | _ => none

/-- The connection that datagrams from an address go to, and the size noted for its peer. -/
def terms (e : Endpoint) (a : Address) : Option (ConnectionId × UInt16) :=
  (e.peers.get? a).map fun p => (p.connection, p.mtu)

def size (e : Endpoint) (id : ConnectionId) : Option UInt16 := (e.connections.get? id).map (·.mtu)

theorem owner_eq (e : Endpoint) (a : Address) : e.owner a = (e.terms a).map (·.1) := by
  simp [owner, terms, Function.comp_def]

/-- The size that a client is told who wants a size. -/
def granted (e : Endpoint) (wanted : UInt16) : UInt16 :=
  if wanted < minMtu then minMtu else min wanted e.mtu

theorem granted_bounds {e : Endpoint} (h : minMtu ≤ e.mtu) (wanted : UInt16) :
    minMtu ≤ e.granted wanted ∧ e.granted wanted ≤ e.mtu := by
  unfold granted
  split
  · exact ⟨UInt16.le_refl _, h⟩
  · next hle =>
    have hle : minMtu ≤ wanted := UInt16.not_lt.mp hle
    rw [show min wanted e.mtu = if wanted ≤ e.mtu then wanted else e.mtu from rfl]
    split
    · exact ⟨hle, ‹_›⟩
    · exact ⟨h, UInt16.le_refl _⟩

/-- No size changes, and some peers or connections may go. -/
structure Settled (e d : Endpoint) : Prop where
  mtu : d.mtu = e.mtu
  nextId : d.nextId = e.nextId
  terms : ∀ a x, d.terms a = some x → e.terms a = some x
  size : ∀ id m, d.size id = some m → e.size id = some m

namespace Settled

theorem refl (e : Endpoint) : e.Settled e := ⟨rfl, rfl, fun _ _ h => h, fun _ _ h => h⟩

theorem trans {e d c : Endpoint} (h : e.Settled d) (k : d.Settled c) : e.Settled c :=
  ⟨k.mtu.trans h.mtu, k.nextId.trans h.nextId, fun a x hc => h.terms a x (k.terms a x hc),
    fun id m hc => h.size id m (k.size id m hc)⟩

theorem connection (e : Endpoint) (id : ConnectionId) {f : Connection → Connection}
    (hf : ∀ c, e.connections.get? id = some c → (f c).mtu = c.mtu) :
    e.Settled { e with connections := e.connections.modify id f } := by
  refine ⟨rfl, rfl, fun _ _ h => h, fun j m h => ?_⟩
  simp only [Endpoint.size, Table.get?_modify] at h ⊢
  split at h
  · next hj =>
    cases hc : e.connections.get? id with
    | none => simp [hc] at h
    | some c => simpa [hc, hj, hf c hc] using h
  · exact h

theorem peer (e : Endpoint) (a : Address) (r : Reassembly) :
    e.Settled { e with peers := e.peers.modify a fun p => { p with reassembly := r } } := by
  refine ⟨rfl, rfl, fun b x h => ?_, fun _ _ h => h⟩
  simp only [Endpoint.terms, Table.get?_modify] at h ⊢
  split at h
  · next hb => simpa [hb, Function.comp_def] using h
  · exact h

theorem terms_erase {e : Endpoint} {a b : Address} {x : ConnectionId × UInt16}
    (h : ((e.peers.erase a).get? b).map (fun p => (p.connection, p.mtu)) = some x) :
    e.terms b = some x := by
  rw [Table.get?_erase] at h
  split at h
  · cases h
  · exact h

theorem removePeer (e : Endpoint) (a : Address) : e.Settled (e.removePeer a) :=
  ⟨rfl, rfl, fun _ _ h => terms_erase h, fun _ _ h => h⟩

theorem deliver (e : Endpoint) (a : Address) (id : ConnectionId) (got : Except LinkError Bytes) :
    e.Settled (e.deliver a id got) := by
  unfold Endpoint.deliver
  split
  · exact connection e id fun c _ => c.deliver_mtu got
  · exact removePeer e a

theorem onFragment (e : Endpoint) (a : Address) (b : Bytes) : e.Settled (e.onFragment a b) := by
  obtain heq | ⟨id, got, heq⟩ | ⟨r, heq | ⟨id, got, heq⟩⟩ := e.onFragment_cases a b <;> rw [heq]
  · exact refl e
  · exact deliver e a id got
  · exact peer e a r
  · exact (peer e a r).trans (deliver _ a id got)

theorem receive (e : Endpoint) (id : ConnectionId) : e.Settled (e.receive id).2 := by
  unfold Endpoint.receive
  split
  · exact refl e
  · next c hc =>
    refine connection e id fun d hd => ?_
    rw [← Option.some.inj (hc.symm.trans hd)]
    exact c.receive_mtu _

theorem send (e : Endpoint) (id : ConnectionId) (p : Bytes) : e.Settled (e.send id p).2 := by
  unfold Endpoint.send
  split
  · exact refl e
  · next c hc =>
    refine connection e id fun d hd => ?_
    rw [← Option.some.inj (hc.symm.trans hd)]
    exact c.send_mtu p

theorem close (e : Endpoint) (id : ConnectionId) : e.Settled (e.close id).2 := by
  unfold Endpoint.close
  split
  · exact refl e
  · next c hc =>
    split
    · exact refl e
    · have hclosed := connection e id (f := fun c => { c with closed := true }) fun _ _ => rfl
      exact ⟨rfl, rfl, fun _ _ h => terms_erase h, hclosed.size⟩

theorem drop (e : Endpoint) (id : ConnectionId) : e.Settled (e.drop id) := by
  unfold Endpoint.drop
  split
  · exact refl e
  · next c hc =>
    refine ⟨rfl, rfl, fun _ _ h => terms_erase h, fun j m h => ?_⟩
    simp only [Endpoint.size, Table.get?_erase] at h ⊢
    split at h
    · cases h
    · exact h

end Settled

/-- What happens to the sizes. -/
inductive Answer (e d : Endpoint) : Option (Address × UInt16) → Prop
  | none (settled : e.Settled d) : e.Answer d none
  | again (a : Address) (wanted : UInt16) (same : d = e) (id : ConnectionId)
      (owner : e.owner a = some id) : e.Answer d (some (a, e.granted wanted))
  | opened (a : Address) (wanted : UInt16) (nextId : d.nextId = e.nextId + 1) (mtu : d.mtu = e.mtu)
      (terms : ∀ b, d.terms b = if b = a then some (⟨e.nextId⟩, e.granted wanted) else e.terms b)
      (size : ∀ j, d.size j = if j = ⟨e.nextId⟩ then some (e.granted wanted) else e.size j) :
      e.Answer d (some (a, e.granted wanted))

theorem answer_onOpen (e : Endpoint) (a : Address) (firstSplit : UInt16) (version : UInt8)
    (wanted : UInt16) :
    e.Answer (e.onOpen a firstSplit version wanted).2
      (((e.onOpen a firstSplit version wanted).1.bind toldSize?).map (a, ·)) := by
  unfold onOpen
  split
  · rw [bind_reply _ (toldSize?_incompatible _)]
    exact .none (.refl e)
  · have hgranted : (if wanted < minMtu then minMtu else min wanted e.mtu) = e.granted wanted := rfl
    simp only [hgranted]
    split
    · next hknown =>
      rw [bind_reply_opened]
      obtain ⟨p, hp⟩ := Option.isSome_iff_exists.mp hknown
      exact .again a wanted rfl p.connection (by rw [owner, hp]; rfl)
    · split
      · exact .none (.refl e)
      · rw [bind_reply_opened]
        refine .opened a wanted rfl rfl (fun b => ?_) fun j => ?_
        · simp only [terms, Table.get?_insert]
          split <;> rfl
        · simp only [size, Table.get?_insert]
          split <;> rfl

theorem answer_handle (e : Endpoint) (advertisement : Option String) (firstSplit : UInt16)
    (a : Address) (b : Bytes) :
    e.Answer (e.handle advertisement firstSplit a b).2
      (((e.handle advertisement firstSplit a b).1.bind toldSize?).map (a, ·)) := by
  obtain heq | ⟨time, text, heq⟩ | ⟨version, wanted, heq⟩ | ⟨r, heq⟩ | heq :=
    e.handle_cases advertisement firstSplit a b <;> rw [heq]
  · exact .none (.refl e)
  · rw [bind_reply _ (toldSize?_pong time e.guid text)]
    exact .none (.refl e)
  · exact e.answer_onOpen a firstSplit version wanted
  · exact .none (.onFragment e a r)
  · exact .none (.removePeer e a)

theorem answer_next (e : Endpoint) (i : Incident) : e.Answer (e.next i) (e.tells i) := by
  cases i with
  | arrive advertisement firstSplit source b => exact e.answer_handle advertisement firstSplit source b
  | accept =>
    simp only [next, accept, tells]
    split
    · exact .none ⟨rfl, rfl, fun _ _ h => h, fun _ _ h => h⟩
    · exact .none (.refl e)
  | receive id => exact .none (.receive e id)
  | send id p => exact .none (.send e id p)
  | setThreshold id t => exact .none (.connection e id fun _ _ => rfl)
  | close id => exact .none (.close e id)
  | drop id => exact .none (.drop e id)
  | shutdown =>
    refine .none ⟨rfl, rfl, fun id m h => ?_, fun _ _ h => h⟩
    cases h

theorem Answer.mtu {e d : Endpoint} {o : Option (Address × UInt16)} (h : e.Answer d o) :
    d.mtu = e.mtu := by
  cases h with
  | none settled => exact settled.mtu
  | again _ _ same => rw [same]
  | opened _ _ _ mtu => exact mtu

theorem mtu_after (e : Endpoint) (is : List Incident) : (e.after is).mtu = e.mtu := by
  induction is generalizing e with
  | nil => rfl
  | cons i is ih => exact (ih (e.next i)).trans (e.answer_next i).mtu

end Endpoint

end Datagram
end EditionGateway
