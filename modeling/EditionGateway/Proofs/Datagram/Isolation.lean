import EditionGateway.Proofs.Datagram.Ownership

/-!
What a datagram can do to the peers of other addresses than its source: nothing. It is answered at its
source, if at all, and from an address without a connection only a full open request has an effect.
-/

namespace EditionGateway
namespace Datagram

/-- An open request of this version, with all of its fields. -/
def IsKnock (b : Bytes) : Prop := ∃ high low rest, b = openMark :: transportVersion :: high :: low :: rest

namespace Endpoint

/-- No two addresses have one connection, and the next connection to be opened is not there yet. -/
structure Separate (e : Endpoint) : Prop where
  apart : ∀ a b id, e.owner a = some id → e.owner b = some id → a = b
  fresh : ∀ a id, e.owner a = some id → id ≠ ⟨e.nextId⟩

theorem Owned.separate {e : Endpoint} {count : Nat} (h : e.Owned count) : e.Separate := by
  refine ⟨fun a b id ha hb => ?_, fun a id ha heq => ?_⟩
  · exact Option.some.inj ((h.owner a id ha).1.symm.trans (h.owner b id hb).1)
  · have hlt := h.fresh id a (h.owner a id ha).1
    rw [heq] at hlt
    exact Nat.lt_irrefl _ hlt

/-- What is at other addresses than `a` has stayed the same. -/
structure KeepsOthers (e d : Endpoint) (a : Address) : Prop where
  peers : ∀ b, b ≠ a → d.peers.get? b = e.peers.get? b
  connections : ∀ id, e.owner a ≠ some id → id ≠ ⟨e.nextId⟩ → d.connections.get? id = e.connections.get? id

namespace KeepsOthers

variable {e d : Endpoint} {a : Address}

theorem refl (e : Endpoint) (a : Address) : e.KeepsOthers e a := ⟨fun _ _ => rfl, fun _ _ _ => rfl⟩

theorem modify_peer (h : e.KeepsOthers d a) (f : Peer → Peer) :
    e.KeepsOthers { d with peers := d.peers.modify a f } a := by
  refine ⟨fun b hb => ?_, h.connections⟩
  rw [Table.get?_modify, if_neg hb]
  exact h.peers b hb

theorem removePeer (h : e.KeepsOthers d a) : e.KeepsOthers (d.removePeer a) a := by
  refine ⟨fun b hb => ?_, h.connections⟩
  rw [Endpoint.removePeer, Table.get?_erase, if_neg hb]
  exact h.peers b hb

theorem deliver (h : e.KeepsOthers d a) {id : ConnectionId} (own : e.owner a = some id)
    (got : Except LinkError Bytes) : e.KeepsOthers (d.deliver a id got) a := by
  unfold Endpoint.deliver
  split
  · refine ⟨h.peers, fun j hj hnew => ?_⟩
    have hne : j ≠ id := by
      rintro rfl
      exact hj own
    rw [Table.get?_modify, if_neg hne]
    exact h.connections j hj hnew
  · exact h.removePeer

theorem onFragment (e : Endpoint) (a : Address) (b : Bytes) : e.KeepsOthers (e.onFragment a b) a := by
  unfold Endpoint.onFragment
  split
  · exact refl e a
  · next peer hpeer =>
    have own : e.owner a = some peer.connection := by rw [owner, hpeer]; rfl
    have keep (r : Reassembly) :
        e.KeepsOthers { e with peers := e.peers.modify a fun p => { p with reassembly := r } } a :=
      (refl e a).modify_peer _
    dsimp only
    split
    · exact (refl e a).deliver own _
    · split
      · exact (keep _).deliver own _
      · exact keep _
      · split
        · exact keep _
        · exact (keep _).deliver own _

theorem onOpen (e : Endpoint) (a : Address) (firstSplit : UInt16) (version : UInt8) (wanted : UInt16) :
    e.KeepsOthers (e.onOpen a firstSplit version wanted).2 a := by
  unfold Endpoint.onOpen
  split
  · exact refl e a
  · dsimp only
    split
    · exact refl e a
    · split
      · exact refl e a
      · refine ⟨fun b hb => ?_, fun j _ hnew => ?_⟩
        · rw [Table.get?_insert, if_neg hb]
        · rw [Table.get?_insert, if_neg hnew]

theorem handle (e : Endpoint) (advertisement : Option String) (firstSplit : UInt16) (a : Address) (b : Bytes) :
    e.KeepsOthers (e.handle advertisement firstSplit a b).2 a := by
  obtain heq | ⟨time, text, heq⟩ | ⟨version, wanted, heq⟩ | ⟨r, heq⟩ | heq :=
    e.handle_cases advertisement firstSplit a b <;> rw [heq]
  · exact refl e a
  · exact refl e a
  · exact onOpen e a firstSplit version wanted
  · exact onFragment e a r
  · exact (refl e a).removePeer

end KeepsOthers

/-- Three bytes are read, the first of which is the version. -/
theorem isKnock_of_openFields {b : Bytes} {wanted : UInt16}
    (h : (openFields.eval b).toOption = some (transportVersion, wanted)) : IsKnock (openMark :: b) := by
  match b with
  | [] => cases h
  | [_] => cases h
  | [_, _] => cases h
  | version :: high :: low :: rest =>
    have hversion : UInt8.ofNat (Bytes.beValue [version]) = transportVersion :=
      congrArg Prod.fst (Option.some.inj h)
    have hbyte : Bytes.beValue [version] = version.toNat := by simp [Bytes.beValue, Bytes.leValue]
    rw [hbyte, UInt8.ofNat_toNat] at hversion
    exact ⟨high, low, rest, hversion ▸ rfl⟩

theorem onOpen_of_old (e : Endpoint) (a : Address) (firstSplit : UInt16) {version : UInt8} (wanted : UInt16)
    (old : version ≠ transportVersion) :
    e.onOpen a firstSplit version wanted = (reply (incompatible e.guid), e) :=
  if_pos old

/-- From an address without a connection nothing but a full open request has an effect. -/
theorem handle_of_stranger (e : Endpoint) (advertisement : Option String) (firstSplit : UInt16) {a : Address}
    {b : Bytes} (stranger : e.owner a = none) (other : ¬ IsKnock b) :
    (e.handle advertisement firstSplit a b).2 = e := by
  have hpeer : e.peers.get? a = none := Option.map_eq_none_iff.mp stranger
  cases b with
  | nil => rfl
  | cons mark b =>
    simp only [handle]
    split
    · rfl
    · split
      · split <;> rfl
      · split
        · next hopen =>
          subst hopen
          split
          · next version wanted _ hfields =>
            have old : version ≠ transportVersion := by
              rintro rfl
              exact other (isKnock_of_openFields hfields)
            rw [onOpen_of_old e a firstSplit wanted old]
          · rfl
        · split
          · simp only [onFragment, hpeer]
          · split
            · simp only [removePeer, Table.erase_of_absent hpeer]
            · rfl

/-- The datagrams that an arrival makes an endpoint send, with the addresses they go to. -/
def sends (e : Endpoint) (advertisement : Option String) (firstSplit : UInt16) (source : Address) (b : Bytes) :
    List (Address × Bytes) :=
  ((e.handle advertisement firstSplit source b).1.map (source, ·)).toList

/-- Only pings and open requests are answered. -/
theorem head_of_answer (e : Endpoint) (advertisement : Option String) (firstSplit : UInt16) (a : Address)
    (b : Bytes) {r : Bytes} (h : (e.handle advertisement firstSplit a b).1 = some r) :
    b.head? = some pingMark ∨ b.head? = some openMark := by
  cases b with
  | nil => cases h
  | cons mark b =>
    simp only [handle] at h
    split at h
    · cases h
    · split at h
      · next hping => exact .inl (congrArg some hping)
      · split at h
        · next hopen => exact .inr (congrArg some hopen)
        · split at h
          · cases h
          · split at h <;> cases h

/-- A datagram leaves what is at all addresses but its source as it was: the peer with all that is pending,
and the whole connection with its inbox. It is answered once at most, and at its source. If no connection
has been opened there, the endpoint stays what it is unless the datagram is a full open request. All this is so
in every state in which no two addresses have one connection, as those that an endpoint can come to. -/
theorem keeps_to_source :
    (∀ guid mtu z is, is.length + 1 < UInt64.size → ((listen guid mtu z).after is).Separate) ∧
    ∀ e : Endpoint, e.Separate → ∀ advertisement firstSplit a b,
      let d := (e.handle advertisement firstSplit a b).2
      (∀ c, c ≠ a → d.peers.get? c = e.peers.get? c ∧
        ∀ id, e.owner c = some id → d.connections.get? id = e.connections.get? id) ∧
      (e.sends advertisement firstSplit a b).length ≤ 1 ∧
      (∀ x ∈ e.sends advertisement firstSplit a b,
        x.1 = a ∧ (b.head? = some pingMark ∨ b.head? = some openMark)) ∧
      (e.owner a = none → ¬ IsKnock b → d = e) := by
  refine ⟨fun guid mtu z is few => ?_, fun e hsep advertisement firstSplit a b => ⟨fun c hc => ⟨?_, ?_⟩, ?_, ?_, ?_⟩⟩
  · exact ((Owned.listen guid mtu z).after is (by omega)).separate
  · exact (KeepsOthers.handle e advertisement firstSplit a b).peers c hc
  · intro id hid
    have hother : e.owner a ≠ some id := fun ha => hc (hsep.apart c a id hid ha)
    exact (KeepsOthers.handle e advertisement firstSplit a b).connections id hother (hsep.fresh c id hid)
  · unfold sends
    cases (e.handle advertisement firstSplit a b).1 <;> simp
  · intro x hx
    obtain ⟨r, hr, rfl⟩ := Option.map_eq_some_iff.mp (Option.mem_toList.mp hx)
    exact ⟨rfl, e.head_of_answer advertisement firstSplit a b hr⟩
  · exact e.handle_of_stranger advertisement firstSplit

/-- Two clients, the second one with a part of a packet pending. The first one sends a fragment that ends too
early, and somebody else an open request that does. -/
theorem keeps_to_source_of_two :
    let is := [knock "a", .accept, knock "b", .arrive none 0 "b" (Fragment.encode ⟨0, 0, 0, 2, [7]⟩)]
    let e := (listen 0 defaultMtu).after is
    let d := (e.handle none 0 "a" [fragmentMark, 0]).2
    is.length + 1 < UInt64.size ∧ e.Separate ∧ e.owner "b" = some ⟨2⟩ ∧
      d.peers.get? "b" = e.peers.get? "b" ∧ d.connections.get? ⟨2⟩ = e.connections.get? ⟨2⟩ ∧
      (d.connections.get? ⟨1⟩).map (·.inbox) = some [.error (.malformed (.shortDatagram 4 0))] ∧
      e.owner "c" = none ∧ ¬ IsKnock [openMark, transportVersion, 5] ∧
      (e.handle none 0 "c" [openMark, transportVersion, 5]).2 = e := by
  intro is e d
  have few : is.length + 1 < UInt64.size := by decide
  have hsep : e.Separate := keeps_to_source.1 0 defaultMtu .bare is few
  obtain ⟨hothers, -⟩ := keeps_to_source.2 e hsep none 0 "a" [fragmentMark, 0]
  obtain ⟨hpeer, hconnection⟩ := hothers "b" (by decide)
  have hshort : ¬ IsKnock [openMark, transportVersion, 5] := by
    rintro ⟨high, low, rest, heq⟩
    cases heq
  have hstranger := (keeps_to_source.2 e hsep none 0 "c" [openMark, transportVersion, 5]).2.2.2
  exact ⟨few, hsep, rfl, hpeer, hconnection ⟨2⟩ rfl, rfl, rfl, hshort, hstranger rfl hshort⟩

end Endpoint
end Datagram
end EditionGateway
