import EditionGateway.Datagram.Endpoint

/-!
What can become of an endpoint that waits for clients. Its peers and connections are seen only by who
owns what: an address is owned by the connection that its datagrams go to, and a connection has the
address at which it was opened as its home. `Change` says how these can change at one time.
-/

namespace EditionGateway
namespace Datagram

/-- Something that happens to an endpoint. -/
inductive Incident
  | arrive (advertisement : Option String) (firstSplit : UInt16) (source : Address) (datagram : Bytes)
  | accept
  | receive (id : ConnectionId)
  | send (id : ConnectionId) (p : Bytes)
  | setThreshold (id : ConnectionId) (t : Threshold)
  | close (id : ConnectionId)
  | drop (id : ConnectionId)
  | shutdown

namespace Connection

theorem deliver_keeps (c : Connection) (got : Except LinkError Bytes) :
    (c.deliver got).address = c.address ∧ (c.deliver got).closed = c.closed := by
  unfold deliver
  split <;> exact ⟨rfl, rfl⟩

theorem receive_keeps (c : Connection) (fed : Bool) :
    (c.receive fed).2.address = c.address ∧ (c.receive fed).2.closed = c.closed := by
  unfold receive
  split <;> exact ⟨rfl, rfl⟩

theorem send_keeps (c : Connection) (p : Bytes) :
    (c.send p).2.address = c.address ∧ (c.send p).2.closed = c.closed := by
  unfold send
  split
  · exact ⟨rfl, rfl⟩
  · dsimp only
    split
    · exact ⟨rfl, rfl⟩
    · split <;> exact ⟨rfl, rfl⟩

end Connection

namespace Endpoint

def next (e : Endpoint) : Incident → Endpoint
  | .arrive advertisement firstSplit source b => (e.handle advertisement firstSplit source b).2
  | .accept => e.accept.2
  | .receive id => (e.receive id).2
  | .send id p => (e.send id p).2
  | .setThreshold id t => e.setThreshold id t
  | .close id => (e.close id).2
  | .drop id => e.drop id
  | .shutdown => e.shutdown.2

def after (e : Endpoint) (is : List Incident) : Endpoint := is.foldl next e

@[simp] theorem after_nil (e : Endpoint) : e.after [] = e := rfl

@[simp] theorem after_append (e : Endpoint) (is js : List Incident) :
    e.after (is ++ js) = (e.after is).after js :=
  List.foldl_append

/-- What a client of this version asks for when it connects. -/
def knock (a : Address) : Incident := .arrive none 0 a (openRequest defaultMtu)

def leave (a : Address) : Incident := .arrive none 0 a disconnect

/-- The connection that datagrams from an address go to. -/
def owner (e : Endpoint) (a : Address) : Option ConnectionId := (e.peers.get? a).map (·.connection)

/-- Where a connection has been opened, as long as it exists. -/
def home (e : Endpoint) (id : ConnectionId) : Option Address :=
  (e.connections.get? id).map (·.address)

def isOpen (e : Endpoint) (id : ConnectionId) : Bool :=
  (e.connections.get? id).any fun c => ¬ c.closed

/-- Nobody comes, and some peers may be forgotten. -/
structure Fades (e d : Endpoint) : Prop where
  nextId : d.nextId = e.nextId
  owner : ∀ a id, d.owner a = some id → e.owner a = some id
  home : d.home = e.home
  isOpen : d.isOpen = e.isOpen

/-- How it can change at one time which addresses are owned, and by whom. -/
inductive Change (e d : Endpoint) : Prop
  | fades (h : e.Fades d)
  | opened (a : Address) (nextId : d.nextId = e.nextId + 1) (free : e.owner a = none)
    (owner : ∀ b, d.owner b = if b = a then some ⟨e.nextId⟩ else e.owner b)
    (home : ∀ j, d.home j = if j = ⟨e.nextId⟩ then some a else e.home j)
    (isOpen : ∀ j, d.isOpen j = if j = ⟨e.nextId⟩ then true else e.isOpen j)
  | closed (id : ConnectionId) (a : Address) (known : e.home id = some a) (nextId : d.nextId = e.nextId)
    (owner : ∀ b, d.owner b = if b = a then none else e.owner b)
    (home : d.home = e.home) (isOpen : ∀ j, d.isOpen j = if j = id then false else e.isOpen j)
  | dropped (id : ConnectionId) (a : Address) (known : e.home id = some a) (nextId : d.nextId = e.nextId)
    (owner : ∀ b, d.owner b = if b = a then none else e.owner b)
    (home : ∀ j, d.home j = if j = id then none else e.home j)
    (isOpen : ∀ j, d.isOpen j = if j = id then false else e.isOpen j)

/-- What becomes of a fragment: it is put with others of its peer, or not, and something may be
delivered then. -/
theorem onFragment_cases (e : Endpoint) (a : Address) (b : Bytes) :
    e.onFragment a b = e ∨ (∃ id got, e.onFragment a b = e.deliver a id got) ∨
      ∃ r : Reassembly,
        let kept := { e with peers := e.peers.modify a fun p => { p with reassembly := r } }
        e.onFragment a b = kept ∨ ∃ id got, e.onFragment a b = kept.deliver a id got := by
  unfold onFragment
  split
  · exact .inl rfl
  · dsimp only
    split
    · exact .inr (.inl ⟨_, _, rfl⟩)
    · split
      · exact .inr (.inr ⟨_, .inr ⟨_, _, rfl⟩⟩)
      · exact .inr (.inr ⟨_, .inl rfl⟩)
      · split
        · exact .inr (.inr ⟨_, .inl rfl⟩)
        · exact .inr (.inr ⟨_, .inr ⟨_, _, rfl⟩⟩)

/-- What becomes of a datagram: it is ignored or answered with a pong, or it asks for a connection, or
it is a fragment, or a peer takes its leave. -/
theorem handle_cases (e : Endpoint) (advertisement : Option String) (firstSplit : UInt16)
    (a : Address) (b : Bytes) :
    e.handle advertisement firstSplit a b = (none, e) ∨
    (∃ time text, e.handle advertisement firstSplit a b = (reply (pong time e.guid text), e)) ∨
    (∃ version wanted, e.handle advertisement firstSplit a b = e.onOpen a firstSplit version wanted) ∨
    (∃ r, e.handle advertisement firstSplit a b = (none, e.onFragment a r)) ∨
    e.handle advertisement firstSplit a b = (none, e.removePeer a) := by
  cases b with
  | nil => exact .inl rfl
  | cons mark b =>
    simp only [handle]
    split
    · exact .inl rfl
    · split
      · split
        · exact .inr (.inl ⟨_, _, rfl⟩)
        · exact .inl rfl
      · split
        · split
          · exact .inr (.inr (.inl ⟨_, _, rfl⟩))
          · exact .inl rfl
        · split
          · exact .inr (.inr (.inr (.inl ⟨_, rfl⟩)))
          · split
            · exact .inr (.inr (.inr (.inr rfl)))
            · exact .inl rfl

theorem owner_erase (e : Endpoint) (a b : Address) :
    ((e.peers.erase a).get? b).map (·.connection) = if b = a then none else e.owner b := by
  rw [Table.get?_erase, owner]
  split <;> rfl

namespace Fades

theorem refl (e : Endpoint) : e.Fades e := ⟨rfl, fun _ _ h => h, rfl, rfl⟩

theorem trans {e d c : Endpoint} (h : e.Fades d) (k : d.Fades c) : e.Fades c :=
  ⟨k.nextId.trans h.nextId, fun a id hc => h.owner a id (k.owner a id hc), k.home.trans h.home,
    k.isOpen.trans h.isOpen⟩

/-- Something else about a connection changes. -/
theorem connection (e : Endpoint) (id : ConnectionId) {f : Connection → Connection}
    (hf : ∀ c, e.connections.get? id = some c → (f c).address = c.address ∧ (f c).closed = c.closed) :
    e.Fades { e with connections := e.connections.modify id f } := by
  have hget (j : ConnectionId) : ∀ c, e.connections.get? j = some c → j = id →
      (f c).address = c.address ∧ (f c).closed = c.closed := by
    rintro c hc rfl
    exact hf c hc
  refine ⟨rfl, fun _ _ h => h, funext fun j => ?_, funext fun j => ?_⟩
  all_goals
    simp only [Endpoint.home, Endpoint.isOpen, Table.get?_modify]
    split
    · next hj =>
      subst hj
      cases hc : e.connections.get? j with
      | none => rfl
      | some c => simp [hget j c hc rfl]
    · rfl

/-- Something else about a peer changes. -/
theorem peer (e : Endpoint) (a : Address) {f : Peer → Peer}
    (connection : ∀ p, (f p).connection = p.connection) :
    e.Fades { e with peers := e.peers.modify a f } := by
  refine ⟨rfl, fun b id h => ?_, rfl, rfl⟩
  simp only [Endpoint.owner, Table.get?_modify] at h ⊢
  split at h
  · next hb => simpa [hb, Function.comp_def, connection] using h
  · exact h

theorem removePeer (e : Endpoint) (a : Address) : e.Fades (e.removePeer a) := by
  refine ⟨rfl, fun b id h => ?_, rfl, rfl⟩
  have howner : (e.removePeer a).owner b = if b = a then none else e.owner b := e.owner_erase a b
  rw [howner] at h
  split at h
  · cases h
  · exact h

theorem deliver (e : Endpoint) (a : Address) (id : ConnectionId) (got : Except LinkError Bytes) :
    e.Fades (e.deliver a id got) := by
  unfold Endpoint.deliver
  split
  · exact connection e id fun c _ => c.deliver_keeps got
  · exact removePeer e a

theorem onFragment (e : Endpoint) (a : Address) (b : Bytes) : e.Fades (e.onFragment a b) := by
  have keep (r : Reassembly) :
      e.Fades { e with peers := e.peers.modify a fun p => { p with reassembly := r } } :=
    peer e a fun _ => rfl
  obtain heq | ⟨id, got, heq⟩ | ⟨r, heq | ⟨id, got, heq⟩⟩ := e.onFragment_cases a b <;> rw [heq]
  · exact refl e
  · exact deliver e a id got
  · exact keep r
  · exact (keep r).trans (deliver _ a id got)

end Fades

theorem change_onOpen (e : Endpoint) (a : Address) (firstSplit : UInt16) (version : UInt8)
    (wanted : UInt16) : e.Change (e.onOpen a firstSplit version wanted).2 := by
  unfold onOpen
  split
  · exact .fades (.refl e)
  · dsimp only
    split
    · exact .fades (.refl e)
    · next hfree =>
      split
      · exact .fades (.refl e)
      · refine .opened a rfl ?_ (fun b => ?_) (fun j => ?_) fun j => ?_
        · rw [Table.contains, Bool.not_eq_true, Option.isSome_eq_false_iff, Option.isNone_iff_eq_none] at hfree
          rw [owner, hfree]
          rfl
        · simp only [owner, Table.get?_insert]
          split <;> rfl
        · simp only [home, Table.get?_insert]
          split <;> rfl
        · simp only [isOpen, Table.get?_insert]
          split <;> rfl

theorem change_handle (e : Endpoint) (advertisement : Option String) (firstSplit : UInt16)
    (a : Address) (b : Bytes) : e.Change (e.handle advertisement firstSplit a b).2 := by
  obtain heq | ⟨time, text, heq⟩ | ⟨version, wanted, heq⟩ | ⟨r, heq⟩ | heq :=
    e.handle_cases advertisement firstSplit a b <;> rw [heq]
  · exact .fades (.refl e)
  · exact .fades (.refl e)
  · exact e.change_onOpen a firstSplit version wanted
  · exact .fades (.onFragment e a r)
  · exact .fades (.removePeer e a)

theorem change_close (e : Endpoint) (id : ConnectionId) : e.Change (e.close id).2 := by
  unfold close
  split
  · exact .fades (.refl e)
  · next c hc =>
    split
    · exact .fades (.refl e)
    · refine .closed id c.address (by rw [home, hc]; rfl) rfl (e.owner_erase c.address)
        (funext fun j => ?_) fun j => ?_
      · simp only [home, Table.get?_modify]
        split
        · next hj => simp [hj, Function.comp_def]
        · rfl
      · simp only [isOpen, Table.get?_modify]
        split
        · next hj => simp [hc]
        · rfl

theorem change_drop (e : Endpoint) (id : ConnectionId) : e.Change (e.drop id) := by
  unfold drop
  split
  · exact .fades (.refl e)
  · next c hc =>
    refine .dropped id c.address (by rw [home, hc]; rfl) rfl (e.owner_erase c.address) (fun j => ?_) fun j => ?_
    · simp only [home, Table.get?_erase]
      split <;> rfl
    · simp only [isOpen, Table.get?_erase]
      split <;> rfl

/-- Whatever happens, ownership changes in one of these ways. -/
theorem change_next (e : Endpoint) (i : Incident) : e.Change (e.next i) := by
  cases i with
  | arrive advertisement firstSplit source b => exact e.change_handle advertisement firstSplit source b
  | accept =>
    simp only [next, accept]
    split
    · exact .fades ⟨rfl, fun _ _ h => h, rfl, rfl⟩
    · exact .fades (.refl e)
  | receive id =>
    simp only [next, receive]
    split
    · exact .fades (.refl e)
    · next c hc =>
      refine .fades (.connection e id fun d hd => ?_)
      rw [← Option.some.inj (hc.symm.trans hd)]
      exact c.receive_keeps _
  | send id p =>
    simp only [next, send]
    split
    · exact .fades (.refl e)
    · next c hc =>
      refine .fades (.connection e id fun d hd => ?_)
      rw [← Option.some.inj (hc.symm.trans hd)]
      exact c.send_keeps p
  | setThreshold id t => exact .fades (.connection e id fun _ _ => ⟨rfl, rfl⟩)
  | close id => exact e.change_close id
  | drop id => exact e.change_drop id
  | shutdown => exact .fades ⟨rfl, fun a id h => (Option.some_ne_none id h.symm).elim, rfl, rfl⟩

end Endpoint
end Datagram
end EditionGateway
