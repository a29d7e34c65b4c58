import EditionGateway.Proofs.Datagram.Granting
import EditionGateway.Proofs.Datagram.Ownership
import EditionGateway.Proofs.Datagram.Sending

/-!
The sizes that clients are told when they ask for a connection. A connection keeps the size that was
told when it was opened, whatever is told later: its datagrams fit the size that was told last if and
only if that one is not smaller than the first. `smaller_size_told` shows that it can be.
-/

namespace EditionGateway
namespace Datagram

namespace Connection

/-- Whatever is sent over the connection, under whatever threshold, its datagrams are not longer than
a size allows. -/
def Fits (c : Connection) (size : UInt16) : Prop :=
  ∀ (t : Threshold) (p : Bytes) (fragments : List Fragment),
    ((c.setThreshold t).send p).1 = .ok fragments →
      ∀ f ∈ fragments, f.encode.length + networkOverhead ≤ size.toNat

theorem fits_iff {c : Connection} (hopen : c.closed = false) (hmtu : minMtu ≤ c.mtu) (size : UInt16) :
    c.Fits size ↔ c.mtu ≤ size := by
  have hmin : 576 ≤ c.mtu.toNat := hmtu
  have hmax : c.maxPayload = c.mtu.toNat - 39 := by
    simp only [maxPayload, headerLength, networkOverhead]
    omega
  constructor
  · intro h
    -- a packet that fills one fragment under no threshold
    let p : Bytes := List.replicate c.maxPayload 0
    have hlength : p.length = c.maxPayload := List.length_replicate
    have hsend := send_of_short (c := c.setThreshold none) (p := p) hopen (Nat.le_of_eq hlength)
    have hfits := h none p _ (congrArg Prod.fst hsend) _ (List.mem_singleton.mpr rfl)
    have hbody :
        (encodeBody (c.setThreshold none).compression (c.setThreshold none).threshold p).length = c.maxPayload :=
      hlength
    rw [Fragment.length_encode] at hfits
    simp only [hbody, hmax, headerLength, networkOverhead] at hfits
    have hsize : c.mtu.toNat ≤ size.toNat := by omega
    exact hsize
  · intro hle t p fragments h f hf
    have hpayload : f.payload.length ≤ c.maxPayload := length_payload_of_send h hf
    have hsize : c.mtu.toNat ≤ size.toNat := hle
    rw [Fragment.length_encode, headerLength, networkOverhead]
    omega

end Connection

/-- An endpoint, and the sizes that have been told while an address belonged to a connection, the first
one first. -/
structure Talk where
  endpoint : Endpoint
  told : ConnectionId → List UInt16 := fun _ => []

namespace Talk

open Endpoint

def next (t : Talk) (i : Incident) : Talk where
  endpoint := t.endpoint.next i
  told id := t.told id ++ match t.endpoint.tells i with
    | some (a, m) => if (t.endpoint.next i).owner a = some id then [m] else []
    | none => []

def after (t : Talk) (is : List Incident) : Talk := is.foldl next t

theorem endpoint_after (t : Talk) (is : List Incident) :
    (t.after is).endpoint = t.endpoint.after is := by
  induction is generalizing t with
  | nil => rfl
  | cons i is ih => exact ih (t.next i)

/-- A connection has the size that was told first, and so has its peer. -/
structure Honest (t : Talk) : Prop where
  least : minMtu ≤ t.endpoint.mtu
  bounds : ∀ id, ∀ m ∈ t.told id, minMtu ≤ m ∧ m ≤ t.endpoint.mtu
  size : ∀ id m, t.endpoint.size id = some m → (t.told id).head? = some m
  terms : ∀ a id m, t.endpoint.terms a = some (id, m) → t.endpoint.size id = some m
  fresh : ∀ id, t.endpoint.nextId.toNat ≤ id.value.toNat → t.told id = []

namespace Honest

variable {t : Talk} {count : Nat}

theorem listen (guid : UInt64) (mtu : UInt16) (z : Compression) :
    Honest { endpoint := Endpoint.listen guid mtu z } := by
  refine ⟨?_, nofun, nofun, nofun, fun _ _ => rfl⟩
  change minMtu ≤ if mtu ≤ minMtu then minMtu else mtu
  split
  · exact UInt16.le_refl _
  · next h => exact (UInt16.le_total minMtu mtu).resolve_right h

/-- An address is owned by a connection of the size that is noted for the peer. -/
theorem size_of_owner {e : Endpoint} (ho : e.Owned count) {a : Address} {id : ConnectionId}
    {m : UInt16} (h : e.terms a = some (id, m)) : ∃ n, e.size id = some n := by
  have howner : e.owner a = some id := by rw [owner_eq, h]; rfl
  obtain ⟨c, hc, -⟩ := Option.map_eq_some_iff.mp (ho.owner a id howner).1
  exact ⟨c.mtu, by rw [Endpoint.size, hc]; rfl⟩

/-- Where no connection is opened, none gets another size. -/
theorem settled (h : t.Honest) {d : Endpoint} (hd : d.Owned count) (hs : t.endpoint.Settled d) :
    Honest ⟨d, t.told⟩ := by
  refine ⟨?_, fun id m hm => ?_, fun id m hm => ?_, fun a id m hm => ?_, fun id hid => ?_⟩
  · rw [hs.mtu]
    exact h.least
  · rw [hs.mtu]
    exact h.bounds id m hm
  · exact h.size id m (hs.size id m hm)
  · obtain ⟨n, hn⟩ := size_of_owner hd hm
    have hm := h.terms a id m (hs.terms a (id, m) hm)
    rw [← Option.some.inj ((hs.size id n hn).symm.trans hm)]
    exact hn
  · exact h.fresh id (hs.nextId ▸ hid)

/-- A client may be told another size, once it has a connection. -/
theorem again (h : t.Honest) (ho : t.endpoint.Owned count) (a : Address) (wanted : UInt16) :
    Honest ⟨t.endpoint, fun j => t.told j ++
      if t.endpoint.owner a = some j then [t.endpoint.granted wanted] else []⟩ := by
  refine ⟨h.least, fun j m hm => ?_, fun j m hm => ?_, h.terms, fun j hj => ?_⟩
  · obtain hm | hm := List.mem_append.mp hm
    · exact h.bounds j m hm
    · rw [List.mem_singleton.mp (List.mem_ite_nil_right.mp hm).2]
      exact granted_bounds h.least wanted
  · rw [List.head?_append, h.size j m hm, Option.some_or]
  · have hother : t.endpoint.owner a ≠ some j := by
      intro heq
      exact Nat.not_lt_of_le hj (ho.fresh j a (ho.owner a j heq).1)
    simp [h.fresh j hj, hother]

theorem opened (h : t.Honest) (ho : t.endpoint.Owned count) (few : count + 2 < UInt64.size)
    {d : Endpoint} {a : Address} {m : UInt16} (nextId : d.nextId = t.endpoint.nextId + 1)
    (mtu : d.mtu = t.endpoint.mtu) (bounds : minMtu ≤ m ∧ m ≤ t.endpoint.mtu)
    (terms : ∀ b, d.terms b = if b = a then some (⟨t.endpoint.nextId⟩, m) else t.endpoint.terms b)
    (size : ∀ j, d.size j = if j = ⟨t.endpoint.nextId⟩ then some m else t.endpoint.size j) :
    Honest ⟨d, fun j => t.told j ++ if d.owner a = some j then [m] else []⟩ := by
  have howner : d.owner a = some ⟨t.endpoint.nextId⟩ := by
    rw [owner_eq, terms, if_pos rfl]
    rfl
  have hnew : t.told ⟨t.endpoint.nextId⟩ = [] := h.fresh _ (Nat.le_refl _)
  have hnext : d.nextId.toNat = t.endpoint.nextId.toNat + 1 := ho.nextId_succ few nextId
  simp only [howner]
  refine ⟨mtu ▸ h.least, fun j n hn => ?_, fun j n hn => ?_, fun b j n hn => ?_, fun j hj => ?_⟩
  · rw [mtu]
    obtain hn | hn := List.mem_append.mp hn
    · exact h.bounds j n hn
    · rw [List.mem_singleton.mp (List.mem_ite_nil_right.mp hn).2]
      exact bounds
  · rw [size] at hn
    split at hn
    · next hj => simpa [hj, hnew] using hn
    · rw [List.head?_append, h.size j n hn, Option.some_or]
  · rw [terms] at hn
    split at hn
    · obtain ⟨rfl, rfl⟩ := Prod.mk.inj (Option.some.inj hn)
      rw [size, if_pos rfl]
    · have hfresh : j ≠ ⟨t.endpoint.nextId⟩ := by
        intro heq
        have hb : t.endpoint.owner b = some j := by rw [owner_eq, hn]; rfl
        have hlt := ho.fresh j b (ho.owner b j hb).1
        rw [heq] at hlt
        exact Nat.lt_irrefl _ hlt
      rw [size, if_neg hfresh]
      exact h.terms b j n hn
  · have hlt : t.endpoint.nextId.toNat < j.value.toNat := by
      rw [hnext] at hj
      exact hj
    have hother : j ≠ ⟨t.endpoint.nextId⟩ := by
      rintro rfl
      exact Nat.lt_irrefl _ hlt
    simp [h.fresh j (Nat.le_of_lt hlt), Ne.symm hother]

theorem next (h : t.Honest) (ho : t.endpoint.Owned count) (few : count + 2 < UInt64.size)
    (i : Incident) : (t.next i).Honest := by
  have hd : (t.endpoint.next i).Owned (count + 1) := ho.change few (t.endpoint.change_next i)
  have hanswer := t.endpoint.answer_next i
  unfold Talk.next
  cases htells : t.endpoint.tells i with
  | none =>
    rw [htells] at hanswer
    cases hanswer with
    | none settled => simpa using h.settled hd settled
  | some am =>
    rw [htells] at hanswer
    cases hanswer with
    | again a wanted same id owner =>
      simp only [same]
      exact h.again ho a wanted
    | opened a wanted nextId mtu terms size =>
      exact h.opened ho few nextId mtu (granted_bounds h.least wanted) terms size

theorem after (h : t.Honest) (ho : t.endpoint.Owned count) (is : List Incident)
    (few : count + is.length + 1 < UInt64.size) : (t.after is).Honest := by
  induction is generalizing t count with
  | nil => exact h
  | cons i is ih =>
    rw [List.length_cons] at few
    have hi : (t.next i).endpoint.Owned (count + 1) :=
      ho.change (by omega) (t.endpoint.change_next i)
    exact ih (h.next ho (by omega) i) hi (by omega)

end Honest

/-- Who is told a size has a connection then, and the size counts as the last one told for it. -/
theorem owner_of_tells (t : Talk) {i : Incident} {a : Address} {m : UInt16}
    (h : t.endpoint.tells i = some (a, m)) :
    ∃ id, (t.next i).endpoint.owner a = some id ∧ ((t.next i).told id).getLast? = some m := by
  have hanswer := t.endpoint.answer_next i
  have howner : ∃ id, (t.endpoint.next i).owner a = some id := by
    rw [h] at hanswer
    cases hanswer with
    | again _ wanted same id owner => exact ⟨id, by rw [same]; exact owner⟩
    | opened _ wanted nextId mtu terms size =>
      exact ⟨_, by rw [owner_eq, terms, if_pos rfl]; rfl⟩
  obtain ⟨id, hid⟩ := howner
  refine ⟨id, hid, ?_⟩
  simp [next, h, hid]

/-- A client that has asked for a connection of a size. -/
def ask (a : Address) (size : UInt16) : Incident := .arrive none 0 a (openRequest size)

/-- The size of a connection is the one that was told when it was opened. Its datagrams fit the size
that has been told last if and only if that is not smaller. -/
theorem keeps_first_size (guid : UInt64) (mtu : UInt16) (z : Compression) (is : List Incident)
    (few : is.length + 1 < UInt64.size) :
    let t := Talk.after { endpoint := listen guid mtu z } is
    (∀ i a m, t.endpoint.tells i = some (a, m) →
      ∃ id, (t.next i).endpoint.owner a = some id ∧ ((t.next i).told id).getLast? = some m) ∧
    (∀ a p, t.endpoint.peers.get? a = some p →
      ∃ c, t.endpoint.connections.get? p.connection = some c ∧ c.address = a ∧ c.mtu = p.mtu) ∧
    ∀ id c, t.endpoint.connections.get? id = some c →
      (∀ m ∈ t.told id, minMtu ≤ m ∧ m ≤ max mtu minMtu) ∧
      ∃ first last, (t.told id).head? = some first ∧ (t.told id).getLast? = some last ∧
        c.mtu = first ∧ (c.closed = false → (c.Fits last ↔ first ≤ last)) := by
  intro t
  have ho : (listen guid mtu z).Owned 0 := .listen guid mtu z
  have h : t.Honest := (Honest.listen guid mtu z).after ho is (by omega)
  have hmtu : t.endpoint.mtu = max mtu minMtu := by
    rw [endpoint_after]
    exact mtu_after (listen guid mtu z) is
  have howned : t.endpoint.Owned (0 + is.length) := by
    rw [endpoint_after]
    exact ho.after is (by omega)
  clear_value t
  refine ⟨fun i a m => t.owner_of_tells, fun a p hp => ?_, fun id c hc => ?_⟩
  · have howner : t.endpoint.owner a = some p.connection := by rw [owner, hp]; rfl
    have hterms : t.endpoint.terms a = some (p.connection, p.mtu) := by rw [terms, hp]; rfl
    obtain ⟨c, hc, hsize⟩ := Option.map_eq_some_iff.mp (h.terms a _ _ hterms)
    obtain ⟨d, hd, hhome⟩ := Option.map_eq_some_iff.mp (howned.owner a _ howner).1
    obtain rfl : c = d := Option.some.inj (hc.symm.trans hd)
    exact ⟨c, hc, hhome, hsize⟩
  · have hhead : (t.told id).head? = some c.mtu := h.size id c.mtu (by rw [size, hc]; rfl)
    have hbounds := h.bounds id
    rw [hmtu] at hbounds
    obtain ⟨last, hlast⟩ : ∃ last, (t.told id).getLast? = some last := by
      cases htold : t.told id with
      | nil => rw [htold] at hhead; cases hhead
      | cons m ms => exact ⟨_, List.getLast?_cons⟩
    refine ⟨hbounds, c.mtu, last, hhead, hlast, rfl, fun hopen => ?_⟩
    exact Connection.fits_iff hopen (hbounds c.mtu (List.mem_of_mem_head? hhead)).1 last

/-- One client has asked again for less than it got, another one for more. -/
theorem keeps_first_size_of_two :
    let is := [knock "a", .accept, ask "a" minMtu, ask "b" minMtu, ask "b" defaultMtu]
    let t := Talk.after { endpoint := listen 0 defaultMtu } is
    is.length + 1 < UInt64.size ∧ t.told ⟨1⟩ = [1400, 576] ∧ t.told ⟨2⟩ = [576, 1400] ∧
      ∃ c d, t.endpoint.connections.get? ⟨1⟩ = some c ∧ t.endpoint.connections.get? ⟨2⟩ = some d ∧
        ¬ c.Fits 576 ∧ d.Fits 1400 := by
  intro is t
  have few : is.length + 1 < UInt64.size := by decide
  have hc : t.told ⟨1⟩ = [1400, 576] := by decide
  have hd : t.told ⟨2⟩ = [576, 1400] := by decide
  obtain ⟨c, hgetc, hopenc⟩ : ∃ c, t.endpoint.connections.get? ⟨1⟩ = some c ∧ c.closed = false :=
    ⟨_, rfl, rfl⟩
  obtain ⟨d, hgetd, hopend⟩ : ∃ d, t.endpoint.connections.get? ⟨2⟩ = some d ∧ d.closed = false :=
    ⟨_, rfl, rfl⟩
  have hsizes := (keeps_first_size 0 defaultMtu .bare is few).2.2
  refine ⟨few, hc, hd, c, d, hgetc, hgetd, ?_, ?_⟩
  · obtain ⟨-, first, last, hfirst, hlast, -, hfits⟩ := hsizes ⟨1⟩ c hgetc
    obtain rfl : 1400 = first := Option.some.inj ((congrArg List.head? hc).symm.trans hfirst)
    obtain rfl : 576 = last := Option.some.inj ((congrArg List.getLast? hc).symm.trans hlast)
    rw [hfits hopenc]
    decide
  · obtain ⟨-, first, last, hfirst, hlast, -, hfits⟩ := hsizes ⟨2⟩ d hgetd
    obtain rfl : 576 = first := Option.some.inj ((congrArg List.head? hd).symm.trans hfirst)
    obtain rfl : 1400 = last := Option.some.inj ((congrArg List.getLast? hd).symm.trans hlast)
    rw [hfits hopend]
    decide

/-- A client that has its connection asks again, for less. It is told the smaller size, but the
connection has the larger one still, and sends what does not fit. -/
theorem smaller_size_told :
    let t := Talk.after { endpoint := listen 0 defaultMtu } [knock "a", .accept, ask "a" minMtu]
    t.endpoint.owner "a" = some ⟨1⟩ ∧ t.told ⟨1⟩ = [1400, minMtu] ∧ t.endpoint.size ⟨1⟩ = some 1400 ∧
      ∃ f, (t.endpoint.send ⟨1⟩ (List.replicate 600 0)).1 = .ok [f] ∧
        minMtu.toNat < f.encode.length + networkOverhead := by
  intro t
  let p : Bytes := List.replicate 600 0
  let c : Connection := { id := ⟨1⟩, address := "a", mtu := 1400, nextSplit := 0 }
  have hc : t.endpoint.connections.get? ⟨1⟩ = some c := rfl
  have hsend := Connection.send_of_short (c := c) (p := p) rfl (by
    change p.length ≤ c.maxPayload
    rw [List.length_replicate]
    decide)
  refine ⟨by decide, by decide, by decide, ⟨0, 0, 0, 1, p⟩, ?_, ?_⟩
  · simp only [Endpoint.send, hc]
    exact congrArg Prod.fst hsend
  · rw [Fragment.length_encode, List.length_replicate]
    decide

end Talk
end Datagram
end EditionGateway
