import ClickMobileIP.System.Network

/-! # Agreement of the mobile node and its home agent

When neither the home agent nor the node processes a message of an older request after
one of a newer, both agree as soon as the network is empty. The invariant says what the
last served request and the last accepted reply have to do with the binding, the node
and the packets in flight.
-/
namespace ClickMobileIP.System
open EventRun
open RegistrationRequestSource (newReq requestPacket makePacket accept)

section Invariant
variable {ι : Type}

/-- The node and its home agent agree about where the node is. -/
def Agree (T : Topology ι) (s : State ι) : Prop :=
  (s.node.home = false → ∃ entry, (s.agents T.home).table T.node = some entry ∧
    entry.mobileNodeCoa = s.node.currCoa) ∧
  (s.node.home = true → (s.agents T.home).table T.node = none)

def Topology.registrant (T : Topology ι) : Registrant := ⟨T.node,T.publicAddr T.home,T.privateAddr T.home⟩

/-- A request on its way to the agent the node sent it to, or to the home agent. -/
def RequestInFlight (T : Topology ι) (r : Request) (p : Packet) : Prop :=
  Asks T.registrant r p ∧ (p.ip.ipDst = r.ipDst ∧ p.ip.ipSrc = T.node ∨
    p.ip.ipDst = T.publicAddr T.home ∧ ∃ i, p.ip.ipSrc = T.publicAddr i)

/-- An accepting reply on its way to the node, or to the agent that relayed the request. -/
def ReplyInFlight (T : Topology ι) (r : Request) (p : Packet) : Prop :=
  Grants T.registrant r p ∧ (p.ip.ipDst = T.node ∨ ∃ i, p.ip.ipDst = T.publicAddr i)

def Lawful (T : Topology ι) (s : State ι) (log : List Note) (p : Packet) : Prop :=
  (∃ r ∈ s.node.currentRequests, RequestInFlight T r p) ∨
    (∃ j r, s.node.currentRequests[j]? = some r ∧ ReplyInFlight T r p ∧ Served log j) ∨
    (Denies p ∧ p.ip.ipDst = T.node)

/-- The node has sent a deregistration after request `m`, and the home agent will serve
it or has done so. -/
def Leaving (T : Topology ι) (s : State ι) (log : List Note) (m : ℕ) : Prop :=
  ∃ d q, m < d ∧ s.node.currentRequests[d]? = some q ∧
    ((∃ p ∈ s.network, Asks T.registrant q p ∧ p.ip.ipDst = T.privateAddr T.home) ∨ Served log d)

/-- What the last served request and the last accepted reply say about the binding, the
node and the network. -/
structure Inv (T : Topology ι) (s : State ι) (log : List Note) : Prop where
  node : registrant s.node = T.registrant
  agents : ∀ i, (s.agents i).publicAddr = T.publicAddr i ∧ (s.agents i).privateAddr = T.privateAddr i
  records : ∀ r ∈ s.node.currentRequests, ∃ i, r.ipDst = T.privateAddr i
  flight : ∀ p ∈ s.network, Lawful T s log p
  binding : (s.agents T.home).table T.node =
    (lastServed log).bind (fun h => s.node.currentRequests[h]?.bind (bindingOf T.registrant))
  served : ∀ h, lastServed log = some h → h < s.node.currentRequests.length
  accepted : ∀ m, lastAccepted log = some m → Served log m
  answer : ∀ h r, lastServed log = some h → s.node.currentRequests[h]? = some r →
    lastAccepted log = some h ∨ ∃ p ∈ s.network, ReplyInFlight T r p
  home : s.node.home = true ↔ ∀ m r, lastAccepted log = some m →
    s.node.currentRequests[m]? = some r → T.registrant.lifetime r = 0
  careOf : s.node.home = false → ∀ m r, lastAccepted log = some m →
    s.node.currentRequests[m]? = some r → s.node.currCoa = r.coa ∨ Leaving T s log m

theorem inv_initial (T : Topology ι) (lifetimeReg : ι → ℤ) : Inv T (initial T lifetimeReg) [] := by
  refine ⟨rfl,fun i => ⟨rfl,rfl⟩,?_,?_,rfl,?_,?_,?_,?_,?_⟩
  · intro r hr
    cases hr
  · intro p hp
    cases hp
  · intro h hh
    cases hh
  · intro m hm
    cases hm
  · intro h r hh
    cases hh
  · refine ⟨fun _ m r hm => ?_,fun _ => rfl⟩
    cases hm
  · intro haway
    cases haway

theorem Inv.agree {T : Topology ι} {s : State ι} {log : List Note} (hs : Inv T s log) (hquiet : s.network = []) :
    Agree T s := by
  have hnone : ∀ p, p ∉ s.network := fun p hp => by rw [hquiet] at hp; cases hp
  have hlast : ∀ h, lastServed log = some h → lastAccepted log = some h := by
    intro h hh
    obtain ⟨r,hr⟩ : ∃ r, s.node.currentRequests[h]? = some r := ⟨_,List.getElem?_eq_getElem (hs.served h hh)⟩
    rcases hs.answer h r hh hr with ha | ⟨p,hp,-⟩
    · exact ha
    · exact absurd hp (hnone p)
  constructor
  · intro haway
    have hnot : ¬∀ m r, lastAccepted log = some m → s.node.currentRequests[m]? = some r →
        T.registrant.lifetime r = 0 := fun h => Bool.false_ne_true (haway.symm.trans (hs.home.mpr h))
    push Not at hnot
    obtain ⟨m,r,hm,hr,hlife⟩ := hnot
    obtain ⟨h,hh,-⟩ := hs.accepted m hm
    have hmh : m = h := Option.some.inj (hm.symm.trans (hlast h hh))
    subst hmh
    refine ⟨⟨T.registrant.address,r.coa,T.registrant.lifetime r,r.id1,r.id2⟩,?_,?_⟩
    · rw [hs.binding,hh,Option.bind_some,hr,Option.bind_some,bindingOf,if_neg hlife]
    · rcases hs.careOf haway m r hm hr with hcoa | ⟨d,q,hd,-,⟨p,hp,-⟩ | ⟨k,hk,hdk⟩⟩
      · exact hcoa.symm
      · exact absurd hp (hnone p)
      · have hkm : k = m := Option.some.inj (hk.symm.trans hh)
        omega
  · intro hhome
    rw [hs.binding]
    cases hh : lastServed log with
    | none => rfl
    | some h =>
      have hlt := hs.served h hh
      have hzero := hs.home.mp hhome h _ (hlast h hh) (List.getElem?_eq_getElem hlt)
      rw [Option.bind_some,List.getElem?_eq_getElem hlt,Option.bind_some,bindingOf,if_pos hzero]

theorem mem_eraseIdx_or {α : Type} {l : List α} {a b : α} {k : ℕ} (ha : l[k]? = some a) (hb : b ∈ l) :
    b = a ∨ b ∈ l.eraseIdx k := by
  obtain ⟨i,hi⟩ := List.mem_iff_getElem?.mp hb
  by_cases hik : i = k
  · rw [hik,ha] at hi
    exact Or.inl (Option.some.inj hi).symm
  · exact Or.inr (List.mem_eraseIdx_iff_getElem?.mpr ⟨i,hik,hi⟩)

theorem Lawful.mono {T : Topology ι} {s t : State ι} {log log' : List Note} {p : Packet} (h : Lawful T s log p)
    (hrecords : ∀ (d : ℕ) q, s.node.currentRequests[d]? = some q → t.node.currentRequests[d]? = some q)
    (hserved : ∀ d, Served log d → Served log' d) : Lawful T t log' p := by
  rcases h with ⟨r,hr,hrequest⟩ | ⟨j,r,hr,hreply,hj⟩ | hdenial
  · obtain ⟨j,hj⟩ := List.mem_iff_getElem?.mp hr
    exact Or.inl ⟨r,List.mem_of_getElem? (hrecords j r hj),hrequest⟩
  · exact Or.inr (Or.inl ⟨j,r,hrecords j r hr,hreply,hserved j hj⟩)
  · exact Or.inr (Or.inr hdenial)

/-- A deregistration stays under way as long as its packet does, or is served. -/
theorem Leaving.mono {T : Topology ι} {s t : State ι} {log log' : List Note} {m : ℕ} (h : Leaving T s log m)
    (hrecords : ∀ (d : ℕ) q, s.node.currentRequests[d]? = some q → t.node.currentRequests[d]? = some q)
    (hflight : ∀ (d : ℕ) q, s.node.currentRequests[d]? = some q → ∀ p ∈ s.network, Asks T.registrant q p →
      p.ip.ipDst = T.privateAddr T.home → p ∈ t.network ∨ Served log' d)
    (hserved : ∀ d, Served log d → Served log' d) : Leaving T t log' m := by
  obtain ⟨d,q,hd,hq,⟨p,hp,hasks,hdst⟩ | hdone⟩ := h
  · rcases hflight d q hq p hp hasks hdst with hp | hdone
    · exact ⟨d,q,hd,hrecords d q hq,Or.inl ⟨p,hp,hasks,hdst⟩⟩
    · exact ⟨d,q,hd,hrecords d q hq,Or.inr hdone⟩
  · exact ⟨d,q,hd,hrecords d q hq,Or.inr (hserved d hdone)⟩

/-- Packets come and go while the node and the bindings stay as they are: nothing
unlawful appears, no reply is lost and no deregistration disappears before it is served. -/
theorem Inv.reroute {T : Topology ι} {s : State ι} {log : List Note} {agents : ι → AgentBase}
    {network : List Packet} (hs : Inv T s log)
    (haddr : ∀ i, (agents i).publicAddr = (s.agents i).publicAddr ∧
      (agents i).privateAddr = (s.agents i).privateAddr)
    (htable : (agents T.home).table = (s.agents T.home).table)
    (hlawful : ∀ q ∈ network, Lawful T s log q)
    (hreply : ∀ r, ∀ p ∈ s.network, ReplyInFlight T r p → ∃ q ∈ network, ReplyInFlight T r q)
    (hasks : ∀ r, ∀ p ∈ s.network, Asks T.registrant r p → p.ip.ipDst = T.privateAddr T.home → p ∈ network) :
    Inv T { s with agents := agents, network := network } log where
  node := hs.node
  agents i := by
    obtain ⟨hpub,hpriv⟩ := haddr i
    exact ⟨hpub.trans (hs.agents i).1,hpriv.trans (hs.agents i).2⟩
  records := hs.records
  flight := hlawful
  binding := (congrFun htable T.node).trans hs.binding
  served := hs.served
  accepted := hs.accepted
  answer h r hh hr := by
    rcases hs.answer h r hh hr with hanswered | ⟨p,hp,hgrants⟩
    · exact Or.inl hanswered
    · exact Or.inr (hreply r p hp hgrants)
  home := hs.home
  careOf haway m r hm hr := by
    rcases hs.careOf haway m r hm hr with hcoa | hleaving
    · exact Or.inl hcoa
    · exact Or.inr (hleaving.mono (fun _ _ hq => hq)
        (fun _ q _ p hp hq hdst => Or.inl (hasks q p hp hq hdst)) (fun _ hd => hd))

/-- One packet is taken out of the network and others are put in its place. -/
theorem Inv.replace {T : Topology ι} {s : State ι} {log : List Note} {k : ℕ} {p : Packet} {more : List Packet}
    {agents : ι → AgentBase} (hs : Inv T s log) (hp : s.network[k]? = some p)
    (haddr : ∀ i, (agents i).publicAddr = (s.agents i).publicAddr ∧
      (agents i).privateAddr = (s.agents i).privateAddr)
    (htable : (agents T.home).table = (s.agents T.home).table)
    (hmore : ∀ q ∈ more, Lawful T s log q)
    (hreply : ∀ r, ReplyInFlight T r p → ∃ q ∈ more, ReplyInFlight T r q)
    (hasks : ∀ r, ¬(Asks T.registrant r p ∧ p.ip.ipDst = T.privateAddr T.home)) :
    Inv T { s with agents := agents, network := s.network.eraseIdx k ++ more } log := by
  refine hs.reroute haddr htable ?_ ?_ ?_
  · intro q hq
    rcases List.mem_append.mp hq with hq | hq
    · exact hs.flight q (List.mem_of_mem_eraseIdx hq)
    · exact hmore q hq
  · intro r q hq hgrants
    rcases mem_eraseIdx_or hp hq with rfl | hq
    · obtain ⟨q',hq',hgrants'⟩ := hreply r hgrants
      exact ⟨q',List.mem_append_right _ hq',hgrants'⟩
    · exact ⟨q,List.mem_append_left _ hq,hgrants⟩
  · intro r q hq hask hdst
    rcases mem_eraseIdx_or hp hq with rfl | hq
    · exact absurd ⟨hask,hdst⟩ (hasks r)
    · exact List.mem_append_left _ hq

theorem Inv.accepted_lt {T : Topology ι} {s : State ι} {log : List Note} {m : ℕ} (hs : Inv T s log)
    (hm : lastAccepted log = some m) : m < s.node.currentRequests.length := by
  obtain ⟨h,hh,hle⟩ := hs.accepted m hm
  exact lt_of_le_of_lt hle (hs.served h hh)

/-- A new request is the newest record and is in flight; a deregistration moves the
care-of address at once. -/
theorem inv_makePacket {T : Topology ι} {s : State ι} {log : List Note} {d : Draw} {a : Advertisement} {i : ι}
    (hs : Inv T s log) (ha : a.privateAddr = T.privateAddr i) :
    Inv T { s with
      node := (makePacket d s.node a).1
      network := s.network ++ (makePacket d s.node a).2.map Emission.packet } log := by
  by_cases halloc : d.alloc = false
  · have hnothing : makePacket d s.node a = (s.node,[]) := by rw [makePacket,if_pos halloc]
    rw [hnothing]
    simp only [List.map_nil,List.append_nil]
    exact hs
  obtain ⟨t,hmake,hrecords,hsame,hhome,hcoa⟩ := makePacket_alloc (s := s.node) (a := a) (by simpa using halloc)
  have hnode := hs.node
  rw [hmake]
  have hpacket : RequestInFlight T (newReq d a) (requestPacket d s.node a) := by
    refine ⟨hnode ▸ asks_requestPacket d s.node a,Or.inl ⟨ipDst_requestPacket d s.node a,?_⟩⟩
    rw [ipSrc_requestPacket]
    exact congrArg Registrant.address hnode
  have hold : ∀ j, j < s.node.currentRequests.length →
      t.currentRequests[j]? = s.node.currentRequests[j]? := by
    intro j hj
    rw [hrecords,List.getElem?_append_left hj]
  have hkept : ∀ (j : ℕ) r, s.node.currentRequests[j]? = some r → t.currentRequests[j]? = some r := by
    intro j r hr
    rw [hold j (List.getElem?_eq_some_iff.mp hr).1]
    exact hr
  exact {
    node := hsame.trans hnode
    agents := hs.agents
    records := by
      intro r hr
      rcases List.mem_append.mp (hrecords ▸ hr) with hr | hr
      · exact hs.records r hr
      · rw [List.mem_singleton.mp hr]
        exact ⟨i,ha⟩
    flight := by
      intro p hp
      rcases List.mem_append.mp hp with hp | hp
      · exact (hs.flight p hp).mono hkept (fun _ hd => hd)
      · refine Or.inl ⟨newReq d a,hrecords ▸ List.mem_append_right _ (List.mem_singleton.mpr rfl),?_⟩
        rw [List.mem_singleton.mp hp]
        exact hpacket
    binding := by
      rw [hs.binding]
      cases hh : lastServed log with
      | none => rfl
      | some h => rw [Option.bind_some,Option.bind_some,hold h (hs.served h hh)]
    served := by
      intro h hh
      dsimp only
      rw [hrecords,List.length_append]
      exact Nat.lt_add_right _ (hs.served h hh)
    accepted := hs.accepted
    answer := by
      intro h r hh hr
      rcases hs.answer h r hh ((hold h (hs.served h hh)).symm.trans hr) with hanswered | ⟨p,hp,hreply⟩
      · exact Or.inl hanswered
      · exact Or.inr ⟨p,List.mem_append_left _ hp,hreply⟩
    home := by
      dsimp only
      rw [hhome,hs.home]
      constructor
      · intro hzero m r hm hr
        exact hzero m r hm ((hold m (hs.accepted_lt hm)).symm.trans hr)
      · intro hzero m r hm hr
        exact hzero m r hm ((hold m (hs.accepted_lt hm)).trans hr)
    careOf := by
      intro haway m r hm hr
      dsimp only at haway hr ⊢
      by_cases hback : a.privateAddr = T.privateAddr T.home
      · refine Or.inr ⟨s.node.currentRequests.length,newReq d a,hs.accepted_lt hm,by rw [hrecords]; simp,
          Or.inl ⟨_,List.mem_append_right _ (List.mem_singleton.mpr rfl),hpacket.1,?_⟩⟩
        exact (ipDst_requestPacket d s.node a).trans hback
      · have hcurr : t.currCoa = s.node.currCoa := by
          refine hcoa (fun heq => hback (heq.trans ?_))
          exact congrArg Registrant.homePrivateAddr hnode
        rcases hs.careOf (hhome.symm.trans haway) m r hm ((hold m (hs.accepted_lt hm)).symm.trans hr) with
          hsame | hleaving
        · exact Or.inl (hcurr.trans hsame)
        · exact Or.inr (hleaving.mono hkept
            (fun _ _ _ p hp _ _ => Or.inl (List.mem_append_left _ hp)) (fun _ hd => hd)) }

end Invariant

section Steps
variable {ι : Type} {T : Topology ι} {s : State ι} {log : List Note} {k : ℕ} {p : Packet}

theorem inv_hear {i : ι} (adv : AgentAdvertiser) (draws : ℕ → Draw) (hs : Inv T s log) :
    Inv T { s with
      node := (AdvertisementsHandler.push draws s.node (adv.advertisementPacket (s.agents i))).node
      network := s.network ++ (AdvertisementsHandler.push draws s.node
        (adv.advertisementPacket (s.agents i))).sent.map Emission.packet } log := by
  have hprivate : (AdvertisementsHandler.decode (adv.advertisementPacket (s.agents i))).privateAddr =
      T.privateAddr i := by
    rw [AdvertisementsHandler.decode_advertisementPacket]
    exact (hs.agents i).2
  refine AdvertisementsHandler.push_preserves
    (P := fun x => Inv T { s with node := x.node, network := s.network ++ x.sent.map Emission.packet } log)
    ?_ ?_ ?_
  · intro x hx
    have hnext := inv_makePacket (d := draws x.calls) hx hprivate
    simp only [List.append_assoc,← List.map_append] at hnext
    exact hnext
  · intro x known hx
    exact ⟨hx.node,hx.agents,hx.records,hx.flight,hx.binding,hx.served,hx.accepted,hx.answer,hx.home,hx.careOf⟩
  · simpa using hs

theorem FreshIds.push_grants {r : Request} (hfresh : FreshIds s) (hgrants : Grants (registrant s.node) r p)
    (hr : r ∈ s.node.currentRequests) : RegistrationRequestSource.push s.node p = accept p s.node r := by
  obtain ⟨front,back,hrecords⟩ := List.append_of_mem hr
  refine System.push_grants hgrants hrecords ?_
  intro q hq heq
  rw [FreshIds,hrecords,List.map_append,List.map_cons,List.nodup_middle,List.nodup_cons] at hfresh
  refine hfresh.1 ?_
  rw [← List.map_append,List.mem_map]
  exact ⟨q,hq,by rw [heq.1,heq.2.1]⟩

theorem inv_accept {j : ℕ} {r : Request} (hs : Inv T s log) (hfresh : FreshIds s)
    (horder : InOrder (log ++ [.accepted j])) (hp : s.network[k]? = some p)
    (hr : s.node.currentRequests[j]? = some r) (hgrants : Grants T.registrant r p)
    (hserved : Served log j) :
    Inv T { s with
      node := RegistrationRequestSource.push s.node p
      network := s.network.eraseIdx k } (log ++ [.accepted j]) := by
  have hpush : RegistrationRequestSource.push s.node p = accept p s.node r :=
    hfresh.push_grants (hs.node ▸ hgrants) (List.mem_of_getElem? hr)
  have hkept : ∀ (d : ℕ) q, s.node.currentRequests[d]? = some q →
      (accept p s.node r).currentRequests[d]? = some q := by
    intro d q hq
    rw [currentRequests_accept]
    exact hq
  rw [hpush]
  exact {
    node := (registrant_accept p s.node r).trans hs.node
    agents := hs.agents
    records := by
      dsimp only
      rw [currentRequests_accept]
      exact hs.records
    flight := by
      intro q hq
      exact (hs.flight q (List.mem_of_mem_eraseIdx hq)).mono hkept (fun _ hd => served_append_accepted.mpr hd)
    binding := by
      dsimp only
      rw [currentRequests_accept,lastServed_append_accepted]
      exact hs.binding
    served := by
      dsimp only
      rw [currentRequests_accept,lastServed_append_accepted]
      exact hs.served
    accepted := by
      rw [lastAccepted_append_accepted]
      intro m hm
      cases hm
      exact served_append_accepted.mpr hserved
    answer := by
      dsimp only
      rw [currentRequests_accept,lastServed_append_accepted,lastAccepted_append_accepted]
      intro h' r' hh' hr'
      obtain ⟨h,hh,hjh⟩ := hserved
      have hhh : h' = h := Option.some.inj (hh'.symm.trans hh)
      rcases hs.answer h' r' hh' hr' with hanswered | ⟨q,hq,hreply⟩
      · have hle := horder.accepted_le hanswered
        exact Or.inl (congrArg some (by omega))
      · rcases mem_eraseIdx_or hp hq with rfl | hq
        · refine Or.inl (congrArg some (eq_of_fresh hfresh hr hr' ?_ ?_))
          · rw [← hgrants.id1,hreply.1.id1]
          · rw [← hgrants.id2,hreply.1.id2]
        · exact Or.inr ⟨q,hq,hreply⟩
    home := by
      dsimp only
      rw [home_accept,hgrants.lifetime,currentRequests_accept,lastAccepted_append_accepted]
      constructor
      · intro hzero m r' hm hr'
        cases hm
        rw [Option.some.inj (hr'.symm.trans hr)]
        exact hzero
      · intro hzero
        exact hzero j r rfl hr
    careOf := by
      dsimp only
      rw [currentRequests_accept,lastAccepted_append_accepted,currCoa_accept]
      intro _ m r' hm hr'
      cases hm
      rw [Option.some.inj (hr'.symm.trans hr)]
      exact Or.inl rfl }

theorem inv_deliver (hs : Inv T s log) (hfresh : FreshIds s) (hp : s.network[k]? = some p)
    (hdst : p.ip.ipDst = T.node) (horder : InOrder (log ++ acceptedNote s p)) :
    Inv T { s with
      node := RegistrationRequestSource.push s.node p
      network := s.network.eraseIdx k } (log ++ acceptedNote s p) := by
  rw [acceptedNote] at horder ⊢
  rcases hs.flight p (List.mem_of_getElem? hp) with ⟨r,hr,hasks,hroute⟩ | ⟨j,r,hr,hreply,hserved⟩ | ⟨hdenies,-⟩
  · rcases hroute with ⟨hagent,-⟩ | ⟨hagent,-⟩
    · obtain ⟨i,hi⟩ := hs.records r hr
      exact absurd (hdst.symm.trans (hagent.trans hi)) (T.node_ne_private i)
    · exact absurd (hdst.symm.trans hagent) (T.node_ne_public T.home)
  · have hgrants := hreply.1
    have hnumber : number s.node.currentRequests p.reply.id1 p.reply.id2 = j := by
      rw [hgrants.id1,hgrants.id2]
      exact number_of_fresh hfresh hr
    have haccepts : p.IsReply ∧ (p.reply.code = 0 ∨ p.reply.code = 1) := ⟨hgrants.isReply,Or.inl hgrants.code⟩
    rw [if_pos haccepts,hnumber] at horder ⊢
    exact inv_accept hs hfresh horder hp hr hgrants hserved
  · have hsilent : ¬(p.IsReply ∧ (p.reply.code = 0 ∨ p.reply.code = 1)) :=
      fun h => h.2.elim hdenies.2.1 hdenies.2.2
    have hinv : Inv T { s with network := s.network.eraseIdx k ++ [] } log :=
      hs.replace hp (fun i => ⟨rfl,rfl⟩) rfl (by simp) (fun r h => absurd h.1.code hdenies.2.1)
        (fun r h => not_isRequest_of_isReply hdenies.1 h.1.isRequest)
    rw [List.append_nil] at hinv
    rw [if_neg hsilent,List.append_nil,push_denies hdenies]
    exact hinv

theorem Inv.lifetime_duplicate {j : ℕ} {r : Request} {entry : HARegistrationEntry} (hs : Inv T s log)
    (hfresh : FreshIds s) (hr : s.node.currentRequests[j]? = some r)
    (hentry : (s.agents T.home).table T.node = some entry) (hid1 : entry.id1 = r.id1) (hid2 : entry.id2 = r.id2) :
    entry.lifetime = T.registrant.lifetime r := by
  rw [hs.binding] at hentry
  obtain ⟨h,-,hbound⟩ := Option.bind_eq_some_iff.mp hentry
  obtain ⟨q,hq,hbound⟩ := Option.bind_eq_some_iff.mp hbound
  rw [bindingOf] at hbound
  split at hbound
  · cases hbound
  · cases hbound
    have hhj : h = j := eq_of_fresh hfresh hq hr hid1 hid2
    rw [hhj,hr] at hq
    rw [Option.some.inj hq]

variable [DecidableEq ι]

/-- Changing one agent keeps what the invariant reads of the agents. -/
theorem update_agents {i : ι} {t : AgentBase}
    (hpub : t.publicAddr = (s.agents i).publicAddr) (hpriv : t.privateAddr = (s.agents i).privateAddr)
    (j : ι) : (Function.update s.agents i t j).publicAddr = (s.agents j).publicAddr ∧
      (Function.update s.agents i t j).privateAddr = (s.agents j).privateAddr := by
  by_cases hj : j = i
  · subst hj
    rw [Function.update_self]
    exact ⟨hpub,hpriv⟩
  · rw [Function.update_of_ne hj]
    exact ⟨rfl,rfl⟩

theorem inv_serve {j : ℕ} {r : Request} (hs : Inv T s log) (hfresh : FreshIds s)
    (horder : InOrder (log ++ [.served j])) (hp : s.network[k]? = some p)
    (hr : s.node.currentRequests[j]? = some r) (hrequest : RequestInFlight T r p) :
    ∃ t out, RegistrationRequestReply.push true (s.agents T.home) p = some (t,out) ∧
      Inv T { s with
        agents := Function.update s.agents T.home t
        network := s.network.eraseIdx k ++ out.map Emission.packet } (log ++ [.served j]) := by
  obtain ⟨hasks,hroute⟩ := hrequest
  obtain ⟨t,port,hpush,htable,-,hpub,hpriv⟩ := serve_asks (s := s.agents T.home) hasks (hs.agents T.home).1
    (fun entry => hs.lifetime_duplicate hfresh hr)
  refine ⟨t,_,hpush,?_⟩
  have hreply : ReplyInFlight T r (RegistrationRequestReply.makeReply p 0 (T.registrant.lifetime r)) := by
    refine ⟨grants_makeReply hasks,?_⟩
    rw [ipDst_makeReply]
    rcases hroute with ⟨-,hsrc⟩ | ⟨-,hsrc⟩
    · exact Or.inl hsrc
    · exact Or.inr hsrc
  exact {
    node := hs.node
    agents := by
      intro i
      obtain ⟨hsamePub,hsamePriv⟩ := update_agents hpub hpriv i
      exact ⟨hsamePub.trans (hs.agents i).1,hsamePriv.trans (hs.agents i).2⟩
    records := hs.records
    flight := by
      intro q hq
      rcases List.mem_append.mp hq with hq | hq
      · exact (hs.flight q (List.mem_of_mem_eraseIdx hq)).mono (fun _ _ h => h) (fun _ => horder.served_mono)
      · rw [List.map_cons,List.map_nil,List.mem_singleton] at hq
        subst hq
        exact Or.inr (Or.inl ⟨j,r,hr,hreply,served_self⟩)
    binding := by
      dsimp only
      rw [Function.update_self,lastServed_append_served,Option.bind_some,hr]
      exact htable
    served := by
      intro h hh
      rw [lastServed_append_served] at hh
      cases hh
      exact (List.getElem?_eq_some_iff.mp hr).1
    accepted := by
      intro m hm
      rw [lastAccepted_append_served] at hm
      exact horder.served_mono (hs.accepted m hm)
    answer := by
      intro h r' hh hr'
      rw [lastServed_append_served] at hh
      cases hh
      rw [Option.some.inj (hr'.symm.trans hr)]
      exact Or.inr ⟨_,List.mem_append_right _ (by simp),hreply⟩
    home := by
      rw [lastAccepted_append_served]
      exact hs.home
    careOf := by
      rw [lastAccepted_append_served]
      intro haway m r' hm hr'
      rcases hs.careOf haway m r' hm hr' with hcoa | hleaving
      · exact Or.inl hcoa
      · refine Or.inr (hleaving.mono (fun _ _ h => h) ?_ (fun _ => horder.served_mono))
        intro d q hq p' hp' hleave _
        rcases mem_eraseIdx_or hp hp' with rfl | hp'
        · have hdj : d = j := by
            refine eq_of_fresh hfresh hq hr ?_ ?_
            · rw [← hleave.id1,hasks.id1]
            · rw [← hleave.id2,hasks.id2]
          rw [hdj]
          exact Or.inr served_self
        · exact Or.inl (List.mem_append_left _ hp') }

theorem inv_relay {i : ι} {r : Request} (hs : Inv T s log) (hp : s.network[k]? = some p) (hi : i ≠ T.home)
    (hdst : p.ip.ipDst = T.publicAddr i ∨ p.ip.ipDst = T.privateAddr i) (hr : r ∈ s.node.currentRequests)
    (hrequest : RequestInFlight T r p) :
    Inv T { s with
      agents := Function.update s.agents i (ForeignAgentReqProcess.push true (s.agents i) p).1
      network := s.network.eraseIdx k ++
        (ForeignAgentReqProcess.push true (s.agents i) p).2.map Emission.packet } log := by
  obtain ⟨hasks,hroute⟩ := hrequest
  have hreq : p.IsRequest := hasks.isRequest
  have htable : ∀ t, (Function.update s.agents i t T.home).table = (s.agents T.home).table :=
    fun t => by rw [Function.update_of_ne (Ne.symm hi)]
  have hnoreply : ∀ r, ¬ReplyInFlight T r p :=
    fun r h => not_isRequest_of_isReply h.1.isReply hreq
  have hnohome : ∀ r, ¬(Asks T.registrant r p ∧ p.ip.ipDst = T.privateAddr T.home) := by
    rintro r ⟨-,hhome⟩
    rcases hdst with h | h
    · exact T.public_ne_private i T.home (h.symm.trans hhome)
    · exact hi (T.private_injective (h.symm.trans hhome))
  have hsrc : p.ip.ipSrc = T.node := by
    rcases hroute with ⟨-,hsrc⟩ | ⟨hhome,-⟩
    · exact hsrc
    · rcases hdst with h | h
      · exact absurd (T.public_injective (h.symm.trans hhome)) hi
      · exact absurd (hhome.symm.trans h) (T.public_ne_private T.home i)
  have hpushed := ForeignAgentReqProcess.push_pushed true (s.agents i) p
  generalize ForeignAgentReqProcess.push true (s.agents i) p = result at hpushed
  obtain ⟨t,out⟩ := result
  dsimp only at hpushed ⊢
  cases hpushed with
  | ignored h => exact absurd hreq h
  | denied h _ hout =>
    refine hs.replace hp (update_agents rfl rfl) (htable _) ?_ (fun r h => absurd h (hnoreply r)) hnohome
    rcases hout with rfl | ⟨code,hcode,rfl⟩
    · intro q hq
      cases hq
    · intro q hq
      rw [List.map_cons,List.map_nil,List.mem_singleton] at hq
      subst hq
      exact Or.inr (Or.inr ⟨denies_deny (s.agents i) p hcode,(ipDst_deny _ _ _).trans hsrc⟩)
  | relayed h =>
    refine hs.replace hp (update_agents rfl rfl) (htable _) ?_ (fun r h => absurd h (hnoreply r)) hnohome
    intro q hq
    rw [List.map_cons,List.map_nil,List.mem_singleton] at hq
    subst hq
    refine Or.inl ⟨r,hr,asks_relay (s.agents i) hasks,Or.inr ⟨?_,i,?_⟩⟩
    · rw [ipDst_relay,hasks.homeAgent]
      rfl
    · rw [ipSrc_relay]
      exact (hs.agents i).1

theorem inv_forward {i : ι} {j : ℕ} {r : Request} (uninit : UInt16) (hs : Inv T s log)
    (hp : s.network[k]? = some p) (hr : s.node.currentRequests[j]? = some r) (hreply : ReplyInFlight T r p)
    (hserved : Served log j) :
    Inv T { s with
      agents := Function.update s.agents i (ForeignAgentReplyProcess.settled uninit (s.agents i) p.reply)
      network := s.network.eraseIdx k ++ [ForeignAgentReplyProcess.forward (s.agents i) p] } log := by
  have hforward : ∀ r, ReplyInFlight T r p →
      ReplyInFlight T r (ForeignAgentReplyProcess.forward (s.agents i) p) := by
    intro r h
    refine ⟨grants_forward (s.agents i) h.1,Or.inl ?_⟩
    rw [ForeignAgent.ipDst_forward,h.1.homeAddr]
    rfl
  refine hs.replace hp (update_agents rfl rfl) ?_ ?_ ?_ ?_
  · by_cases hi : T.home = i
    · subst hi
      rw [Function.update_self]
      rfl
    · rw [Function.update_of_ne hi]
  · intro q hq
    rw [List.mem_singleton.mp hq]
    exact Or.inr (Or.inl ⟨j,r,hr,hforward r hreply,hserved⟩)
  · intro r' hreply'
    exact ⟨_,List.mem_singleton.mpr rfl,hforward r' hreply'⟩
  · rintro r' ⟨hasks,-⟩
    exact not_isRequest_of_isReply hreply.1.isReply hasks.isRequest

theorem inv_receive {i : ι} {uninit : UInt16} {agent : AgentBase} {sent : List Emission} (hs : Inv T s log)
    (hfresh : FreshIds s) (hp : s.network[k]? = some p)
    (hdst : p.ip.ipDst = T.publicAddr i ∨ p.ip.ipDst = T.privateAddr i)
    (hreceive : receive uninit (s.agents i) p = some (agent,sent))
    (horder : InOrder (log ++ servedNote s i p)) :
    Inv T { s with
      agents := Function.update s.agents i agent
      network := s.network.eraseIdx k ++ sent.map Emission.packet } (log ++ servedNote s i p) := by
  have hpub := (hs.agents i).1
  rw [servedNote] at horder ⊢
  rcases hs.flight p (List.mem_of_getElem? hp) with ⟨r,hr,hrequest⟩ | ⟨j,r,hr,hreply,hserved⟩ | ⟨-,hnode⟩
  · have hasks := hrequest.1
    by_cases hi : i = T.home
    · subst hi
      have hfilter : MobileIPFilter.push (s.agents T.home) p = some [⟨2,p⟩] := filter_home hasks hpub.symm
      obtain ⟨j,hj⟩ := List.mem_iff_getElem?.mp hr
      have hnumber : number s.node.currentRequests p.request.id1 p.request.id2 = j := by
        rw [hasks.id1,hasks.id2]
        exact number_of_fresh hfresh hj
      rw [if_pos hfilter,hnumber] at horder ⊢
      obtain ⟨t,o,hpush,hinv⟩ := inv_serve hs hfresh horder hp hj hrequest
      simp only [receive,hfilter,hpush,Option.some.injEq,Prod.mk.injEq] at hreceive
      rw [← hreceive.1,← hreceive.2]
      exact hinv
    · have hfilter : MobileIPFilter.push (s.agents i) p = some [⟨3,p⟩] :=
        filter_foreign hasks (fun h => hi (T.public_injective (hpub.symm.trans h.symm)))
      have hsilent : ¬MobileIPFilter.push (s.agents i) p = some [⟨2,p⟩] := by
        rw [hfilter]
        simp
      simp only [receive,hfilter,Option.some.injEq] at hreceive
      have hinv := inv_relay hs hp hi hdst hr hrequest
      rw [hreceive] at hinv
      rw [if_neg hsilent,List.append_nil]
      exact hinv
  · have hfilter : MobileIPFilter.push (s.agents i) p = some [⟨1,p⟩] := MobileIPFilter.push_reply hreply.1.isReply
    have hsilent : ¬MobileIPFilter.push (s.agents i) p = some [⟨2,p⟩] := by
      rw [hfilter]
      simp
    simp only [receive,hfilter,ForeignAgentReplyProcess.push_reply uninit hreply.1.isReply,Option.some.injEq,
      Prod.mk.injEq] at hreceive
    rw [if_neg hsilent,List.append_nil,← hreceive.1,← hreceive.2]
    exact inv_forward uninit hs hp hr hreply hserved
  · rcases hdst with h | h
    · exact absurd (hnode.symm.trans h) (T.node_ne_public i)
    · exact absurd (hnode.symm.trans h) (T.node_ne_private i)

theorem step_inv {e : Event ι} {t : State ι} {out : List Note} (hs : Inv T s log) (hfresh : FreshIds s)
    (hstep : step s e = some (t,out)) (horder : InOrder (log ++ out)) : Inv T t (log ++ out) := by
  cases stepped_of_step hstep with
  | heard i adv draws =>
    rw [List.append_nil]
    exact inv_hear adv draws hs
  | delivered k p hp hdst =>
    have hmy : s.node.myAddress = T.node := congrArg Registrant.address hs.node
    exact inv_deliver hs hfresh hp (hdst.trans hmy) horder
  | received k i uninit p agent sent hp hdst hreceive =>
    rw [(hs.agents i).1,(hs.agents i).2] at hdst
    exact inv_receive hs hfresh hp hdst hreceive horder
  | duplicated k p hp =>
    rw [List.append_nil]
    have hp := List.mem_of_getElem? hp
    refine hs.reroute (fun i => ⟨rfl,rfl⟩) rfl ?_ (fun r q hq h => ⟨q,List.mem_append_left _ hq,h⟩)
      (fun r q hq _ _ => List.mem_append_left _ hq)
    intro q hq
    rcases List.mem_append.mp hq with hq | hq
    · exact hs.flight q hq
    · rw [List.mem_singleton.mp hq]
      exact hs.flight p hp

end Steps

section Runs
variable {ι : Type} [DecidableEq ι]

theorem run_inv {T : Topology ι} {lifetimeReg : ι → ℤ} {es : List (Event ι)} {t : State ι} {log : List Note}
    (hrun : run step (initial T lifetimeReg) es = some (t,log)) (hfresh : FreshIds t) (horder : InOrder log) :
    Inv T t log := by
  have hinv := run_invariant (P := fun s log => FreshIds s → InOrder log → Inv T s log) (l := [])
    (fun s l e t out hs hstep hfresh horder =>
      have hbefore := hfresh.before (step_records hstep)
      step_inv (hs hbefore horder.left) hbefore hstep horder)
    (fun _ _ => inv_initial T lifetimeReg) hrun
  exact hinv hfresh horder

/-- In every run in which messages are not overtaken, whatever else the network does,
the node and its home agent agree once it has delivered everything. -/
theorem agree_of_inOrder {T : Topology ι} {lifetimeReg : ι → ℤ} {es : List (Event ι)} {t : State ι}
    {log : List Note} (hrun : run step (initial T lifetimeReg) es = some (t,log)) (hfresh : FreshIds t)
    (hquiet : t.network = []) (horder : InOrder log) : Agree T t :=
  (run_inv hrun hfresh horder).agree hquiet

def sampleTopology : Topology Bool where
  home := true
  publicAddr i := if i then 1 else 5
  privateAddr i := if i then 2 else 6
  node := 9
  public_injective := by unfold Function.Injective; decide
  private_injective := by unfold Function.Injective; decide
  public_ne_private := by decide
  node_ne_public := by decide
  node_ne_private := by decide

def sampleInitial : State Bool := initial sampleTopology (fun _ => 25)

def sampleAdv : AgentAdvertiser := ⟨true,true,30,4000,0⟩

/-- The node registers with the foreign agent; the forwarded reply is in the network
twice and was delivered once. -/
def sampleRegister : List (Event Bool) :=
  [.hear false sampleAdv (sampleDraw 1),.toAgent 0 false 0,.toAgent 0 true 0,.toAgent 0 false 0,.duplicate 0,.toNode 0]

theorem agree_of_inOrder_sample :
    ∃ t log, run step sampleInitial (sampleRegister ++ [.toNode 0]) = some (t,log) ∧ t.network = [] ∧
      t.node.home = false ∧ Agree sampleTopology t := by
  have hrest : (run step sampleInitial (sampleRegister ++ [.toNode 0])).any (fun r =>
      decide (FreshIds r.1 ∧ r.1.network = [] ∧ InOrder r.2 ∧ r.1.node.home = false)) = true := by
    decide +kernel
  obtain ⟨⟨t,log⟩,hrun,hrest⟩ := (Option.any_eq_true _ _).mp hrest
  obtain ⟨hfresh,hquiet,horder,haway⟩ := of_decide_eq_true hrest
  exact ⟨t,log,hrun,hquiet,haway,agree_of_inOrder hrun hfresh hquiet horder⟩

/-- The late copy of the first reply moves the node back after it deregistered. -/
theorem late_reply_moves_node_back :
    ¬∀ (es : List (Event Bool)) (t : State Bool) (log : List Note), run step sampleInitial es = some (t,log) →
      FreshIds t → t.network = [] → Agree sampleTopology t := by
  intro h
  have hrest : (run step sampleInitial
      (sampleRegister ++ [.hear true sampleAdv (sampleDraw 2),.toAgent 1 true 0,.toNode 1,.toNode 0])).any (fun r =>
      decide (FreshIds r.1 ∧ r.1.network = [] ∧ r.1.node.home = false ∧ (r.1.agents true).table 9 = none)) = true := by
    decide +kernel
  obtain ⟨⟨t,log⟩,hrun,hrest⟩ := (Option.any_eq_true _ _).mp hrest
  obtain ⟨hfresh,hquiet,haway,hnone⟩ := of_decide_eq_true hrest
  obtain ⟨entry,hentry,-⟩ := (h _ t log hrun hfresh hquiet).1 haway
  exact Option.some_ne_none entry (hentry.symm.trans hnone)

end Runs
end ClickMobileIP.System
