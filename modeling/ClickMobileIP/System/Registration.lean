import ClickMobileIP.System.Messages

/-! # Registration through a foreign agent and return home

One round starts with an advertisement and follows the packets through the elements of
the node and the agents, without loss and without a timer tick. `Packet::make`
succeeds in every element.
-/
namespace ClickMobileIP.System
open AdvertisementsHandler (decode discarded busy learn_elsewhere decode_advertisementPacket
  not_busy_advertisementPacket address_advertisementPacket)
open RegistrationRequestSource (newReq requestPacket makePacket accept)

section Sending
variable {draws : ℕ → Draw} {s : MobileNode} {p : Packet}

theorem makePacket_alloc {d : Draw} {a : Advertisement} (hd : d.alloc = true) :
    ∃ t, makePacket d s a = (t,[⟨0,requestPacket d s a⟩]) ∧
      t.currentRequests = s.currentRequests ++ [newReq d a] ∧ registrant t = registrant s ∧
      t.home = s.home ∧ (a.privateAddr ≠ s.homePrivateAddr → t.currCoa = s.currCoa) := by
  unfold makePacket
  rw [if_neg (by simp [hd])]
  dsimp only
  split
  · rename_i hback
    exact ⟨_,rfl,rfl,rfl,rfl,fun hne => absurd hback hne⟩
  · exact ⟨_,rfl,rfl,rfl,rfl,fun _ => rfl⟩

theorem push_moves (hdiscard : ¬discarded p) (hbusy : ¬busy p)
    (haddr : p.advertisement.address ≠ s.homePrivateAddr) (hcurr : s.currPrivateAddr ≠ (decode p).privateAddr)
    (hmove : s.home = true ∧ p.advertisement.address ≠ s.homePublicAddr ∨
      s.home = false ∧ s.connected = true ∧ p.advertisement.address = s.homePublicAddr)
    (hd : (draws 0).alloc = true) :
    ∃ t, AdvertisementsHandler.push draws s p = ⟨t,[⟨0,requestPacket (draws 0) s (decode p)⟩],1⟩ ∧
      t.currentRequests = s.currentRequests ++ [newReq (draws 0) (decode p)] ∧
      registrant t = registrant s := by
  obtain ⟨known,hlearn⟩ := learn_elsewhere draws hcurr
  obtain ⟨t,hmake,hrecords,hsame,-⟩ :=
    makePacket_alloc (s := { s with currentAdvertisements := known }) (a := decode p) hd
  refine ⟨t,?_,hrecords,hsame⟩
  simp only [AdvertisementsHandler.push,hdiscard,hbusy,haddr,↓reduceIte,ne_eq,not_false_eq_true,hlearn]
  rw [AdvertisementsHandler.register_moves draws hmove,AdvertisementsHandler.Activation.makePacket]
  dsimp only
  rw [hmake]
  rfl

end Sending

/-- One registration, hop by hop: the advertisement of the foreign agent, one request
of the node, its relay, the answer of the home agent and its relay. -/
def RegistrationRound (draws : ℕ → Draw) (uninit : UInt16) (adv : AgentAdvertiser) (node : MobileNode)
    (home foreign : AgentBase) (node' : MobileNode) (home' foreign' : AgentBase) : Prop :=
  ∃ p q r a f nodeSent foreignSent,
    (adv.createPacket true foreign).1 = some p ∧ AdvFilter.push p = [⟨1,p⟩] ∧
    AdvertisementsHandler.push draws node p = ⟨nodeSent,[⟨0,q⟩],1⟩ ∧
    q.ip.ipDst = foreign.privateAddr ∧ MobileIPFilter.push foreign q = some [⟨3,q⟩] ∧
    ForeignAgentReqProcess.push true foreign q = (foreignSent,[⟨1,r⟩]) ∧
    r.ip.ipDst = home.publicAddr ∧ MobileIPFilter.push home r = some [⟨2,r⟩] ∧
    RegistrationRequestReply.push true home r = some (home',[⟨0,a⟩]) ∧
    a.ip.ipDst = foreign.publicAddr ∧ MobileIPFilter.push foreignSent a = some [⟨1,a⟩] ∧
    ForeignAgentReplyProcess.push uninit foreignSent a = some (foreign',[⟨0,f⟩]) ∧
    f.ip.ipDst = node.myAddress ∧ RegistrationRequestSource.push nodeSent f = node'

/-- One deregistration: the advertisement of the home agent, one request of the node
and the answer on the home network. -/
def ReturnRound (draws : ℕ → Draw) (adv : AgentAdvertiser) (node : MobileNode) (home : AgentBase)
    (node' : MobileNode) (home' : AgentBase) : Prop :=
  ∃ p q a nodeSent,
    (adv.createPacket true home).1 = some p ∧ AdvFilter.push p = [⟨1,p⟩] ∧
    AdvertisementsHandler.push draws node p = ⟨nodeSent,[⟨0,q⟩],1⟩ ∧
    q.ip.ipDst = home.privateAddr ∧ MobileIPFilter.push home q = some [⟨2,q⟩] ∧
    RegistrationRequestReply.push true home q = some (home',[⟨1,a⟩]) ∧
    a.ip.ipDst = node.myAddress ∧ RegistrationRequestSource.push nodeSent a = node'

/-- The situation before a registration: the node is at home, the foreign agent has a
free slot, and the draw meets no pending entry, no record and no binding. -/
structure Ready (node : MobileNode) (home foreign : AgentBase) (d : Draw) : Prop where
  addresses : [home.publicAddr,home.privateAddr,foreign.publicAddr,foreign.privateAddr].Nodup
  homePublicAddr : node.homePublicAddr = home.publicAddr
  homePrivateAddr : node.homePrivateAddr = home.privateAddr
  lifetimeReg : 1 ≤ foreign.lifetimeReg ∧ foreign.lifetimeReg ≤ 65535
  atHome : node.home = true
  currPrivateAddr : node.currPrivateAddr = node.homePrivateAddr
  room : (foreign.registrationReq.length : ℤ) < foreign.maxRequests
  alloc : d.alloc = true
  pending : ∀ it ∈ foreign.registrationReq, ¬(it.id1 = d.netId1 ∧ it.id2 = d.netId2)
  records : ∀ q ∈ node.currentRequests, ¬(q.id1 = d.netId1 ∧ q.id2 = d.netId2 ∧ q.port = d.sport)
  binding : ∀ entry, home.table node.myAddress = some entry →
    ¬(entry.id1 = d.netId1 ∧ entry.id2 = d.netId2)

section Rounds
variable {draws : ℕ → Draw} {adv : AgentAdvertiser} {node : MobileNode} {home foreign : AgentBase}

theorem not_discarded_advertisementPacket (h : adv.ha = true) (agent : AgentBase) :
    ¬discarded (adv.advertisementPacket agent) := by
  rw [discarded,decode_advertisementPacket,h]
  exact fun hno => Bool.noConfusion hno.1

theorem htons_lifetimeReg_ne_zero {n : ℤ} (h : 1 ≤ n ∧ n ≤ 65535) : htons (toUInt16 n) ≠ 0 := by
  rw [ne_eq,htons_eq_zero]
  intro hzero
  have hn := AdvertisementsHandler.toNat_toUInt16 (n := n) ⟨by omega,h.2⟩
  rw [hzero] at hn
  have : (0 : ℤ) = n := hn
  omega

theorem admitted_asks {n : Registrant} {r : Request} {q : Packet} (h : Asks n r q)
    (hroom : (foreign.registrationReq.length : ℤ) < foreign.maxRequests)
    (hlife : ((ntohs (n.lifetime r)).toNat : ℤ) ≤ foreign.lifetimeReg) :
    ForeignAgentReqProcess.Admitted foreign q := by
  refine ⟨h.isRequest,?_⟩
  have hlong : ¬foreign.lifetimeReg < (ntohs (n.lifetime r)).toNat := not_lt.mpr hlife
  simp [ForeignAgentReqProcess.validatePacket,h.flags,h.lifetime,hlong,hroom.ne,hroom]

theorem settled_remember (uninit : UInt16) {n : Registrant} {r : Request} {q p : Packet} (hq : Asks n r q)
    (hp : Grants n r p) (hroom : (foreign.registrationReq.length : ℤ) < foreign.maxRequests)
    (hpending : ∀ it ∈ foreign.registrationReq, ¬(it.id1 = r.id1 ∧ it.id2 = r.id2)) :
    (ForeignAgentReplyProcess.settled uninit (ForeignAgentReqProcess.remember foreign q) p.reply).registrationReq =
        foreign.registrationReq ∧
      ∃ v, (ForeignAgentReplyProcess.settled uninit (ForeignAgentReqProcess.remember foreign q)
          p.reply).visitorMap.filter (fun v => v.ipSrc = n.address) = [v] ∧
        v.homeAgent = n.homePublicAddr ∧ v.id1 = r.id1 ∧ v.id2 = r.id2 := by
  have hold : ∀ it ∈ foreign.registrationReq, ForeignAgentReplyProcess.sameIds p.reply it = false := by
    intro it hit
    rw [← Bool.not_eq_true,ForeignAgentReplyProcess.sameIds,Bool.and_eq_true,beq_iff_eq,beq_iff_eq,hp.id1,hp.id2]
    exact hpending it hit
  have hnew : ForeignAgentReplyProcess.sameIds p.reply (ForeignAgentReqProcess.pendingItem q) = true := by
    simp [ForeignAgentReplyProcess.sameIds,ForeignAgentReqProcess.pendingItem,hp.id1,hp.id2,hq.id1,hq.id2]
  have hlist : (ForeignAgentReqProcess.remember foreign q).registrationReq =
      foreign.registrationReq ++ [ForeignAgentReqProcess.pendingItem q] := if_pos hroom
  have hfind : (ForeignAgentReqProcess.remember foreign q).registrationReq.find?
      (ForeignAgentReplyProcess.sameIds p.reply) = some (ForeignAgentReqProcess.pendingItem q) := by
    have hnone : foreign.registrationReq.find? (ForeignAgentReplyProcess.sameIds p.reply) = none :=
      List.find?_eq_none.mpr (fun it hit => by simp [hold it hit])
    rw [hlist,List.find?_append,hnone,Option.none_or,List.find?_cons_of_pos hnew]
  constructor
  · simp only [ForeignAgentReplyProcess.settled,hlist]
    rw [List.eraseP_append_right _ (fun it hit => by simp [hold it hit]),List.eraseP_cons_of_pos hnew,
      List.append_nil]
  · have haccept : p.reply.code = 0 ∨ p.reply.code = 1 := Or.inl hp.code
    have hsrc : (ForeignAgentReqProcess.pendingItem q).ipSrc = n.address := hq.homeAddr
    refine ⟨ForeignAgentReplyProcess.visitorItem uninit (ForeignAgentReqProcess.pendingItem q) p.reply,
      ?_,hq.homeAgent,hq.id1,hq.id2⟩
    simp only [ForeignAgentReplyProcess.settled,haccept,↓reduceIte,hfind,hsrc]
    have hgone : ((ForeignAgentReqProcess.remember foreign q).visitorMap.filter
        (fun v => v.ipSrc ≠ n.address)).filter (fun v => v.ipSrc = n.address) = [] := by
      rw [List.filter_filter,List.filter_eq_nil_iff]
      intro v _
      simp
    rw [List.filter_append,hgone,List.nil_append]
    simp [ForeignAgentReplyProcess.visitorItem,hsrc]

structure Registered (node : MobileNode) (home foreign : AgentBase) (d : Draw) (node' : MobileNode)
    (home' foreign' : AgentBase) : Prop where
  binding : home'.table node.myAddress =
    some ⟨node.myAddress,foreign.publicAddr,htons (toUInt16 foreign.lifetimeReg),d.netId1,d.netId2⟩
  visitor : ∃ v, foreign'.visitorMap.filter (fun v => v.ipSrc = node.myAddress) = [v] ∧
    v.homeAgent = home.publicAddr ∧ v.id1 = d.netId1 ∧ v.id2 = d.netId2
  pending : foreign'.registrationReq = foreign.registrationReq
  away : node'.home = false
  connected : node'.connected = true
  currPrivateAddr : node'.currPrivateAddr = foreign.privateAddr
  currCoa : node'.currCoa = foreign.publicAddr
  remaining : node'.remainingConnectionTime = htons (toUInt16 foreign.lifetimeReg)
  records : ∃ q, q.id1 = d.netId1 ∧ q.id2 = d.netId2 ∧ q.port = d.sport ∧
    node'.currentRequests = node.currentRequests ++ [q]
  node_registrant : registrant node' = registrant node
  home_addresses : home'.publicAddr = home.publicAddr ∧ home'.privateAddr = home.privateAddr

theorem Ready.distinct {d : Draw} (h : Ready node home foreign d) :
    home.publicAddr ≠ home.privateAddr ∧ home.publicAddr ≠ foreign.publicAddr ∧
      home.privateAddr ≠ foreign.publicAddr ∧ home.privateAddr ≠ foreign.privateAddr := by
  have haddrs := h.addresses
  simp only [List.nodup_cons,List.mem_cons,List.not_mem_nil,or_false,not_or,not_false_eq_true,List.nodup_nil,
    and_true] at haddrs
  obtain ⟨⟨hpubpriv,hpub,-⟩,⟨hprivpub,hpriv⟩,-⟩ := haddrs
  exact ⟨hpubpriv,hpub,hprivpub,hpriv⟩

theorem Ready.sends (h : Ready node home foreign (draws 0)) (hadv : adv.ha = true) :
    ∃ t, AdvertisementsHandler.push draws node (adv.advertisementPacket foreign) =
        ⟨t,[⟨0,requestPacket (draws 0) node (decode (adv.advertisementPacket foreign))⟩],1⟩ ∧
      t.currentRequests =
        node.currentRequests ++ [newReq (draws 0) (decode (adv.advertisementPacket foreign))] ∧
      registrant t = registrant node := by
  obtain ⟨-,hpub,hprivpub,hpriv⟩ := h.distinct
  refine push_moves (not_discarded_advertisementPacket hadv foreign) (not_busy_advertisementPacket adv foreign)
    ?_ ?_ (Or.inl ⟨h.atHome,?_⟩) h.alloc
  · rw [address_advertisementPacket,h.homePrivateAddr]
    exact hprivpub.symm
  · rw [decode_advertisementPacket,h.currPrivateAddr,h.homePrivateAddr]
    exact hpriv
  · rw [address_advertisementPacket,h.homePublicAddr]
    exact hpub.symm

theorem Ready.lifetime {d : Draw} (h : Ready node home foreign d) (adv : AgentAdvertiser) :
    (registrant node).lifetime (newReq d (decode (adv.advertisementPacket foreign))) =
      htons (toUInt16 foreign.lifetimeReg) := by
  rw [decode_advertisementPacket,Registrant.lifetime,if_neg]
  · rfl
  · intro heq
    exact h.distinct.2.2.2 (h.homePrivateAddr.symm.trans heq.symm)

theorem registration_round (uninit : UInt16) (h : Ready node home foreign (draws 0)) (hadv : adv.ha = true) :
    ∃ node' home' foreign', RegistrationRound draws uninit adv node home foreign node' home' foreign' ∧
      Registered node home foreign (draws 0) node' home' foreign' := by
  let p := adv.advertisementPacket foreign
  have hdecode := decode_advertisementPacket adv foreign
  have hprivate : (decode p).privateAddr = foreign.privateAddr := by rw [hdecode]
  have hcoa : (decode p).coa = foreign.publicAddr := by rw [hdecode]
  have hreg : (decode p).regLifetime = htons (toUInt16 foreign.lifetimeReg) := by rw [hdecode]
  let r := newReq (draws 0) (decode p)
  let n := registrant node
  have hlife : n.lifetime r = htons (toUInt16 foreign.lifetimeReg) := h.lifetime adv
  have hnonzero : n.lifetime r ≠ 0 := by
    rw [hlife]
    exact htons_lifetimeReg_ne_zero h.lifetimeReg
  obtain ⟨nodeSent,hpush,hrecords,hsame⟩ := h.sends hadv
  -- the request reaches the home agent
  let q := requestPacket (draws 0) node (decode p)
  have hq : Asks n r q := asks_requestPacket (draws 0) node (decode p)
  have hadmit : ForeignAgentReqProcess.Admitted foreign q := by
    refine admitted_asks hq h.room ?_
    have hrange := h.lifetimeReg
    rw [hlife,ntohs_htons,AdvertisementsHandler.toNat_toUInt16 ⟨by omega,hrange.2⟩]
  let relayed := ForeignAgentReqProcess.relay foreign q
  have hrelayed : Asks n r relayed := asks_relay foreign hq
  obtain ⟨home',port,hserve,hbinding,hport,hhomePub,hhomePriv⟩ := serve_asks (s := home) hrelayed
    h.homePublicAddr.symm (fun entry hentry hid1 hid2 => absurd ⟨hid1,hid2⟩ (h.binding entry hentry))
  rw [if_neg hnonzero] at hport
  subst hport
  -- the answer comes back
  let a := RegistrationRequestReply.makeReply relayed 0 (n.lifetime r)
  have ha : Grants n r a := grants_makeReply hrelayed
  obtain ⟨hpending,hvisitor⟩ := settled_remember uninit hq ha h.room h.pending
  let f := ForeignAgentReplyProcess.forward (ForeignAgentReqProcess.remember foreign q) a
  have hf : Grants (registrant nodeSent) r f := by
    rw [hsame]
    exact grants_forward _ ha
  have haccept : RegistrationRequestSource.push nodeSent f = accept f nodeSent r :=
    push_grants hf hrecords (by rw [List.append_nil]; exact h.records)
  rw [accept_away nodeSent hf (by rw [hsame]; exact hnonzero) rfl] at haccept
  have hfilter : MobileIPFilter.push foreign q = some [⟨3,q⟩] :=
    filter_foreign hq (fun heq => h.distinct.2.1 (h.homePublicAddr.symm.trans heq))
  refine ⟨_,home',ForeignAgentReplyProcess.settled uninit (ForeignAgentReqProcess.remember foreign q) a.reply,
    ⟨p,q,relayed,a,f,nodeSent,_,rfl,AdvFilter.push_advertisementPacket adv foreign,hpush,?_,hfilter,
      ForeignAgentReqProcess.push_admitted true hadmit,?_,filter_home hrelayed h.homePublicAddr,hserve,?_,
      MobileIPFilter.push_reply ha.isReply,ForeignAgentReplyProcess.push_reply uninit ha.isReply,?_,haccept⟩,
    ⟨?_,?_,hpending,rfl,rfl,hprivate,hcoa,hreg,⟨r,rfl,rfl,rfl,hrecords⟩,hsame,hhomePub,hhomePriv⟩⟩
  · rw [ipDst_requestPacket,hprivate]
  · rw [ipDst_relay,hq.homeAgent]
    exact h.homePublicAddr
  · rw [ipDst_makeReply,ipSrc_relay]
  · rw [ForeignAgent.ipDst_forward,ha.homeAddr]
    rfl
  · rw [show node.myAddress = n.address from rfl,hbinding,bindingOf,if_neg hnonzero,hlife]
    exact congrArg some (by rw [show r.coa = foreign.publicAddr from hcoa]; rfl)
  · rw [← h.homePublicAddr]
    exact hvisitor

/-- The situation before the return: the node is registered elsewhere, and the draw
meets no record and no binding. -/
structure Away (node : MobileNode) (home : AgentBase) (d : Draw) : Prop where
  addresses : home.publicAddr ≠ home.privateAddr
  homePublicAddr : node.homePublicAddr = home.publicAddr
  homePrivateAddr : node.homePrivateAddr = home.privateAddr
  away : node.home = false
  connected : node.connected = true
  currPrivateAddr : node.currPrivateAddr ≠ home.privateAddr
  alloc : d.alloc = true
  records : ∀ q ∈ node.currentRequests, ¬(q.id1 = d.netId1 ∧ q.id2 = d.netId2 ∧ q.port = d.sport)
  binding : ∀ entry, home.table node.myAddress = some entry →
    ¬(entry.id1 = d.netId1 ∧ entry.id2 = d.netId2)

theorem return_round (h : Away node home (draws 0)) (hadv : adv.ha = true) :
    ∃ node' home', ReturnRound draws adv node home node' home' ∧ home'.table node.myAddress = none ∧
      node'.home = true ∧ node'.currPrivateAddr = home.privateAddr ∧ node'.currCoa = home.publicAddr := by
  let p := adv.advertisementPacket home
  have hdecode := decode_advertisementPacket adv home
  have hprivate : (decode p).privateAddr = home.privateAddr := by rw [hdecode]
  have hcoa : (decode p).coa = home.publicAddr := by rw [hdecode]
  obtain ⟨nodeSent,hpush,hrecords,hsame⟩ := push_moves (s := node) (p := p)
    (not_discarded_advertisementPacket hadv home) (not_busy_advertisementPacket adv home)
    (by rw [address_advertisementPacket,h.homePrivateAddr]; exact h.addresses)
    (by rw [hprivate]; exact h.currPrivateAddr)
    (Or.inr ⟨h.away,h.connected,by rw [address_advertisementPacket,h.homePublicAddr]⟩)
    h.alloc
  let q := requestPacket (draws 0) node (decode p)
  let r := newReq (draws 0) (decode p)
  let n := registrant node
  have hq : Asks n r q := asks_requestPacket (draws 0) node (decode p)
  have hzero : n.lifetime r = 0 := if_pos (hprivate.trans h.homePrivateAddr.symm)
  obtain ⟨home',port,hserve,hbinding,hport,-⟩ := serve_asks (s := home) hq h.homePublicAddr.symm
    (fun entry hentry hid1 hid2 => absurd ⟨hid1,hid2⟩ (h.binding entry hentry))
  rw [if_pos hzero] at hport
  subst hport
  have ha : Grants (registrant nodeSent) r (RegistrationRequestReply.makeReply q 0 (n.lifetime r)) := by
    rw [hsame]
    exact grants_makeReply hq
  have haccept := push_grants ha hrecords (by rw [List.append_nil]; exact h.records)
  rw [accept_home nodeSent ha (by rw [hsame]; exact hzero)] at haccept
  refine ⟨_,home',⟨p,q,_,nodeSent,rfl,AdvFilter.push_advertisementPacket adv home,hpush,?_,
    filter_home hq h.homePublicAddr,hserve,?_,haccept⟩,?_,rfl,hprivate,hcoa⟩
  · rw [ipDst_requestPacket,hprivate]
  · rw [ipDst_makeReply,ipSrc_requestPacket]
  · rw [show node.myAddress = n.address from rfl,hbinding,bindingOf,if_pos hzero]

def Distinct (d d' : Draw) : Prop := ¬(d.netId1 = d'.netId1 ∧ d.netId2 = d'.netId2)

/-- A node at home registers through a foreign agent with one request, and then returns
home with one request. -/
theorem registers_and_returns (draws draws' : ℕ → Draw) (uninit : UInt16) (adv homeAdv : AgentAdvertiser)
    (h : Ready node home foreign (draws 0)) (hadv : adv.ha = true ∧ adv.fa = true)
    (hhome : homeAdv.ha = true) (halloc : (draws' 0).alloc = true)
    (hdraws : Distinct (draws 0) (draws' 0))
    (hrecords : ∀ q ∈ node.currentRequests,
      ¬(q.id1 = (draws' 0).netId1 ∧ q.id2 = (draws' 0).netId2 ∧ q.port = (draws' 0).sport)) :
    ∃ node₁ home₁ foreign₁, RegistrationRound draws uninit adv node home foreign node₁ home₁ foreign₁ ∧
      Registered node home foreign (draws 0) node₁ home₁ foreign₁ ∧
      ∃ node₂ home₂, ReturnRound draws' homeAdv node₁ home₁ node₂ home₂ ∧
        home₂.table node.myAddress = none ∧ node₂.home = true ∧
        node₂.currPrivateAddr = home.privateAddr ∧ node₂.currCoa = home.publicAddr := by
  obtain ⟨node₁,home₁,foreign₁,hround,hreg⟩ := registration_round uninit h hadv.1
  obtain ⟨hpubpriv,-,-,hpriv⟩ := h.distinct
  obtain ⟨hhomePub,hhomePriv⟩ := hreg.home_addresses
  have hsame := hreg.node_registrant
  simp only [registrant,Registrant.mk.injEq] at hsame
  obtain ⟨hmy,hnodePub,hnodePriv⟩ := hsame
  have haway : Away node₁ home₁ (draws' 0) := by
    refine ⟨?_,?_,?_,hreg.away,hreg.connected,?_,halloc,?_,?_⟩
    · rw [hhomePub,hhomePriv]
      exact hpubpriv
    · rw [hnodePub,hhomePub]
      exact h.homePublicAddr
    · rw [hnodePriv,hhomePriv]
      exact h.homePrivateAddr
    · rw [hreg.currPrivateAddr,hhomePriv]
      exact fun heq => hpriv heq.symm
    · obtain ⟨q,hid1,hid2,-,hlist⟩ := hreg.records
      intro q' hq'
      rw [hlist,List.mem_append,List.mem_singleton] at hq'
      rcases hq' with hold | rfl
      · exact hrecords q' hold
      · rw [hid1,hid2]
        exact fun heq => hdraws ⟨heq.1,heq.2.1⟩
    · rw [hmy,hreg.binding]
      rintro entry ⟨⟩
      exact hdraws
  obtain ⟨node₂,home₂,hreturn,htable,hback,hpriv₂,hcoa₂⟩ := return_round haway hhome
  rw [hmy] at htable
  exact ⟨node₁,home₁,foreign₁,hround,hreg,node₂,home₂,hreturn,htable,hback,hpriv₂.trans hhomePriv,
    hcoa₂.trans hhomePub⟩

def sampleDraw (n : ℕ) : ℕ → Draw := fun _ => ⟨true,n,n,n⟩

theorem registers_and_returns_sample :
    ∃ node₁ home₁ foreign₁, RegistrationRound (sampleDraw 1) 0 ⟨true,true,30,4000,0⟩
        (MobileNode.configure 9 2 1) (AgentBase.configure 1 2 25) (AgentBase.configure 5 6 25)
        node₁ home₁ foreign₁ ∧
      ∃ node₂ home₂, ReturnRound (sampleDraw 2) ⟨true,true,30,4000,0⟩ node₁ home₁ node₂ home₂ ∧
        home₂.table 9 = none ∧ node₂.home = true := by
  have hready : Ready (MobileNode.configure 9 2 1) (AgentBase.configure 1 2 25)
      (AgentBase.configure 5 6 25) (sampleDraw 1 0) := by
    refine ⟨by decide,rfl,rfl,by decide,rfl,rfl,by decide,rfl,?_,?_,?_⟩
    · intro it hit
      cases hit
    · intro q hq
      cases hq
    · intro entry hentry
      cases hentry
  obtain ⟨node₁,home₁,foreign₁,hround,-,node₂,home₂,hreturn,htable,hback,-⟩ :=
    registers_and_returns (sampleDraw 1) (sampleDraw 2) 0 ⟨true,true,30,4000,0⟩ ⟨true,true,30,4000,0⟩ hready
      ⟨rfl,rfl⟩ rfl rfl (by unfold Distinct; decide +kernel) (by intro q hq; cases hq)
  exact ⟨node₁,home₁,foreign₁,hround,node₂,home₂,hreturn,htable,hback⟩

end Rounds
end ClickMobileIP.System
