import ClickMobileIP.Agent.HomeReplies
import ClickMobileIP.Agent.Tunnel
import ClickMobileIP.Node.NodeInvariant
import ClickMobileIP.System.Messages

/-! # Where the bindings of a home agent come from

Any number of nodes and agents share a network that keeps every packet some element has
sent. Each of them can be handed to any element at any time and any number of times, so
that packets are lost, delayed, reordered and duplicated and every wiring of the elements
is covered. All agents act as home agent and as foreign agent, and every timer may fire.

The log of a run holds the requests that the nodes sent. A request may travel through any
number of agents, inside or outside a tunnel, and no element changes its payload or makes
another packet that the home agent would take for a request.
-/
namespace ClickMobileIP.Provenance
open ByteLayout EventRun

section Model
variable {ν ι : Type}

/-- The configuration of every node and agent; addresses need not differ. -/
structure Setup (ν ι : Type) where
  registrant : ν → System.Registrant
  publicAddr : ι → IPAddress
  privateAddr : ι → IPAddress
  lifetimeReg : ι → ℤ
  advertiser : ι → AgentAdvertiser

structure World (ν ι : Type) where
  node : ν → MobileNode
  agent : ι → AgentBase
  advertiser : ι → AgentAdvertiser
  sent : List Packet

def initial (S : Setup ν ι) : World ν ι where
  node n := MobileNode.configure (S.registrant n).address (S.registrant n).homePrivateAddr
    (S.registrant n).homePublicAddr
  agent i := AgentBase.configure (S.publicAddr i) (S.privateAddr i) (S.lifetimeReg i)
  advertiser := S.advertiser
  sent := []

/-- Packets are named by their place among all that were sent. -/
inductive Event (ν ι : Type)
  | advertise (i : ι) (alloc : Bool)
  | solicit (n : ν) (alloc : Bool)
  | hear (n : ν) (draws : ℕ → Draw) (k : ℕ)
  | answer (n : ν) (k : ℕ)
  | handlerTimer (n : ν) (d : Draw)
  | sourceTimer (n : ν)
  | sourceTimer2 (n : ν) (d : Draw)
  | gateway (n : ν) (k : ℕ)
  | filter (i : ι) (k : ℕ)
  | serve (i : ι) (alloc : Bool) (k : ℕ)
  | relay (i : ι) (alloc : Bool) (k : ℕ)
  | forward (i : ι) (uninit : UInt16) (k : ℕ)
  | encapsulate (i : ι) (alloc : Bool) (k : ℕ)
  | decapsulate (i : ι) (k : ℕ)
  | homeTimer (i : ι)
  | foreignTimer (i : ι) (alloc : ℕ → Bool)

abbrev Log (ν : Type) := List (ν × Packet)

variable [DecidableEq ν] [DecidableEq ι]

def World.atNode (w : World ν ι) (n : ν) (r : MobileNode × List Emission) : World ν ι × Log ν :=
  ({ w with node := Function.update w.node n r.1, sent := w.sent ++ r.2.map Emission.packet },
    r.2.map (fun x => (n,x.packet)))

def World.atAgent (w : World ν ι) (i : ι) (r : AgentBase × List Emission) : World ν ι × Log ν :=
  ({ w with agent := Function.update w.agent i r.1, sent := w.sent ++ r.2.map Emission.packet },[])

/-- An element that only passes packets on. -/
def World.through (w : World ν ι) (out : List Emission) : World ν ι × Log ν :=
  ({ w with sent := w.sent ++ out.map Emission.packet },[])

def step (w : World ν ι) : Event ν ι → Option (World ν ι × Log ν)
  | .advertise i alloc =>
    let r := (w.advertiser i).createPacket alloc (w.agent i)
    some ({ w with advertiser := Function.update w.advertiser i r.2, sent := w.sent ++ r.1.toList },[])
  | .solicit n alloc =>
    some ({ w with sent := w.sent ++ (AgentSolicitation.makePacket alloc (w.node n)).toList },[])
  | .hear n draws k =>
    w.sent[k]?.bind (fun p => ((w.node n).step (.advertisement draws p)).map (w.atNode n))
  | .answer n k => w.sent[k]?.bind (fun p => ((w.node n).step (.reply p)).map (w.atNode n))
  | .handlerTimer n d => ((w.node n).step (.handlerTimer d)).map (w.atNode n)
  | .sourceTimer n => ((w.node n).step .sourceTimer).map (w.atNode n)
  | .sourceTimer2 n d => ((w.node n).step (.sourceTimer2 d)).map (w.atNode n)
  | .gateway n k => w.sent[k]?.map (fun p => w.through (SetGateway.push (w.node n) p))
  | .filter i k => w.sent[k]?.bind (fun p => (MobileIPFilter.push (w.agent i) p).map w.through)
  | .serve i alloc k =>
    w.sent[k]?.bind (fun p => (RegistrationRequestReply.push alloc (w.agent i) p).map (w.atAgent i))
  | .relay i alloc k =>
    w.sent[k]?.map (fun p => w.atAgent i (ForeignAgentReqProcess.push alloc (w.agent i) p))
  | .forward i uninit k =>
    w.sent[k]?.bind (fun p => (ForeignAgentReplyProcess.push uninit (w.agent i) p).map (w.atAgent i))
  | .encapsulate i alloc k =>
    w.sent[k]?.bind (fun p => (IpEncapsulation.push alloc (w.agent i) p).map w.through)
  | .decapsulate i k => w.sent[k]?.bind (fun p => (IpDecap.push (w.agent i) p).map w.through)
  | .homeTimer i => (RegistrationRequestReply.runTimer (w.agent i)).map (w.atAgent i)
  | .foreignTimer i alloc =>
    (ForeignAgentReqProcess.runTimer alloc (w.agent i)).map (fun tick => w.atAgent i (tick.base,tick.emitted))

end Model

section Packets
variable {ν : Type} {log log' : Log ν} {p q : Packet}

/-- What a packet of the network can be: a request of the log with its payload intact, a
packet that no home agent takes for a request, or one of these in a tunnel. The headers
count only by their protocol field, so relays may write the addresses and checksums. -/
inductive Genuine (log : Log ν) : Packet → Prop
  | request {p : Packet} (n : ν) (q : Packet) (hmem : (n,q) ∈ log) (hproto : p.ip.ipP = 17)
      (hpayload : p.data.drop 28 = q.data.drop 28) : Genuine log p
  | other {p : Packet} (hproto : p.ip.ipP = 17 ∨ p.ip.ipP = 1) (hnot : ¬p.IsRequest) : Genuine log p
  | tunnel {p : Packet} (inner : Packet) (hproto : p.ip.ipP = 4) (hinner : Genuine log inner)
      (hdata : p.data.drop 20 = inner.data) : Genuine log p

theorem Genuine.mono (h : Genuine log p) (hsub : log ⊆ log') : Genuine log' p := by
  induction h with
  | request n q hmem hproto hpayload => exact .request n q (hsub hmem) hproto hpayload
  | other hproto hnot => exact .other hproto hnot
  | tunnel inner hproto _ hdata ih => exact .tunnel inner hproto ih hdata

theorem Genuine.proto (h : Genuine log p) : p.ip.ipP = 17 ∨ p.ip.ipP = 1 ∨ p.ip.ipP = 4 := by
  cases h with
  | request n q hmem hproto hpayload => exact Or.inl hproto
  | other hproto hnot =>
    rcases hproto with h | h
    · exact Or.inl h
    · exact Or.inr (Or.inl h)
  | tunnel inner hproto hinner hdata => exact Or.inr (Or.inr hproto)

/-- The protocol field of the inner packet lies in the payload of the outer one. -/
theorem proto_inner {inner : Packet} (hdata : p.data.drop 20 = inner.data) :
    inner.ip.ipP = Layout.u8.read (p.data.drop 29) := by
  rw [read_ipP,← hdata,List.drop_drop]

theorem isRequest_congr (hlen : q.length = p.length) (hpayload : q.data.drop 28 = p.data.drop 28) :
    q.IsRequest ↔ p.IsRequest := by
  rw [Packet.IsRequest,Packet.IsRequest,hlen,Packet.request,hpayload]
  exact Iff.rfl

/-- Everything in front of the payload but the protocol field may be rewritten. -/
theorem Genuine.congr (h : Genuine log p) (hproto : q.ip.ipP = p.ip.ipP) (hlen : q.length = p.length)
    (hpayload : q.data.drop 28 = p.data.drop 28) : Genuine log q := by
  induction h generalizing q with
  | request n r hmem hp hr => exact .request n r hmem (hproto.trans hp) (hpayload.trans hr)
  | other hp hnot =>
    refine .other ?_ (fun hq => hnot ((isRequest_congr hlen hpayload).mp hq))
    rw [hproto]
    exact hp
  | @tunnel p inner hp _ hdata ih =>
    have hdrop : ∀ k, q.data.drop (28 + k) = p.data.drop (28 + k) := by
      intro k
      rw [← List.drop_drop,← List.drop_drop,hpayload]
    refine .tunnel (q.pull 20) (hproto.trans hp) (ih ?_ ?_ ?_) rfl
    · rw [proto_inner hdata,proto_inner (p := q) rfl]
      exact congrArg _ (hdrop 1)
    · have hinner := congrArg List.length hdata
      simp only [Packet.length,Packet.pull,List.length_drop] at hlen hinner ⊢
      omega
    · have h48 := hdrop 20
      rw [Packet.pull,← hdata,List.drop_drop,List.drop_drop]
      exact h48

/-- A tunnel is never taken for a request: in the place of the flags stands the protocol
of the inner packet. -/
theorem Genuine.of_request (h : Genuine log p) (hp : p.IsRequest) (hflag : p.request.flags &&& 1 = 0)
    (hflag2 : (p.request.flags >>> 2) &&& 1 = 0) :
    ∃ n q, (n,q) ∈ log ∧ p.data.drop 28 = q.data.drop 28 := by
  cases h with
  | request n q hmem _ hpayload => exact ⟨n,q,hmem,hpayload⟩
  | other _ hnot => exact absurd hp hnot
  | tunnel inner _ hinner hdata =>
    rw [read_request_flags,← proto_inner hdata] at hflag hflag2
    rcases hinner.proto with h | h | h
    · rw [h] at hflag
      exact absurd hflag (by decide)
    · rw [h] at hflag
      exact absurd hflag (by decide)
    · rw [h] at hflag2
      exact absurd hflag2 (by decide)

end Packets

section Elements
variable {ν : Type} {log : Log ν} {s : AgentBase} {p : Packet} {out : List Emission}

theorem genuine_reply (hproto : p.ip.ipP = 17) (hp : p.IsReply) : Genuine log p :=
  .other (Or.inl hproto) (System.not_isRequest_of_isReply hp)

theorem genuine_makeReply (p : Packet) (code lifetime : UInt16) :
    Genuine log (RegistrationRequestReply.makeReply p code lifetime) := by
  apply genuine_reply
  · simp [RegistrationRequestReply.makeReply,sealIp]
  · constructor <;> simp [RegistrationRequestReply.makeReply,Packet.length]

theorem genuine_deny (s : AgentBase) (p : Packet) (code : UInt16) :
    Genuine log (ForeignAgentReqProcess.deny s p code) := by
  apply genuine_reply
  · simp [ForeignAgentReqProcess.deny,ForeignAgentReqProcess.replyIp,sealIp]
  · constructor <;> simp [ForeignAgentReqProcess.deny,Packet.length]

theorem genuine_timeoutReply (it : ListItem) : Genuine log (ForeignAgentReqProcess.timeoutReply it) := by
  apply genuine_reply
  · simp [ForeignAgentReqProcess.timeoutReply,ForeignAgentReqProcess.replyIp,sealIp]
  · constructor <;> simp [ForeignAgentReqProcess.timeoutReply,Packet.length]

theorem genuine_advertisementPacket (a : AgentAdvertiser) (agent : AgentBase) :
    Genuine log (a.advertisementPacket agent) := by
  refine .other (Or.inr ?_) (fun h => ?_)
  · simp [AgentAdvertiser.sealAdvertisementIp,AgentAdvertiser.advertisementIp]
  · have hlen := h.1
    rw [AgentAdvertiser.length_advertisementPacket] at hlen
    omega

theorem genuine_solicitationPacket (s : MobileNode) :
    Genuine log (AgentSolicitation.solicitationPacket s) := by
  refine .other (Or.inr ?_) (fun h => ?_)
  · rw [AgentSolicitation.ip_solicitationPacket]
    rfl
  · have hlen := h.1
    rw [AgentSolicitation.length_solicitationPacket] at hlen
    omega

theorem genuine_createPacket (a : AgentAdvertiser) (alloc : Bool) (agent : AgentBase) :
    ∀ p ∈ (a.createPacket alloc agent).1.toList, Genuine log p := by
  intro p hp
  unfold AgentAdvertiser.createPacket at hp
  split at hp
  · cases hp
  · cases List.mem_singleton.mp hp
    exact genuine_advertisementPacket a agent

theorem genuine_solicitation (alloc : Bool) (s : MobileNode) :
    ∀ p ∈ (AgentSolicitation.makePacket alloc s).toList, Genuine log p := by
  intro p hp
  unfold AgentSolicitation.makePacket at hp
  split at hp
  · cases hp
  · cases List.mem_singleton.mp hp
    exact genuine_solicitationPacket s

theorem Genuine.relay (h : Genuine log p) (s : AgentBase) (hp : p.IsRequest) :
    Genuine log (ForeignAgentReqProcess.relay s p) := by
  have hlen := hp.1
  apply h.congr
  · simp [ForeignAgentReqProcess.relay,sealIp]
  · exact System.length_relay s (by omega)
  · exact drop_udpPacket ..

theorem Genuine.forward (h : Genuine log p) (s : AgentBase) (hp : p.IsReply) :
    Genuine log (ForeignAgentReplyProcess.forward s p) := by
  have hlen := hp.1
  apply h.congr
  · simp [ForeignAgentReplyProcess.forward,sealIp]
  · exact System.length_forward s (by omega)
  · exact drop_udpPacket ..

theorem Genuine.encapsulate (h : Genuine log p) (s : AgentBase) (careOff : IPAddress) :
    Genuine log (IpEncapsulation.encapsulate s careOff p) := by
  refine .tunnel p ?_ h (Tunnel.drop_encapsulate s careOff p)
  rw [Tunnel.ip_encapsulate]
  rfl

theorem Genuine.pull (h : Genuine log p) (hproto : p.ip.ipP = 4) : Genuine log (p.pull 20) := by
  cases h with
  | request n q _ h17 _ => exact absurd (hproto.symm.trans h17) (by decide)
  | other h _ =>
    rcases h with h | h
    · exact absurd (hproto.symm.trans h) (by decide)
    · exact absurd (hproto.symm.trans h) (by decide)
  | tunnel inner _ hinner hdata =>
    have hpull : (p.pull 20).data = inner.data := hdata
    apply hinner.congr
    · rw [read_ipP,read_ipP,hpull]
    · rw [Packet.length,Packet.length,hpull]
    · rw [hpull]

theorem Genuine.single (h : Genuine log p) (port : ℕ) :
    ∀ x ∈ ([⟨port,p⟩] : List Emission), Genuine log x.packet := by
  intro x hx
  cases List.mem_singleton.mp hx
  exact h

theorem Genuine.mobileIPFilter (h : Genuine log p) (hpush : MobileIPFilter.push s p = some out) :
    ∀ x ∈ out, Genuine log x.packet := by
  have hself : ∃ port, out = [⟨port,p⟩] := by
    unfold MobileIPFilter.push at hpush
    split at hpush
    · cases hpush
    · split at hpush
      · exact ⟨1,(Option.some.inj hpush).symm⟩
      · split at hpush
        · split at hpush
          · cases hpush
          · split at hpush
            · exact ⟨2,(Option.some.inj hpush).symm⟩
            · exact ⟨3,(Option.some.inj hpush).symm⟩
        · exact ⟨0,(Option.some.inj hpush).symm⟩
  obtain ⟨port,rfl⟩ := hself
  exact h.single port

theorem Genuine.ipEncapsulation {alloc : Bool} (h : Genuine log p)
    (hpush : IpEncapsulation.push alloc s p = some out) : ∀ x ∈ out, Genuine log x.packet := by
  unfold IpEncapsulation.push at hpush
  split at hpush
  · cases hpush
  · split at hpush
    · cases hpush
      exact h.single 0
    · split at hpush
      · cases hpush
      · split at hpush
        · cases hpush
          exact fun x hx => absurd hx List.not_mem_nil
        · cases hpush
          exact (h.encapsulate s _).single 1

theorem Genuine.ipDecap (h : Genuine log p) (hpush : IpDecap.push s p = some out) :
    ∀ x ∈ out, Genuine log x.packet := by
  unfold IpDecap.push at hpush
  split at hpush
  · cases hpush
  · rename_i proto hload
    split at hpush
    · rename_i hfour
      split at hpush
      · cases hpush
      · split at hpush
        · cases hpush
          refine (h.pull ?_).single 1
          rw [read_ipP]
          unfold Layout.load at hload
          split at hload
          · rw [Option.some.inj hload,hfour]
          · cases hload
        · cases hpush
          exact h.single 0
    · cases hpush
      exact h.single 0

theorem Genuine.foreignAgentReqProcess {alloc : Bool} {t : AgentBase} (h : Genuine log p)
    (hpushed : ForeignAgentReqProcess.Pushed alloc s p t out) : ∀ x ∈ out, Genuine log x.packet := by
  cases hpushed with
  | ignored _ => exact fun x hx => absurd hx List.not_mem_nil
  | denied _ out hout =>
    rcases hout with hnil | ⟨code,-,hcode⟩
    · rw [hnil]
      exact fun x hx => absurd hx List.not_mem_nil
    · rw [hcode]
      exact (genuine_deny s p code).single 0
  | relayed hadmitted => exact (h.relay s hadmitted.1).single 1

theorem payload_relayed {alloc : Bool} {t : AgentBase} (hpushed : ForeignAgentReqProcess.Pushed alloc s p t out) :
    ∀ x ∈ out, x.port = 1 → x.packet.data.drop 28 = p.data.drop 28 := by
  intro x hx hport
  cases hpushed with
  | ignored _ => cases hx
  | denied _ _ hout =>
    rcases hout with rfl | ⟨code,-,rfl⟩
    · cases hx
    · cases List.mem_singleton.mp hx
      cases hport
  | relayed _ =>
    cases List.mem_singleton.mp hx
    exact drop_udpPacket ..

theorem genuine_runTimer {alloc : ℕ → Bool} {tick : ForeignAgentReqProcess.Tick}
    (ht : ForeignAgentReqProcess.runTimer alloc s = some tick) : ∀ x ∈ tick.emitted, Genuine log x.packet := by
  intro x hx
  obtain ⟨k,it,hit⟩ := ForeignAgentReqProcess.mem_emitted ht hx
  rw [ForeignAgentReqProcess.mem_pendingVisit hit]
  exact genuine_timeoutReply _

end Elements

section Bindings
variable {ν : Type} {log log' : Log ν} {s t : AgentBase} {p q : Packet} {out : List Emission}

/-- The request asked this home agent for this binding. -/
structure AskedFor (s : AgentBase) (entry : HARegistrationEntry) (q : Packet) : Prop where
  lifetime : q.request.lifetime ≠ 0
  homeAddr : q.request.homeAddr = entry.mobileNodeHomadress
  homeAgent : q.request.homeAgent = s.publicAddr
  coAddr : q.request.coAddr = entry.mobileNodeCoa
  id1 : q.request.id1 = entry.id1
  id2 : q.request.id2 = entry.id2

theorem AskedFor.congr {entry : HARegistrationEntry} (h : AskedFor s entry q)
    (haddr : t.publicAddr = s.publicAddr) : AskedFor t entry q :=
  { h with homeAgent := h.homeAgent.trans haddr.symm }

structure Owned (log : Log ν) (s : AgentBase) : Prop where
  consistent : HomeAgent.Consistent s
  origin : ∀ addr entry, s.table addr = some entry → ∃ n q, (n,q) ∈ log ∧ AskedFor s entry q

theorem Owned.mono (h : Owned log s) (hsub : log ⊆ log') : Owned log' s := by
  refine ⟨h.consistent,fun addr entry he => ?_⟩
  obtain ⟨n,q,hmem,hq⟩ := h.origin addr entry he
  exact ⟨n,q,hsub hmem,hq⟩

theorem Owned.congr (h : Owned log s) (htable : t.table = s.table) (hlist : t.list = s.list)
    (haddr : t.publicAddr = s.publicAddr) : Owned log t := by
  refine ⟨⟨?_,?_,?_,?_⟩,?_⟩
  · rw [hlist]
    exact h.consistent.nodup
  · rw [hlist,htable]
    exact h.consistent.mem_list
  · rw [htable]
    exact h.consistent.key
  · rw [htable]
    exact h.consistent.alive
  · rw [htable]
    intro addr entry he
    obtain ⟨n,q,hmem,hq⟩ := h.origin addr entry he
    exact ⟨n,q,hmem,hq.congr haddr⟩

theorem Owned.serve {alloc : Bool} (h : Owned log s) (hp : Genuine log p)
    (hpush : RegistrationRequestReply.push alloc s p = some (t,out)) : Owned log t := by
  refine ⟨HomeAgent.consistent_push h.consistent hpush,?_⟩
  have haddr : t.publicAddr = s.publicAddr := (HomeAgent.push_frame hpush).1
  have hold : ∀ addr entry, s.table addr = some entry → ∃ n q, (n,q) ∈ log ∧ AskedFor t entry q := by
    intro addr entry he
    obtain ⟨n,q,hmem,hq⟩ := h.origin addr entry he
    exact ⟨n,q,hmem,hq.congr haddr⟩
  intro addr entry he
  cases RegistrationRequestReply.pushed_of_push hpush with
  | ignored _ => exact hold addr entry he
  | bound hreq _ hcode hlife _ _ =>
    rw [RegistrationRequestReply.bind_table] at he
    split at he
    · obtain ⟨hflag,hflag2,-,hagent⟩ := HomeAgent.validatePacket_eq_zero.mp hcode
      obtain ⟨n,q,hmem,hpayload⟩ := hp.of_request hreq hflag hflag2
      have hsame : q.request = p.request :=
        congrArg RegistrationRequestPacketheader.layout.read hpayload.symm
      cases he
      refine ⟨n,q,hmem,?_⟩
      constructor <;> rw [hsame]
      · exact hlife
      · exact hagent
    · exact hold addr entry he
  | unbound _ _ _ _ _ _ =>
    rw [RegistrationRequestReply.unbind_table] at he
    split at he
    · cases he
    · exact hold addr entry he

/-- What a call leaves behind: an agent with its bindings owned, and genuine packets. -/
def Keeps (log : Log ν) (r : AgentBase × List Emission) : Prop :=
  Owned log r.1 ∧ ∀ x ∈ r.2, Genuine log x.packet

theorem keeps_nil (h : Owned log s) : Keeps log (s,[]) := ⟨h,fun _ hx => absurd hx List.not_mem_nil⟩

theorem keeps_serve {alloc : Bool} {r : AgentBase × List Emission} (h : Owned log s) (hp : Genuine log p)
    (hpush : RegistrationRequestReply.push alloc s p = some r) : Keeps log r := by
  obtain ⟨t,out⟩ := r
  refine ⟨h.serve hp hpush,?_⟩
  cases RegistrationRequestReply.pushed_of_push hpush with
  | ignored _ => exact fun x hx => absurd hx List.not_mem_nil
  | bound _ _ _ _ lifetime _ => exact (genuine_makeReply p 0 lifetime).single 0
  | unbound _ _ _ _ lifetime _ => exact (genuine_makeReply p 0 lifetime).single 1

theorem keeps_homeTimer {r : AgentBase × List Emission} (h : Owned log s)
    (ht : RegistrationRequestReply.runTimer s = some r) : Keeps log r := by
  have hconsistent := HomeAgent.consistent_runTimer h.consistent ht
  rw [HomeAgent.runTimer_eq h.consistent] at ht
  cases ht
  refine keeps_nil ⟨hconsistent,fun addr entry he => ?_⟩
  obtain ⟨old,hold,hx⟩ := Option.bind_eq_some_iff.mp he
  obtain ⟨n,q,hmem,hq⟩ := h.origin addr old hold
  rw [(HomeAgent.expire_eq_some hx).2]
  exact ⟨n,q,hmem,hq.lifetime,hq.homeAddr,hq.homeAgent,hq.coAddr,hq.id1,hq.id2⟩

theorem keeps_relay {alloc : Bool} (h : Owned log s) (hp : Genuine log p)
    (hpushed : ForeignAgentReqProcess.Pushed alloc s p t out) : Keeps log (t,out) := by
  refine ⟨?_,hp.foreignAgentReqProcess hpushed⟩
  cases hpushed with
  | ignored _ => exact h
  | denied _ _ _ => exact h
  | relayed _ => exact h.congr rfl rfl rfl

theorem keeps_forward {uninit : UInt16} {r : AgentBase × List Emission} (h : Owned log s) (hp : Genuine log p)
    (hpush : ForeignAgentReplyProcess.push uninit s p = some r) : Keeps log r := by
  by_cases hreply : p.IsReply
  · rw [ForeignAgentReplyProcess.push_reply uninit hreply] at hpush
    cases hpush
    exact ⟨h.congr rfl rfl rfl,(hp.forward s hreply).single 0⟩
  · rw [ForeignAgentReplyProcess.push_other uninit hreply] at hpush
    cases hpush
    exact keeps_nil h

theorem keeps_foreignTimer {alloc : ℕ → Bool} {tick : ForeignAgentReqProcess.Tick} (h : Owned log s)
    (ht : ForeignAgentReqProcess.runTimer alloc s = some tick) : Keeps log (tick.base,tick.emitted) := by
  refine ⟨?_,genuine_runTimer ht⟩
  obtain ⟨tick',ht',pending,visitors,hbase,-⟩ := ForeignAgentReqProcess.runTimer_origin alloc s
  cases Option.some.inj (ht.symm.trans ht')
  dsimp only
  rw [hbase]
  exact h.congr rfl rfl rfl

end Bindings

section Runs
variable {ν ι : Type} {w : World ν ι} {log : Log ν}

structure Traced (w : World ν ι) (log : Log ν) : Prop where
  sent : ∀ p ∈ w.sent, Genuine log p
  requested : ∀ n q, (n,q) ∈ log → MobileNode.Requested (w.node n) q
  owned : ∀ i, Owned log (w.agent i)

theorem traced_initial (S : Setup ν ι) : Traced (initial S) [] := by
  refine ⟨fun p hp => absurd hp List.not_mem_nil,fun n q hmem => absurd hmem List.not_mem_nil,?_⟩
  intro i
  refine ⟨HomeAgent.consistent_configure _ _ _,fun addr entry he => ?_⟩
  cases he

theorem Traced.extend {ps : List Packet} (h : Traced w log) (hps : ∀ p ∈ ps, Genuine log p) :
    Traced { w with sent := w.sent ++ ps } log := by
  refine ⟨fun p hp => ?_,h.requested,h.owned⟩
  rcases List.mem_append.mp hp with hp | hp
  · exact h.sent p hp
  · exact hps p hp

theorem genuine_map {out : List Emission} (hout : ∀ x ∈ out, Genuine log x.packet) :
    ∀ p ∈ out.map Emission.packet, Genuine log p := by
  intro p hp
  obtain ⟨x,hx,rfl⟩ := List.mem_map.mp hp
  exact hout x hx

theorem Traced.through {out : List Emission} (h : Traced w log) (hout : ∀ x ∈ out, Genuine log x.packet) :
    Traced (w.through out).1 (log ++ (w.through out).2) := by
  rw [World.through,List.append_nil]
  exact h.extend (genuine_map hout)

theorem genuine_requested {s : MobileNode} {q : Packet} {n : ν} (hq : MobileNode.Requested s q)
    (hmem : (n,q) ∈ log) : Genuine log q := by
  obtain ⟨d,a,u,-,rfl⟩ := hq
  refine .request n _ hmem ?_ rfl
  simp [RegistrationRequestSource.requestPacket,sealIp]

theorem requested_congr {s t : MobileNode} {q : Packet} (hq : MobileNode.Requested s q)
    (ht : MobileNode.SameAddresses s t) : MobileNode.Requested t q := by
  obtain ⟨d,a,u,hu,rfl⟩ := hq
  exact ⟨d,a,u,⟨hu.myAddress.trans ht.myAddress.symm,hu.homePrivateAddr.trans ht.homePrivateAddr.symm,
    hu.homePublicAddr.trans ht.homePublicAddr.symm⟩,rfl⟩

theorem Traced.atAgent [DecidableEq ι] {i : ι} {r : AgentBase × List Emission} (h : Traced w log)
    (hr : Keeps log r) : Traced (w.atAgent i r).1 (log ++ (w.atAgent i r).2) := by
  rw [World.atAgent,List.append_nil]
  refine ⟨(h.extend (genuine_map hr.2)).sent,h.requested,fun j => ?_⟩
  dsimp only
  by_cases hj : j = i
  · subst hj
    rw [Function.update_self]
    exact hr.1
  · rw [Function.update_of_ne hj]
    exact h.owned j

theorem Traced.atNode [DecidableEq ν] {n : ν} {e : MobileNode.Event} {r : MobileNode × List Emission} (h : Traced w log)
    (hstep : (w.node n).step e = some r) : Traced (w.atNode n r).1 (log ++ (w.atNode n r).2) := by
  obtain ⟨haddr,hout⟩ := MobileNode.step_sends hstep
  have hsub : log ⊆ log ++ (w.atNode n r).2 := List.subset_append_left _ _
  have hnew : ∀ x ∈ r.2, (n,x.packet) ∈ log ++ (w.atNode n r).2 := fun x hx =>
    List.mem_append_right _ (List.mem_map_of_mem hx)
  refine ⟨fun p hp => ?_,fun m q hmem => ?_,fun i => (h.owned i).mono hsub⟩
  · rcases List.mem_append.mp hp with hp | hp
    · exact (h.sent p hp).mono hsub
    · obtain ⟨x,hx,rfl⟩ := List.mem_map.mp hp
      exact genuine_requested (hout x hx) (hnew x hx)
  · have hold : MobileNode.Requested (w.node m) q := by
      rcases List.mem_append.mp hmem with hmem | hmem
      · exact h.requested m q hmem
      · obtain ⟨x,hx,heq⟩ := List.mem_map.mp hmem
        cases heq
        exact hout x hx
    by_cases hm : m = n
    · subst hm
      rw [World.atNode]
      dsimp only
      rw [Function.update_self]
      exact requested_congr hold haddr
    · rw [World.atNode]
      dsimp only
      rw [Function.update_of_ne hm]
      exact hold

variable [DecidableEq ν] [DecidableEq ι]

theorem step_traced {e : Event ν ι} {r : World ν ι × Log ν} (h : Traced w log) (hstep : step w e = some r) :
    Traced r.1 (log ++ r.2) := by
  have hsent : ∀ {k p}, w.sent[k]? = some p → Genuine log p := fun hk => h.sent _ (List.mem_of_getElem? hk)
  cases e with
  | advertise i alloc =>
    cases hstep
    rw [List.append_nil]
    have hnew := h.extend (genuine_createPacket (w.advertiser i) alloc (w.agent i))
    exact ⟨hnew.sent,hnew.requested,hnew.owned⟩
  | solicit n alloc =>
    cases hstep
    rw [List.append_nil]
    exact h.extend (genuine_solicitation alloc (w.node n))
  | hear n draws k =>
    obtain ⟨p,-,hp⟩ := Option.bind_eq_some_iff.mp hstep
    obtain ⟨q,hq,rfl⟩ := Option.map_eq_some_iff.mp hp
    exact h.atNode hq
  | answer n k =>
    obtain ⟨p,-,hp⟩ := Option.bind_eq_some_iff.mp hstep
    obtain ⟨q,hq,rfl⟩ := Option.map_eq_some_iff.mp hp
    exact h.atNode hq
  | handlerTimer n d =>
    obtain ⟨q,hq,rfl⟩ := Option.map_eq_some_iff.mp hstep
    exact h.atNode hq
  | sourceTimer n =>
    obtain ⟨q,hq,rfl⟩ := Option.map_eq_some_iff.mp hstep
    exact h.atNode hq
  | sourceTimer2 n d =>
    obtain ⟨q,hq,rfl⟩ := Option.map_eq_some_iff.mp hstep
    exact h.atNode hq
  | gateway n k =>
    obtain ⟨p,hk,rfl⟩ := Option.map_eq_some_iff.mp hstep
    have hset : Genuine log { p with dstIpAnno := (w.node n).currPrivateAddr } := (hsent hk).congr rfl rfl rfl
    exact h.through (hset.single 0)
  | filter i k =>
    obtain ⟨p,hk,hp⟩ := Option.bind_eq_some_iff.mp hstep
    obtain ⟨out,hout,rfl⟩ := Option.map_eq_some_iff.mp hp
    exact h.through ((hsent hk).mobileIPFilter hout)
  | serve i alloc k =>
    obtain ⟨p,hk,hp⟩ := Option.bind_eq_some_iff.mp hstep
    obtain ⟨q,hpush,rfl⟩ := Option.map_eq_some_iff.mp hp
    exact h.atAgent (keeps_serve (h.owned i) (hsent hk) hpush)
  | relay i alloc k =>
    obtain ⟨p,hk,rfl⟩ := Option.map_eq_some_iff.mp hstep
    exact h.atAgent (keeps_relay (h.owned i) (hsent hk) (ForeignAgentReqProcess.push_pushed alloc _ p))
  | forward i uninit k =>
    obtain ⟨p,hk,hp⟩ := Option.bind_eq_some_iff.mp hstep
    obtain ⟨q,hpush,rfl⟩ := Option.map_eq_some_iff.mp hp
    exact h.atAgent (keeps_forward (h.owned i) (hsent hk) hpush)
  | encapsulate i alloc k =>
    obtain ⟨p,hk,hp⟩ := Option.bind_eq_some_iff.mp hstep
    obtain ⟨out,hout,rfl⟩ := Option.map_eq_some_iff.mp hp
    exact h.through ((hsent hk).ipEncapsulation hout)
  | decapsulate i k =>
    obtain ⟨p,hk,hp⟩ := Option.bind_eq_some_iff.mp hstep
    obtain ⟨out,hout,rfl⟩ := Option.map_eq_some_iff.mp hp
    exact h.through ((hsent hk).ipDecap hout)
  | homeTimer i =>
    obtain ⟨q,ht,rfl⟩ := Option.map_eq_some_iff.mp hstep
    exact h.atAgent (keeps_homeTimer (h.owned i) ht)
  | foreignTimer i alloc =>
    obtain ⟨tick,ht,rfl⟩ := Option.map_eq_some_iff.mp hstep
    exact h.atAgent (keeps_foreignTimer (h.owned i) ht)

/-- In every state that a run reaches, each binding sits under its own home address, and a
node with that address has sent a request for it: with a lifetime, to this home agent, for
the care-of address and with the two ids of the binding. Relays keep the payload. -/
theorem bindings_requested (S : Setup ν ι) {es : List (Event ν ι)}
    (hr : run step (initial S) es = some (w,log)) :
    (∀ i addr entry, (w.agent i).table addr = some entry → entry.mobileNodeHomadress = addr ∧
      ∃ n q, (n,q) ∈ log ∧ (w.node n).myAddress = addr ∧ MobileNode.Requested (w.node n) q ∧
        q.request.lifetime ≠ 0 ∧ q.request.homeAgent = (w.agent i).publicAddr ∧
        q.request.coAddr = entry.mobileNodeCoa ∧ q.request.id1 = entry.id1 ∧ q.request.id2 = entry.id2) ∧
    ∀ alloc s p, ∀ x ∈ (ForeignAgentReqProcess.push alloc s p).2, x.port = 1 →
      x.packet.data.drop 28 = p.data.drop 28 := by
  have htraced : Traced w log := by
    simpa using run_invariant (P := Traced) (fun _ _ _ _ _ h hstep => step_traced h hstep)
      (traced_initial S) hr
  constructor
  · intro i addr entry he
    have hkey := (htraced.owned i).consistent.key addr entry he
    obtain ⟨n,q,hmem,hq⟩ := (htraced.owned i).origin addr entry he
    have hrequested := htraced.requested n q hmem
    have hnode : (w.node n).myAddress = addr := by
      obtain ⟨d,a,u,hu,rfl⟩ := hrequested
      calc (w.node n).myAddress = u.myAddress := hu.myAddress.symm
        _ = (RegistrationRequestSource.requestPacket d u a).request.homeAddr :=
          (System.asks_requestPacket d u a).homeAddr.symm
        _ = entry.mobileNodeHomadress := hq.homeAddr
        _ = addr := hkey
    exact ⟨hkey,n,q,hmem,hnode,hrequested,hq.lifetime,hq.homeAgent,hq.coAddr,hq.id1,hq.id2⟩
  · intro alloc s p x hx hport
    exact payload_relayed (ForeignAgentReqProcess.push_pushed alloc s p) x hx hport

/-- Node 9 of home agent 1 meets the agent at 3 and 4. -/
def sampleSetup : Setup Unit Bool where
  registrant _ := ⟨9,1,2⟩
  publicAddr i := if i then 3 else 1
  privateAddr i := if i then 4 else 2
  lifetimeReg _ := 25
  advertiser _ := ⟨true,false,30,4000,0⟩

/-- The request reaches the home agent through the foreign agent, twice. -/
def sampleEvents : List (Event Unit Bool) :=
  [.advertise true true,.hear () (fun _ => ⟨true,5,6,7⟩) 0,.filter true 1,.relay true true 2,.filter false 3,
    .serve false true 4,.homeTimer false,.serve false true 3]

theorem bindings_requested_sample :
    ∃ w log entry n q, run step (initial sampleSetup) sampleEvents = some (w,log) ∧
      (w.agent false).table 9 = some entry ∧ (n,q) ∈ log ∧ q.request.coAddr = entry.mobileNodeCoa := by
  have hany : (run step (initial sampleSetup) sampleEvents).any
      (fun r => ((r.1.agent false).table 9).isSome) = true := by decide +kernel
  obtain ⟨⟨w,log⟩,hr,hbound⟩ := (Option.any_eq_true _ _).mp hany
  obtain ⟨entry,he⟩ := Option.isSome_iff_exists.mp hbound
  obtain ⟨-,n,q,hmem,-,-,-,-,hcoa,-⟩ := (bindings_requested sampleSetup hr).1 false 9 entry he
  exact ⟨w,log,entry,n,q,hr,he,hmem,hcoa⟩

end Runs
end ClickMobileIP.Provenance
