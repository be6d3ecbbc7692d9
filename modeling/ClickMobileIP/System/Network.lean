import ClickMobileIP.Node.KnownAgents
import ClickMobileIP.System.Registration
import Mathlib.Data.List.Nodup

/-! # A mobile node and its agents over a network

One node, its home agent and any number of foreign agents exchange registrations over
a network that delays, reorders and duplicates packets but neither forges nor loses
them. The node hears advertisements of any agent at any time; no timer fires and
`Packet::make` succeeds at the agents.

The log of a run tells which requests the home agent served and which replies the node
accepted, in the order in which they did, with the requests numbered in the order in
which the node sent them.
-/
namespace ClickMobileIP.System
open RegistrationRequestSource (makePacket)

section Model
variable {ι : Type}

/-- The agents, which of them is the home agent, and addresses that tell everybody
apart. -/
structure Topology (ι : Type) where
  home : ι
  publicAddr : ι → IPAddress
  privateAddr : ι → IPAddress
  node : IPAddress
  public_injective : Function.Injective publicAddr
  private_injective : Function.Injective privateAddr
  public_ne_private : ∀ i j, publicAddr i ≠ privateAddr j
  node_ne_public : ∀ i, node ≠ publicAddr i
  node_ne_private : ∀ i, node ≠ privateAddr i

structure State (ι : Type) where
  node : MobileNode
  agents : ι → AgentBase
  network : List Packet

def initial (T : Topology ι) (lifetimeReg : ι → ℤ) : State ι where
  node := MobileNode.configure T.node (T.privateAddr T.home) (T.publicAddr T.home)
  agents i := AgentBase.configure (T.publicAddr i) (T.privateAddr i) (lifetimeReg i)
  network := []

/-- The registration path of an agent: every output of the filter leads to its element. Agents of the network
have memory for their answers. -/
def receive (uninit : UInt16) (s : AgentBase) (p : Packet) (alloc : Bool := true) : Option (AgentBase × List Emission) :=
  match MobileIPFilter.push s p with
  | some [⟨1,q⟩] => ForeignAgentReplyProcess.push uninit s q
  | some [⟨2,q⟩] => RegistrationRequestReply.push alloc s q
  | some [⟨3,q⟩] => some (ForeignAgentReqProcess.push alloc s q)
  | some _ => some (s,[])
  | none => none

inductive Event (ι : Type)
  | hear (i : ι) (adv : AgentAdvertiser) (draws : ℕ → Draw)
  | toNode (k : ℕ)
  | toAgent (k : ℕ) (i : ι) (uninit : UInt16)
  | duplicate (k : ℕ)

/-- The home agent served a request; the node accepted a reply. Requests are numbered
by their place among the records of the node. -/
inductive Note
  | served (j : ℕ)
  | accepted (j : ℕ)
  deriving DecidableEq, Repr

def number (records : List Request) (id1 id2 : UInt32) : ℕ :=
  records.findIdx (fun r => r.id1 == id1 && r.id2 == id2)

/-- What the log says of a packet that the node receives. -/
def acceptedNote (s : State ι) (p : Packet) : List Note :=
  if p.IsReply ∧ (p.reply.code = 0 ∨ p.reply.code = 1) then
    [.accepted (number s.node.currentRequests p.reply.id1 p.reply.id2)]
  else []

/-- What the log says of a packet that an agent receives. -/
def servedNote (s : State ι) (i : ι) (p : Packet) : List Note :=
  if MobileIPFilter.push (s.agents i) p = some [⟨2,p⟩] then
    [.served (number s.node.currentRequests p.request.id1 p.request.id2)]
  else []

variable [DecidableEq ι]

/-- A packet can only be delivered to the party whose address it carries. -/
def step (s : State ι) : Event ι → Option (State ι × List Note)
  | .hear i adv draws =>
    (s.node.step (.advertisement draws (adv.advertisementPacket (s.agents i)))).map
      (fun r => ({ s with node := r.1, network := s.network ++ r.2.map Emission.packet },[]))
  | .toNode k =>
    match s.network[k]? with
    | none => none
    | some p =>
      if p.ip.ipDst = s.node.myAddress then
        some ({ s with node := RegistrationRequestSource.push s.node p, network := s.network.eraseIdx k },
          acceptedNote s p)
      else none
  | .toAgent k i uninit =>
    match s.network[k]? with
    | none => none
    | some p =>
      if p.ip.ipDst = (s.agents i).publicAddr ∨ p.ip.ipDst = (s.agents i).privateAddr then
        (receive uninit (s.agents i) p).map (fun r =>
          ({ s with
              agents := Function.update s.agents i r.1
              network := s.network.eraseIdx k ++ r.2.map Emission.packet },
            servedNote s i p))
      else none
  | .duplicate k =>
    match s.network[k]? with
    | none => none
    | some p => some ({ s with network := s.network ++ [p] },[])

inductive Stepped (s : State ι) : Event ι → State ι → List Note → Prop
  | heard (i : ι) (adv : AgentAdvertiser) (draws : ℕ → Draw) :
      Stepped s (.hear i adv draws)
        { s with
          node := (AdvertisementsHandler.push draws s.node (adv.advertisementPacket (s.agents i))).node
          network := s.network ++ (AdvertisementsHandler.push draws s.node
            (adv.advertisementPacket (s.agents i))).sent.map Emission.packet } []
  | delivered (k : ℕ) (p : Packet) (hp : s.network[k]? = some p) (hdst : p.ip.ipDst = s.node.myAddress) :
      Stepped s (.toNode k)
        { s with
          node := RegistrationRequestSource.push s.node p
          network := s.network.eraseIdx k } (acceptedNote s p)
  | received (k : ℕ) (i : ι) (uninit : UInt16) (p : Packet) (agent : AgentBase) (sent : List Emission)
      (hp : s.network[k]? = some p)
      (hdst : p.ip.ipDst = (s.agents i).publicAddr ∨ p.ip.ipDst = (s.agents i).privateAddr)
      (hreceive : receive uninit (s.agents i) p = some (agent,sent)) :
      Stepped s (.toAgent k i uninit)
        { s with
          agents := Function.update s.agents i agent
          network := s.network.eraseIdx k ++ sent.map Emission.packet } (servedNote s i p)
  | duplicated (k : ℕ) (p : Packet) (hp : s.network[k]? = some p) :
      Stepped s (.duplicate k) { s with network := s.network ++ [p] } []

theorem stepped_of_step {s t : State ι} {e : Event ι} {out : List Note} (h : step s e = some (t,out)) :
    Stepped s e t out := by
  cases e with
  | hear i adv draws =>
    rw [step,MobileNode.step,if_pos (AdvFilter.push_advertisementPacket adv (s.agents i)),Option.map_some] at h
    obtain ⟨rfl,rfl⟩ := Prod.mk.inj (Option.some.inj h)
    exact .heard i adv draws
  | toNode k =>
    rw [step] at h
    split at h
    · cases h
    rename_i p hp
    split at h
    · rename_i hdst
      obtain ⟨rfl,rfl⟩ := Prod.mk.inj (Option.some.inj h)
      exact .delivered k p hp hdst
    · cases h
  | toAgent k i uninit =>
    rw [step] at h
    split at h
    · cases h
    rename_i p hp
    split at h
    · rename_i hdst
      obtain ⟨⟨agent,sent⟩,hreceive,hresult⟩ := Option.map_eq_some_iff.mp h
      obtain ⟨rfl,rfl⟩ := Prod.mk.inj hresult
      exact .received k i uninit p agent sent hp hdst hreceive
    · cases h
  | duplicate k =>
    rw [step] at h
    split at h
    · cases h
    rename_i p hp
    obtain ⟨rfl,rfl⟩ := Prod.mk.inj (Option.some.inj h)
    exact .duplicated k p hp

def Note.served? : Note → Option ℕ
  | .served j => some j
  | .accepted _ => none

def Note.accepted? : Note → Option ℕ
  | .served _ => none
  | .accepted j => some j

/-- Neither the home agent nor the node is overtaken: what they process never gets
older. -/
def InOrder (log : List Note) : Prop :=
  (log.filterMap Note.served?).Pairwise (· ≤ ·) ∧ (log.filterMap Note.accepted?).Pairwise (· ≤ ·)

def FreshIds (s : State ι) : Prop := (s.node.currentRequests.map (fun r => (r.id1,r.id2))).Nodup

instance (log : List Note) : Decidable (InOrder log) := inferInstanceAs (Decidable (_ ∧ _))

instance (s : State ι) : Decidable (FreshIds s) := inferInstanceAs (Decidable (List.Nodup _))

def lastServed (log : List Note) : Option ℕ := (log.filterMap Note.served?).getLast?

def lastAccepted (log : List Note) : Option ℕ := (log.filterMap Note.accepted?).getLast?

/-- The home agent has come as far as request `j`. -/
def Served (log : List Note) (j : ℕ) : Prop := ∃ h, lastServed log = some h ∧ j ≤ h

end Model

section Records
variable {records : List Request} {r q : Request} {j k : ℕ}

theorem eq_of_fresh (hfresh : (records.map (fun r => (r.id1,r.id2))).Nodup) (hj : records[j]? = some r)
    (hk : records[k]? = some q) (hid1 : r.id1 = q.id1) (hid2 : r.id2 = q.id2) : j = k := by
  have hlen : j < (records.map (fun r => (r.id1,r.id2))).length := by
    rw [List.length_map]
    exact (List.getElem?_eq_some_iff.mp hj).1
  refine (List.getElem?_inj hlen hfresh).mp ?_
  rw [List.getElem?_map,List.getElem?_map,hj,hk,Option.map_some,Option.map_some,hid1,hid2]

theorem number_of_fresh (hfresh : (records.map (fun r => (r.id1,r.id2))).Nodup) (hj : records[j]? = some r) :
    number records r.id1 r.id2 = j := by
  obtain ⟨hlt,hget⟩ := List.getElem?_eq_some_iff.mp hj
  have hfound : number records r.id1 r.id2 < records.length :=
    List.findIdx_lt_length_of_exists ⟨r,List.mem_of_getElem? hj,by simp⟩
  have hat : records[number records r.id1 r.id2]? = some records[number records r.id1 r.id2] :=
    List.getElem?_eq_getElem hfound
  have hids := List.findIdx_getElem (w := hfound)
  rw [Bool.and_eq_true,beq_iff_eq,beq_iff_eq] at hids
  exact eq_of_fresh hfresh hat hj hids.1 hids.2

end Records

section Log
variable {log out : List Note} {j h : ℕ}

@[simp] theorem lastServed_append_served : lastServed (log ++ [.served j]) = some j := by
  simp [lastServed,Note.served?]

@[simp] theorem lastServed_append_accepted : lastServed (log ++ [.accepted j]) = lastServed log := by
  simp [lastServed,Note.served?]

@[simp] theorem lastAccepted_append_accepted : lastAccepted (log ++ [.accepted j]) = some j := by
  simp [lastAccepted,Note.accepted?]

@[simp] theorem lastAccepted_append_served : lastAccepted (log ++ [.served j]) = lastAccepted log := by
  simp [lastAccepted,Note.accepted?]

@[simp] theorem served_append_accepted {d : ℕ} : Served (log ++ [.accepted j]) d ↔ Served log d := by
  rw [Served,Served,lastServed_append_accepted]

theorem served_self : Served (log ++ [.served j]) j := ⟨j,lastServed_append_served,le_refl j⟩

theorem InOrder.left (hlog : InOrder (log ++ out)) : InOrder log := by
  unfold InOrder at hlog ⊢
  rw [List.filterMap_append,List.filterMap_append] at hlog
  exact ⟨(List.pairwise_append.mp hlog.1).1,(List.pairwise_append.mp hlog.2).1⟩

theorem InOrder.served_le (hlog : InOrder (log ++ [.served j])) (hlast : lastServed log = some h) : h ≤ j := by
  have hpair := hlog.1
  rw [List.filterMap_append] at hpair
  exact (List.pairwise_append.mp hpair).2.2 h (List.mem_of_getLast? hlast) j (by simp [Note.served?])

theorem InOrder.served_mono (hlog : InOrder (log ++ [.served j])) {d : ℕ} (hd : Served log d) :
    Served (log ++ [.served j]) d := by
  obtain ⟨h,hh,hle⟩ := hd
  exact ⟨j,lastServed_append_served,hle.trans (hlog.served_le hh)⟩

theorem InOrder.accepted_le (hlog : InOrder (log ++ [.accepted j])) (hlast : lastAccepted log = some h) :
    h ≤ j := by
  have hpair := hlog.2
  rw [List.filterMap_append] at hpair
  exact (List.pairwise_append.mp hpair).2.2 h (List.mem_of_getLast? hlast) j (by simp [Note.accepted?])

end Log

section Growth
variable {ι : Type} {s t : State ι}

theorem FreshIds.before (h : FreshIds t) (hrecords : s.node.currentRequests <+: t.node.currentRequests) :
    FreshIds s :=
  h.sublist (hrecords.sublist.map _)

theorem step_records [DecidableEq ι] {e : Event ι} {out : List Note} (hstep : step s e = some (t,out)) :
    s.node.currentRequests <+: t.node.currentRequests := by
  cases stepped_of_step hstep with
  | heard i adv draws =>
    refine AdvertisementsHandler.push_preserves
      (P := fun x => s.node.currentRequests <+: x.node.currentRequests) ?_ (fun x known hx => hx) (List.prefix_refl _)
    intro x hx
    by_cases halloc : (draws x.calls).alloc = false
    · rw [AdvertisementsHandler.Activation.makePacket,makePacket,if_pos halloc]
      exact hx
    · obtain ⟨t,hmake,hrecords,-⟩ := makePacket_alloc (s := x.node) (d := draws x.calls)
        (a := AdvertisementsHandler.decode (adv.advertisementPacket (s.agents i))) (by simpa using halloc)
      rw [AdvertisementsHandler.Activation.makePacket,hmake]
      dsimp only
      rw [hrecords]
      exact hx.trans (List.prefix_append _ _)
  | delivered k p hp hdst =>
    refine RegistrationRequestSource.push_preserves
      (P := fun x => s.node.currentRequests <+: x.currentRequests) (fun t r ht => ?_) (List.prefix_refl _)
    rw [currentRequests_accept]
    exact ht
  | received k i uninit p agent sent hp hdst hreceive => exact List.prefix_refl _
  | duplicated k p hp => exact List.prefix_refl _

end Growth
end ClickMobileIP.System
