import ClickMobileIP.Agent.HomeReplies
import ClickMobileIP.System.Registration

/-! # A registration is not a deregistration

The registration lifetime of an agent is an `int` that no one checks. It is cut to sixteen
bits in the advertisement, the node copies it into its request, the foreign agent compares
it with the `int` again, and the home agent takes a request for zero seconds for a
deregistration. The result says for which lifetimes it never does.
-/
namespace ClickMobileIP.System
open AdvertisementsHandler (decode decode_advertisementPacket)
open ForeignAgentReqProcess (Admitted push_admitted)
open RegistrationRequestSource (newReq requestPacket accept)

section Registration
variable {adv : AgentAdvertiser} {agent foreign home : AgentBase} {s : MobileNode} {d : Draw} {q : Packet}

/-- The foreign agent relays the request, the filter of the home agent hands it on, it asks
for more than zero seconds and gets a binding, the reply leaves on the public side, and no
node that receives it from a foreign agent takes itself to be home. -/
def ProcessedAsRegistration (home foreign : AgentBase) (q : Packet) : Prop :=
  ∃ foreign' r home' a entry,
    ForeignAgentReqProcess.push true foreign q = (foreign',[⟨1,r⟩]) ∧
    MobileIPFilter.push home r = some [⟨2,r⟩] ∧ r.request.lifetime ≠ 0 ∧
    RegistrationRequestReply.push true home r = some (home',[⟨0,a⟩]) ∧
    home'.table q.request.homeAddr = some entry ∧ entry.mobileNodeCoa = q.request.coAddr ∧
    entry.lifetime = r.request.lifetime ∧
    ∀ other u, (RegistrationRequestSource.push u (ForeignAgentReplyProcess.forward other a)).home = true →
      u.home = true

theorem home_push {u : MobileNode} {p : Packet} (hlife : p.reply.lifetime ≠ 0)
    (h : (RegistrationRequestSource.push u p).home = true) : u.home = true := by
  refine RegistrationRequestSource.push_preserves (P := fun t => t.home = true → u.home = true) ?_ (fun hu => hu) h
  intro t it _ haccept
  exact absurd ((home_accept p t it).mp haccept) hlife

/-- A home agent with the right address binds a request that asks for any time. Every
binding has time left, so a duplicate too is told of more than zero seconds. -/
theorem push_registration {n : Registrant} {r : Request} (hhome : HomeAgent.Reachable home) (h : Asks n r q)
    (haddr : home.publicAddr = n.homePublicAddr) (hlife : q.request.lifetime ≠ 0) :
    ∃ lifetime, lifetime ≠ 0 ∧ RegistrationRequestReply.push true home q =
      some (RegistrationRequestReply.bind home q.request,[⟨0,RegistrationRequestReply.makeReply q 0 lifetime⟩]) := by
  have hok : HomeAgent.Acceptable home q := by
    unfold HomeAgent.Acceptable
    rw [h.flags,h.homeAgent,haddr]
    exact ⟨rfl,rfl,rfl,rfl⟩
  obtain ⟨t,out,hpush,hpushed⟩ := RegistrationRequestReply.push_pushed true home q
  cases hpushed with
  | ignored hno => exact absurd (HomeAgent.validatePacket_eq_zero.mpr hok) (hno h.isRequest rfl)
  | bound _ _ _ _ lifetime hdup =>
    refine ⟨lifetime,?_,hpush⟩
    rcases hdup with ⟨-,rfl⟩ | hfound
    · exact hlife
    · obtain ⟨entry,hentry,-,rfl⟩ := (HomeAgent.findDuplicate_eq_some hhome.consistent).mp hfound
      exact hhome.consistent.alive _ entry hentry
  | unbound _ _ _ hzero _ _ => exact absurd hzero hlife

theorem toUInt16_eq_zero {n : ℤ} : toUInt16 n = 0 ↔ n % 65536 = 0 := by
  have hfield := toUInt16_toNat n
  rw [← UInt16.toNat_inj,UInt16.toNat_zero]
  omega

theorem lifetime_request_eq_zero (adv : AgentAdvertiser) (d : Draw) (haway : agent.privateAddr ≠ s.homePrivateAddr) :
    (requestPacket d s (decode (adv.advertisementPacket agent))).request.lifetime = 0 ↔
      agent.lifetimeReg % 65536 = 0 := by
  have hrequest : (requestPacket d s (decode (adv.advertisementPacket agent))).request.lifetime =
      htons (toUInt16 agent.lifetimeReg) := by
    rw [(asks_requestPacket d s _).lifetime,Registrant.lifetime,newReq,decode_advertisementPacket]
    exact if_neg haway
  rw [hrequest,htons_eq_zero,toUInt16_eq_zero]

/-- For every registration lifetime and every advertisement of the agent: the request that a
node away from home makes of it and that a foreign agent relays is processed as a
registration exactly if the sixteen bits of the lifetime are not all zero. -/
theorem processed_as_registration_iff (hhome : HomeAgent.Reachable home) (haddr : home.publicAddr = s.homePublicAddr)
    (haway : agent.privateAddr ≠ s.homePrivateAddr)
    (hadmitted : Admitted foreign (requestPacket d s (decode (adv.advertisementPacket agent)))) :
    ProcessedAsRegistration home foreign (requestPacket d s (decode (adv.advertisementPacket agent))) ↔
      agent.lifetimeReg % 65536 ≠ 0 := by
  have hasks := asks_requestPacket d s (decode (adv.advertisementPacket agent))
  rw [ne_eq,← lifetime_request_eq_zero adv d haway]
  generalize requestPacket d s (decode (adv.advertisementPacket agent)) = q at hadmitted hasks ⊢
  have hrelayed := asks_relay foreign hasks
  have hsame := ForeignAgent.request_relay foreign q
  constructor
  · rintro ⟨foreign',r,home',a,entry,hrelay,-,hlife,-⟩
    rw [push_admitted true hadmitted] at hrelay
    cases hrelay
    rwa [hsame] at hlife
  · intro hlife
    rw [← hsame] at hlife
    obtain ⟨lifetime,hgranted,hpush⟩ := push_registration hhome hrelayed haddr hlife
    have hentry : (RegistrationRequestReply.bind home (ForeignAgentReqProcess.relay foreign q).request).table
        q.request.homeAddr = some ⟨q.request.homeAddr,q.request.coAddr,q.request.lifetime,q.request.id1,
          q.request.id2⟩ := by rw [RegistrationRequestReply.bind_table,hsame,if_pos rfl]
    refine ⟨_,_,_,_,_,push_admitted true hadmitted,filter_home hrelayed haddr.symm,hlife,hpush,hentry,rfl,?_,?_⟩
    · rw [hsame]
    · intro other u hu
      apply home_push ?_ hu
      rw [reply_forward,RegistrationRequestReply.makeReply,reply_udpPacket_self]
      exact hgranted

def askedThrough (agent : AgentBase) : Packet :=
  requestPacket ⟨true,0,0,0⟩ (MobileNode.configure 9 2 1)
    (decode (AgentAdvertiser.advertisementPacket ⟨true,true,30,4000,0⟩ agent))

theorem processed_as_registration_sample :
    ProcessedAsRegistration (AgentBase.configure 1 2 25) (AgentBase.configure 5 6 25)
      (askedThrough (AgentBase.configure 5 6 25)) := by
  have hadmitted : Admitted (AgentBase.configure 5 6 25) (askedThrough (AgentBase.configure 5 6 25)) := by
    decide +kernel
  exact (processed_as_registration_iff (HomeAgent.reachable_configure 1 2 25) rfl (by decide) hadmitted).mpr
    (by decide)

def longAgent : AgentBase := AgentBase.configure 5 6 65536

/-- The agent advertises zero seconds; it relays the request of the node, and the home agent
takes it for a deregistration and answers on the private side. -/
theorem registration_taken_for_deregistration :
    Admitted longAgent (askedThrough longAgent) ∧
    (∃ t a, RegistrationRequestReply.push true (AgentBase.configure 1 2 25)
        (ForeignAgentReqProcess.relay longAgent (askedThrough longAgent)) = some (t,[⟨1,a⟩]) ∧ t.table 9 = none) ∧
    ¬ProcessedAsRegistration (AgentBase.configure 1 2 25) longAgent (askedThrough longAgent) := by
  have hadmitted : Admitted longAgent (askedThrough longAgent) := by decide +kernel
  have hzero : (askedThrough longAgent).request.lifetime = 0 := by decide +kernel
  have hpush : (RegistrationRequestReply.push true (AgentBase.configure 1 2 25)
      (ForeignAgentReqProcess.relay longAgent (askedThrough longAgent))).any
      (fun r => decide (r.2.map Emission.port = [1] ∧ r.1.table 9 = none)) = true := by decide +kernel
  obtain ⟨⟨t,out⟩,hr,ht⟩ := (Option.any_eq_true _ _).mp hpush
  obtain ⟨hport,htable⟩ := of_decide_eq_true ht
  obtain ⟨⟨port,a⟩,rfl,rfl⟩ := List.map_eq_singleton_iff.mp hport
  refine ⟨hadmitted,⟨t,a,hr,htable⟩,?_⟩
  rintro ⟨foreign',r,home',b,entry,hrelay,-,hlife,-⟩
  rw [push_admitted true hadmitted] at hrelay
  cases hrelay
  rw [ForeignAgent.request_relay] at hlife
  exact hlife hzero

end Registration
end ClickMobileIP.System
