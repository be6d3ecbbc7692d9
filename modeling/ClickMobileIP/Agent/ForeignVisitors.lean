import ClickMobileIP.Agent.ForeignAgentReplyProcess

/-! # Visitors of a foreign agent over whole runs

A reply that accepts a registration is forwarded whatever the lists hold, and its
entry is found by the two ids alone. The results below say exactly when the visitor
list agrees with what was forwarded, and when an entry belongs to the reply that
made it.
-/
namespace ClickMobileIP.ForeignAgent
open EventRun
open ForeignAgentReplyProcess (sameIds settled forward visitorItem push_reply)
open ForeignAgentReqProcess (relay visitorVisit)

section Forwarding

@[simp] theorem ipDst_forward (s : AgentBase) (p : Packet) : (forward s p).ip.ipDst = p.reply.homeAddr := by
  simp [forward,sealIp]

/-- A reply that is forwarded to a node leaves the node in the visitor list. -/
def NoBlackHole (s : AgentBase) (uninit : UInt16) (p : Packet) : Prop :=
  ∀ t out, step s (.reply uninit p) = some (t,out) →
    (∃ e ∈ out, e.packet.ip.ipDst = p.reply.homeAddr) → t.inMapNode p.reply.homeAddr = true

/-- The node is a visitor already, or its request is the first pending one with the
ids of the reply. -/
def Expected (s : AgentBase) (format : RegistrationRequestReplyPacketheader) : Prop :=
  s.inMapNode format.homeAddr = true ∨
    (s.registrationReq.find? (sameIds format)).any (fun it => it.ipSrc == format.homeAddr) = true

instance (s : AgentBase) (format : RegistrationRequestReplyPacketheader) :
    Decidable (Expected s format) := inferInstanceAs (Decidable (_ ∨ _))

theorem inMapNode_settled {s : AgentBase} {format : RegistrationRequestReplyPacketheader}
    (uninit : UInt16) (hcode : format.code = 0 ∨ format.code = 1) :
    (settled uninit s format).inMapNode format.homeAddr = true ↔ Expected s format := by
  unfold Expected
  cases hfind : s.registrationReq.find? (sameIds format) with
  | none => simp [settled,hcode,hfind,AgentBase.inMapNode]
  | some it =>
    have hlist : (settled uninit s format).visitorMap =
        s.visitorMap.filter (fun v => v.ipSrc ≠ it.ipSrc) ++ [visitorItem uninit it format] := by
      simp only [settled,hcode,hfind,↓reduceIte]
    simp only [AgentBase.inMapNode_iff,hlist,List.mem_append,List.mem_filter,List.mem_singleton,
      decide_eq_true_eq,Option.any_some,beq_iff_eq]
    constructor
    · rintro ⟨v,⟨hv,-⟩ | rfl,hnode⟩
      · exact Or.inl ⟨v,hv,hnode⟩
      · exact Or.inr hnode
    · intro h
      by_cases hnode : it.ipSrc = format.homeAddr
      · exact ⟨_,Or.inr rfl,hnode⟩
      · obtain ⟨v,hv,hsrc⟩ := h.resolve_right hnode
        exact ⟨v,Or.inl ⟨hv,fun heq => hnode (heq.symm.trans hsrc)⟩,hsrc⟩

theorem noBlackHole_iff {s : AgentBase} {p : Packet} (uninit : UInt16) (hp : p.IsReply)
    (hcode : p.reply.code = 0 ∨ p.reply.code = 1) :
    NoBlackHole s uninit p ↔ Expected s p.reply := by
  rw [← inMapNode_settled uninit hcode]
  have hstep : step s (.reply uninit p) = some (settled uninit s p.reply,[⟨0,forward s p⟩]) :=
    push_reply uninit hp
  constructor
  · intro h
    exact h _ _ hstep ⟨_,List.mem_singleton.mpr rfl,ipDst_forward s p⟩
  · intro h t out ht hout
    rw [hstep] at ht
    cases ht
    exact h

/-- Every foreign agent run goes through, and the next accepting reply leaves no
black hole exactly when its node was expected. -/
theorem no_black_hole_iff (publicAddr privateAddr : IPAddress) (lifetimeReg : ℤ) (es : List Event)
    (uninit : UInt16) (p : Packet) (hp : p.IsReply) (hcode : p.reply.code = 0 ∨ p.reply.code = 1) :
    ∃ s out, run step (AgentBase.configure publicAddr privateAddr lifetimeReg) es = some (s,out) ∧
      (NoBlackHole s uninit p ↔ Expected s p.reply) := by
  obtain ⟨s,out,hr⟩ := run_isSome (AgentBase.configure publicAddr privateAddr lifetimeReg) es
  exact ⟨s,out,hr,noBlackHole_iff uninit hp hcode⟩

def visitRequest (lifetime : UInt16) (node homeAgent : IPAddress) (id1 id2 : UInt32) : Packet where
  data := udpPacket { ipV := 4, ipHl := 5, ipP := 17, ipSrc := node, ipDst := 0x0300000a }
    { uhSport := htons 1001, uhDport := htons 434 }
    (RegistrationRequestPacketheader.layout.write
      { type := 1, lifetime := htons lifetime, homeAddr := node, homeAgent := homeAgent, id1 := id1,
        id2 := id2 })
    32

def visitReply (node homeAgent : IPAddress) (id1 id2 : UInt32) : Packet where
  data := udpPacket { ipV := 4, ipHl := 5, ipP := 17, ipSrc := homeAgent, ipDst := 0x0300000a }
    { uhSport := htons 434, uhDport := htons 1001 }
    (RegistrationRequestReplyPacketheader.layout.write
      { type := 3, lifetime := htons 25, homeAddr := node, homeAgent := homeAgent, id1 := id1, id2 := id2 })
    28

theorem no_black_hole_sample :
    ∃ s out, run step (AgentBase.configure 1 2 25) [.request true (visitRequest 25 9 5 3 4)] = some (s,out) ∧
      NoBlackHole s 0 (visitReply 9 5 3 4) := by
  obtain ⟨s,out,hr,hiff⟩ := no_black_hole_iff 1 2 25 [.request true (visitRequest 25 9 5 3 4)] 0
    (visitReply 9 5 3 4) (by decide +kernel) (by decide +kernel)
  have hexpected : (run step (AgentBase.configure 1 2 25) [.request true (visitRequest 25 9 5 3 4)]).any
      (fun r => decide (Expected r.1 (visitReply 9 5 3 4).reply)) = true := by decide +kernel
  rw [hr] at hexpected
  exact ⟨s,out,hr,hiff.mpr (of_decide_eq_true hexpected)⟩

/-- The node was told after seven seconds that nobody answered; the late answer is
forwarded all the same. -/
theorem late_reply_black_hole :
    ∃ s out, run step (AgentBase.configure 1 2 25)
        (.request true (visitRequest 25 9 5 3 4) :: List.replicate 7 (.runTimer (fun _ => true))) = some (s,out) ∧
      (visitReply 9 5 3 4).IsReply ∧ (visitReply 9 5 3 4).reply.code = 0 ∧
      ¬NoBlackHole s 0 (visitReply 9 5 3 4) := by
  have hp : (visitReply 9 5 3 4).IsReply := by decide +kernel
  have hcode : (visitReply 9 5 3 4).reply.code = 0 := by decide +kernel
  have hunexpected : (run step (AgentBase.configure 1 2 25)
      (.request true (visitRequest 25 9 5 3 4) :: List.replicate 7 (.runTimer (fun _ => true)))).any
      (fun r => decide (¬Expected r.1 (visitReply 9 5 3 4).reply)) = true := by decide +kernel
  obtain ⟨s,out,hr⟩ := run_isSome (AgentBase.configure 1 2 25)
    (.request true (visitRequest 25 9 5 3 4) :: List.replicate 7 (.runTimer (fun _ => true)))
  rw [hr] at hunexpected
  refine ⟨s,out,hr,hp,hcode,?_⟩
  rw [noBlackHole_iff 0 hp (Or.inl hcode)]
  exact of_decide_eq_true hunexpected

end Forwarding

section Answers

/-- Entries enter the visitor list only with an accepting reply that names their
node and home agent, and a reply takes pending entries from its own node only. -/
def Reflects (s : AgentBase) : Event → AgentBase → Prop
  | .request _ _, t => t.visitorMap = s.visitorMap
  | .reply _ p, t =>
    (∀ v ∈ t.visitorMap, v ∈ s.visitorMap ∨
      (p.IsReply ∧ (p.reply.code = 0 ∨ p.reply.code = 1) ∧
        p.reply.homeAddr = v.ipSrc ∧ p.reply.homeAgent = v.homeAgent)) ∧
    ∀ node, p.reply.homeAddr ≠ node →
      t.registrationReq.filter (fun it => it.ipSrc = node) =
        s.registrationReq.filter (fun it => it.ipSrc = node)
  | .runTimer _, t =>
    ∀ v ∈ t.visitorMap, ∃ w ∈ s.visitorMap, v = w ∨ v = { w with lifetimeRem := tickDown w.lifetimeRem }

/-- The first pending entry with the ids of a reply was made for its node and, when
the reply accepts, for its home agent. -/
def IdsAgree (s : AgentBase) (format : RegistrationRequestReplyPacketheader) : Prop :=
  ∀ it, s.registrationReq.find? (sameIds format) = some it →
    format.homeAddr = it.ipSrc ∧
      (format.code = 0 ∨ format.code = 1 → format.homeAgent = it.homeAgent)

theorem reflects_reply {s : AgentBase} {p : Packet} (uninit : UInt16) (hp : p.IsReply)
    (hids : IdsAgree s p.reply) : Reflects s (.reply uninit p) (settled uninit s p.reply) := by
  constructor
  · intro v hv
    by_cases hcode : p.reply.code = 0 ∨ p.reply.code = 1
    · cases hfind : s.registrationReq.find? (sameIds p.reply) with
      | none =>
        simp only [settled,hcode,hfind,↓reduceIte] at hv
        exact Or.inl hv
      | some it =>
        obtain ⟨hnode,hagent⟩ := hids it hfind
        simp only [settled,hcode,hfind,↓reduceIte,List.mem_append,List.mem_filter,List.mem_singleton] at hv
        rcases hv with ⟨hv,-⟩ | rfl
        · exact Or.inl hv
        · exact Or.inr ⟨hp,hcode,hnode,hagent hcode⟩
    · simp only [settled,hcode,↓reduceIte] at hv
      exact Or.inl hv
  · intro node hnode
    change (s.registrationReq.eraseP (sameIds p.reply)).filter _ = _
    cases hfind : s.registrationReq.find? (sameIds p.reply) with
    | none => rw [List.eraseP_of_forall_not (fun a ha => by simpa using List.find?_eq_none.mp hfind a ha)]
    | some it =>
      obtain ⟨hmatch,front,back,hsplit,hfront⟩ := List.find?_eq_some_iff_append.mp hfind
      have hother : ¬it.ipSrc = node := fun h => hnode ((hids it hfind).1.trans h)
      rw [hsplit,List.eraseP_append_right _ (fun a ha => by simpa using hfront a ha),
        List.eraseP_cons_of_pos hmatch]
      simp [hother]

theorem step_reflects {s t : AgentBase} {e : Event} {out : List Emission}
    (hids : ∀ uninit p, e = .reply uninit p → p.IsReply → IdsAgree s p.reply)
    (hstep : step s e = some (t,out)) : Reflects s e t := by
  cases stepped_of_step hstep with
  | request alloc p t out hpushed =>
    cases hpushed with
    | ignored _ => rfl
    | denied _ _ _ => rfl
    | relayed _ => rfl
  | reply uninit p hp => exact reflects_reply uninit hp (hids uninit p rfl hp)
  | ignored uninit p hp => exact ⟨fun v hv => Or.inl hv,fun _ _ => rfl⟩
  | ticked alloc pending visitors out hlen horigin hvisitors =>
    intro v hv
    rcases hvisitors with rfl | rfl
    · exact ⟨v,hv,Or.inl rfl⟩
    · obtain ⟨w,hw,hvisit⟩ := List.mem_filterMap.mp hv
      refine ⟨w,hw,Or.inr ?_⟩
      unfold visitorVisit at hvisit
      split at hvisit
      · cases hvisit
      · exact (Option.some.inj hvisit).symm

def AgreeAlong (base : AgentBase) (es : List Event) : Prop :=
  ∀ pre uninit p post s out, es = pre ++ .reply uninit p :: post →
    run step base pre = some (s,out) → p.IsReply → IdsAgree s p.reply

theorem answers_reflected (publicAddr privateAddr : IPAddress) (lifetimeReg : ℤ) (es : List Event)
    (hids : AgreeAlong (AgentBase.configure publicAddr privateAddr lifetimeReg) es)
    (pre post : List Event) (e : Event) (hes : es = pre ++ e :: post) :
    ∃ s out t out', run step (AgentBase.configure publicAddr privateAddr lifetimeReg) pre = some (s,out) ∧
      step s e = some (t,out') ∧ Reflects s e t := by
  obtain ⟨s,out,hr⟩ := run_isSome (AgentBase.configure publicAddr privateAddr lifetimeReg) pre
  obtain ⟨t,out',hstep⟩ := step_isSome s e
  refine ⟨s,out,t,out',hr,hstep,step_reflects ?_ hstep⟩
  rintro uninit p rfl hp
  exact hids pre uninit p post s out hes hr hp

/-- The fields that a home agent copies from the request it answers. -/
def Echoes (format : RegistrationRequestReplyPacketheader) (q : RegistrationRequestPacketheader) : Prop :=
  format.homeAddr = q.homeAddr ∧ format.homeAgent = q.homeAgent ∧ format.id1 = q.id1 ∧ format.id2 = q.id2

instance (format : RegistrationRequestReplyPacketheader) (q : RegistrationRequestPacketheader) :
    Decidable (Echoes format q) := inferInstanceAs (Decidable (_ ∧ _))

/-- Every reply of the run echoes a request that the agent relayed before. -/
def Honest (base : AgentBase) (es : List Event) : Prop :=
  ∀ pre uninit p post s out, es = pre ++ .reply uninit p :: post →
    run step base pre = some (s,out) → p.IsReply →
      ∃ e ∈ out, e.port = 1 ∧ Echoes p.reply e.packet.request

/-- Relayed requests with equal ids come from one node and go to one home agent. -/
def DistinctIds (base : AgentBase) (es : List Event) : Prop :=
  ∀ t out, run step base es = some (t,out) → ∀ d ∈ out, ∀ e ∈ out, d.port = 1 → e.port = 1 →
    d.packet.request.id1 = e.packet.request.id1 → d.packet.request.id2 = e.packet.request.id2 →
      d.packet.request.homeAddr = e.packet.request.homeAddr ∧
        d.packet.request.homeAgent = e.packet.request.homeAgent

def IssuedFor (it : ListItem) (q : RegistrationRequestPacketheader) : Prop :=
  it.ipSrc = q.homeAddr ∧ it.homeAgent = q.homeAgent ∧ it.id1 = q.id1 ∧ it.id2 = q.id2

def PendingRelayed (s : AgentBase) (log : List Emission) : Prop :=
  ∀ it ∈ s.registrationReq, ∃ e ∈ log, e.port = 1 ∧ IssuedFor it e.packet.request

@[simp] theorem request_relay (s : AgentBase) (p : Packet) : (relay s p).request = p.request := by
  rw [Packet.request,Packet.request,relay,drop_udpPacket]

theorem pendingRelayed_step {s t : AgentBase} {log out : List Emission} {e : Event}
    (hs : PendingRelayed s log) (hstep : step s e = some (t,out)) : PendingRelayed t (log ++ out) := by
  have hkept : ∀ it, (∃ a ∈ s.registrationReq, ∀ q, IssuedFor a q → IssuedFor it q) →
      ∃ e ∈ log ++ out, e.port = 1 ∧ IssuedFor it e.packet.request := by
    rintro it ⟨a,ha,hissued⟩
    obtain ⟨d,hd,hport,hdq⟩ := hs a ha
    exact ⟨d,List.mem_append_left _ hd,hport,hissued _ hdq⟩
  intro it hit
  cases stepped_of_step hstep with
  | request alloc p t out hpushed =>
    cases hpushed with
    | ignored _ => exact hkept it ⟨it,hit,fun _ h => h⟩
    | denied _ _ _ => exact hkept it ⟨it,hit,fun _ h => h⟩
    | relayed h =>
      simp only [ForeignAgentReqProcess.remember] at hit
      split at hit
      · rcases List.mem_append.mp hit with hit | hit
        · exact hkept it ⟨it,hit,fun _ h => h⟩
        · rw [List.mem_singleton.mp hit]
          refine ⟨_,List.mem_append_right _ (List.mem_singleton.mpr rfl),rfl,?_⟩
          rw [request_relay]
          exact ⟨rfl,rfl,rfl,rfl⟩
      · exact hkept it ⟨it,hit,fun _ h => h⟩
  | reply uninit p hp => exact hkept it ⟨it,List.mem_of_mem_eraseP hit,fun _ h => h⟩
  | ignored uninit p hp => exact hkept it ⟨it,hit,fun _ h => h⟩
  | ticked alloc pending visitors out hlen horigin hvisitors =>
    obtain ⟨a,ha,rfl | rfl⟩ := horigin it hit
    · exact hkept _ ⟨_,ha,fun _ h => h⟩
    · exact hkept _ ⟨a,ha,fun _ h => h⟩

/-- Honest replies to requests with distinct ids always find their own entry. -/
theorem agreeAlong_of_honest {publicAddr privateAddr : IPAddress} {lifetimeReg : ℤ} {es : List Event}
    (hhonest : Honest (AgentBase.configure publicAddr privateAddr lifetimeReg) es)
    (hdistinct : DistinctIds (AgentBase.configure publicAddr privateAddr lifetimeReg) es) :
    AgreeAlong (AgentBase.configure publicAddr privateAddr lifetimeReg) es := by
  intro pre uninit p post s out hes hr hp it hfind
  obtain ⟨e,he,heport,hnode,hagent,hid1,hid2⟩ := hhonest pre uninit p post s out hes hr hp
  have hpending : PendingRelayed s ([] ++ out) :=
    run_invariant (P := PendingRelayed) (fun _ _ _ _ _ => pendingRelayed_step)
      (by intro it hit; cases hit) hr
  obtain ⟨d,hd,hdport,dnode,dagent,did1,did2⟩ := hpending it (List.mem_of_find?_eq_some hfind)
  have hmatch : it.id1 = p.reply.id1 ∧ it.id2 = p.reply.id2 := by
    simpa [sameIds] using List.find?_some hfind
  obtain ⟨t,out',hr'⟩ := run_isSome s (.reply uninit p :: post)
  have hrun : run step (AgentBase.configure publicAddr privateAddr lifetimeReg) es = some (t,out ++ out') := by
    rw [hes]
    exact run_append_eq_some.mpr ⟨s,out,out',hr,hr',rfl⟩
  obtain ⟨heq,heq'⟩ := hdistinct t _ hrun d (List.mem_append_left _ hd) e (List.mem_append_left _ he)
    hdport heport (by rw [← did1,hmatch.1,hid1]) (by rw [← did2,hmatch.2,hid2])
  exact ⟨by rw [hnode,dnode,heq],fun _ => by rw [hagent,dagent,heq']⟩

instance (s : AgentBase) (format : RegistrationRequestReplyPacketheader) :
    Decidable (IdsAgree s format) :=
  match h : s.registrationReq.find? (sameIds format) with
  | none => .isTrue (fun it hit => by rw [h] at hit; cases hit)
  | some a =>
    decidable_of_iff (format.homeAddr = a.ipSrc ∧
        (format.code = 0 ∨ format.code = 1 → format.homeAgent = a.homeAgent))
      ⟨fun hagree it hit => by rw [h] at hit; cases hit; exact hagree,fun hagree => hagree a h⟩

theorem eq_of_last_reply {es pre post : List Event} {x : Event} {uninit : UInt16} {p : Packet}
    (hes : ∀ e ∈ es, ∃ alloc q, e = .request alloc q) (h : es ++ [x] = pre ++ .reply uninit p :: post) :
    pre = es ∧ x = .reply uninit p := by
  rcases List.eq_nil_or_concat post with rfl | ⟨post,y,rfl⟩
  · obtain ⟨rfl,hx⟩ := List.append_inj' h rfl
    exact ⟨rfl,List.singleton_inj.mp hx⟩
  · rw [List.concat_eq_append,← List.cons_append,← List.append_assoc] at h
    obtain ⟨rfl,-⟩ := List.append_inj' h rfl
    obtain ⟨alloc,q,hq⟩ := hes (.reply uninit p) (by simp)
    cases hq

theorem answers_reflected_sample :
    ∃ s out t out', run step (AgentBase.configure 1 2 25) [.request true (visitRequest 25 9 5 3 4)] =
        some (s,out) ∧
      step s (.reply 0 (visitReply 9 5 3 4)) = some (t,out') ∧
      Reflects s (.reply 0 (visitReply 9 5 3 4)) t := by
  refine answers_reflected 1 2 25 ([.request true (visitRequest 25 9 5 3 4)] ++ [.reply 0 (visitReply 9 5 3 4)])
    ?_ [.request true (visitRequest 25 9 5 3 4)] [] (.reply 0 (visitReply 9 5 3 4)) rfl
  intro pre uninit p post s out hes hr hp
  obtain ⟨rfl,hlast⟩ := eq_of_last_reply (by simp) hes
  cases hlast
  have hagree : (run step (AgentBase.configure 1 2 25) [.request true (visitRequest 25 9 5 3 4)]).all
      (fun r => decide (IdsAgree r.1 (visitReply 9 5 3 4).reply)) = true := by decide +kernel
  rw [hr] at hagree
  exact of_decide_eq_true hagree

def sharedIds : List Event := [.request true (visitRequest 25 9 5 3 4),.request true (visitRequest 25 10 6 3 4)]

/-- Two nodes with equal ids: the answer to the second makes a visitor of the first. -/
theorem shared_ids_confuse_nodes :
    Honest (AgentBase.configure 1 2 25) (sharedIds ++ [.reply 0 (visitReply 10 6 3 4)]) ∧
    ∃ s out t out', run step (AgentBase.configure 1 2 25) sharedIds = some (s,out) ∧
      step s (.reply 0 (visitReply 10 6 3 4)) = some (t,out') ∧
      ¬Reflects s (.reply 0 (visitReply 10 6 3 4)) t := by
  have hp : (visitReply 10 6 3 4).IsReply := by decide +kernel
  obtain ⟨s,out,hr⟩ := run_isSome (AgentBase.configure 1 2 25) sharedIds
  constructor
  · intro pre uninit p post s out hes hr hp
    obtain ⟨rfl,hlast⟩ := eq_of_last_reply (by simp [sharedIds]) hes
    cases hlast
    have hecho : (run step (AgentBase.configure 1 2 25) sharedIds).all (fun r => r.2.any (fun e =>
        decide (e.port = 1 ∧ Echoes (visitReply 10 6 3 4).reply e.packet.request))) = true := by
      decide +kernel
    rw [hr] at hecho
    obtain ⟨e,he,hecho⟩ := List.any_eq_true.mp hecho
    exact ⟨e,he,of_decide_eq_true hecho⟩
  · refine ⟨s,out,_,_,hr,push_reply 0 hp,?_⟩
    rintro ⟨hentered,-⟩
    have hnine : (run step (AgentBase.configure 1 2 25) sharedIds).all (fun r =>
        (settled 0 r.1 (visitReply 10 6 3 4).reply).visitorMap.any (fun v =>
          decide (v ∉ r.1.visitorMap ∧ v.ipSrc = 9))) = true := by decide +kernel
    rw [hr] at hnine
    obtain ⟨v,hv,hnew⟩ := List.any_eq_true.mp hnine
    obtain ⟨hnew,hsrc⟩ := of_decide_eq_true hnew
    rcases hentered v hv with hold | ⟨-,-,hnode,-⟩
    · exact hnew hold
    · rw [hsrc] at hnode
      exact absurd hnode (by decide +kernel)

end Answers
end ClickMobileIP.ForeignAgent
