import ClickMobileIP.Node.ConnectionTime

/-! # What the mobile node decides on an advertisement

One advertisement can call for a registration in two places of the handler: in the loop
over the known agents, when the agent of the node has restarted, and after it, when the
node is not connected or changes networks. The first test does not ask whether the second
will register too. The guard of the list compares the advertised address, a public one,
with the private address of the home agent, so the home agent is listed among the agents
to fall back on.
-/
namespace ClickMobileIP.MobileNode
open EventRun AdvertisementsHandler RegistrationRequestSource EraseSweep

section Calls
variable {draws : ℕ → Draw} {s : MobileNode} {p : Packet} {a : Advertisement}

/-- The advertisement restarts the entry of the agent that the node is registered with. -/
def Resets (s : MobileNode) (p : Packet) : Prop :=
  p.advertisement.address ≠ s.homePrivateAddr ∧ ∃ it ∈ s.currentAdvertisements,
    sameAgent (decode p) it = true ∧ restarted (decode p) it ∧ s.currPrivateAddr = it.privateAddr

instance (s : MobileNode) (p : Packet) : Decidable (Resets s p) := inferInstanceAs (Decidable (_ ∧ _))

/-- The node is away and hears its home agent, or hears another one while it is at home or
not connected. -/
def Registers (s : MobileNode) (address : IPAddress) : Prop :=
  (address = s.homePublicAddr ∧ s.home = false) ∨
    (address ≠ s.homePublicAddr ∧ (s.home = true ∨ s.connected = false))

instance (s : MobileNode) (address : IPAddress) : Decidable (Registers s address) :=
  inferInstanceAs (Decidable (_ ∨ _))

structure SameFlags (s t : MobileNode) : Prop where
  home : t.home = s.home
  connected : t.connected = s.connected
  homePublicAddr : t.homePublicAddr = s.homePublicAddr

theorem sameFlags_makePacket (d : Draw) (s : MobileNode) (a : Advertisement) :
    SameFlags s (makePacket d s a).1 := by
  obtain ⟨coa,addr,time,records,h⟩ := makePacket_frame d s a
  rw [h]
  exact ⟨rfl,rfl,rfl⟩

theorem registers_congr {t : MobileNode} (h : SameFlags s t) (address : IPAddress) :
    Registers t address ↔ Registers s address := by
  unfold Registers
  rw [h.home,h.connected,h.homePublicAddr]

/-- After the loop the three tests send at most one request: no two can hold at once. -/
theorem calls_register (draws : ℕ → Draw) (x : Activation) (a : Advertisement) (address : IPAddress) :
    (register draws x a address).calls = x.calls + if Registers x.node address then 1 else 0 := by
  have hflags := sameFlags_makePacket (draws x.calls) x.node a
  have hcalls : (x.makePacket draws a).calls = x.calls + 1 := rfl
  have hnode : (x.makePacket draws a).node = (makePacket (draws x.calls) x.node a).1 := rfl
  unfold register Registers
  dsimp only
  by_cases hhome : x.node.home = true
  · by_cases haddr : address = x.node.homePublicAddr
    · simp [hhome,haddr]
    · simp [hhome,haddr,hcalls]
  · rw [Bool.not_eq_true] at hhome
    by_cases haddr : address = x.node.homePublicAddr
    · simp [hhome,haddr,hcalls]
    · by_cases hconnected : x.node.connected = true
      · simp [hhome,haddr,hconnected]
      · simp [hhome,haddr,hconnected,hnode,hflags.home,hcalls]

theorem refresh_other {known : List Advertisement} (hnone : ∀ it ∈ known, sameAgent a it = false) (x : Activation) :
    refresh draws a x known = (x,known) := by
  induction known with
  | nil => rfl
  | cons it rest ih =>
    have hit : ¬(sameAgent a it = true ∧ restarted a it) := by
      rw [hnone it List.mem_cons_self]
      exact fun h => Bool.false_ne_true h.1
    rw [refresh,if_neg hit,ih (fun b hb => hnone b (List.mem_cons_of_mem _ hb))]

/-- In a list with one entry for each agent the loop sends at most one request. -/
theorem refresh_calls (draws : ℕ → Draw) {known : List Advertisement}
    (hdistinct : known.Pairwise (fun a b => ¬(a.privateAddr = b.privateAddr ∧ a.coa = b.coa))) (x : Activation) :
    (refresh draws a x known).1.calls = x.calls + (if ∃ it ∈ known, sameAgent a it = true ∧ restarted a it ∧
        x.node.currPrivateAddr = it.privateAddr then 1 else 0) ∧
      SameFlags x.node (refresh draws a x known).1.node := by
  induction known generalizing x with
  | nil => exact ⟨by simp [refresh],rfl,rfl,rfl⟩
  | cons it rest ih =>
    obtain ⟨hfirst,hrest⟩ := List.pairwise_cons.mp hdistinct
    by_cases hreset : sameAgent a it = true ∧ restarted a it
    · have hsame := sameAgent_iff.mp hreset.1
      have hother : ∀ b ∈ rest, sameAgent a b = false := by
        intro b hb
        rw [← Bool.not_eq_true]
        intro h
        have hb' := sameAgent_iff.mp h
        exact hfirst b hb ⟨hsame.1.trans hb'.1.symm,hsame.2.trans hb'.2.symm⟩
      have hnone : ¬∃ b ∈ rest, sameAgent a b = true ∧ restarted a b ∧ x.node.currPrivateAddr = b.privateAddr := by
        rintro ⟨b,hb,h,-⟩
        exact Bool.false_ne_true ((hother b hb).symm.trans h)
      rw [refresh,if_pos hreset]
      dsimp only
      rw [refresh_other hother]
      by_cases hcurrent : x.node.currPrivateAddr = it.privateAddr
      · have hyes : ∃ b ∈ it :: rest, sameAgent a b = true ∧ restarted a b ∧
            x.node.currPrivateAddr = b.privateAddr :=
          ⟨it,List.mem_cons_self,hreset.1,hreset.2,hcurrent⟩
        rw [if_pos hcurrent,if_pos hyes]
        exact ⟨rfl,sameFlags_makePacket _ _ _⟩
      · have hno : ¬∃ b ∈ it :: rest, sameAgent a b = true ∧ restarted a b ∧
            x.node.currPrivateAddr = b.privateAddr := by
          rintro ⟨b,hb,h⟩
          rcases List.mem_cons.mp hb with rfl | hb
          · exact hcurrent h.2.2
          · exact hnone ⟨b,hb,h⟩
        rw [if_neg hcurrent,if_neg hno]
        exact ⟨rfl,rfl,rfl,rfl⟩
    · rw [refresh,if_neg hreset]
      have hskip : (∃ b ∈ it :: rest, sameAgent a b = true ∧ restarted a b ∧
            x.node.currPrivateAddr = b.privateAddr) ↔
          ∃ b ∈ rest, sameAgent a b = true ∧ restarted a b ∧ x.node.currPrivateAddr = b.privateAddr := by
        simp only [List.exists_mem_cons_iff,or_iff_right_iff_imp]
        exact fun h => absurd ⟨h.1,h.2.1⟩ hreset
      simp only [hskip]
      exact ih hrest x

theorem calls_push (draws : ℕ → Draw) (hdiscard : ¬discarded p) (hbusy : ¬busy p)
    (hdistinct : s.currentAdvertisements.Pairwise (fun a b => ¬(a.privateAddr = b.privateAddr ∧ a.coa = b.coa))) :
    (AdvertisementsHandler.push draws s p).calls =
      (if Resets s p then 1 else 0) + if Registers s p.advertisement.address then 1 else 0 := by
  rw [AdvertisementsHandler.push,if_neg hdiscard,if_neg hbusy]
  dsimp only
  rw [calls_register]
  by_cases haddr : p.advertisement.address ≠ s.homePrivateAddr
  · obtain ⟨hcalls,hflags⟩ := refresh_calls draws (a := decode p) hdistinct ⟨s,[],0⟩
    have hlearn : (learn draws s (decode p)).calls = if Resets s p then 1 else 0 := by
      rw [learn]
      dsimp only
      rw [hcalls,Nat.zero_add]
      simp only [Resets,haddr,ne_eq,not_false_eq_true,true_and]
    have hsame : SameFlags s (learn draws s (decode p)).node := ⟨hflags.home,hflags.connected,hflags.homePublicAddr⟩
    rw [if_pos haddr,hlearn]
    simp only [registers_congr hsame]
  · have hno : ¬Resets s p := fun h => haddr h.1
    rw [if_neg haddr,if_neg hno]

/-- One call at most, and so at most one request and at most one new record. -/
def RegistersOnce (draws : ℕ → Draw) (s : MobileNode) (p : Packet) : Prop :=
  (AdvertisementsHandler.push draws s p).calls ≤ 1 ∧
    (AdvertisementsHandler.push draws s p).sent.length ≤ 1 ∧
    (AdvertisementsHandler.push draws s p).node.currentRequests.length ≤ s.currentRequests.length + 1

theorem sent_le_calls (draws : ℕ → Draw) (s : MobileNode) (p : Packet) :
    (AdvertisementsHandler.push draws s p).sent.length ≤ (AdvertisementsHandler.push draws s p).calls ∧
      (AdvertisementsHandler.push draws s p).node.currentRequests.length ≤
        s.currentRequests.length + (AdvertisementsHandler.push draws s p).calls := by
  refine push_preserves (P := fun x => x.sent.length ≤ x.calls ∧
    x.node.currentRequests.length ≤ s.currentRequests.length + x.calls) ?_ (fun _ _ hx => hx) (by simp)
  rintro x ⟨hsent,hrecords⟩
  have hone : (makePacket (draws x.calls) x.node (decode p)).2.length ≤ 1 ∧
      (makePacket (draws x.calls) x.node (decode p)).1.currentRequests.length ≤
        x.node.currentRequests.length + 1 := by
    unfold RegistrationRequestSource.makePacket
    split
    · exact ⟨Nat.zero_le 1,Nat.le_succ _⟩
    · exact ⟨Nat.le_refl 1,by simp⟩
  unfold Activation.makePacket
  dsimp only
  rw [List.length_append]
  omega

/-- In every state that a node can reach, an advertisement registers the node at most once
exactly if it does not both restart the agent of the node and call for a registration. -/
theorem registers_once_iff {myAddress homePrivateAddr homePublicAddr : IPAddress} {es : List Event}
    {out : List Emission} (hr : run step (configure myAddress homePrivateAddr homePublicAddr) es = some (s,out))
    (draws : ℕ → Draw) (p : Packet) : RegistersOnce draws s p ↔
      ¬(¬discarded p ∧ ¬busy p ∧ Resets s p ∧ Registers s p.advertisement.address) := by
  have hdistinct := (run_sound hr).1.distinct
  have hbounds := sent_le_calls draws s p
  have honce : RegistersOnce draws s p ↔ (AdvertisementsHandler.push draws s p).calls ≤ 1 := by
    unfold RegistersOnce
    omega
  rw [honce]
  by_cases hdiscard : discarded p
  · have hcalls : (AdvertisementsHandler.push draws s p).calls = 0 := by
      rw [AdvertisementsHandler.push,if_pos hdiscard]
    simp [hcalls,hdiscard]
  by_cases hbusy : busy p
  · have hcalls : (AdvertisementsHandler.push draws s p).calls = 0 := by
      rw [AdvertisementsHandler.push,if_neg hdiscard,if_pos hbusy]
    simp [hcalls,hbusy]
  rw [calls_push draws hdiscard hbusy hdistinct]
  by_cases hresets : Resets s p
  · by_cases hregisters : Registers s p.advertisement.address
    · simp [hdiscard,hbusy,hresets,hregisters]
    · simp [hresets,hregisters]
  · by_cases hregisters : Registers s p.advertisement.address
    · simp [hresets,hregisters]
    · simp [hresets,hregisters]

theorem registers_once_sample :
    ∃ s out, run step sampleNode [.advertisement sampleDraws firstAdvertisement] = some (s,out) ∧
      RegistersOnce sampleDraws s firstAdvertisement := by
  have hcalm : (run step sampleNode [.advertisement sampleDraws firstAdvertisement]).any
      (fun r => decide (¬Resets r.1 firstAdvertisement)) = true := by decide +kernel
  obtain ⟨⟨s,out⟩,hrun,hs⟩ := (Option.any_eq_true _ _).mp hcalm
  refine ⟨s,out,hrun,(registers_once_iff hrun sampleDraws firstAdvertisement).mpr ?_⟩
  exact fun h => of_decide_eq_true hs h.2.2.1

/-- The node registers, its connection runs out, and then its agent restarts. -/
def lapsedConnection : List Event :=
  [.advertisement sampleDraws firstAdvertisement,.reply (ForeignAgent.visitReply 9 1 0 0)] ++
    List.replicate 26 (.sourceTimer2 (sampleDraws 7))

/-- One advertisement of the restarted agent makes the node send two requests. -/
theorem restart_registers_twice :
    ∃ s out, run step sampleNode lapsedConnection = some (s,out) ∧ AdvFilter.push firstAdvertisement =
        [⟨1,firstAdvertisement⟩] ∧
      (AdvertisementsHandler.push sampleDraws s firstAdvertisement).calls = 2 ∧
      (AdvertisementsHandler.push sampleDraws s firstAdvertisement).sent.length = 2 ∧
      ¬RegistersOnce sampleDraws s firstAdvertisement := by
  have htwice : (run step sampleNode lapsedConnection).any
      (fun r => decide ((AdvertisementsHandler.push sampleDraws r.1 firstAdvertisement).calls = 2 ∧
        (AdvertisementsHandler.push sampleDraws r.1 firstAdvertisement).sent.length = 2)) = true := by decide +kernel
  obtain ⟨⟨s,out⟩,hrun,hs⟩ := (Option.any_eq_true _ _).mp htwice
  obtain ⟨hcalls,hsent⟩ := of_decide_eq_true hs
  refine ⟨s,out,hrun,AdvFilter.push_advertisementPacket _ _,hcalls,hsent,?_⟩
  intro h
  have hone := h.1
  rw [hcalls] at hone
  omega

end Calls

section Fallback
variable {s t : MobileNode} {home : IPAddress} {Q : IPAddress → UInt16 → Prop}

/-- The event is an advertisement that gets an entry in the list, or has one. -/
def Event.Lists (home : IPAddress) (p : Packet) : Event → Prop
  | .advertisement _ q => q = p ∧ AdvFilter.push p = [⟨1,p⟩] ∧ ¬discarded p ∧ ¬busy p ∧
      p.advertisement.address ≠ home
  | _ => False

def AllKnown (Q : IPAddress → UInt16 → Prop) (s : MobileNode) : Prop :=
  ∀ it ∈ s.currentAdvertisements, Q it.privateAddr it.regLifetime

theorem touch_cases (a it : Advertisement) :
    ((touch a it).privateAddr,(touch a it).regLifetime) = (it.privateAddr,it.regLifetime) ∨
      ((touch a it).privateAddr,(touch a it).regLifetime) = (a.privateAddr,a.regLifetime) := by
  unfold touch
  split
  · rename_i h
    exact Or.inr (Prod.ext (sameAgent_iff.mp h.1).1 rfl)
  · exact Or.inl rfl

theorem allKnown_push (draws : ℕ → Draw) {p : Packet} (hs : AllKnown Q s)
    (hp : ¬discarded p → ¬busy p → p.advertisement.address ≠ s.homePrivateAddr →
      Q (decode p).privateAddr (decode p).regLifetime) :
    AllKnown Q (AdvertisementsHandler.push draws s p).node := by
  unfold AllKnown at hs ⊢
  by_cases hdiscard : discarded p
  · rw [AdvertisementsHandler.push,if_pos hdiscard]
    exact hs
  by_cases hbusy : busy p
  · rw [AdvertisementsHandler.push,if_neg hdiscard,if_pos hbusy]
    exact fun it hit => hs it (List.mem_of_mem_eraseP hit)
  by_cases haddr : p.advertisement.address = s.homePrivateAddr
  · simpa only [AdvertisementsHandler.push,hdiscard,hbusy,haddr,↓reduceIte,ne_eq,not_true_eq_false,
      currentAdvertisements_register] using hs
  have hnew := hp hdiscard hbusy haddr
  rw [currentAdvertisements_push hdiscard hbusy haddr]
  split
  · intro it hit
    obtain ⟨old,hold,rfl⟩ := List.mem_map.mp hit
    rcases touch_cases (decode p) old with h | h
    · rw [(Prod.mk.inj h).1,(Prod.mk.inj h).2]
      exact hs old hold
    · rw [(Prod.mk.inj h).1,(Prod.mk.inj h).2]
      exact hnew
  · intro it hit
    rcases List.mem_append.mp hit with hit | hit
    · exact hs it hit
    · cases List.mem_singleton.mp hit
      exact hnew

theorem mem_age {known : List Advertisement} {it : Advertisement} (h : it ∈ known.filterMap ageAdvertisement) :
    ∃ old ∈ known, it.privateAddr = old.privateAddr ∧ it.regLifetime = old.regLifetime := by
  obtain ⟨old,hold,hage⟩ := List.mem_filterMap.mp h
  refine ⟨old,hold,?_⟩
  unfold ageAdvertisement at hage
  split at hage
  · cases hage
  · cases hage
    exact ⟨rfl,rfl⟩

theorem allKnown_step {e : Event} {out : List Emission} (hs : AllKnown Q s)
    (he : ∀ p, e.Lists s.homePrivateAddr p → Q (decode p).privateAddr (decode p).regLifetime)
    (hstep : step s e = some (t,out)) : AllKnown Q t := by
  cases stepped_of_step hstep with
  | heard draws p hfilter =>
    exact allKnown_push draws hs (fun hdiscard hbusy haddr => he p ⟨rfl,hfilter,hdiscard,hbusy,haddr⟩)
  | unheard draws p hfilter => exact hs
  | answered p =>
    unfold AllKnown
    rw [currentAdvertisements_source]
    exact hs
  | handled d t out h =>
    unfold AllKnown
    rw [h.spec.1]
    intro it hit
    obtain ⟨old,hold,haddr,hlife⟩ := mem_age hit
    rw [haddr,hlife]
    exact hs old hold
  | recordsAged => exact hs
  | ticked2 d t out h =>
    unfold AllKnown
    rw [currentAdvertisements_ticked2 h]
    exact hs
  | unscheduled d h => exact hs

/-- Only foreign agents are listed, and a node that has lost its agent asks one of them: the
request carries the lifetime of the entry and the addresses of the node stay. -/
structure ForeignFallback (s : MobileNode) : Prop where
  known : ∀ it ∈ s.currentAdvertisements, it.privateAddr ≠ s.homePrivateAddr
  asks : ∀ d t out, step s (.handlerTimer d) = some (t,out) →
    t.currPrivateAddr = s.currPrivateAddr ∧ t.currCoa = s.currCoa ∧ ∀ e ∈ out,
      e.packet.ip.ipDst ≠ s.homePrivateAddr ∧ ∃ it ∈ s.currentAdvertisements,
        e.packet.ip.ipDst = it.privateAddr ∧ e.packet.request.lifetime = it.regLifetime

theorem foreignFallback_of_known (hs : AllKnown (fun addr _ => addr ≠ s.homePrivateAddr) s) : ForeignFallback s := by
  refine ⟨hs,?_⟩
  intro d t out hstep
  cases stepped_of_step hstep with
  | handled _ _ _ h =>
    cases h with
    | forgotten known hknown => exact ⟨rfl,rfl,fun e he => absurd he List.not_mem_nil⟩
    | fellBack hlost it rest hknown =>
      have hit : it ∈ s.currentAdvertisements.filterMap ageAdvertisement := by
        rw [← hknown]
        exact List.mem_cons_self
      obtain ⟨old,hold,haddr,hlife⟩ := mem_age hit
      have hforeign : ¬it.privateAddr = (forget s false (it :: rest)).homePrivateAddr := by
        rw [haddr]
        exact hs old hold
      simp only [RegistrationRequestSource.makePacket,hforeign,↓reduceIte]
      split
      · exact ⟨rfl,rfl,fun e he => absurd he List.not_mem_nil⟩
      · refine ⟨rfl,rfl,?_⟩
        intro e he
        cases List.mem_singleton.mp he
        have hdst : (requestPacket d (forget s false (it :: rest)) it).ip.ipDst = it.privateAddr := by
          simp [requestPacket,sealIp]
        have hrequest : (requestPacket d (forget s false (it :: rest)) it).request.lifetime = it.regLifetime := by
          simp [requestPacket,requestHeader,hforeign]
        dsimp only
        rw [hdst,hrequest]
        exact ⟨hforeign,old,hold,haddr,hlife⟩

theorem listed_push (draws : ℕ → Draw) {p : Packet} (hdiscard : ¬discarded p) (hbusy : ¬busy p)
    (haddr : p.advertisement.address ≠ s.homePrivateAddr) :
    ∃ it ∈ (AdvertisementsHandler.push draws s p).node.currentAdvertisements, it.privateAddr = p.ip.ipSrc := by
  rw [currentAdvertisements_push hdiscard hbusy haddr]
  split
  · rename_i hany
    obtain ⟨it,hit,hsame⟩ := List.any_eq_true.mp hany
    refine ⟨touch (decode p) it,List.mem_map_of_mem hit,?_⟩
    have hkey := (sameAgent_iff.mp hsame).1
    rcases touch_cases (decode p) it with h | h
    · exact (Prod.mk.inj h).1.trans hkey
    · exact (Prod.mk.inj h).1
  · exact ⟨decode p,by simp,rfl⟩

theorem allKnown_run {myAddress homePublicAddr : IPAddress} {es : List Event} {out : List Emission}
    (hes : ∀ e ∈ es, ∀ p, e.Lists home p → Q (decode p).privateAddr (decode p).regLifetime)
    (hr : run step (configure myAddress home homePublicAddr) es = some (s,out)) :
    AllKnown Q s ∧ s.homePrivateAddr = home := by
  refine run_preserves_mem (P := fun s => AllKnown Q s ∧ s.homePrivateAddr = home) ?_ ⟨?_,rfl⟩ hr
  · rintro e he u v o ⟨hu,rfl⟩ hstep
    exact ⟨allKnown_step hu (hes e he) hstep,(step_sends hstep).1.homePrivateAddr⟩
  · exact fun it hit => absurd hit List.not_mem_nil

/-- In every run: all lists hold foreign agents only, and every request that the timer sends
for a lost agent is a registration with one of them, exactly if no advertisement from the
private address of the home agent gets past the guard of the list. If moreover no listed
advertisement gives a lifetime of zero, the request asks for more than zero seconds. -/
theorem foreign_fallback_iff (myAddress home homePublicAddr : IPAddress) (es : List Event) :
    ((∀ pre post, es = pre ++ post → ∃ s out,
        run step (configure myAddress home homePublicAddr) pre = some (s,out) ∧ ForeignFallback s) ↔
      ∀ e ∈ es, ∀ p, e.Lists home p → p.ip.ipSrc ≠ home) ∧
    ((∀ e ∈ es, ∀ p, e.Lists home p → p.ip.ipSrc ≠ home ∧ p.advertisement.lifetimeEx ≠ 0) →
      ∀ pre post, es = pre ++ post → ∃ s out,
        run step (configure myAddress home homePublicAddr) pre = some (s,out) ∧ ForeignFallback s ∧
          ∀ d t out', step s (.handlerTimer d) = some (t,out') → ∀ e ∈ out', e.packet.request.lifetime ≠ 0) := by
  have hholds : (∀ e ∈ es, ∀ p, e.Lists home p → p.ip.ipSrc ≠ home) → ∀ pre post, es = pre ++ post →
      ∃ s out, run step (configure myAddress home homePublicAddr) pre = some (s,out) ∧ ForeignFallback s := by
    rintro hes pre post rfl
    obtain ⟨s,out,hr⟩ := run_defined step_isSome (configure myAddress home homePublicAddr) pre
    obtain ⟨hknown,haddr⟩ := allKnown_run (Q := fun addr _ => addr ≠ home)
      (fun e he => hes e (List.mem_append_left post he)) hr
    exact ⟨s,out,hr,foreignFallback_of_known (haddr ▸ hknown)⟩
  refine ⟨⟨?_,hholds⟩,?_⟩
  · intro hall e he p hlists hsrc
    obtain ⟨pre,post,rfl⟩ := List.append_of_mem he
    cases e with
    | advertisement draws q =>
      obtain ⟨rfl,hfilter,hdiscard,hbusy,haddr⟩ := hlists
      obtain ⟨u,out,hr,hu⟩ := hall (pre ++ [.advertisement draws q]) post (by simp)
      obtain ⟨s,o,o',hpre,hstep,-⟩ := run_concat_eq_some.mp hr
      have hsaddr : s.homePrivateAddr = home := (run_sameAddresses hpre).homePrivateAddr
      have huaddr : u.homePrivateAddr = home := (run_sameAddresses hr).homePrivateAddr
      cases stepped_of_step hstep with
      | heard _ _ _ =>
        obtain ⟨it,hit,hkey⟩ := listed_push draws hdiscard hbusy (hsaddr ▸ haddr)
        exact hu.known it hit (hkey.trans (hsrc.trans huaddr.symm))
      | unheard _ _ hno => exact hno hfilter
    | reply _ => exact hlists
    | handlerTimer _ => exact hlists
    | sourceTimer => exact hlists
    | sourceTimer2 _ => exact hlists
  · rintro hes pre post rfl
    obtain ⟨s,out,hr,hs⟩ := hholds (fun e he p h => (hes e he p h).1) pre post rfl
    refine ⟨s,out,hr,hs,?_⟩
    obtain ⟨hlife,-⟩ := allKnown_run (Q := fun _ life => life ≠ 0)
      (fun e he p h => (hes e (List.mem_append_left post he) p h).2) hr
    intro d t out' hstep e he
    obtain ⟨it,hit,-,hrequest⟩ := ((hs.asks d t out' hstep).2.2 e he).2
    rw [hrequest]
    exact hlife it hit

/-- The home agent advertises its public address from its private one. -/
def homeAdvertisement : Packet :=
  AgentAdvertiser.advertisementPacket ⟨true,true,60,15000,0⟩ (AgentBase.configure 1 2 25)

def briefAdvertisement : Packet := AgentAdvertiser.advertisementPacket ⟨true,true,3,1000,0⟩ sampleAgent

/-- The node hears its home agent, registers with a foreign agent and hears no more of it. -/
def lostAgent : List Event :=
  [.advertisement sampleDraws homeAdvertisement,.advertisement sampleDraws briefAdvertisement,
    .reply (ForeignAgent.visitReply 9 1 0 0)] ++
  (List.replicate 3 [.sourceTimer2 (sampleDraws 7),.handlerTimer (sampleDraws 7)]).flatten

/-- The node falls back on its home agent: it sends a deregistration and moves its addresses
home while it is away. -/
theorem falls_back_on_home_agent :
    ∃ s out t out', run step sampleNode lostAgent = some (s,out) ∧ s.home = false ∧ s.connected = true ∧
      s.currPrivateAddr = 6 ∧ step s (.handlerTimer (sampleDraws 7)) = some (t,out') ∧
      out'.map (fun e => (e.packet.ip.ipDst,e.packet.request.lifetime)) = [(sampleNode.homePrivateAddr,0)] ∧
      t.currPrivateAddr = sampleNode.homePrivateAddr ∧ ¬ForeignFallback s := by
  have hlost : (run step sampleNode lostAgent).any (fun r => decide (r.1.home = false ∧ r.1.connected = true ∧
      r.1.currPrivateAddr = 6 ∧ ∃ it ∈ r.1.currentAdvertisements, it.privateAddr = r.1.homePrivateAddr) &&
      (step r.1 (.handlerTimer (sampleDraws 7))).any (fun q => decide
        (q.2.map (fun e => (e.packet.ip.ipDst,e.packet.request.lifetime)) = [(sampleNode.homePrivateAddr,0)] ∧
          q.1.currPrivateAddr = sampleNode.homePrivateAddr))) = true := by decide +kernel
  obtain ⟨⟨s,out⟩,hrun,hs⟩ := (Option.any_eq_true _ _).mp hlost
  obtain ⟨hbefore,hafter⟩ := Bool.and_eq_true_iff.mp hs
  obtain ⟨⟨t,out'⟩,hstep,ht⟩ := (Option.any_eq_true _ _).mp hafter
  obtain ⟨haway,hconnected,hagent,it,hit,hhome⟩ := of_decide_eq_true hbefore
  obtain ⟨hsent,hmoved⟩ := of_decide_eq_true ht
  exact ⟨s,out,t,out',hrun,haway,hconnected,hagent,hstep,hsent,hmoved,fun h => h.known it hit hhome⟩

end Fallback
end ClickMobileIP.MobileNode
