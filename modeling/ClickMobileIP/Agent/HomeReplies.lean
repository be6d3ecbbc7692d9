import ClickMobileIP.Agent.HomeExpiry

/-! # Replies of the home agent

A request that fails a test of `validatePacket` gets its reply built and never sent. An
accepted one is answered, but a duplicate is told the old remaining lifetime while its
binding starts again. Requests of different nodes touch different entries and commute.
-/
namespace ClickMobileIP.HomeAgent
open EventRun RegistrationRequestReply

section Answers
variable {s : AgentBase} {p : Packet}

def Acceptable (s : AgentBase) (p : Packet) : Prop :=
  p.request.flags &&& 1 = 0 ∧ (p.request.flags >>> 2) &&& 1 = 0 ∧ (p.request.flags >>> 5) &&& 1 = 0 ∧
    p.request.homeAgent = s.publicAddr

instance (s : AgentBase) (p : Packet) : Decidable (Acceptable s p) := inferInstanceAs (Decidable (_ ∧ _))

theorem validatePacket_eq_zero : validatePacket s p = 0 ↔ Acceptable s p := by
  unfold validatePacket Acceptable
  dsimp only
  split_ifs with hzero hcolocated hagent
  · refine iff_of_false (by decide) ?_
    rintro ⟨h0,h2,-⟩
    exact hzero.elim (fun h => h h0) (fun h => h h2)
  · exact iff_of_false (by decide) (fun h => hcolocated h.2.2.1)
  · exact iff_of_false (by decide) (fun h => hagent h.2.2.2)
  · obtain ⟨h0,h2⟩ := not_or.mp hzero
    exact iff_of_true rfl ⟨not_not.mp h0,not_not.mp h2,not_not.mp hcolocated,not_not.mp hagent⟩

/-- A registration reply to the request: its fields are echoed, addresses and ports are
swapped, and the code is the verdict on the request. -/
structure Replies (s : AgentBase) (p q : Packet) : Prop where
  isReply : q.IsReply
  code : q.reply.code = (validatePacket s p).toUInt8
  homeAddr : q.reply.homeAddr = p.request.homeAddr
  homeAgent : q.reply.homeAgent = p.request.homeAgent
  id1 : q.reply.id1 = p.request.id1
  id2 : q.reply.id2 = p.request.id2
  sport : q.udp.uhSport = p.udp.uhDport
  dport : q.udp.uhDport = p.udp.uhSport
  src : q.ip.ipSrc = p.ip.ipDst
  dst : q.ip.ipDst = p.ip.ipSrc

theorem replies_makeReply (s : AgentBase) (p : Packet) (lifetime : UInt16) :
    Replies s p (makeReply p (validatePacket s p) lifetime) := by
  constructor
  · constructor
    · simp [makeReply,Packet.length]
    · simp [makeReply]
  all_goals simp [makeReply,sealUdp,sealIp]

theorem push_acceptable (hp : p.IsRequest) (hok : Acceptable s p) :
    ∃ duplicate port, findDuplicate s p.request = some duplicate ∧
      push true s p = some (if p.request.lifetime = 0 then unbind s p.request else bind s p.request,
        [⟨port,makeReply p (validatePacket s p) (duplicate.getD p.request.lifetime)⟩]) := by
  have hcode : validatePacket s p = 0 := validatePacket_eq_zero.mpr hok
  obtain ⟨t,out,hpush,hpushed⟩ := push_pushed true s p
  rw [hpush,hcode]
  cases hpushed with
  | ignored h => exact absurd hcode (h hp rfl)
  | bound _ _ _ hlife lifetime hdup =>
    rw [if_neg hlife]
    rcases hdup with ⟨hnone,rfl⟩ | hsome
    · exact ⟨none,0,hnone,rfl⟩
    · exact ⟨some lifetime,0,hsome,rfl⟩
  | unbound _ _ _ hlife lifetime hdup =>
    rw [if_pos hlife]
    rcases hdup with ⟨hnone,rfl⟩ | hsome
    · exact ⟨none,1,hnone,rfl⟩
    · exact ⟨some lifetime,1,hsome,rfl⟩

theorem push_unacceptable (alloc : Bool) (hno : ¬Acceptable s p) : push alloc s p = some (s,[]) := by
  have hcode : validatePacket s p ≠ 0 := fun h => hno (validatePacket_eq_zero.mp h)
  obtain ⟨t,out,hpush,hpushed⟩ := push_pushed alloc s p
  rw [hpush]
  cases hpushed with
  | ignored _ => rfl
  | bound _ _ h _ _ _ => exact absurd h hcode
  | unbound _ _ h _ _ _ => exact absurd h hcode

/-- The request is answered with exactly one reply, and the bindings change only if the
reply accepts. -/
def Answered (s : AgentBase) (p : Packet) : Prop :=
  ∃ t e, push true s p = some (t,[e]) ∧ Replies s p e.packet ∧
    (t.table ≠ s.table ∨ t.list ≠ s.list → validatePacket s p = 0 ∨ validatePacket s p = 1)

theorem answered_iff (hp : p.IsRequest) : Answered s p ↔ Acceptable s p := by
  constructor
  · rintro ⟨t,e,hpush,-⟩
    by_contra hno
    rw [push_unacceptable true hno] at hpush
    cases hpush
  · intro hok
    obtain ⟨duplicate,port,-,hpush⟩ := push_acceptable hp hok
    exact ⟨_,_,hpush,replies_makeReply s p _,fun _ => Or.inl (validatePacket_eq_zero.mpr hok)⟩

def plainRequest (flags : UInt8) (node homeAgent : IPAddress) : Packet where
  data := udpPacket { ipV := 4, ipHl := 5, ipLen := htons 52, ipP := 17, ipSrc := 7, ipDst := 1 }
    { uhSport := htons 1001, uhDport := htons 434, uhUlen := htons 32 }
    (RegistrationRequestPacketheader.layout.write
      { type := 1, flags := flags, lifetime := htons 25, homeAddr := node, homeAgent := homeAgent, coAddr := 7,
        id1 := 3, id2 := 4 })
    32

theorem answered_sample : Answered (AgentBase.configure 1 2 25) (plainRequest 0 9 1) :=
  (answered_iff (by decide +kernel)).mpr (by decide +kernel)

/-- A request to another home agent, or with a reserved flag or the co-located bit, is
never answered. -/
theorem denied_request_not_answered :
    (plainRequest 0 9 8).IsRequest ∧ validatePacket (AgentBase.configure 1 2 25) (plainRequest 0 9 8) = 136 ∧
      ¬Answered (AgentBase.configure 1 2 25) (plainRequest 0 9 8) := by
  have hp : (plainRequest 0 9 8).IsRequest := by decide +kernel
  refine ⟨hp,by decide +kernel,?_⟩
  rintro ⟨t,e,hpush,-⟩
  rw [push_unacceptable true (by decide +kernel)] at hpush
  cases hpush

end Answers

section Truth
variable {s : AgentBase} {p : Packet}

/-- The lifetime stored for a node; no binding counts as zero. -/
def storedLifetime (s : AgentBase) (node : IPAddress) : UInt16 :=
  match s.table node with
  | none => 0
  | some entry => entry.lifetime

/-- The reply to the request names the lifetime that the agent stores afterwards. -/
def Truthful (s : AgentBase) (p : Packet) : Prop :=
  ∃ t e, push true s p = some (t,[e]) ∧ e.packet.reply.lifetime = storedLifetime t p.request.homeAddr

def Repeats (p : Packet) (entry : HARegistrationEntry) : Prop :=
  entry.id1 = p.request.id1 ∧ entry.id2 = p.request.id2 ∧ entry.mobileNodeCoa = p.request.coAddr

instance (p : Packet) (entry : HARegistrationEntry) : Decidable (Repeats p entry) :=
  inferInstanceAs (Decidable (_ ∧ _))

theorem findDuplicate_eq_some (hs : Consistent s) {lifetime : UInt16} :
    findDuplicate s p.request = some (some lifetime) ↔
      ∃ entry, s.table p.request.homeAddr = some entry ∧ Repeats p entry ∧ entry.lifetime = lifetime := by
  rw [findDuplicate_eq]
  simp only [Option.some.injEq,Option.bind_eq_some_iff]
  apply exists_congr
  intro entry
  apply and_congr_right
  intro htable
  have hkey : entry.mobileNodeHomadress = p.request.homeAddr := hs.key _ entry htable
  simp only [hkey,true_and,Option.ite_none_right_eq_some,Option.some.injEq]
  rfl

theorem storedLifetime_update (s : AgentBase) (format : RegistrationRequestPacketheader) :
    storedLifetime (if format.lifetime = 0 then unbind s format else bind s format) format.homeAddr =
      format.lifetime := by
  split_ifs with hlife
  · simp [storedLifetime,unbind_table,hlife]
  · simp [storedLifetime,bind_table]

/-- The reply names the duplicate's lifetime, the table gets the requested one. -/
theorem truthful_iff_findDuplicate (hp : p.IsRequest) (hok : Acceptable s p) :
    ∃ duplicate, findDuplicate s p.request = some duplicate ∧
      (Truthful s p ↔ duplicate.getD p.request.lifetime = p.request.lifetime) := by
  obtain ⟨duplicate,port,hdup,hpush⟩ := push_acceptable hp hok
  refine ⟨duplicate,hdup,?_⟩
  unfold Truthful
  rw [hpush]
  constructor
  · rintro ⟨t,e,h,hlife⟩
    cases h
    rw [storedLifetime_update] at hlife
    simpa [makeReply] using hlife
  · intro h
    refine ⟨_,_,rfl,?_⟩
    rw [storedLifetime_update]
    simpa [makeReply] using h

/-- In every reachable state the reply to an accepted request is true exactly when a
binding that the request repeats still has the whole requested lifetime. -/
theorem truthful_iff (hs : Reachable s) (hp : p.IsRequest) (hok : Acceptable s p) :
    Truthful s p ↔ ∀ entry, s.table p.request.homeAddr = some entry → Repeats p entry →
      entry.lifetime = p.request.lifetime := by
  obtain ⟨duplicate,hdup,htruth⟩ := truthful_iff_findDuplicate hp hok
  rw [htruth]
  cases duplicate with
  | none =>
    refine iff_of_true rfl ?_
    intro entry hentry hrepeats
    have h := (findDuplicate_eq_some hs.consistent).mpr ⟨entry,hentry,hrepeats,rfl⟩
    rw [hdup] at h
    cases h
  | some lifetime =>
    obtain ⟨entry,hentry,hrepeats,rfl⟩ := (findDuplicate_eq_some hs.consistent).mp hdup
    constructor
    · intro h entry' hentry' _
      rw [hentry] at hentry'
      cases hentry'
      exact h
    · exact fun h => h entry hentry hrepeats

/-- The first request of a node is answered truly, and so is the same request once more before
the first tick. -/
theorem truthful_first : Truthful (AgentBase.configure 1 2 25) (sampleRequest 25) ∧
    ∃ s entry, Reachable s ∧ s.table 9 = some entry ∧ Repeats (sampleRequest 25) entry ∧
      Truthful s (sampleRequest 25) := by
  refine ⟨(truthful_iff (reachable_configure 1 2 25) (by decide +kernel) (by decide +kernel)).mpr
    (fun _ h _ => by cases h),?_⟩
  obtain ⟨s,out,hrun,-⟩ := run_total (fun s e hs => step_total e hs) (consistent_configure 1 2 25)
    [.push true (sampleRequest 25)]
  have hstored : (run step (AgentBase.configure 1 2 25) [.push true (sampleRequest 25)]).any
      (fun r => decide (r.1.publicAddr = 1 ∧ r.1.table 9 = some ⟨9,7,htons 25,3,4⟩)) = true := by
    decide +kernel
  rw [hrun] at hstored
  obtain ⟨hpub,htable⟩ := of_decide_eq_true hstored
  have hok : Acceptable s (sampleRequest 25) := by
    unfold Acceptable
    rw [hpub]
    decide +kernel
  have hnode : (sampleRequest 25).request.homeAddr = 9 := by decide +kernel
  have hlife : (sampleRequest 25).request.lifetime = htons 25 := by decide +kernel
  have hreach : Reachable s := ⟨1,2,25,_,out,hrun⟩
  refine ⟨s,_,hreach,htable,by decide +kernel,(truthful_iff hreach (by decide +kernel) hok).mpr ?_⟩
  intro entry hentry _
  rw [hnode,htable] at hentry
  rw [← Option.some.inj hentry,hlife]

/-- The same request a second later is told 24 seconds while its binding starts again
with 25. -/
theorem repeated_request_misled : ∃ s, Reachable s ∧ (sampleRequest 25).IsRequest ∧
    Acceptable s (sampleRequest 25) ∧ ¬Truthful s (sampleRequest 25) := by
  obtain ⟨s,out,hrun,hs⟩ := run_total (fun s e hs => step_total e hs) (consistent_configure 1 2 25)
    [.push true (sampleRequest 25),.runTimer]
  have hreach : Reachable s := ⟨1,2,25,_,out,hrun⟩
  have hstored : (run step (AgentBase.configure 1 2 25) [.push true (sampleRequest 25),.runTimer]).any
      (fun r => decide (r.1.publicAddr = 1 ∧ r.1.table 9 = some ⟨9,7,htons 24,3,4⟩)) = true := by
    decide +kernel
  rw [hrun] at hstored
  obtain ⟨hpub,htable⟩ := of_decide_eq_true hstored
  have hok : Acceptable s (sampleRequest 25) := by
    unfold Acceptable
    rw [hpub]
    decide +kernel
  have hp : (sampleRequest 25).IsRequest := by decide +kernel
  refine ⟨s,hreach,hp,hok,?_⟩
  intro htruth
  have hnode : (sampleRequest 25).request.homeAddr = 9 := by decide +kernel
  have hold : findDuplicate s (sampleRequest 25).request = some (some (htons 24)) :=
    (findDuplicate_eq_some hs).mpr ⟨⟨9,7,htons 24,3,4⟩,by rw [hnode]; exact htable,by decide +kernel,rfl⟩
  obtain ⟨duplicate,hdup,hiff⟩ := truthful_iff_findDuplicate hp hok
  rw [hold] at hdup
  cases hdup
  exact absurd (hiff.mp htruth) (by decide +kernel)

end Truth

section Independence
variable {s : AgentBase} {p : Packet} {a : Bool}

theorem push_frame {t : AgentBase} {out : List Emission} (h : push a s p = some (t,out)) :
    t.publicAddr = s.publicAddr ∧ ∀ addr, addr ≠ p.request.homeAddr → t.table addr = s.table addr := by
  cases pushed_of_push h with
  | ignored _ => exact ⟨rfl,fun _ _ => rfl⟩
  | bound _ _ _ _ _ _ => exact ⟨rfl,fun addr hne => (bind_table s p.request addr).trans (if_neg hne)⟩
  | unbound _ _ _ _ _ _ =>
    refine ⟨?_,fun addr hne => (unbind_table s p.request addr).trans (if_neg hne)⟩
    unfold unbind
    split_ifs <;> rfl

/-- Of the state, a request reads the agent's address and the binding of its own home
address. -/
theorem push_local {s' : AgentBase} (hpub : s'.publicAddr = s.publicAddr)
    (htable : s'.table p.request.homeAddr = s.table p.request.homeAddr) :
    ∃ t t' out, push a s p = some (t,out) ∧ push a s' p = some (t',out) ∧
      t'.table p.request.homeAddr = t.table p.request.homeAddr := by
  have hcode : validatePacket s' p = validatePacket s p := by
    unfold validatePacket
    rw [hpub]
  have hdup : findDuplicate s' p.request = findDuplicate s p.request := by
    rw [findDuplicate_eq,findDuplicate_eq,htable]
  obtain ⟨duplicate,hsome⟩ := findDuplicate_isSome s p.request
  unfold push
  simp only [hcode,hdup,hsome]
  split_ifs
  · exact ⟨_,_,_,rfl,rfl,htable⟩
  · exact ⟨_,_,_,rfl,rfl,htable⟩
  · exact ⟨_,_,_,rfl,rfl,htable⟩
  · exact ⟨_,_,_,rfl,rfl,by simp only [bind_table,↓reduceIte]⟩
  · exact ⟨_,_,_,rfl,rfl,by simp only [unbind_table,↓reduceIte]⟩
  · exact ⟨_,_,_,rfl,rfl,htable⟩

/-- Two requests of different nodes can be processed in either order: the replies, the
table and the listed addresses are the same, and each leaves the other bindings alone. -/
theorem requests_commute (hs : Reachable s) {q : Packet} (hne : p.request.homeAddr ≠ q.request.homeAddr)
    (a b : Bool) :
    ∃ sp outp spq sq outq sqp,
      push a s p = some (sp,outp) ∧ push b sp q = some (spq,outq) ∧
      push b s q = some (sq,outq) ∧ push a sq p = some (sqp,outp) ∧
      spq.table = sqp.table ∧ (∀ addr, addr ∈ spq.list ↔ addr ∈ sqp.list) ∧
      (∀ addr, addr ≠ p.request.homeAddr → sp.table addr = s.table addr) ∧
      (∀ addr, addr ≠ q.request.homeAddr → sq.table addr = s.table addr) := by
  obtain ⟨sp,outp,hp,-⟩ := push_pushed a s p
  obtain ⟨sq,outq,hq,-⟩ := push_pushed b s q
  obtain ⟨hpubp,hframep⟩ := push_frame hp
  obtain ⟨hpubq,hframeq⟩ := push_frame hq
  obtain ⟨_,spq,_,hq',hpq,hkeyq⟩ := push_local (a := b) hpubp (hframep _ hne.symm)
  obtain ⟨_,sqp,_,hp',hqp,hkeyp⟩ := push_local (a := a) hpubq (hframeq _ hne)
  rw [hq] at hq'
  rw [hp] at hp'
  cases hq'
  cases hp'
  have htable : spq.table = sqp.table := by
    funext addr
    by_cases haddr : addr = q.request.homeAddr
    · subst haddr
      calc spq.table q.request.homeAddr = sq.table q.request.homeAddr := hkeyq
        _ = sqp.table q.request.homeAddr := ((push_frame hqp).2 _ hne.symm).symm
    · calc spq.table addr = sp.table addr := (push_frame hpq).2 addr haddr
        _ = sqp.table addr := ?_
      by_cases haddr' : addr = p.request.homeAddr
      · subst haddr'
        exact hkeyp.symm
      · exact (hframep addr haddr').trans (((push_frame hqp).2 addr haddr').trans (hframeq addr haddr)).symm
  have hspq : Consistent spq := consistent_push (consistent_push hs.consistent hp) hpq
  have hsqp : Consistent sqp := consistent_push (consistent_push hs.consistent hq) hqp
  refine ⟨sp,outp,spq,sq,outq,sqp,hp,hpq,hq,hqp,htable,?_,hframep,hframeq⟩
  intro addr
  rw [hspq.mem_list,hsqp.mem_list,htable]

theorem requests_commute_sample :
    ∃ sp outp spq sq outq sqp,
      push true (AgentBase.configure 1 2 25) (plainRequest 0 9 1) = some (sp,outp) ∧
      push true sp (plainRequest 0 10 1) = some (spq,outq) ∧
      push true (AgentBase.configure 1 2 25) (plainRequest 0 10 1) = some (sq,outq) ∧
      push true sq (plainRequest 0 9 1) = some (sqp,outp) ∧
      spq.table = sqp.table ∧ (∀ addr, addr ∈ spq.list ↔ addr ∈ sqp.list) := by
  obtain ⟨sp,outp,spq,sq,outq,sqp,hp,hpq,hq,hqp,htable,hlist,-⟩ := requests_commute
    (reachable_configure 1 2 25) (p := plainRequest 0 9 1) (q := plainRequest 0 10 1) (by decide +kernel) true true
  exact ⟨sp,outp,spq,sq,outq,sqp,hp,hpq,hq,hqp,htable,hlist⟩

end Independence
end ClickMobileIP.HomeAgent
