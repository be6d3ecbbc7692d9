import ClickMobileIP.Agent.ForeignLists
import ClickMobileIP.Node.NodeInvariant

/-! # The connection time of a mobile node

A request is aged by one timer and the connection that it leads to by another. The node
computes the time it has left from three lifetimes in network byte order; the requested
one cancels out, and what remains is the granted lifetime aged as the request was. The
results say how the connection then runs down, and exactly when the node believes in no
more time than it was given.
-/
namespace ClickMobileIP.MobileNode
open EventRun EraseSweep RegistrationRequestSource AdvertisementsHandler
open ForeignAgent (seconds)

section Lifetimes

theorem aged_sub_sub (k : ℕ) (requested granted : UInt16) :
    aged k requested - (requested - granted) = aged k granted := by
  have hr := requested.toNat_lt
  have hg := granted.toNat_lt
  apply UInt16.toNat_inj.mp
  rw [UInt16.toNat_sub,UInt16.toNat_sub,aged_toNat,aged_toNat]
  omega

theorem seconds_lt (t : UInt16) : seconds t < 65536 := UInt16.toNat_lt _

theorem toNat_eq_seconds (t : UInt16) : t.toNat = seconds t % 256 * 256 + seconds t / 256 := by
  rw [seconds,← htons_toNat,htons_ntohs]

/-- The countdown runs in the low byte of the seconds and leaves the high byte alone. -/
theorem seconds_aged (k : ℕ) (t : UInt16) :
    seconds (aged k t) = seconds t / 256 * 256 + (seconds t % 256 + 255 * k) % 256 := by
  have hlt := seconds_lt t
  have hhigh : seconds t / 256 < 256 := by omega
  have hswap : seconds (aged k t) = (aged k t).toNat % 256 * 256 + (aged k t).toNat / 256 := by
    rw [seconds,ntohs,htons_toNat]
  have haged : (aged k t).toNat = (seconds t % 256 + 255 * k) % 256 * 256 + seconds t / 256 := by
    rw [aged_toNat,toNat_eq_seconds t]
    omega
  rw [hswap,haged]
  omega

end Lifetimes

section Accepting
variable {s : MobileNode} {p : Packet} {it : Request}

def Accepting (p : Packet) : Prop := p.IsReply ∧ (p.reply.code = 0 ∨ p.reply.code = 1)

instance (p : Packet) : Decidable (Accepting p) := inferInstanceAs (Decidable (_ ∧ _))

theorem push_accepting (s : MobileNode) (hp : Accepting p) : RegistrationRequestSource.push s p =
    s.currentRequests.foldl (fun t it => if answers t p it then accept p t it else t) s := by
  have hlen : ¬p.length < 48 := by have := hp.1.1; omega
  rw [RegistrationRequestSource.push,if_neg hlen,if_pos hp.1.2,if_pos hp.2]

theorem answers_congr {t : MobileNode} (h : t.homePublicAddr = s.homePublicAddr) (p : Packet) (it : Request) :
    answers t p it = answers s p it := by
  rw [answers,answers,h]

/-- The last record that the reply answers decides what the node believes. -/
theorem push_last {front back : List Request} (hp : Accepting p) (hsplit : s.currentRequests = front ++ it :: back)
    (hit : answers s p it = true) (hback : ∀ x ∈ back, answers s p x = false) :
    ∃ t, RegistrationRequestSource.push s p = accept p t it ∧ SameAddresses s t ∧
      t.currentAdvertisements = s.currentAdvertisements := by
  let P : MobileNode → Prop := fun t => SameAddresses s t ∧ t.currentAdvertisements = s.currentAdvertisements
  have haccept : ∀ t x, P t → P (accept p t x) := by
    rintro t x ⟨haddr,hknown⟩
    unfold accept
    split
    · exact ⟨⟨haddr.myAddress,haddr.homePrivateAddr,haddr.homePublicAddr⟩,hknown⟩
    · exact ⟨⟨haddr.myAddress,haddr.homePrivateAddr,haddr.homePublicAddr⟩,hknown⟩
  have hstart : P s := ⟨⟨rfl,rfl,rfl⟩,rfl⟩
  have hbefore : P (front.foldl (fun t it => if answers t p it then accept p t it else t) s) :=
    foldl_preserves (fun t x _ => haccept t x) hstart
  rw [push_accepting s hp,hsplit,List.foldl_append,List.foldl_cons]
  generalize front.foldl (fun t it => if answers t p it then accept p t it else t) s = t at hbefore
  -- no record after `it` is answered, so the rest of the loop changes nothing
  have hrest : ∀ x ∈ back, answers (accept p t it) p x = false := by
    intro x hx
    rw [answers_congr (haccept t it hbefore).1.homePublicAddr]
    exact hback x hx
  rw [answers_congr hbefore.1.homePublicAddr p it,hit,if_pos rfl,foldl_unanswered hrest]
  exact ⟨t,rfl,hbefore⟩

/-- For a record of age `k` the time that the node has left is the granted lifetime of age
`k`, whatever was requested. -/
theorem remainingConnectionTime_accept {k : ℕ} (hage : it.remainingLifetime = aged k it.requestedLifetime)
    (hg : p.reply.lifetime ≠ 0) (t : MobileNode) :
    (accept p t it).remainingConnectionTime = aged k p.reply.lifetime := by
  rw [accept,if_neg hg]
  dsimp only
  rw [hage,aged_sub_sub]

end Accepting
section Records
variable {s t : MobileNode} {it : Request} {e : Event} {out : List Emission}

def agedRequest (n : ℕ) (it : Request) : Request := { it with remainingLifetime := aged n it.remainingLifetime }

end Records

section Countdown
variable {v w : MobileNode} {c n : ℕ}

end Countdown

section Answered
variable {s u : MobileNode} {p : Packet}

theorem run_sameAddresses {es : List Event} {out : List Emission} (hrun : run step s es = some (u,out)) :
    SameAddresses s u := by
  apply run_preserves (P := fun t => SameAddresses s t) ?_ ⟨rfl,rfl,rfl⟩ hrun
  intro t e x o ht hstep
  have hx := (step_sends hstep).1
  exact ⟨hx.myAddress.trans ht.myAddress,hx.homePrivateAddr.trans ht.homePrivateAddr,
    hx.homePublicAddr.trans ht.homePublicAddr⟩

/-- The node believes in no more than the smaller of the two lifetimes, in nothing once so
many seconds have passed, and in no more than the foreign agent grants the visitor. -/
def WithinGrant (p : Packet) (requested : UInt16) (k : ℕ) (t : MobileNode) : Prop :=
  seconds t.remainingConnectionTime ≤ min (seconds requested) (seconds p.reply.lifetime) ∧
    (min (seconds requested) (seconds p.reply.lifetime) ≤ k → seconds t.remainingConnectionTime = 0) ∧
    ∀ uninit pending, pending.lifetimeReq = requested → seconds t.remainingConnectionTime ≤
      seconds (ForeignAgentReplyProcess.visitorItem uninit pending p.reply).lifetimeRem

/-- The low byte of the granted lifetime can pay for the `k` ticks of the record that the
node goes by, the grant exceeds the request by no more than these, and a grant that has run
out for a request of age `j` has done so exactly. The `k` ticks count modulo 256. -/
def PaysFor (r g k j : ℕ) : Prop :=
  k % 256 ≤ g % 256 ∧ g ≤ r + k % 256 ∧ (min r g ≤ j → g = k % 256)

instance (r g k j : ℕ) : Decidable (PaysFor r g k j) := inferInstanceAs (Decidable (_ ∧ _))

theorem paysFor_iff (r g k j : ℕ) : PaysFor r g k j ↔
    g / 256 * 256 + (g % 256 + 255 * k) % 256 ≤ min r g ∧
      (min r g ≤ j → g / 256 * 256 + (g % 256 + 255 * k) % 256 = 0) := by
  unfold PaysFor
  omega

/-- For a reply with any lifetime but zero that accepts outstanding requests, the last of
which is `k` ticks old, and for each of these requests, of any age. -/
theorem within_grant_iff {it : Request} {front back : List Request} {k : ℕ} (hp : Accepting p)
    (hg : p.reply.lifetime ≠ 0) (hsplit : s.currentRequests = front ++ it :: back)
    (hit : answers s p it = true) (hback : ∀ x ∈ back, answers s p x = false)
    (hage : it.remainingLifetime = aged k it.requestedLifetime) :
    ∀ x ∈ s.currentRequests, answers s p x = true → ∀ j, x.remainingLifetime = aged j x.requestedLifetime →
      ((∃ t, step s (.reply p) = some (t,[]) ∧ WithinGrant p x.requestedLifetime j t) ↔
        PaysFor (seconds x.requestedLifetime) (seconds p.reply.lifetime) k j) := by
  intro x _ _ j _
  obtain ⟨t,hpush,-⟩ := push_last hp hsplit hit hback
  have hleft : seconds (RegistrationRequestSource.push s p).remainingConnectionTime =
      seconds p.reply.lifetime / 256 * 256 + (seconds p.reply.lifetime % 256 + 255 * k) % 256 := by
    rw [hpush,remainingConnectionTime_accept hage hg,seconds_aged]
  rw [paysFor_iff,← hleft]
  constructor
  · rintro ⟨u,hstep,hmin,hzero,-⟩
    cases hstep
    exact ⟨hmin,hzero⟩
  · rintro ⟨hmin,hzero⟩
    refine ⟨_,rfl,hmin,hzero,?_⟩
    rintro uninit pending hreq
    apply hmin.trans
    unfold ForeignAgentReplyProcess.visitorItem
    rw [hreq]
    dsimp only
    split
    · exact Nat.min_le_left _ _
    · exact Nat.min_le_right _ _

theorem within_grant_sample :
    ∃ s out t, run step sampleNode (.advertisement sampleDraws firstAdvertisement :: List.replicate 3 .sourceTimer) =
        some (s,out) ∧
      step s (.reply (ForeignAgent.visitReply 9 1 0 0)) = some (t,[]) ∧
      WithinGrant (ForeignAgent.visitReply 9 1 0 0) (decode firstAdvertisement).regLifetime 3 t := by
  have hwaited : (run step sampleNode (.advertisement sampleDraws firstAdvertisement ::
      List.replicate 3 .sourceTimer)).any
      (fun r => decide (r.1.currentRequests = [agedRequest 3 (newReq (sampleDraws 0) (decode firstAdvertisement))] ∧
        answers r.1 (ForeignAgent.visitReply 9 1 0 0)
          (agedRequest 3 (newReq (sampleDraws 0) (decode firstAdvertisement))) = true)) = true := by decide +kernel
  obtain ⟨⟨s,out⟩,hrun,hs⟩ := (Option.any_eq_true _ _).mp hwaited
  have hs := of_decide_eq_true hs
  have hsplit : s.currentRequests =
      [] ++ agedRequest 3 (newReq (sampleDraws 0) (decode firstAdvertisement)) :: [] := hs.1
  have hmem : agedRequest 3 (newReq (sampleDraws 0) (decode firstAdvertisement)) ∈ s.currentRequests := by
    simp [hsplit]
  obtain ⟨t,hstep,ht⟩ := (within_grant_iff (k := 3) (by decide +kernel) (by decide +kernel) hsplit hs.2
    (by simp) rfl _ hmem hs.2 3 rfl).mpr (by decide +kernel)
  exact ⟨s,out,t,hrun,hstep,ht⟩

def shortGrant : Packet where
  data := udpPacket { ipV := 4, ipHl := 5, ipP := 17, ipSrc := 6, ipDst := 9 }
    { uhSport := htons 434, uhDport := htons 1001 }
    (RegistrationRequestReplyPacketheader.layout.write
      { type := 3, lifetime := htons 5, homeAddr := 9, homeAgent := 1, id1 := 0, id2 := 0 }) 28

/-- The reply comes ten seconds after the request for 25 and the node believes in another
251 seconds. -/
theorem late_grant_wraps :
    ∃ s out, run step sampleNode (.advertisement sampleDraws firstAdvertisement :: List.replicate 10 .sourceTimer) =
        some (s,out) ∧
      s.currentRequests = [agedRequest 10 (newReq (sampleDraws 0) (decode firstAdvertisement))] ∧
      answers s shortGrant (agedRequest 10 (newReq (sampleDraws 0) (decode firstAdvertisement))) = true ∧
      Accepting shortGrant ∧ seconds shortGrant.reply.lifetime = 5 ∧
      ¬∃ t, step s (.reply shortGrant) = some (t,[]) ∧
        WithinGrant shortGrant (decode firstAdvertisement).regLifetime 10 t := by
  have hwaited : (run step sampleNode (.advertisement sampleDraws firstAdvertisement ::
      List.replicate 10 .sourceTimer)).any
      (fun r => decide (r.1.currentRequests = [agedRequest 10 (newReq (sampleDraws 0) (decode firstAdvertisement))] ∧
        answers r.1 shortGrant (agedRequest 10 (newReq (sampleDraws 0) (decode firstAdvertisement))) = true ∧
        seconds (RegistrationRequestSource.push r.1 shortGrant).remainingConnectionTime = 251)) = true := by
    decide +kernel
  obtain ⟨⟨s,out⟩,hrun,hs⟩ := (Option.any_eq_true _ _).mp hwaited
  obtain ⟨hrecords,hanswers,hbelief⟩ := of_decide_eq_true hs
  have hfive : seconds shortGrant.reply.lifetime = 5 := by decide +kernel
  refine ⟨s,out,hrun,hrecords,hanswers,by decide +kernel,hfive,?_⟩
  rintro ⟨t,hstep,hmin,-⟩
  cases hstep
  rw [hbelief,hfive] at hmin
  omega

end Answered

end ClickMobileIP.MobileNode
