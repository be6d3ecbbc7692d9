import ClickMobileIP.Agent.PendingTimeout

/-! # The two lists of a foreign agent

Requests, replies and the timer share the pending requests and the visitors. In every
run the pending requests fit in the slots and each node is a visitor at most once, so the
test for a full list, an equality, is sound. An accepting reply is installed with the
smaller of two lifetimes, compared in network byte order.
-/
namespace ClickMobileIP.ForeignAgent
open EventRun
open ForeignAgentReplyProcess (sameIds settled visitorItem)
open ForeignAgentReqProcess (relay deny pendingItem visitorVisit)

section Lists
variable {s : AgentBase}

theorem ipSrc_visitorVisit {v w : ListItem} (h : visitorVisit v = some w) : w.ipSrc = v.ipSrc := by
  unfold visitorVisit at h
  split at h
  · cases h
  · cases h
    rfl

end Lists

section Lifetime
variable {s : AgentBase} {p : Packet} {it : ListItem}

/-- The seconds that a field in network byte order stands for. -/
def seconds (lifetime : UInt16) : ℕ := (ntohs lifetime).toNat

/-- The high bytes and the low bytes do not order the two numbers in opposite ways. -/
def BytesAgree (r g : ℕ) : Prop :=
  ¬(r / 256 < g / 256 ∧ g % 256 < r % 256) ∧ ¬(g / 256 < r / 256 ∧ r % 256 < g % 256)

instance (r g : ℕ) : Decidable (BytesAgree r g) := inferInstanceAs (Decidable (_ ∧ _))

theorem seconds_min_iff (a b : UInt16) :
    seconds (if a < b then a else b) = min (seconds a) (seconds b) ↔ BytesAgree (seconds a) (seconds b) := by
  have ha : a.toNat = seconds a % 256 * 256 + seconds a / 256 := by
    rw [seconds,← htons_toNat,htons_ntohs]
  have hb : b.toNat = seconds b % 256 * 256 + seconds b / 256 := by
    rw [seconds,← htons_toNat,htons_ntohs]
  have hra : seconds a < 65536 := UInt16.toNat_lt _
  have hrb : seconds b < 65536 := UInt16.toNat_lt _
  have hlt : a < b ↔ a.toNat < b.toNat := UInt16.lt_iff_toNat_lt
  unfold BytesAgree
  split_ifs with h
  · have hab := hlt.mp h
    omega
  · have hab : ¬a.toNat < b.toNat := fun hab => h (hlt.mpr hab)
    omega

/-- The visitor entry that the reply installs for the node of `it`, the only one of that
node, has the smaller of the requested and the granted lifetime. -/
def GrantsMinimum (uninit : UInt16) (s : AgentBase) (p : Packet) (it : ListItem) : Prop :=
  ∃ t out front v, step s (.reply uninit p) = some (t,out) ∧ t.visitorMap = front ++ [v] ∧
    v.ipSrc = it.ipSrc ∧ (∀ w ∈ front, w.ipSrc ≠ it.ipSrc) ∧
    seconds v.lifetimeReq = min (seconds it.lifetimeReq) (seconds p.reply.lifetime) ∧
    seconds v.lifetimeRem = min (seconds it.lifetimeReq) (seconds p.reply.lifetime)

theorem step_accepting (uninit : UInt16) (hp : p.IsReply) (hcode : p.reply.code = 0 ∨ p.reply.code = 1)
    (hit : s.registrationReq.find? (sameIds p.reply) = some it) :
    ∃ t out, step s (.reply uninit p) = some (t,out) ∧
      t.visitorMap = s.visitorMap.filter (fun v => v.ipSrc ≠ it.ipSrc) ++ [visitorItem uninit it p.reply] := by
  refine ⟨_,_,ForeignAgentReplyProcess.push_reply uninit hp,?_⟩
  simp only [settled,hcode,hit,↓reduceIte]

theorem grantsMinimum_iff_seconds (uninit : UInt16) (hp : p.IsReply)
    (hcode : p.reply.code = 0 ∨ p.reply.code = 1)
    (hit : s.registrationReq.find? (sameIds p.reply) = some it) :
    GrantsMinimum uninit s p it ↔
      seconds (if it.lifetimeReq < p.reply.lifetime then it.lifetimeReq else p.reply.lifetime) =
        min (seconds it.lifetimeReq) (seconds p.reply.lifetime) := by
  obtain ⟨t,out,hstep,hvisitors⟩ := step_accepting uninit hp hcode hit
  constructor
  · rintro ⟨t',out',front,v,hstep',hlast,-,-,hreq,-⟩
    rw [hstep] at hstep'
    cases hstep'
    rw [hvisitors] at hlast
    obtain ⟨-,hv⟩ := List.append_inj' hlast rfl
    cases hv
    exact hreq
  · intro h
    refine ⟨t,out,_,_,hstep,hvisitors,rfl,?_,h,h⟩
    exact fun w hw => of_decide_eq_true (List.mem_filter.mp hw).2

/-- For the pending entry that an accepting reply answers, the visitor gets the minimum
exactly when the bytes of the two lifetimes do not disagree. -/
theorem grantsMinimum_iff (uninit : UInt16) (hp : p.IsReply) (hcode : p.reply.code = 0 ∨ p.reply.code = 1)
    (hit : s.registrationReq.find? (sameIds p.reply) = some it) :
    GrantsMinimum uninit s p it ↔ BytesAgree (seconds it.lifetimeReq) (seconds p.reply.lifetime) :=
  (grantsMinimum_iff_seconds uninit hp hcode hit).trans (seconds_min_iff _ _)

def awaiting (q : Packet) : AgentBase :=
  { AgentBase.configure 1 2 300 with registrationReq := [pendingItem q] }

theorem grantsMinimum_sample :
    GrantsMinimum 0 (awaiting (visitRequest 25 9 5 3 4)) (visitReply 9 5 3 4) (pendingItem (visitRequest 25 9 5 3 4)) :=
  (grantsMinimum_iff 0 (by decide +kernel) (by decide +kernel) (by decide +kernel)).mpr (by decide +kernel)

/-- The node asked for 256 seconds and was granted 25; it stays for 256. -/
theorem longer_than_granted :
    (∃ out, run step (AgentBase.configure 1 2 300) [.request true (visitRequest 256 9 5 3 4)] =
      some (awaiting (visitRequest 256 9 5 3 4),out)) ∧
    ¬GrantsMinimum 0 (awaiting (visitRequest 256 9 5 3 4)) (visitReply 9 5 3 4)
      (pendingItem (visitRequest 256 9 5 3 4)) := by
  constructor
  · have hadmitted : ForeignAgentReqProcess.Admitted (AgentBase.configure 1 2 300) (visitRequest 256 9 5 3 4) := by
      decide +kernel
    have hreach : Reachable (AgentBase.configure 1 2 300) := ⟨1,2,300,[],[],rfl⟩
    have hpush := ForeignAgentReqProcess.push_admitted true hadmitted
    rw [remember_admitted hreach hadmitted] at hpush
    exact ⟨_,run_cons_eq_some.mpr ⟨_,_,[],congrArg some hpush,rfl,rfl⟩⟩
  · rw [grantsMinimum_iff_seconds 0 (by decide +kernel) (by decide +kernel) (by decide +kernel)]
    decide +kernel

end Lifetime
end ClickMobileIP.ForeignAgent
