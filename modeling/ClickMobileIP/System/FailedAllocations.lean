import ClickMobileIP.Agent.AgentAdvertiser
import ClickMobileIP.Agent.RegistrationRequestReply
import ClickMobileIP.Agent.VisitorExpiry
import ClickMobileIP.Node.RegistrationRequestSource

/-! # Failed allocations

Five functions ask `Packet::make` for a packet. Four of them ask once, before they change
anything. The timer of the foreign agent asks in the middle of its first loop, for every
request that has waited too long, and returns when it is refused: what is left of the loop, the
visitors and the timer itself are then forgotten.
-/
namespace ClickMobileIP
open ForeignAgentReqProcess EraseSweep

namespace ForeignAgent
variable {s : AgentBase} {alloc : ℕ → Bool}

/-- A pending request after one second: it is counted down once and dropped when it has run
out. Whether one that has waited too long stays is up to `keep`. -/
def countDown (keep : ℕ → Bool) (k : ℕ) (it : ListItem) : Option ListItem :=
  let it := { it with lifetimeRem := tickDown it.lifetimeRem }
  if it.lifetimeRem = 0 then none
  else if waitedTooLong it && !keep k then none
  else some it

/-- The timer has gone through both lists once and will fire again. -/
structure Completed (s : AgentBase) (tick : Tick) : Prop where
  pending : ∃ keep, tick.base.registrationReq =
    s.registrationReq.zipIdx.filterMap (fun x => countDown keep x.2 x.1)
  visitors : tick.base.visitorMap = s.visitorMap.filterMap visitorVisit
  rescheduled : tick.rescheduled = true

theorem pendingVisit_granted {k : ℕ} {it : ListItem} (h : reportPending it ≠ [] → alloc k = true) :
    pendingVisit alloc k it = pendingVisit (fun _ => true) k it := by
  unfold pendingVisit
  dsimp only
  by_cases hzero : tickDown it.lifetimeRem = 0
  · rw [if_pos hzero,if_pos hzero]
  rw [if_neg hzero,if_neg hzero]
  by_cases hwait : waitedTooLong { it with lifetimeRem := tickDown it.lifetimeRem } = true
  · have hdue : reportPending it ≠ [] := by
      rw [reportPending,if_pos ⟨hzero,hwait⟩]
      exact List.cons_ne_nil _ _
    rw [h hdue]
  · rw [if_neg hwait,if_neg hwait]

theorem runTimer_granted (h : cutShort alloc s = false) :
    runTimer alloc s = runTimer (fun _ => true) s := by
  have hvisit : ∀ k it, s.registrationReq[k]? = some it →
      pendingVisit alloc k it = pendingVisit (fun _ => true) k it := by
    intro k it hit
    apply pendingVisit_granted
    intro hdue
    cases halloc : alloc k with
    | true => rfl
    | false =>
      rw [← Bool.not_eq_true,cutShort_iff] at h
      exact absurd ⟨k,it,hit,hdue,halloc⟩ h
  have hsweep := sweepBackward_congr s.registrationReq [] hvisit
  rw [List.append_nil] at hsweep
  rw [runTimer_sweep,runTimer_sweep,hsweep]

theorem countDown_never (k : ℕ) (it : ListItem) : countDown (fun _ => false) k it = agePending it := by
  unfold countDown agePending
  by_cases hzero : tickDown it.lifetimeRem = 0
  · simp [hzero]
  · simp [hzero]

/-- The timer completes its work exactly when it is not refused a packet that it needs. -/
theorem completed_iff : (∃ tick, runTimer alloc s = some tick ∧ Completed s tick) ↔ cutShort alloc s = false := by
  constructor
  · rintro ⟨tick,htick,hdone⟩
    rw [runTimer_sweep] at htick
    obtain ⟨r,hr,rfl⟩ := Option.map_eq_some_iff.mp htick
    exact (sweep_done_iff hr).mp hdone.rescheduled
  · intro h
    refine ⟨_,(runTimer_granted h).trans (runTimer_eq s),⟨fun _ => false,?_⟩,rfl,rfl⟩
    have hage : ∀ x : ListItem × ℕ, countDown (fun _ => false) x.2 x.1 = (agePending ∘ Prod.fst) x :=
      fun x => countDown_never x.2 x.1
    rw [funext hage,← List.filterMap_map,List.zipIdx_map_fst]

end ForeignAgent

/-- No failed allocation leaves work half done, in any of the five functions. -/
structure Contained (advertiser : AgentAdvertiser) (node : MobileNode) (a : Advertisement) (d : Draw)
    (s : AgentBase) (p : Packet) (alloc : ℕ → Bool) : Prop where
  createPacket : (advertiser.createPacket false s).2.sequenceNum = advertiser.sequenceNum
  makePacket : d.alloc = false → (RegistrationRequestSource.makePacket d node a).1 = node
  reply : ∃ t out, RegistrationRequestReply.push false s p = some (t,out) ∧ t.table = s.table ∧ t.list = s.list
  denial : ¬Admitted s p →
    (push false s p).1.registrationReq = s.registrationReq ∧ (push false s p).1.visitorMap = s.visitorMap
  timer : ∃ tick, runTimer alloc s = some tick ∧ ForeignAgent.Completed s tick

theorem reply_refused (s : AgentBase) (p : Packet) : RegistrationRequestReply.push false s p = some (s,[]) := by
  obtain ⟨t,out,hpush,hpushed⟩ := RegistrationRequestReply.push_pushed false s p
  cases hpushed with
  | ignored => exact hpush
  | bound _ ha => cases ha
  | unbound _ ha => cases ha

/-- A relayed request needs no packet, so a refusal can only meet a denial. -/
theorem denial_refused {s : AgentBase} {p : Packet} (h : ¬Admitted s p) : (push false s p).1 = s := by
  have hpushed := push_pushed false s p
  generalize push false s p = r at hpushed
  obtain ⟨t,out⟩ := r
  cases hpushed with
  | ignored => rfl
  | denied => rfl
  | relayed hadmitted => exact absurd hadmitted h

/-- Four functions keep what they had. The timer completes its work exactly when no packet that
it needs is refused. -/
theorem failed_allocations_iff (advertiser : AgentAdvertiser) (node : MobileNode) (a : Advertisement) (d : Draw)
    (s : AgentBase) (p : Packet) (alloc : ℕ → Bool) :
    Contained advertiser node a d s p alloc ↔ ForeignAgent.cutShort alloc s = false := by
  constructor
  · intro h
    exact ForeignAgent.completed_iff.mp h.timer
  · intro h
    refine ⟨rfl,?_,⟨s,[],reply_refused s p,rfl,rfl⟩,?_,ForeignAgent.completed_iff.mpr h⟩
    · intro hfail
      rw [RegistrationRequestSource.makePacket,if_pos hfail]
    · intro hdenied
      rw [denial_refused hdenied]
      exact ⟨rfl,rfl⟩

/-- A request in its seventh second and no packet for its reply: the agent does not come to
its visitors and its timer never fires again. -/
theorem refused_in_the_loop :
    ∃ s out, EventRun.run ForeignAgent.step (AgentBase.configure 1 2 25)
        (.request true (ForeignAgent.visitRequest 25 10 6 7 8) ::
          List.replicate 6 (.runTimer (fun _ => true))) = some (s,out) ∧
      (∃ tick, runTimer (fun _ => false) s = some tick ∧ tick.rescheduled = false) ∧
      ∀ advertiser node a d p, ¬Contained advertiser node a d s p (fun _ => false) := by
  have hlast : (EventRun.run ForeignAgent.step (AgentBase.configure 1 2 25)
      (.request true (ForeignAgent.visitRequest 25 10 6 7 8) ::
        List.replicate 6 (.runTimer (fun _ => true)))).any
      (fun r => ForeignAgent.cutShort (fun _ => false) r.1 &&
        (runTimer (fun _ => false) r.1).any (fun tick => !tick.rescheduled)) = true := by decide +kernel
  obtain ⟨⟨s,out⟩,hrun,hcut⟩ := (Option.any_eq_true _ _).mp hlast
  obtain ⟨hcut,htimer⟩ := Bool.and_eq_true_iff.mp hcut
  obtain ⟨tick,htick,hstopped⟩ := (Option.any_eq_true _ _).mp htimer
  refine ⟨s,out,hrun,⟨tick,htick,by simpa using hstopped⟩,?_⟩
  intro advertiser node a d p h
  exact absurd (ForeignAgent.completed_iff.mp h.timer) (by rw [hcut]; decide)

end ClickMobileIP
