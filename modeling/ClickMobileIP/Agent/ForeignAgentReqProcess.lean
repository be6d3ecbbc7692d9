import ClickMobileIP.Agent.AgentBase
import ClickMobileIP.Support.EraseSweep

/-! # The foreign agent's request element

`push` relays a registration request to its home agent and remembers it, or denies
it; `runTimer` ages the pending requests and the visitors once a second. `alloc`
tells whether `Packet::make` succeeds; the timer asks for it by list position.
-/
namespace ClickMobileIP.ForeignAgentReqProcess
open EraseSweep

def pendingItem (p : Packet) : ListItem where
  ipSrc := p.request.homeAddr
  ipDst := p.ip.ipDst
  udpSrc := p.udp.uhSport
  udpDst := p.udp.uhDport
  homeAgent := p.request.homeAgent
  id1 := p.request.id1
  id2 := p.request.id2
  lifetimeReq := p.request.lifetime
  lifetimeRem := p.request.lifetime

/-- Code 1 admits the request and appends its entry. -/
def validatePacket (s : AgentBase) (p : Packet) : AgentBase × UInt16 :=
  let format := p.request
  let flags := format.flags
  if s.lifetimeReg < (ntohs format.lifetime).toNat then (s,69)
  else if flags &&& 1 ≠ 0 ∨ (flags >>> 2) &&& 1 ≠ 0 then (s,70)
  else if (flags >>> 3) &&& 1 ≠ 0 ∨ (flags >>> 4) &&& 1 ≠ 0 then (s,72)
  else if (s.registrationReq.length : ℤ) = s.maxRequests then (s,66)
  else if (s.registrationReq.length : ℤ) < s.maxRequests then
    ({ s with registrationReq := s.registrationReq ++ [pendingItem p] },1)
  else (s,1)

/-- The request with the addresses of the next hop; the UDP checksum covers the
fixed part of the request only. -/
def relay (s : AgentBase) (p : Packet) : Packet where
  data := udpPacket { p.ip with ipSrc := s.publicAddr, ipDst := p.request.homeAgent } p.udp
    (p.data.drop 28) 32
  dstIpAnno := p.request.homeAgent

def replyIp (len : UInt16) (src dst : IPAddress) : ClickIp where
  ipV := 4
  ipP := 17
  ipHl := 5
  ipLen := htons len
  ipId := htons 1
  ipTtl := 12
  ipSrc := src
  ipDst := dst

/-- The denial is as long as a request: four zero bytes follow the reply. -/
def deny (s : AgentBase) (p : Packet) (code : UInt16) : Packet :=
  let formatNew : ForeignAgentReqProcessPacketheader :=
    { type := 3, code := code.toUInt8,
      lifetime := if code = 69 then htons (toUInt16 s.lifetimeReg) else p.request.lifetime,
      homeAddr := p.request.homeAddr, homeAgent := p.request.homeAgent, id1 := p.request.id1, id2 := p.request.id2 }
  { data := udpPacket (replyIp 52 p.ip.ipDst p.ip.ipSrc)
      { uhSport := p.udp.uhDport, uhDport := p.udp.uhSport, uhUlen := htons 32 }
      (RegistrationRequestReplyPacketheader.layout.write formatNew ++ List.replicate 4 0) 32
    dstIpAnno := p.ip.ipSrc }

def push (alloc : Bool) (s : AgentBase) (p : Packet) : AgentBase × List Emission :=
  if p.length < 52 then (s,[])
  else if p.request.type ≠ 1 then (s,[])
  else
    let r := validatePacket s p
    if r.2 = 1 then (r.1,[⟨1,relay s p⟩])
    else if alloc = false then (r.1,[])
    else (r.1,[⟨0,deny s p r.2⟩])

/-- The code 78 reply for a request that was not answered. -/
def timeoutReply (it : ListItem) : Packet :=
  let formatNew : ForeignAgentReqProcessPacketheader :=
    { type := 3, code := 78, lifetime := it.lifetimeReq, homeAddr := it.ipSrc, homeAgent := it.homeAgent,
      id1 := it.id1, id2 := it.id2 }
  { data := udpPacket (replyIp 48 it.ipDst it.ipSrc)
      { uhSport := it.udpDst, uhDport := it.udpSrc, uhUlen := htons 28 }
      (RegistrationRequestReplyPacketheader.layout.write formatNew) 28
    dstIpAnno := it.ipSrc }

/-- The timeout test compares C integers: the difference may be negative. -/
def waitedTooLong (it : ListItem) : Bool :=
  (it.lifetimeReq.toNat : ℤ) - it.lifetimeRem.toNat = (htons 7).toNat

def pendingVisit (alloc : ℕ → Bool) (k : ℕ) (it : ListItem) : Visit ListItem × List Emission :=
  let it := { it with lifetimeRem := tickDown it.lifetimeRem }
  if it.lifetimeRem = 0 then (.erase,[])
  else if waitedTooLong it then
    if alloc k = false then (.leave it,[])
    else (.erase,[⟨0,timeoutReply it⟩])
  else (.keep it,[])

def visitorVisit (it : ListItem) : Option ListItem :=
  if it.lifetimeRem = 0 then none else some { it with lifetimeRem := tickDown it.lifetimeRem }

structure Tick where
  base : AgentBase
  emitted : List Emission
  rescheduled : Bool

/-- A failed allocation returns from the middle of the first loop: visitors are not
aged and the timer is not scheduled again. -/
def runTimer (alloc : ℕ → Bool) (s : AgentBase) : Option Tick :=
  match sweepBackward (pendingVisit alloc) s.registrationReq.length s.registrationReq with
  | none => none
  | some (out,pending,false) => some ⟨{ s with registrationReq := pending },out,false⟩
  | some (out,pending,true) =>
    (sweepForward (fun _ it => some ((),visitorVisit it)) s.visitorMap.length () s.visitorMap 0).map
      (fun r => ⟨{ s with registrationReq := pending, visitorMap := r.2 },out,true⟩)

section Specification
variable {s : AgentBase} {p : Packet}

def Admitted (s : AgentBase) (p : Packet) : Prop := p.IsRequest ∧ (validatePacket s p).2 = 1

instance (s : AgentBase) (p : Packet) : Decidable (Admitted s p) := inferInstanceAs (Decidable (_ ∧ _))

/-- The agent after an admitted request; the entry is kept while there is room. -/
def remember (s : AgentBase) (p : Packet) : AgentBase :=
  { s with
    registrationReq :=
      if (s.registrationReq.length : ℤ) < s.maxRequests then s.registrationReq ++ [pendingItem p]
      else s.registrationReq }

/-- A request is admitted or denied with one of four codes, and a denial leaves the
lists alone. -/
theorem validatePacket_cases (s : AgentBase) (p : Packet) :
    validatePacket s p = (remember s p,1) ∨
      ∃ code ∈ ([69,70,72,66] : List UInt16), validatePacket s p = (s,code) := by
  unfold validatePacket
  dsimp only
  split_ifs with hlife hflags hbits hfull hroom
  · exact Or.inr ⟨69,by simp,rfl⟩
  · exact Or.inr ⟨70,by simp,rfl⟩
  · exact Or.inr ⟨72,by simp,rfl⟩
  · exact Or.inr ⟨66,by simp,rfl⟩
  · exact Or.inl (by rw [remember,if_pos hroom])
  · exact Or.inl (by rw [remember,if_neg hroom])

theorem validatePacket_admitted (h : Admitted s p) : validatePacket s p = (remember s p,1) := by
  rcases validatePacket_cases s p with hcode | ⟨code,hmem,hcode⟩
  · exact hcode
  · have hone : code = 1 := by rw [← h.2,hcode]
    subst hone
    exact absurd hmem (by decide)

theorem not_full_of_admitted (h : Admitted s p) : (s.registrationReq.length : ℤ) ≠ s.maxRequests := by
  intro hfull
  have hcode := h.2
  simp only [validatePacket,hfull,↓reduceIte] at hcode
  split_ifs at hcode <;> cases hcode

theorem push_admitted (alloc : Bool) (h : Admitted s p) :
    push alloc s p = (remember s p,[⟨1,relay s p⟩]) := by
  have hlen : ¬p.length < 52 := by have := h.1.1; omega
  rw [push,if_neg hlen,if_neg (not_not.mpr h.1.2)]
  simp only [validatePacket_admitted h,↓reduceIte]

inductive Pushed (alloc : Bool) (s : AgentBase) (p : Packet) : AgentBase → List Emission → Prop
  | ignored (h : ¬p.IsRequest) : Pushed alloc s p s []
  | denied (h : ¬Admitted s p) (out : List Emission)
      (hout : out = [] ∨ ∃ code ∈ ([69,70,72,66] : List UInt16), out = [⟨0,deny s p code⟩]) :
      Pushed alloc s p s out
  | relayed (h : Admitted s p) :
      Pushed alloc s p (remember s p) [⟨1,relay s p⟩]

theorem push_pushed (alloc : Bool) (s : AgentBase) (p : Packet) :
    Pushed alloc s p (push alloc s p).1 (push alloc s p).2 := by
  unfold push
  by_cases hlen : p.length < 52
  · simp only [hlen,↓reduceIte]
    exact .ignored (fun h => by have := h.1; omega)
  by_cases htype : p.request.type ≠ 1
  · rw [if_neg hlen,if_pos htype]
    exact .ignored (fun h => htype h.2)
  rw [if_neg hlen,if_neg htype]
  have hp : p.IsRequest := ⟨by omega,not_not.mp htype⟩
  rcases validatePacket_cases s p with hcode | ⟨code,hmem,hcode⟩
  · simp only [hcode,↓reduceIte]
    exact .relayed ⟨hp,by rw [hcode]⟩
  · have hne : code ≠ 1 := fun h => by subst h; exact absurd hmem (by decide)
    have hnot : ¬Admitted s p := fun h => hne (by rw [← h.2,hcode])
    simp only [hcode,hne,↓reduceIte]
    cases alloc with
    | false => exact .denied hnot _ (Or.inl rfl)
    | true => exact .denied hnot _ (Or.inr ⟨code,hmem,rfl⟩)

/-- What becomes of a pending request in one second when packets can be made. -/
def agePending (it : ListItem) : Option ListItem :=
  if tickDown it.lifetimeRem = 0 ∨ waitedTooLong { it with lifetimeRem := tickDown it.lifetimeRem } then
    none
  else some { it with lifetimeRem := tickDown it.lifetimeRem }

/-- What the foreign agent tells the node of a pending request in one second. -/
def reportPending (it : ListItem) : List Emission :=
  if tickDown it.lifetimeRem ≠ 0 ∧ waitedTooLong { it with lifetimeRem := tickDown it.lifetimeRem } then
    [⟨0,timeoutReply { it with lifetimeRem := tickDown it.lifetimeRem }⟩]
  else []

theorem pendingVisit_keep (k : ℕ) {a b : ListItem} (h : agePending a = some b) :
    pendingVisit (fun _ => true) k a = (.keep b,reportPending a) := by
  unfold agePending at h
  split at h
  · cases h
  · rename_i hne
    cases h
    obtain ⟨hzero,hwait⟩ := not_or.mp hne
    simp [pendingVisit,reportPending,hzero,hwait]

theorem pendingVisit_erase (k : ℕ) {a : ListItem} (h : agePending a = none) :
    pendingVisit (fun _ => true) k a = (.erase,reportPending a) := by
  unfold agePending at h
  split at h
  · rename_i hor
    by_cases hzero : tickDown a.lifetimeRem = 0
    · simp [pendingVisit,reportPending,hzero]
    · have hwait := hor.resolve_left hzero
      simp [pendingVisit,reportPending,hzero,hwait]
  · cases h

theorem mem_pendingVisit {alloc : ℕ → Bool} {k : ℕ} {it : ListItem} {e : Emission}
    (h : e ∈ (pendingVisit alloc k it).2) :
    e = ⟨0,timeoutReply { it with lifetimeRem := tickDown it.lifetimeRem }⟩ := by
  unfold pendingVisit at h
  dsimp only at h
  split_ifs at h
  · exact absurd h List.not_mem_nil
  · exact absurd h List.not_mem_nil
  · exact List.mem_singleton.mp h
  · exact absurd h List.not_mem_nil

theorem mem_push_denied {alloc : Bool} {e : Emission} (h : e ∈ (push alloc s p).2) (hport : e.port = 0) :
    e = ⟨0,deny s p (validatePacket s p).2⟩ := by
  unfold push at h
  dsimp only at h
  split_ifs at h
  · exact absurd h List.not_mem_nil
  · exact absurd h List.not_mem_nil
  · rw [List.mem_singleton.mp h] at hport
    cases hport
  · exact absurd h List.not_mem_nil
  · exact List.mem_singleton.mp h

/-- What is left of the two lists when the loop over the pending requests has come to its
end, or has been left. -/
theorem runTimer_sweep (alloc : ℕ → Bool) (s : AgentBase) : runTimer alloc s =
    (sweepBackward (pendingVisit alloc) s.registrationReq.length s.registrationReq).map (fun r =>
      ⟨{ s with
          registrationReq := r.2.1
          visitorMap := if r.2.2 then s.visitorMap.filterMap visitorVisit else s.visitorMap },r.1,r.2.2⟩) := by
  unfold runTimer
  cases sweepBackward (pendingVisit alloc) s.registrationReq.length s.registrationReq with
  | none => rfl
  | some r =>
    obtain ⟨out,pending,done⟩ := r
    cases done with
    | false => rfl
    | true =>
      simp only [sweepForward_eq,sweep_eq_filterMap,Option.map_some]
      rfl

theorem mem_emitted {alloc : ℕ → Bool} {tick : Tick} {e : Emission} (h : runTimer alloc s = some tick)
    (he : e ∈ tick.emitted) : ∃ k it, e ∈ (pendingVisit alloc k it).2 := by
  rw [runTimer_sweep] at h
  obtain ⟨r,hr,rfl⟩ := Option.map_eq_some_iff.mp h
  exact sweepBackward_emitted hr e he

/-- The timer when every packet can be made: each entry is treated on its own. -/
theorem runTimer_eq (s : AgentBase) : runTimer (fun _ => true) s =
    some ⟨{ s with
        registrationReq := s.registrationReq.filterMap agePending
        visitorMap := s.visitorMap.filterMap visitorVisit },
      s.registrationReq.reverse.flatMap reportPending,true⟩ := by
  rw [runTimer_sweep,sweepBackward_eq (fun k _ _ => pendingVisit_keep k) (fun k _ => pendingVisit_erase k)]
  rfl

/-- Whatever allocations fail, the timer returns, visitors only age or leave, and a
pending entry it keeps differs from one it found in the remaining lifetime alone. -/
theorem runTimer_origin (alloc : ℕ → Bool) (s : AgentBase) :
    ∃ tick, runTimer alloc s = some tick ∧
      (∃ pending visitors, tick.base =
          { s with registrationReq := pending, visitorMap := visitors } ∧
        pending.length ≤ s.registrationReq.length ∧
        (∀ b ∈ pending, ∃ a ∈ s.registrationReq, b = a ∨
          b = { a with lifetimeRem := tickDown a.lifetimeRem }) ∧
        (visitors = s.visitorMap ∨ visitors = s.visitorMap.filterMap visitorVisit)) := by
  obtain ⟨out,kept,done,hr,hlen,horigin⟩ :=
    sweepBackward_origin (pendingVisit alloc) s.registrationReq []
  simp only [List.append_nil] at hr
  have hpending : ∀ b ∈ kept, ∃ a ∈ s.registrationReq, b = a ∨
      b = { a with lifetimeRem := tickDown a.lifetimeRem } := by
    intro b hb
    rcases horigin b hb with h | ⟨j,a,ha,h⟩
    · exact ⟨b,h,Or.inl rfl⟩
    · refine ⟨a,ha,Or.inr ?_⟩
      unfold pendingVisit at h
      dsimp only at h
      split_ifs at h <;> simp_all
  rw [runTimer_sweep,hr]
  refine ⟨_,rfl,kept,_,rfl,hlen,hpending,?_⟩
  cases done with
  | false => exact Or.inl rfl
  | true => exact Or.inr rfl

end Specification
end ClickMobileIP.ForeignAgentReqProcess
