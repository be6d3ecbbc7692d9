import ClickMobileIP.Router.ICMPPingResponder
import ClickMobileIP.Support.EventRun

/-! # The ping source of the correspondent node

The source keeps one time stamp per sequence number: zero for a number it has not used, the
time of sending while the request is unanswered, its negative from the first reply on. Two
counters make up its summary, all replies and those that came twice. The ledger below is what
the two counters are meant to tell: which transmissions have been answered. The counters are of
type `int`, and a run that would count further than that type goes has no defined result.
-/
namespace ClickMobileIP
open ByteLayout EventRun

namespace ClickIcmp

def echoPadding (identifier sequence : UInt16) : UInt32 :=
  UInt32.ofNat (identifier.toNat + 65536 * sequence.toNat)

def identifier (icmph : ClickIcmp) : UInt16 := UInt16.ofNat (icmph.padding.toNat % 65536)

def sequence (icmph : ClickIcmp) : UInt16 := UInt16.ofNat (icmph.padding.toNat / 65536)

theorem echoPadding_toNat (i s : UInt16) : (echoPadding i s).toNat = i.toNat + 65536 * s.toNat := by
  have hi := i.toNat_lt
  have hs := s.toNat_lt
  rw [echoPadding,UInt32.toNat_ofNat']
  omega

theorem identifier_of_padding {icmph : ClickIcmp} {i s : UInt16} (h : icmph.padding = echoPadding i s) :
    icmph.identifier = i := by
  have hi := i.toNat_lt
  apply UInt16.toNat_inj.mp
  rw [identifier,h,echoPadding_toNat,UInt16.toNat_ofNat']
  omega

theorem sequence_of_padding {icmph : ClickIcmp} {i s : UInt16} (h : icmph.padding = echoPadding i s) :
    icmph.sequence = s := by
  have hi := i.toNat_lt
  have hs := s.toNat_lt
  apply UInt16.toNat_inj.mp
  rw [sequence,h,echoPadding_toNat,UInt16.toNat_ofNat']
  omega

end ClickIcmp

/-- `n++` for an `int`. -/
def increment (n : ℕ) : Option ℕ := if n < 2147483647 then some (n + 1) else none

/-- The source with its `ReceiverInfo`; time stamps are counted in nanoseconds. -/
structure ICMPPingSource where
  src : IPAddress
  dst : IPAddress
  limit : ℤ := -1
  icmpId : UInt16 := 0
  data : List UInt8 := []
  timerScheduled : Bool := false
  count : ℕ := 0
  nreceived : ℕ := 0
  nduplicate : ℕ := 0
  timeMin : UInt32 := 0
  timeMax : UInt32 := 0
  timeSum : UInt64 := 0
  timeSqSum : UInt64 := 0
  sendTimestamp : UInt16 → ℤ := fun _ => 0

namespace ICMPPingSource
variable {s t : ICMPPingSource}

def configure (src dst : IPAddress) (limit : ℤ) (icmpId : UInt16) (data : List UInt8) : ICMPPingSource where
  src := src
  dst := dst
  limit := limit
  icmpId := icmpId
  data := data
  timerScheduled := limit ≠ 0

/-- The next number, in network order and never zero. -/
def ipId (s : ICMPPingSource) : UInt16 := htons (UInt16.ofNat (s.count % 65535 + 1))

def makePacket (s : ICMPPingSource) : Packet where
  data := ClickIp.layout.write (sealIp
      { ipV := 4, ipHl := 5, ipLen := htons (UInt16.ofNat (28 + s.data.length)), ipId := s.ipId, ipTtl := 200,
        ipP := 1, ipSrc := s.src, ipDst := s.dst }) ++
    (ClickIcmp.layout.write
      (({ icmpType := 8, padding := ClickIcmp.echoPadding s.icmpId s.ipId } : ClickIcmp).sealed s.data) ++ s.data)
  dstIpAnno := s.dst

section Request

theorem makePacket_eq (s : ICMPPingSource) : ∃ iph : ClickIp, iph.ipV = 4 ∧ iph.ipHl = 5 ∧ iph.ipP = 1 ∧
    iph.ipTtl = 200 ∧ iph.ipOff = 0 ∧ iph.ipSrc = s.src ∧ iph.ipDst = s.dst ∧
    iph.ipLen = htons (UInt16.ofNat (28 + s.data.length)) ∧
    s.makePacket = Packet.assemble (sealIp iph) [] (ClickIcmp.layout.write
      (({ icmpType := 8, padding := ClickIcmp.echoPadding s.icmpId s.ipId } : ClickIcmp).sealed s.data) ++ s.data)
      s.dst :=
  ⟨_,rfl,rfl,rfl,rfl,rfl,rfl,rfl,rfl,rfl⟩

structure Requests (s : ICMPPingSource) (p : Packet) : Prop where
  valid : p.Valid
  echo : ICMPPingResponder.IsEcho p
  verifies : p.IcmpVerifies
  ends : p.ip.ipSrc = s.src ∧ p.ip.ipDst = s.dst ∧ p.dstIpAnno = s.dst
  plain : p.ip.ipHl = 5 ∧ p.ip.ipTtl = 200 ∧ p.ip.ipOff = 0
  padding : p.icmp.padding = ClickIcmp.echoPadding s.icmpId s.ipId
  length : p.length = 28 + s.data.length

theorem makePacket_requests (hlen : s.data.length ≤ 65507) : s.Requests s.makePacket := by
  obtain ⟨iph,hv,hhl,hproto,httl,hoff,hsrc,hdst,hiplen,hpacket⟩ := makePacket_eq s
  rw [hpacket]
  set icmph := ({ icmpType := 8, padding := ClickIcmp.echoPadding s.icmpId s.ipId } : ClickIcmp).sealed s.data
    with hicmph
  have hwords : 4 * (sealIp iph).ipHl.toNat = 20 + ([] : List UInt8).length := by
    change 4 * iph.ipHl.toNat = 20
    rw [hhl]
    rfl
  have hip := Packet.ip_assemble (sealIp iph) [] (ClickIcmp.layout.write icmph ++ s.data) s.dst
  have hhead := Packet.headerLength_assemble (ClickIcmp.layout.write icmph ++ s.data) s.dst hwords
  have hdatagram := Packet.datagram_assemble (ClickIcmp.layout.write icmph ++ s.data) s.dst hwords
  have hlength := Packet.length_assemble (sealIp iph) [] (ClickIcmp.layout.write icmph ++ s.data) s.dst
  rw [List.length_append,Layout.length_write,size_click_icmp,List.length_nil] at hlength
  have hheaded : (Packet.assemble (sealIp iph) [] (ClickIcmp.layout.write icmph ++ s.data) s.dst).WellHeaded :=
    Packet.WellHeaded.assemble _ _ hwords hv
  have hicmp : (Packet.assemble (sealIp iph) [] (ClickIcmp.layout.write icmph ++ s.data) s.dst).icmp = icmph := by
    rw [Packet.icmp,hdatagram,Layout.read_write]
  refine ⟨⟨hheaded,?_,?_,?_⟩,⟨?_,?_,?_⟩,?_,⟨?_,?_,rfl⟩,⟨?_,?_,?_⟩,?_,?_⟩
  · rw [hhead,hlength,List.length_nil]
    omega
  · rw [hip,hlength]
    change (ntohs iph.ipLen).toNat = _
    rw [hiplen,ntohs_htons,UInt16.toNat_ofNat']
    omega
  · rw [Packet.HeaderVerifies,hhead]
    exact (congrArg clickInCksum (ClickIp.layout.take_write_append _ _)).trans (clickInCksum_sealIp iph hv)
  · rw [hdatagram,List.length_append,Layout.length_write,size_click_icmp]
    omega
  · rw [hip]
    exact hproto
  · rw [hicmp]
    rfl
  · rw [Packet.IcmpVerifies,hdatagram]
    exact ClickIcmp.clickInCksum_sealed (by omega)
  · rw [hip]
    exact hsrc
  · rw [hip]
    exact hdst
  · rw [hip]
    exact hhl
  · rw [hip]
    exact httl
  · rw [hip]
    exact hoff
  · rw [hicmp]
    rfl
  · rw [hlength]
    omega

end Request

/-- `alloc` tells whether there is memory for the request. Without a request the timer is not scheduled again, and
what is not scheduled does not fire. -/
def runTimer (alloc : Bool) (now : ℤ) (s : ICMPPingSource) : Option (ICMPPingSource × List Emission) :=
  if s.timerScheduled = false then some (s,[])
  else if s.limit ≤ s.count ∧ 0 ≤ s.limit then some ({ s with timerScheduled := false },[])
  else if alloc = false then some ({ s with timerScheduled := false },[])
  else
    (increment s.count).map (fun count =>
      ({ s with count := count, sendTimestamp := Function.update s.sendTimestamp s.ipId now },[⟨0,s.makePacket⟩]))

def Accepts (s : ICMPPingSource) (p : Packet) : Prop :=
  p.ip.ipP = 1 ∧ 8 ≤ p.datagram.length ∧ p.icmp.icmpType = 0 ∧ p.icmp.identifier = s.icmpId

instance (s : ICMPPingSource) (p : Packet) : Decidable (s.Accepts p) := inferInstanceAs (Decidable (_ ∧ _ ∧ _ ∧ _))

/-- `Timestamp::usecval`, which rounds towards zero, cut to the thirty-two bits of `diffval`. -/
def usecval (diff : ℤ) : UInt32 := UInt32.ofNat (Int.toNat (diff.tdiv 1000 % 4294967296))

/-- The statistics of the round trip, for a reply with a time stamp. -/
def measure (s : ICMPPingSource) (diffval : UInt32) : ICMPPingSource :=
  { s with
    timeMin := if diffval < s.timeMin ∨ s.nreceived = 0 then diffval else s.timeMin
    timeMax := if s.timeMax < diffval ∨ s.nreceived = 0 then diffval else s.timeMax
    timeSum := s.timeSum + diffval.toUInt64
    timeSqSum := s.timeSqSum + diffval.toUInt64 * diffval.toUInt64 }

/-- A reply to a number in use; `arrival` is the time stamp of the packet, zero if it has none. -/
def account (arrival : ℤ) (s : ICMPPingSource) (seq : UInt16) (nduplicate nreceived : ℕ) : ICMPPingSource :=
  let sendTs := if s.sendTimestamp seq < 0 then -s.sendTimestamp seq else s.sendTimestamp seq
  let measured := if arrival ≠ 0 then s.measure (usecval (arrival - sendTs)) else s
  { measured with
    nreceived := nreceived
    nduplicate := nduplicate
    sendTimestamp := Function.update s.sendTimestamp seq (-sendTs) }

def push (arrival : ℤ) (s : ICMPPingSource) (p : Packet) : Option ICMPPingSource :=
  if s.Accepts p then
    let seq := p.icmp.sequence
    if s.sendTimestamp seq = 0 then some s
    else
      (if s.sendTimestamp seq < 0 then increment s.nduplicate else some s.nduplicate).bind (fun nduplicate =>
        (increment s.nreceived).map (s.account arrival seq nduplicate))
  else some s

inductive Event
  | timer (alloc : Bool) (now : ℤ)
  | packet (arrival : ℤ) (p : Packet)

def Event.Timely : Event → Prop
  | .timer _ now => 0 < now
  | .packet _ _ => True

def step (s : ICMPPingSource) : Event → Option (ICMPPingSource × List Emission)
  | .timer alloc now => s.runTimer alloc now
  | .packet arrival p => (s.push arrival p).map (fun t => (t,[]))

section Steps
variable {alloc : Bool} {now arrival : ℤ} {p : Packet}

theorem increment_eq_some {n m : ℕ} : increment n = some m ↔ n < 2147483647 ∧ m = n + 1 := by
  unfold increment
  by_cases h : n < 2147483647
  · rw [if_pos h,Option.some_inj]
    exact ⟨fun heq => ⟨h,heq.symm⟩,fun heq => heq.2.symm⟩
  · rw [if_neg h]
    exact ⟨fun hnone => absurd hnone.symm (Option.some_ne_none m),fun hlt => absurd hlt.1 h⟩

def Sends (s : ICMPPingSource) (alloc : Bool) : Prop :=
  s.timerScheduled = true ∧ ¬(s.limit ≤ s.count ∧ 0 ≤ s.limit) ∧ alloc = true

instance (s : ICMPPingSource) (alloc : Bool) : Decidable (s.Sends alloc) := inferInstanceAs (Decidable (_ ∧ _ ∧ _))

theorem runTimer_of_sends (now : ℤ) (h : s.Sends alloc) : s.runTimer alloc now = (increment s.count).map (fun count =>
    ({ s with count := count, sendTimestamp := Function.update s.sendTimestamp s.ipId now },[⟨0,s.makePacket⟩])) := by
  rw [runTimer,if_neg (by rw [h.1]; decide),if_neg h.2.1,if_neg (by rw [h.2.2]; decide)]

theorem runTimer_of_not_sends (now : ℤ) (h : ¬s.Sends alloc) :
    ∃ scheduled, s.runTimer alloc now = some ({ s with timerScheduled := scheduled },[]) := by
  rw [runTimer]
  by_cases hscheduled : s.timerScheduled = false
  · exact ⟨s.timerScheduled,if_pos hscheduled⟩
  rw [if_neg hscheduled]
  by_cases hlimit : s.limit ≤ s.count ∧ 0 ≤ s.limit
  · exact ⟨false,if_pos hlimit⟩
  rw [if_neg hlimit]
  by_cases halloc : alloc = false
  · exact ⟨false,if_pos halloc⟩
  · exact absurd ⟨Bool.eq_true_of_not_eq_false hscheduled,hlimit,Bool.eq_true_of_not_eq_false halloc⟩ h

/-- What an accepted reply to a number in use does; its round trip time only concerns the statistics. -/
structure Accounted (s : ICMPPingSource) (seq : UInt16) (t : ICMPPingSource) : Prop where
  ends : t.src = s.src ∧ t.dst = s.dst ∧ t.data = s.data ∧ t.icmpId = s.icmpId
  count : t.count = s.count
  received : t.nreceived = s.nreceived + 1
  duplicate : t.nduplicate = if s.sendTimestamp seq < 0 then s.nduplicate + 1 else s.nduplicate
  stamps : t.sendTimestamp = Function.update s.sendTimestamp seq
    (if s.sendTimestamp seq < 0 then s.sendTimestamp seq else -s.sendTimestamp seq)

theorem push_unaccepted (arrival : ℤ) (h : ¬s.Accepts p) : s.push arrival p = some s := by
  rw [push,if_neg h]

theorem push_unused (arrival : ℤ) (h : s.sendTimestamp p.icmp.sequence = 0) : s.push arrival p = some s := by
  rw [push]
  by_cases haccepts : s.Accepts p
  · rw [if_pos haccepts]
    exact if_pos h
  · rw [if_neg haccepts]

theorem push_accounted (haccepts : s.Accepts p) (hused : s.sendTimestamp p.icmp.sequence ≠ 0)
    (h : s.push arrival p = some t) : s.Accounted p.icmp.sequence t := by
  rw [push,if_pos haccepts] at h
  dsimp only at h
  rw [if_neg hused] at h
  obtain ⟨nduplicate,hduplicate,h⟩ := Option.bind_eq_some_iff.mp h
  obtain ⟨nreceived,hreceived,rfl⟩ := Option.map_eq_some_iff.mp h
  obtain ⟨-,rfl⟩ := increment_eq_some.mp hreceived
  refine ⟨?_,?_,rfl,?_,?_⟩
  · unfold account
    dsimp only
    split_ifs <;> exact ⟨rfl,rfl,rfl,rfl⟩
  · unfold account
    dsimp only
    split_ifs <;> rfl
  · change nduplicate = _
    by_cases hneg : s.sendTimestamp p.icmp.sequence < 0
    · rw [if_pos hneg] at hduplicate ⊢
      exact (increment_eq_some.mp hduplicate).2
    · rw [if_neg hneg] at hduplicate ⊢
      exact (Option.some.inj hduplicate).symm
  · unfold account
    by_cases hneg : s.sendTimestamp p.icmp.sequence < 0
    · simp only [if_pos hneg,neg_neg]
    · simp only [if_neg hneg]

/-- Both counters have room for one more reply. -/
def Room (s : ICMPPingSource) : Prop := s.nreceived < 2147483647 ∧ s.nduplicate < 2147483647

theorem push_isSome (arrival : ℤ) (p : Packet) (h : s.Room) : ∃ t, s.push arrival p = some t := by
  by_cases haccepts : s.Accepts p
  · by_cases hused : s.sendTimestamp p.icmp.sequence = 0
    · exact ⟨s,push_unused arrival hused⟩
    · rw [push,if_pos haccepts]
      dsimp only
      have hreceived : increment s.nreceived = some (s.nreceived + 1) := if_pos h.1
      have hduplicate : increment s.nduplicate = some (s.nduplicate + 1) := if_pos h.2
      rw [if_neg hused,hreceived,hduplicate]
      split_ifs <;> exact ⟨_,rfl⟩
  · exact ⟨s,push_unaccepted arrival haccepts⟩

end Steps

section Ledger

/-- A request that was sent, and whether a reply to it has come. -/
structure Transmission where
  sequence : UInt16
  answered : Bool := false
  deriving DecidableEq, Repr

/-- Newest first. -/
abbrev Ledger := List Transmission

def Ledger.latest (l : Ledger) (seq : UInt16) : Option Transmission := l.find? (fun t => t.sequence == seq)

def Ledger.settle (seq : UInt16) : Ledger → Ledger
  | [] => []
  | t :: ts => if t.sequence = seq then { t with answered := true } :: ts else t :: settle seq ts

def Ledger.answered (l : Ledger) : ℕ := l.countP Transmission.answered

def enter (s : ICMPPingSource) (l : Ledger) : Event → Ledger
  | .timer alloc _ => if s.Sends alloc then ⟨s.ipId,false⟩ :: l else l
  | .packet _ p => if s.Accepts p then l.settle p.icmp.sequence else l

/-- The source beside the ledger that is kept of it. -/
def watch (r : ICMPPingSource × Ledger) (e : Event) : Option ((ICMPPingSource × Ledger) × List Emission) :=
  (r.1.step e).map (fun x => ((x.1,enter r.1 r.2 e),x.2))

variable {l : Ledger} {seq j : UInt16}

theorem latest_cons (t : Transmission) (l : Ledger) (seq : UInt16) :
    Ledger.latest (t :: l) seq = if t.sequence = seq then some t else Ledger.latest l seq := by
  by_cases h : t.sequence = seq
  · simp [Ledger.latest,h]
  · have hne : (t.sequence == seq) = false := beq_eq_false_iff_ne.mpr h
    simp only [Ledger.latest,List.find?_cons,hne,h,↓reduceIte]

theorem length_settle (seq : UInt16) (l : Ledger) : (l.settle seq).length = l.length := by
  induction l with
  | nil => rfl
  | cons t ts ih =>
    rw [Ledger.settle]
    by_cases h : t.sequence = seq
    · rw [if_pos h]
      rfl
    · rw [if_neg h,List.length_cons,ih,List.length_cons]

theorem latest_settle (seq : UInt16) (l : Ledger) (j : UInt16) : (l.settle seq).latest j =
    if j = seq then (l.latest j).map (fun t => { t with answered := true }) else l.latest j := by
  induction l with
  | nil => simp [Ledger.settle,Ledger.latest]
  | cons t ts ih =>
    rw [Ledger.settle]
    by_cases h : t.sequence = seq
    · rw [if_pos h,latest_cons,latest_cons]
      by_cases hj : j = seq
      · simp [h,hj]
      · have hne : ¬t.sequence = j := fun heq => hj (heq.symm.trans h)
        simp [hj,hne]
    · rw [if_neg h,latest_cons,latest_cons,ih]
      by_cases hj : j = seq
      · simp [hj,h]
      · simp [hj]

theorem answered_settle (seq : UInt16) (l : Ledger) : (l.settle seq).answered =
    l.answered + if (l.latest seq).any (fun t => !t.answered) = true then 1 else 0 := by
  induction l with
  | nil => rfl
  | cons t ts ih =>
    rw [Ledger.settle,latest_cons]
    by_cases h : t.sequence = seq
    · rw [if_pos h,if_pos h]
      obtain ⟨sequence,answered⟩ := t
      cases answered <;> simp [Ledger.answered]
    · rw [if_neg h,if_neg h]
      unfold Ledger.answered at ih ⊢
      rw [List.countP_cons,List.countP_cons,ih]
      omega

/-- What the time stamp of a number says about the ledger. -/
def Stamped (stamp : ℤ) : Option Transmission → Prop
  | none => stamp = 0
  | some ⟨_,false⟩ => 0 < stamp
  | some ⟨_,true⟩ => stamp < 0

/-- The source tells what stands in the ledger. -/
structure Tallies (s : ICMPPingSource) (l : Ledger) : Prop where
  sent : s.count = l.length
  received : s.nreceived = s.nduplicate + l.answered
  stamps : ∀ seq, Stamped (s.sendTimestamp seq) (l.latest seq)

theorem runTimer_tallies {alloc : Bool} {now : ℤ} {out : List Emission} (h : Tallies s l) (hnow : 0 < now)
    (hrun : s.runTimer alloc now = some (t,out)) : Tallies t (enter s l (.timer alloc now)) := by
  rw [enter]
  by_cases hsends : s.Sends alloc
  · rw [if_pos hsends]
    rw [runTimer_of_sends now hsends] at hrun
    obtain ⟨count,hcount,hresult⟩ := Option.map_eq_some_iff.mp hrun
    obtain ⟨rfl,-⟩ := Prod.mk.inj hresult
    obtain ⟨-,rfl⟩ := increment_eq_some.mp hcount
    refine ⟨?_,?_,?_⟩
    · change s.count + 1 = l.length + 1
      rw [h.sent]
    · rw [Ledger.answered,List.countP_cons]
      exact h.received
    · intro seq
      change Stamped (Function.update s.sendTimestamp s.ipId now seq) _
      rw [latest_cons]
      by_cases hseq : s.ipId = seq
      · rw [if_pos hseq,← hseq,Function.update_self]
        exact hnow
      · rw [if_neg hseq,Function.update_of_ne (Ne.symm hseq)]
        exact h.stamps seq
  · rw [if_neg hsends]
    obtain ⟨scheduled,hidle⟩ := runTimer_of_not_sends now hsends
    rw [hidle] at hrun
    obtain ⟨rfl,-⟩ := Prod.mk.inj (Option.some.inj hrun)
    exact ⟨h.sent,h.received,h.stamps⟩

theorem settle_of_latest_none (h : l.latest seq = none) : l.settle seq = l := by
  induction l with
  | nil => rfl
  | cons t ts ih =>
    rw [latest_cons] at h
    by_cases ht : t.sequence = seq
    · rw [if_pos ht] at h
      cases h
    · rw [if_neg ht] at h
      rw [Ledger.settle,if_neg ht,ih h]

theorem push_tallies {arrival : ℤ} {p : Packet} (h : Tallies s l) (hpush : s.push arrival p = some t) :
    Tallies t (enter s l (.packet arrival p)) := by
  rw [enter]
  by_cases haccepts : s.Accepts p
  · rw [if_pos haccepts]
    have hstamp := h.stamps p.icmp.sequence
    have hsettled := answered_settle p.icmp.sequence l
    generalize hlatest : l.latest p.icmp.sequence = latest at hstamp hsettled
    match latest with
    | none =>
      -- a number that was never used: nothing changes
      have hunused : s.sendTimestamp p.icmp.sequence = 0 := hstamp
      rw [push_unused arrival hunused] at hpush
      obtain rfl := Option.some.inj hpush
      rw [settle_of_latest_none hlatest]
      exact h
    | some ⟨seq,false⟩ =>
      have hpos : 0 < s.sendTimestamp p.icmp.sequence := hstamp
      obtain ⟨-,hcount,hreceived,hduplicate,hstamps⟩ := push_accounted haccepts hpos.ne' hpush
      rw [if_neg hpos.not_gt] at hduplicate hstamps
      refine ⟨?_,?_,?_⟩
      · rw [hcount,length_settle,h.sent]
      · rw [hreceived,hduplicate,hsettled,h.received]
        exact Nat.add_assoc _ _ _
      · intro j
        rw [hstamps,latest_settle]
        by_cases hj : j = p.icmp.sequence
        · rw [if_pos hj,hj,hlatest,Function.update_self]
          exact neg_neg_of_pos hpos
        · rw [if_neg hj,Function.update_of_ne hj]
          exact h.stamps j
    | some ⟨seq,true⟩ =>
      have hneg : s.sendTimestamp p.icmp.sequence < 0 := hstamp
      obtain ⟨-,hcount,hreceived,hduplicate,hstamps⟩ := push_accounted haccepts hneg.ne hpush
      rw [if_pos hneg] at hduplicate hstamps
      refine ⟨?_,?_,?_⟩
      · rw [hcount,length_settle,h.sent]
      · rw [hreceived,hduplicate,hsettled,h.received]
        exact Nat.add_right_comm _ _ _
      · intro j
        rw [hstamps,latest_settle]
        by_cases hj : j = p.icmp.sequence
        · rw [if_pos hj,hj,hlatest,Function.update_self]
          exact hneg
        · rw [if_neg hj,Function.update_of_ne hj]
          exact h.stamps j
  · rw [push_unaccepted arrival haccepts] at hpush
    obtain rfl := Option.some.inj hpush
    rw [if_neg haccepts]
    exact h

theorem watch_tallies {r r' : ICMPPingSource × Ledger} {e : Event} {out : List Emission} (hr : Tallies r.1 r.2)
    (htime : e.Timely) (h : watch r e = some (r',out)) : Tallies r'.1 r'.2 := by
  obtain ⟨⟨u,sent⟩,hstep,hresult⟩ := Option.map_eq_some_iff.mp h
  obtain ⟨rfl,rfl⟩ := Prod.mk.inj hresult
  cases e with
  | timer alloc now => exact runTimer_tallies hr htime hstep
  | packet arrival p =>
    obtain ⟨t,hpush,hsame⟩ := Option.map_eq_some_iff.mp hstep
    obtain ⟨rfl,-⟩ := Prod.mk.inj hsame
    exact push_tallies hr hpush

theorem full_of_step_none {e : Event} {k : ℕ} (hduplicate : s.nduplicate ≤ s.nreceived)
    (hk : s.count + s.nreceived ≤ k) (h : s.step e = none) : 2147483647 ≤ k := by
  cases e with
  | timer alloc now =>
    rw [step] at h
    by_cases hsends : s.Sends alloc
    · rw [runTimer_of_sends now hsends] at h
      have hfull : increment s.count = none := Option.map_eq_none_iff.mp h
      rw [increment] at hfull
      split_ifs at hfull
      omega
    · obtain ⟨scheduled,hidle⟩ := runTimer_of_not_sends now hsends
      rw [hidle] at h
      cases h
  | packet arrival p =>
    by_contra hroom
    obtain ⟨t,ht⟩ := push_isSome (s := s) arrival p ⟨by omega,by omega⟩
    rw [step,ht] at h
    cases h

theorem counts_step {e : Event} {sent : List Emission} {k : ℕ} (hk : s.count + s.nreceived ≤ k)
    (h : s.step e = some (t,sent)) : t.count + t.nreceived ≤ k + 1 := by
  cases e with
  | timer alloc now =>
    rw [step] at h
    by_cases hsends : s.Sends alloc
    · rw [runTimer_of_sends now hsends] at h
      obtain ⟨count,hcount,hsame⟩ := Option.map_eq_some_iff.mp h
      obtain ⟨rfl,-⟩ := Prod.mk.inj hsame
      obtain ⟨-,rfl⟩ := increment_eq_some.mp hcount
      change s.count + 1 + s.nreceived ≤ k + 1
      omega
    · obtain ⟨scheduled,hidle⟩ := runTimer_of_not_sends now hsends
      rw [hidle] at h
      obtain ⟨rfl,-⟩ := Prod.mk.inj (Option.some.inj h)
      exact Nat.le_succ_of_le hk
  | packet arrival p =>
    obtain ⟨u,hpush,hsame⟩ := Option.map_eq_some_iff.mp h
    obtain ⟨rfl,-⟩ := Prod.mk.inj hsame
    by_cases hcounts : s.Accepts p ∧ s.sendTimestamp p.icmp.sequence ≠ 0
    · have haccounted := push_accounted hcounts.1 hcounts.2 hpush
      rw [haccounted.count,haccounted.received]
      omega
    · have hsame : s.push arrival p = some s := by
        by_cases haccepts : s.Accepts p
        · exact push_unused arrival (not_not.mp (fun hused => hcounts ⟨haccepts,hused⟩))
        · exact push_unaccepted arrival haccepts
      obtain rfl := Option.some.inj (hsame.symm.trans hpush)
      omega

/-- One event counts at most one request or one reply, and only a full counter stops it. -/
theorem watch_counts {r : ICMPPingSource × Ledger} {e : Event} {k : ℕ} (hr : Tallies r.1 r.2)
    (hk : r.1.count + r.1.nreceived ≤ k) : (watch r e = none → 2147483647 ≤ k) ∧
      ∀ r' out, watch r e = some (r',out) → r'.1.count + r'.1.nreceived ≤ k + 1 := by
  have hduplicate : r.1.nduplicate ≤ r.1.nreceived := by
    rw [hr.received]
    exact Nat.le_add_right _ _
  refine ⟨fun hnone => full_of_step_none hduplicate hk (Option.map_eq_none_iff.mp hnone),fun r' out hsome => ?_⟩
  obtain ⟨⟨u,sent⟩,hstep,hresult⟩ := Option.map_eq_some_iff.mp hsome
  obtain ⟨rfl,rfl⟩ := Prod.mk.inj hresult
  exact counts_step hk hstep

theorem run_tallies {events : List Event} (htimes : ∀ e ∈ events, e.Timely) {r : ICMPPingSource × Ledger} {k : ℕ}
    (hr : Tallies r.1 r.2) (hk : r.1.count + r.1.nreceived ≤ k) :
    (run watch r events = none → 2147483647 < k + events.length) ∧
      ∀ r' out, run watch r events = some (r',out) → Tallies r'.1 r'.2 := by
  induction events generalizing r k with
  | nil =>
    refine ⟨fun hnone => absurd hnone (Option.some_ne_none _),fun r' out hrun => ?_⟩
    obtain ⟨rfl,-⟩ := Prod.mk.inj (Option.some.inj hrun)
    exact hr
  | cons e es ih =>
    obtain ⟨hfull,hcounts⟩ := watch_counts (e := e) hr hk
    rw [List.length_cons]
    cases hstep : watch r e with
    | none =>
      have hle := hfull hstep
      refine ⟨fun _ => by omega,fun r' out hrun => ?_⟩
      rw [run,hstep] at hrun
      cases hrun
    | some x =>
      obtain ⟨u,o⟩ := x
      obtain ⟨hnone,hsome⟩ := ih (fun e' he' => htimes e' (List.mem_cons_of_mem e he'))
        (watch_tallies hr (htimes e List.mem_cons_self) hstep) (hcounts u o hstep)
      refine ⟨fun hrun => ?_,fun r' out hrun => ?_⟩
      · rw [run,hstep,Option.map_eq_none_iff] at hrun
        have hlt := hnone hrun
        omega
      · obtain ⟨u',o',out',hstep',hes,-⟩ := run_cons_eq_some.mp hrun
        obtain ⟨rfl,-⟩ := Prod.mk.inj (Option.some.inj (hstep.symm.trans hstep'))
        exact hsome r' out' hes

/-- Over every run, with requests that find no memory, with replies lost, repeated, late or made up and with numbers
used again after `0xffff` requests: the replies without the duplicates are as many as the transmissions that have been
answered, so never more than were sent. No counter is full before 2147483647 events. -/
theorem run_summary (src dst : IPAddress) (limit : ℤ) (icmpId : UInt16) (data : List UInt8) {events : List Event}
    (htimes : ∀ e ∈ events, e.Timely) :
    (run watch (configure src dst limit icmpId data,([] : Ledger)) events = none → 2147483647 < events.length) ∧
    ∀ (s : ICMPPingSource) (l : Ledger) (out : List Emission),
      run watch (configure src dst limit icmpId data,([] : Ledger)) events = some ((s,l),out) →
      s.count = l.length ∧ s.nduplicate ≤ s.nreceived ∧ s.nreceived - s.nduplicate = l.answered ∧
        s.nreceived - s.nduplicate ≤ s.count := by
  have hstart : Tallies (configure src dst limit icmpId data) ([] : Ledger) := ⟨rfl,rfl,fun _ => rfl⟩
  obtain ⟨hnone,hsome⟩ := run_tallies (r := (configure src dst limit icmpId data,[])) (k := 0) htimes hstart (le_refl 0)
  refine ⟨fun hrun => ?_,fun s l out hrun => ?_⟩
  · have hlt := hnone hrun
    omega
  have h : Tallies s l := hsome _ out hrun
  have hreceived := h.received
  have hle : l.answered ≤ l.length := List.countP_le_length
  have hsent := h.sent
  omega

def sampleReply : Packet where
  data := ClickIp.layout.write { ipV := 4, ipHl := 5, ipP := 1 } ++
    ClickIcmp.layout.write { padding := ClickIcmp.echoPadding 0 (htons 1) }

/-- Two requests, the reply to the first one twice, and a request that finds no memory. -/
def sampleEvents : List Event :=
  [.timer true 5,.packet 0 sampleReply,.timer true 6,.packet 9 sampleReply,.timer false 7,.timer true 8]

theorem run_summary_sample : ∃ s l out, run watch (configure 1 2 (-1) 0 [],([] : Ledger)) sampleEvents = some ((s,l),out) ∧
    s.nduplicate = 1 ∧ s.nreceived - s.nduplicate = l.answered ∧ l.answered = 1 ∧ s.count = 2 := by
  have htimes : ∀ e ∈ sampleEvents, e.Timely := by simp [sampleEvents,Event.Timely]
  have hsummary := (run_summary 1 2 (-1) 0 [] htimes).2
  have heval : (run watch (configure 1 2 (-1) 0 [],([] : Ledger)) sampleEvents).any
      (fun r => r.1.1.nduplicate = 1 ∧ r.1.2.answered = 1 ∧ r.1.1.count = 2) = true := by decide +kernel
  cases hrun : run watch (configure 1 2 (-1) 0 [],([] : Ledger)) sampleEvents with
  | none =>
    rw [hrun] at heval
    cases heval
  | some r =>
    obtain ⟨⟨s,l⟩,out⟩ := r
    rw [hrun] at heval
    obtain ⟨hduplicate,hanswered,hcount⟩ := of_decide_eq_true heval
    exact ⟨s,l,out,rfl,hduplicate,(hsummary s l out hrun).2.2.1,hanswered,hcount⟩

end Ledger

end ICMPPingSource
end ClickMobileIP
