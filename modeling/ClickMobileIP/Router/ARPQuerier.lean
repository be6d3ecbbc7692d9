import ClickMobileIP.Router.ARPTable
import ClickMobileIP.Router.DecIPTTL
import ClickMobileIP.Router.ListenEtherSwitch
import ClickMobileIP.Support.EventRun

/-! # Address resolution

A packet leaves a host with the Ethernet address of its next hop. `ARPQuerier` keeps packets whose next
hop has not answered yet in a table, by next hop, asks for the address, and sends them when the answer comes.
-/
namespace ClickMobileIP
open EventRun

structure ARPQuerier where
  arpt : ARPTable := {}
  myIp : IPAddress
  myBcastIp : IPAddress
  pollTimeoutJ : UInt32 := 60000
  broadcastPoll : Bool := false
  deriving DecidableEq, Repr

/-- The fields of an ARP frame that are read, in host order. -/
structure ArpFrame where
  length : ℕ
  etherType : UInt16
  arHrd : UInt16
  arPro : UInt16
  arOp : UInt16
  spa : IPAddress
  sha : EtherAddress
  deriving DecidableEq, Repr

namespace ARPQuerier

inductive Output
  | sent (dhost : EtherAddress) (p : Packet)
  | query (dhost : EtherAddress) (wantIp : IPAddress)
  | killed (p : Packet)
  deriving DecidableEq, Repr

def multicastAddress (ip : IPAddress) : EtherAddress := BitVec.ofNat 48 (0x01005e000000 + (htonl ip).toNat % 2 ^ 23)

def queries (poll : Bool) (dhost : EtherAddress) (wantIp : IPAddress) : List Output :=
  if poll = true then [.query dhost wantIp] else []

/-- `none` is an access to an entry that is gone, or a retry that never ends. -/
def handleIp (alloc : Bool) (now : UInt32) (q : ARPQuerier) (p : Packet) : Option (ARPQuerier × List Output) :=
  if q.myIp = 0 then some (q,[.killed p])
  else
    match q.arpt.lookup p.dstIpAnno now q.pollTimeoutJ with
    | some (t,eth,poll) =>
      some ({ q with arpt := t },
        queries poll (if q.broadcastPoll = true then EtherAddress.broadcast else eth) p.dstIpAnno ++ [.sent eth p])
    | none =>
      if p.dstIpAnno = 0xffffffff ∨ p.dstIpAnno = q.myBcastIp then some (q,[.sent EtherAddress.broadcast p])
      else if isMulticast p.dstIpAnno = true then some (q,[.sent (multicastAddress p.dstIpAnno) p])
      else if p.dstIpAnno = 0 then some (q,[.killed p])
      else
        match q.arpt.appendQuery alloc p.dstIpAnno p now with
        | none => none
        | some .again => none
        | some (.refused t) => some ({ q with arpt := t },[.killed p])
        | some (.stored t killed poll) =>
          some ({ q with arpt := t },killed.map Output.killed ++ queries poll EtherAddress.broadcast p.dstIpAnno)

def IsAnswer (f : ArpFrame) : Prop :=
  42 ≤ f.length ∧ f.etherType = 0x0806 ∧ f.arHrd = 1 ∧ f.arPro = 0x0800 ∧ f.arOp = 2 ∧ EtherAddress.isGroup f.sha = false

instance (f : ArpFrame) : Decidable (IsAnswer f) := inferInstanceAs (Decidable (_ ∧ _))

def handleResponse (alloc : Bool) (now : UInt32) (q : ARPQuerier) (f : ArpFrame) : Option (ARPQuerier × List Output) :=
  if IsAnswer f then
    match q.arpt.insert alloc f.spa f.sha now with
    | none => none
    | some (t,cached) => run (handleIp alloc now) { q with arpt := t } cached
  else some (q,[])

inductive Event
  | packet (alloc : Bool) (now : UInt32) (p : Packet)
  | response (alloc : Bool) (now : UInt32) (f : ArpFrame)
  | timer (now : UInt32)

def step (q : ARPQuerier) : Event → Option (ARPQuerier × List Output)
  | .packet alloc now p => q.handleIp alloc now p
  | .response alloc now f => q.handleResponse alloc now f
  | .timer now => (q.arpt.slim now).map (fun r => ({ q with arpt := r.1 },r.2.map Output.killed))

section Runs
variable {answers : IPAddress → Option EtherAddress} {q : ARPQuerier} {o : Output} {out out' : List Output} {es : List Event}
  {limit : ℕ}
open ARPTable (held Sound)

/-- The packet that leaves the table, or never enters it. -/
def Output.settled : Output → Option Packet
  | .sent _ p => some p
  | .query _ _ => none
  | .killed p => some p

/-- A frame goes to the last station that has answered for its next hop, to all, or to a group. -/
def Addressed (myBcastIp : IPAddress) (answers : IPAddress → Option EtherAddress) : Output → Prop
  | .sent dhost p => answers p.dstIpAnno = some dhost ∨
      (p.dstIpAnno = 0xffffffff ∨ p.dstIpAnno = myBcastIp) ∧ dhost = EtherAddress.broadcast ∨
      isMulticast p.dstIpAnno = true ∧ dhost = multicastAddress p.dstIpAnno
  | .query _ _ | .killed _ => True

theorem settled_killed (ps : List Packet) : (ps.map Output.killed).filterMap Output.settled = ps := by
  rw [List.filterMap_map]
  exact List.filterMap_some

theorem settled_queries (poll : Bool) (dhost : EtherAddress) (wantIp : IPAddress) :
    (queries poll dhost wantIp).filterMap Output.settled = [] := by
  cases poll <;> rfl

theorem addressed_queries (myBcastIp : IPAddress) (poll : Bool) (dhost : EtherAddress) (wantIp : IPAddress) :
    ∀ o ∈ queries poll dhost wantIp, Addressed myBcastIp answers o := by
  intro o ho
  cases poll with
  | false => exact absurd ho List.not_mem_nil
  | true =>
    rw [List.mem_singleton.mp ho]
    trivial

theorem addressed_killed (myBcastIp : IPAddress) (ps : List Packet) :
    ∀ o ∈ ps.map Output.killed, Addressed myBcastIp answers o := by
  intro o ho
  obtain ⟨p,-,rfl⟩ := List.mem_map.mp ho
  trivial

theorem handleIp_spec (h : Sound answers limit q.arpt) (alloc : Bool) (now : UInt32) (p : Packet) :
    ∃ t out, q.handleIp alloc now p = some ({ q with arpt := t },out) ∧ Sound answers limit t ∧
      (∀ x, (out.filterMap Output.settled).count x + (held t.entries).count x =
        (held q.arpt.entries).count x + [p].count x) ∧ ∀ o ∈ out, Addressed q.myBcastIp answers o := by
  have hpass : ∀ x, [p].count x + (held q.arpt.entries).count x = (held q.arpt.entries).count x + [p].count x :=
    fun x => Nat.add_comm ..
  unfold handleIp
  by_cases hoff : q.myIp = 0
  · rw [if_pos hoff]
    exact ⟨q.arpt,_,rfl,h,hpass,List.forall_mem_singleton.mpr trivial⟩
  rw [if_neg hoff]
  cases hlookup : q.arpt.lookup p.dstIpAnno now q.pollTimeoutJ with
  | some r =>
    obtain ⟨t,eth,poll⟩ := r
    obtain ⟨hsound,hheld,heth⟩ := ARPTable.lookup_spec h hlookup
    refine ⟨t,_,rfl,hsound,fun x => ?_,fun o ho => ?_⟩
    · rw [List.filterMap_append,settled_queries,hheld]
      exact hpass x
    · rcases List.mem_append.mp ho with ho | ho
      · exact addressed_queries _ _ _ _ o ho
      · rw [List.mem_singleton.mp ho]
        exact .inl heth
  | none =>
    dsimp only
    by_cases hbroadcast : p.dstIpAnno = 0xffffffff ∨ p.dstIpAnno = q.myBcastIp
    · rw [if_pos hbroadcast]
      exact ⟨q.arpt,_,rfl,h,hpass,List.forall_mem_singleton.mpr (.inr (.inl ⟨hbroadcast,rfl⟩))⟩
    rw [if_neg hbroadcast]
    by_cases hgroup : isMulticast p.dstIpAnno = true
    · rw [if_pos hgroup]
      exact ⟨q.arpt,_,rfl,h,hpass,List.forall_mem_singleton.mpr (.inr (.inr ⟨hgroup,rfl⟩))⟩
    rw [if_neg hgroup]
    by_cases hzero : p.dstIpAnno = 0
    · rw [if_pos hzero]
      exact ⟨q.arpt,_,rfl,h,hpass,List.forall_mem_singleton.mpr trivial⟩
    rw [if_neg hzero]
    rcases ARPTable.appendQuery_spec h alloc p now q.pollTimeoutJ hlookup with
      ⟨t,hrefused,hsound,hheld⟩ | ⟨t,killed,poll,hstored,hsound,hheld⟩
    · rw [hrefused]
      refine ⟨t,_,rfl,hsound,fun x => ?_,List.forall_mem_singleton.mpr trivial⟩
      rw [hheld]
      exact hpass x
    · rw [hstored]
      refine ⟨t,_,rfl,hsound,fun x => ?_,fun o ho => ?_⟩
      · rw [List.filterMap_append,settled_queries,settled_killed,List.append_nil]
        exact hheld x
      · rcases List.mem_append.mp ho with ho | ho
        · exact addressed_killed _ _ o ho
        · exact addressed_queries _ _ _ _ o ho

theorem handleAll_spec (h : Sound answers limit q.arpt) (alloc : Bool) (now : UInt32) (ps : List Packet) :
    ∃ t out, run (handleIp alloc now) q ps = some ({ q with arpt := t },out) ∧ Sound answers limit t ∧
      (∀ x, (out.filterMap Output.settled).count x + (held t.entries).count x =
        (held q.arpt.entries).count x + ps.count x) ∧ ∀ o ∈ out, Addressed q.myBcastIp answers o := by
  induction ps generalizing q with
  | nil => exact ⟨q.arpt,[],rfl,h,fun x => Nat.add_comm ..,fun o ho => absurd ho List.not_mem_nil⟩
  | cons p ps ih =>
    obtain ⟨t,out,hstep,ht,hcount,haddressed⟩ := handleIp_spec h alloc now p
    obtain ⟨t',out',hrun,ht',hcount',haddressed'⟩ := ih (q := { q with arpt := t }) ht
    refine ⟨t',out ++ out',run_cons_eq_some.mpr ⟨_,out,out',hstep,hrun,rfl⟩,ht',fun x => ?_,fun o ho => ?_⟩
    · have hfirst := hcount x
      have hrest := hcount' x
      rw [List.filterMap_append,List.count_append]
      rw [List.count_cons]
      rw [List.count_cons,List.count_nil] at hfirst
      dsimp only at hrest
      omega
    · rcases List.mem_append.mp ho with ho | ho
      · exact haddressed o ho
      · exact haddressed' o ho

def learn (answers : IPAddress → Option EtherAddress) : Event → IPAddress → Option EtherAddress
  | .response _ _ f => if IsAnswer f then Function.update answers f.spa (some f.sha) else answers
  | .packet _ _ _ | .timer _ => answers

def Event.packets : Event → List Packet
  | .packet _ _ p => [p]
  | .response _ _ _ | .timer _ => []

/-- There is memory for the entry of a station that answers. -/
def Event.Remembered : Event → Prop
  | .response alloc _ f => IsAnswer f → alloc = true
  | .packet _ _ _ | .timer _ => True

theorem insert_isSome (t : ARPTable) (ip : IPAddress) (eth : EtherAddress) (now : UInt32) :
    ∃ t' cached, t.insert true ip eth now = some (t',cached) := by
  unfold ARPTable.insert ARPTable.ensure
  cases ARPTable.locate ip t.entries with
  | none => exact ⟨_,_,rfl⟩
  | some r => exact ⟨_,_,rfl⟩

theorem step_spec (h : Sound answers limit q.arpt) {e : Event} (he : e.Remembered) :
    ∃ t out, q.step e = some ({ q with arpt := t },out) ∧ Sound (learn answers e) limit t ∧
      (∀ x, (out.filterMap Output.settled).count x + (held t.entries).count x =
        (held q.arpt.entries).count x + e.packets.count x) ∧ ∀ o ∈ out, Addressed q.myBcastIp (learn answers e) o := by
  cases e with
  | packet alloc now p => exact handleIp_spec h alloc now p
  | timer now =>
    obtain ⟨t,killed,hslim,ht,hcount⟩ := ARPTable.sound_slim h now
    refine ⟨t,killed.map Output.killed,?_,ht,fun x => ?_,addressed_killed _ _⟩
    · rw [step,hslim]
      rfl
    · rw [settled_killed]
      exact hcount x
  | response alloc now f =>
    rw [step,handleResponse]
    by_cases hanswer : IsAnswer f
    · have hlearn : learn answers (.response alloc now f) = Function.update answers f.spa (some f.sha) := if_pos hanswer
      have halloc : alloc = true := he hanswer
      subst halloc
      rw [if_pos hanswer,hlearn]
      obtain ⟨t,cached,hinsert⟩ := insert_isSome q.arpt f.spa f.sha now
      obtain ⟨ht,hcount⟩ := ARPTable.insert_spec h f.sha hinsert
      obtain ⟨t',out,hrun,ht',hcount',haddressed⟩ := handleAll_spec (q := { q with arpt := t }) ht true now cached
      rw [hinsert]
      refine ⟨t',out,hrun,ht',fun x => ?_,haddressed⟩
      have hback := hcount x
      have hsent := hcount' x
      dsimp only at hsent
      change _ = (held q.arpt.entries).count x + 0
      omega
    · have hlearn : learn answers (.response alloc now f) = answers := if_neg hanswer
      rw [if_neg hanswer,hlearn]
      exact ⟨q.arpt,[],rfl,h,fun x => Nat.add_comm ..,fun o ho => absurd ho List.not_mem_nil⟩

theorem run_spec (h : Sound answers limit q.arpt) (hes : ∀ e ∈ es, e.Remembered) :
    ∃ t out, run step q es = some ({ q with arpt := t },out) ∧ Sound (es.foldl learn answers) limit t ∧
      ∀ x, (out.filterMap Output.settled).count x + (held t.entries).count x =
        (held q.arpt.entries).count x + (es.flatMap Event.packets).count x := by
  induction es generalizing q answers with
  | nil => exact ⟨q.arpt,[],rfl,h,fun x => Nat.add_comm ..⟩
  | cons e es ih =>
    obtain ⟨he,hrest⟩ := List.forall_mem_cons.mp hes
    obtain ⟨t,out,hstep,ht,hcount,-⟩ := step_spec h he
    obtain ⟨t',out',hrun,ht',hcount'⟩ := ih (q := { q with arpt := t }) ht hrest
    refine ⟨t',out ++ out',run_cons_eq_some.mpr ⟨_,out,out',hstep,hrun,rfl⟩,ht',fun x => ?_⟩
    have hfirst := hcount x
    have hothers := hcount' x
    rw [List.filterMap_append,List.count_append,List.flatMap_cons,List.count_append]
    dsimp only at hothers
    omega

theorem sound_empty (hentries : q.arpt.entries = []) (hcount : q.arpt.packetCount = 0) :
    Sound (fun _ => none) q.arpt.packetCapacity q.arpt where
  entries := fun e he => absurd (hentries ▸ he) List.not_mem_nil
  distinct := by
    rw [hentries]
    exact List.nodup_nil
  count := by rw [hentries,hcount,ARPTable.held_nil,List.length_nil]
  capacity := fun _ => hcount ▸ Nat.zero_le _
  configured := rfl

/-- Every packet is sent once, killed once, or waits in the queue of its next hop, over every run of packets,
answers and timers at whatever times; the table never reaches for an entry that is gone and keeps to its packet
capacity. The number of entries is not limited. -/
theorem run_conserves (hentries : q.arpt.entries = []) (hcount : q.arpt.packetCount = 0)
    (hes : ∀ e ∈ es, e.Remembered) : ∃ t out, run step q es = some ({ q with arpt := t },out) ∧
      (out.filterMap Output.settled ++ held t.entries).Perm (es.flatMap Event.packets) ∧
      (∀ e ∈ t.entries, ∀ p ∈ e.queue, p.dstIpAnno = e.ip) ∧
      t.packetCount = (held t.entries).length ∧ (q.arpt.packetCapacity ≠ 0 → t.packetCount ≤ q.arpt.packetCapacity) := by
  obtain ⟨t,out,hrun,ht,hpackets⟩ := run_spec (sound_empty hentries hcount) hes
  refine ⟨t,out,hrun,List.perm_iff_count.mpr fun x => ?_,fun e he => (ht.entries e he).own,ht.count,
    ht.configured ▸ ht.capacity⟩
  rw [List.count_append,hpackets,hentries,ARPTable.held_nil,List.count_nil,Nat.zero_add]

/-- Whenever a frame is sent to one station, that station was the last one to answer for its next hop. -/
theorem sent_where_answered (hentries : q.arpt.entries = []) (hcount : q.arpt.packetCount = 0) {e : Event}
    (hes : ∀ x ∈ es ++ [e], x.Remembered) : ∃ t out u o, run step q es = some (t,out) ∧ step t e = some (u,o) ∧
      ∀ x ∈ o, Addressed q.myBcastIp ((es ++ [e]).foldl learn (fun _ => none)) x := by
  obtain ⟨t,out,hrun,ht,-⟩ := run_spec (sound_empty hentries hcount) (fun x hx => hes x (List.mem_append_left _ hx))
  obtain ⟨u,o,hstep,-,-,haddressed⟩ := step_spec (q := { q with arpt := t }) ht
    (hes e (List.mem_append_right _ (List.mem_singleton_self e)))
  refine ⟨_,out,_,o,hrun,hstep,?_⟩
  rw [List.foldl_append]
  exact haddressed

def sample : ARPQuerier := { myIp := 0x0101a8c0, myBcastIp := 0xff01a8c0 }

def sampleAnswer : ArpFrame where
  length := 42
  etherType := 0x0806
  arHrd := 1
  arPro := 0x0800
  arOp := 2
  spa := 0x0201a8c0
  sha := 0x0200000000aa

def sampleEvents : List Event := [.packet true 0 ⟨[1],0x0201a8c0⟩,.response true 5 sampleAnswer]

theorem run_conserves_sample : ∃ t out, run step sample sampleEvents = some ({ sample with arpt := t },out) ∧
    (out.filterMap Output.settled ++ held t.entries).Perm [⟨[1],0x0201a8c0⟩] ∧
    (∀ e ∈ t.entries, ∀ p ∈ e.queue, p.dstIpAnno = e.ip) ∧ t.packetCount = (held t.entries).length ∧
    ((2048 : ℕ) ≠ 0 → t.packetCount ≤ 2048) :=
  run_conserves rfl rfl (List.forall_mem_cons.mpr ⟨trivial,List.forall_mem_singleton.mpr fun _ => rfl⟩)

theorem sent_where_answered_sample : ∃ t out u o, run step sample [.packet true 0 ⟨[1],0x0201a8c0⟩] = some (t,out) ∧
    step t (.response true 5 sampleAnswer) = some (u,o) ∧
    ∀ x ∈ o, Addressed 0xff01a8c0 (sampleEvents.foldl learn (fun _ => none)) x :=
  sent_where_answered rfl rfl
    (List.forall_mem_cons.mpr ⟨trivial,List.forall_mem_singleton.mpr fun _ => rfl⟩)

end Runs

end ARPQuerier
end ClickMobileIP
