import ClickMobileIP.Router.ARPQuerier

/-! # Stations at a switch

The hosts of one network: each resolves the next hops of its packets, answers for its own address, and takes
the frames that are for it. Frames go up to the switch and down to the stations at the outputs it chooses. There
is memory for every answer and for the entry it makes. The agents have one querier in each of their two networks
and hand every answer to both; here a station has the querier of this network only.
-/
namespace ClickMobileIP
open EventRun

/-- Whether a frame is for the host; others are dropped, its own are not. -/
def HostEtherFilter.passes (addr dhost : EtherAddress) : Bool :=
  dhost == addr || dhost == EtherAddress.broadcast || EtherAddress.isGroup dhost

/-- The answer to a query for the address of the host. -/
def ARPResponder.response (ip : IPAddress) (ena : EtherAddress) (tpa : IPAddress) : Option ArpFrame :=
  if tpa = ip then
    some { length := 42, etherType := 0x0806, arHrd := 1, arPro := 0x0800, arOp := 2, spa := tpa, sha := ena }
  else none

/-- Stations that can be told apart, each at its own port; the last output of the switch only listens. -/
structure LocalNetwork (ι : Type) where
  stations : List ι
  noutputs : ℕ
  ip : ι → IPAddress
  eth : ι → EtherAddress
  port : ι → ℕ
  complete : ∀ i, i ∈ stations
  ip_injective : Function.Injective ip
  eth_injective : Function.Injective eth
  unicast : ∀ i, EtherAddress.isGroup (eth i) = false
  port_lt : ∀ i, port i + 1 < noutputs

namespace LocalNetwork
variable {ι : Type}

inductive Body
  | ip (p : Packet)
  | query (sha : EtherAddress) (tpa : IPAddress)
  | reply (f : ArpFrame)

/-- The source address is that of the station. -/
structure Frame (ι : Type) where
  source : ι
  dhost : EtherAddress
  body : Body

structure State (ι : Type) where
  arpq : ι → ARPQuerier
  switch : EtherSwitch
  up : List (Frame ι)
  down : List (ι × Frame ι)

inductive Event (ι : Type)
  | send (i : ι) (alloc : Bool) (now : UInt32) (p : Packet)
  | timer (i : ι) (now : UInt32)
  | forward (k : ℕ) (stamp : ℤ)
  | receive (k : ℕ) (now : UInt32)

/-- The frame of an output of the querier. -/
def emitted (L : LocalNetwork ι) (i : ι) : ARPQuerier.Output → Option (Frame ι)
  | .sent dhost p => some ⟨i,dhost,.ip p⟩
  | .query dhost wantIp => some ⟨i,dhost,.query (L.eth i) wantIp⟩
  | .killed _ => none

/-- The stations at the outputs that get a copy. -/
def copiesOf (L : LocalNetwork ι) (outs : List ℕ) (f : Frame ι) : List (ι × Frame ι) :=
  (L.stations.filter (fun j => L.port j ∈ outs)).map (fun j => (j,f))

variable [DecidableEq ι]

def resolve (L : LocalNetwork ι) (s : State ι) (i : ι) (e : ARPQuerier.Event) : Option (State ι) :=
  ((s.arpq i).step e).map (fun r =>
    { s with arpq := Function.update s.arpq i r.1, up := s.up ++ r.2.filterMap (L.emitted i) })

/-- The output of a step is the packets that come to a host. -/
def step (L : LocalNetwork ι) (s : State ι) : Event ι → Option (State ι × List (ι × Packet))
  | .send i alloc now p => (L.resolve s i (.packet alloc now p)).map (fun t => (t,[]))
  | .timer i now => (L.resolve s i (.timer now)).map (fun t => (t,[]))
  | .forward k stamp =>
    s.up[k]?.map (fun f =>
      let r := ListenEtherSwitch.push L.noutputs s.switch (L.port f.source) ⟨L.eth f.source,f.dhost,stamp⟩
      ({ s with switch := r.1, up := s.up.eraseIdx k, down := s.down ++ L.copiesOf r.2 f },[]))
  | .receive k now =>
    s.down[k]?.bind (fun (j,f) =>
      let t := { s with down := s.down.eraseIdx k }
      if HostEtherFilter.passes (L.eth j) f.dhost = true then
        match f.body with
        | .ip p => some (t,[(j,p)])
        | .query sha tpa =>
          some ({ t with up := t.up ++ ((ARPResponder.response (L.ip j) (L.eth j) tpa).map (fun r =>
            (⟨j,sha,.reply r⟩ : Frame ι))).toList },[])
        | .reply r => (L.resolve t j (.response true now r)).map (fun t => (t,[]))
      else some (t,[]))

def initial (L : LocalNetwork ι) : State ι where
  arpq i := { myIp := L.ip i, myBcastIp := 0xffffffff }
  switch := {}
  up := []
  down := []

section Answers
omit [DecidableEq ι]
variable {L : LocalNetwork ι} {j : ι} {dhost : EtherAddress} {p : Packet}

def answers (L : LocalNetwork ι) (a : IPAddress) : Option EtherAddress := (L.stations.find? (fun j => L.ip j == a)).map L.eth

theorem answers_ip (L : LocalNetwork ι) (j : ι) : L.answers (L.ip j) = some (L.eth j) := by
  unfold answers
  cases hfind : L.stations.find? (fun i => L.ip i == L.ip j) with
  | none =>
    have hnot := List.find?_eq_none.mp hfind j (L.complete j)
    exact absurd (beq_self_eq_true (L.ip j)) hnot
  | some i =>
    have hip : (L.ip i == L.ip j) = true := List.find?_some (p := fun i => L.ip i == L.ip j) hfind
    rw [L.ip_injective (beq_iff_eq.mp hip)]
    rfl

theorem station_of_answer {a : IPAddress} (h : L.answers a = some dhost) : ∃ i, L.ip i = a ∧ L.eth i = dhost := by
  obtain ⟨i,hfind,heth⟩ := Option.map_eq_some_iff.mp h
  exact ⟨i,beq_iff_eq.mp (List.find?_some (p := fun i => L.ip i == a) hfind),heth⟩

def portOf (L : LocalNetwork ι) (a : EtherAddress) : ℕ := ((L.stations.find? (fun j => L.eth j == a)).map L.port).getD 0

theorem portOf_eth (L : LocalNetwork ι) (j : ι) : L.portOf (L.eth j) = L.port j := by
  unfold portOf
  cases hfind : L.stations.find? (fun i => L.eth i == L.eth j) with
  | none =>
    have hnot := List.find?_eq_none.mp hfind j (L.complete j)
    exact absurd (beq_self_eq_true (L.eth j)) hnot
  | some i =>
    have heth : (L.eth i == L.eth j) = true := List.find?_some (p := fun i => L.eth i == L.eth j) hfind
    rw [L.eth_injective (beq_iff_eq.mp heth)]
    rfl

/-- Frames go where they should, and no answer is made up. -/
def Genuine (L : LocalNetwork ι) (f : Frame ι) : Prop :=
  match f.body with
  | .ip p => ARPQuerier.Addressed 0xffffffff L.answers (.sent f.dhost p)
  | .query _ _ => True
  | .reply r => L.answers r.spa = some r.sha

/-- A packet for one next hop is at that next hop. -/
def Arrived (L : LocalNetwork ι) (x : ι × Packet) : Prop :=
  x.2.dstIpAnno = L.ip x.1 ∨ x.2.dstIpAnno = 0xffffffff ∨ isMulticast x.2.dstIpAnno = true

theorem arrived_of_passes (hpass : HostEtherFilter.passes (L.eth j) dhost = true)
    (h : ARPQuerier.Addressed 0xffffffff L.answers (.sent dhost p)) : L.Arrived (j,p) := by
  rcases h with hanswer | ⟨hbroadcast,-⟩ | ⟨hgroup,-⟩
  · obtain ⟨i,hip,heth⟩ := station_of_answer hanswer
    have hunicast := L.unicast i
    rw [heth] at hunicast
    have hnot : dhost ≠ EtherAddress.broadcast := by
      rintro rfl
      exact absurd hunicast (by decide)
    have hself : dhost = L.eth j := by
      simpa [HostEtherFilter.passes,hunicast,hnot] using hpass
    rw [hself] at heth
    rw [L.eth_injective heth] at hip
    exact .inl hip.symm
  · exact .inr (.inl (hbroadcast.elim id id))
  · exact .inr (.inr hgroup)

end Answers

section Runs
variable {L : LocalNetwork ι} {s t : State ι} {i : ι} {e : ARPQuerier.Event}

structure Inv (L : LocalNetwork ι) (s : State ι) : Prop where
  sound : ∀ i, ARPTable.Sound L.answers 2048 (s.arpq i).arpt
  broadcast : ∀ i, (s.arpq i).myBcastIp = 0xffffffff
  located : ListenEtherSwitch.Located L.noutputs L.portOf s.switch
  up : ∀ f ∈ s.up, L.Genuine f
  down : ∀ x ∈ s.down, L.Genuine x.2

omit [DecidableEq ι] in
theorem inv_initial (L : LocalNetwork ι) : Inv L L.initial where
  sound := fun _ => ⟨fun _ he => absurd he List.not_mem_nil,List.nodup_nil,rfl,fun _ => Nat.zero_le _,rfl⟩
  broadcast := fun _ => rfl
  located := by
    intro a info ha
    have hempty : (none : Option EtherSwitch.AddrInfo) = some info := ha
    cases hempty
  up := fun _ hf => absurd hf List.not_mem_nil
  down := fun _ hx => absurd hx List.not_mem_nil

omit [DecidableEq ι] in
theorem genuine_emitted {o : ARPQuerier.Output} {f : Frame ι} (h : ARPQuerier.Addressed 0xffffffff L.answers o)
    (hf : L.emitted i o = some f) : L.Genuine f := by
  cases o with
  | sent dhost p =>
    cases hf
    exact h
  | query dhost wantIp =>
    cases hf
    trivial
  | killed p => cases hf

theorem inv_resolve (h : Inv L s) (hsame : ARPQuerier.learn L.answers e = L.answers) (he : e.Remembered)
    (hresolve : L.resolve s i e = some t) : Inv L t := by
  obtain ⟨r,hstep,rfl⟩ := Option.map_eq_some_iff.mp hresolve
  obtain ⟨table,out,hspec,hsound,-,haddressed⟩ := ARPQuerier.step_spec (h.sound i) he
  rw [hspec] at hstep
  obtain rfl := Option.some.inj hstep
  rw [hsame] at hsound haddressed
  refine ⟨fun j => ?_,fun j => ?_,h.located,fun f hf => ?_,h.down⟩
  · by_cases hj : j = i
    · subst hj
      change ARPTable.Sound L.answers 2048 (Function.update s.arpq j _ j).arpt
      rw [Function.update_self]
      exact hsound
    · change ARPTable.Sound L.answers 2048 (Function.update s.arpq i _ j).arpt
      rw [Function.update_of_ne hj]
      exact h.sound j
  · by_cases hj : j = i
    · subst hj
      change (Function.update s.arpq j _ j).myBcastIp = _
      rw [Function.update_self]
      exact h.broadcast j
    · change (Function.update s.arpq i _ j).myBcastIp = _
      rw [Function.update_of_ne hj]
      exact h.broadcast j
  · rcases List.mem_append.mp hf with hf | hf
    · exact h.up f hf
    · obtain ⟨o,ho,hemitted⟩ := List.mem_filterMap.mp hf
      exact genuine_emitted (h.broadcast i ▸ haddressed o ho) hemitted

omit [DecidableEq ι] in
theorem learn_genuine {now : UInt32} {r : ArpFrame} (h : L.answers r.spa = some r.sha) :
    ARPQuerier.learn L.answers (.response true now r) = L.answers := by
  rw [ARPQuerier.learn,← h,Function.update_eq_self]
  exact ite_self _

omit [DecidableEq ι] in
theorem push_forward (h : Inv L s) (f : Frame ι) (stamp : ℤ) :
    let x : ListenEtherSwitch.Arrival := ⟨L.port f.source,⟨L.eth f.source,f.dhost,stamp⟩⟩
    ListenEtherSwitch.Located L.noutputs L.portOf (ListenEtherSwitch.push L.noutputs s.switch x.source x.frame).1 ∧
      ListenEtherSwitch.Delivers L.noutputs L.portOf x (ListenEtherSwitch.push L.noutputs s.switch x.source x.frame).2 :=
  ListenEtherSwitch.push_delivers h.located ⟨(L.portOf_eth f.source).symm,L.port_lt f.source⟩

theorem forward_reaches (h : Inv L s) {k : ℕ} {f : Frame ι} {j : ι} (hf : s.up[k]? = some f) (hdhost : f.dhost = L.eth j)
    (hport : L.port j ≠ L.port f.source) (stamp : ℤ) :
    ∃ u, L.step s (.forward k stamp) = some (u,[]) ∧ (j,f) ∈ u.down := by
  have hdelivers := (push_forward h f stamp).2
  have hout := hdelivers.station (by rw [hdhost,L.portOf_eth]; exact L.port_lt j) (by rw [hdhost,L.portOf_eth]; exact hport)
  rw [hdhost,L.portOf_eth] at hout
  refine ⟨_,by rw [step,hf]; rfl,List.mem_append_right _ (List.mem_map.mpr ⟨j,List.mem_filter.mpr ⟨L.complete j,?_⟩,rfl⟩)⟩
  rw [← hdhost] at hout
  exact decide_eq_true hout

theorem step_inv {event : Event ι} {out : List (ι × Packet)} (h : Inv L s) (hstep : L.step s event = some (t,out)) :
    Inv L t ∧ ∀ x ∈ out, L.Arrived x := by
  have hnone : ∀ x ∈ ([] : List (ι × Packet)), L.Arrived x := fun x hx => absurd hx List.not_mem_nil
  cases event with
  | send i alloc now p =>
    obtain ⟨u,hresolve,heq⟩ := Option.map_eq_some_iff.mp hstep
    obtain ⟨rfl,rfl⟩ := Prod.mk.inj heq
    exact ⟨inv_resolve (e := .packet alloc now p) h rfl trivial hresolve,hnone⟩
  | timer i now =>
    obtain ⟨u,hresolve,heq⟩ := Option.map_eq_some_iff.mp hstep
    obtain ⟨rfl,rfl⟩ := Prod.mk.inj heq
    exact ⟨inv_resolve (e := .timer now) h rfl trivial hresolve,hnone⟩
  | forward k stamp =>
    obtain ⟨f,hf,heq⟩ := Option.map_eq_some_iff.mp hstep
    obtain ⟨rfl,rfl⟩ := Prod.mk.inj heq
    refine ⟨⟨h.sound,h.broadcast,(push_forward h f stamp).1,fun g hg => h.up g (List.mem_of_mem_eraseIdx hg),fun x hx => ?_⟩,
      hnone⟩
    rcases List.mem_append.mp hx with hx | hx
    · exact h.down x hx
    · obtain ⟨j,-,rfl⟩ := List.mem_map.mp hx
      exact h.up f (List.mem_of_getElem? hf)
  | receive k now =>
    obtain ⟨⟨j,f⟩,hf,heq⟩ := Option.bind_eq_some_iff.mp hstep
    have hgenuine := h.down _ (List.mem_of_getElem? hf)
    have hrest : Inv L { s with down := s.down.eraseIdx k } :=
      ⟨h.sound,h.broadcast,h.located,h.up,fun x hx => h.down x (List.mem_of_mem_eraseIdx hx)⟩
    obtain ⟨source,dhost,body⟩ := f
    dsimp only at heq
    split_ifs at heq with hpass
    · cases body with
      | ip p =>
        cases heq
        exact ⟨hrest,List.forall_mem_singleton.mpr (arrived_of_passes hpass hgenuine)⟩
      | query sha tpa =>
        cases heq
        refine ⟨⟨h.sound,h.broadcast,h.located,fun g hg => ?_,hrest.down⟩,hnone⟩
        rcases List.mem_append.mp hg with hg | hg
        · exact h.up g hg
        · obtain ⟨r,hr,rfl⟩ := Option.map_eq_some_iff.mp (Option.mem_toList.mp hg)
          unfold ARPResponder.response at hr
          split_ifs at hr with hown
          cases hr
          change L.answers tpa = some (L.eth j)
          rw [hown]
          exact L.answers_ip j
      | reply r =>
        obtain ⟨u,hresolve,heq⟩ := Option.map_eq_some_iff.mp heq
        obtain ⟨rfl,rfl⟩ := Prod.mk.inj heq
        exact ⟨inv_resolve hrest (learn_genuine hgenuine) (fun _ => rfl) hresolve,hnone⟩
    · cases heq
      exact ⟨hrest,hnone⟩

/-- Over every run, a packet comes to no host but its next hop, unless it is for several; and the switch passes each
frame for a station on to that station. -/
theorem run_arrives {es : List (Event ι)} {out : List (ι × Packet)} (hrun : run L.step L.initial es = some (t,out)) :
    (∀ x ∈ out, L.Arrived x) ∧ ∀ (k : ℕ) (f : Frame ι) (j : ι) (stamp : ℤ), t.up[k]? = some f → f.dhost = L.eth j →
      L.port j ≠ L.port f.source → ∃ u, L.step t (.forward k stamp) = some (u,[]) ∧ (j,f) ∈ u.down := by
  have hkeep : ∀ s l e t out, (Inv L s ∧ ∀ x ∈ l, L.Arrived x) → L.step s e = some (t,out) →
      Inv L t ∧ ∀ x ∈ l ++ out, L.Arrived x := by
    intro s l e t out hs hstep
    obtain ⟨ht,hout⟩ := step_inv hs.1 hstep
    exact ⟨ht,fun x hx => (List.mem_append.mp hx).elim (hs.2 x) (hout x)⟩
  have hinv := run_invariant (P := fun s out => Inv L s ∧ ∀ x ∈ out, L.Arrived x) (l := []) hkeep
    ⟨inv_initial L,fun x hx => absurd hx List.not_mem_nil⟩ hrun
  exact ⟨hinv.2,fun k f j stamp hf hdhost hport => forward_reaches hinv.1 hf hdhost hport stamp⟩

def samplePair : LocalNetwork Bool where
  stations := [true,false]
  noutputs := 3
  ip i := if i then 0x0101a8c0 else 0x0201a8c0
  eth i := if i then 0x0200000000aa else 0x0200000000bb
  port i := if i then 0 else 1
  complete := by decide
  ip_injective := by unfold Function.Injective; decide
  eth_injective := by unfold Function.Injective; decide
  unicast := by decide
  port_lt := by decide

/-- A packet waits, the query is answered, the packet is sent and comes to the other station. -/
def sampleExchange : List (Event Bool) :=
  [.send true true 0 ⟨[1],0x0201a8c0⟩,.forward 0 1,.receive 0 1,.forward 0 2,.receive 0 2,.forward 0 3,.receive 0 3]

theorem run_arrives_sample : ∃ t, run samplePair.step samplePair.initial sampleExchange = some (t,[(false,⟨[1],0x0201a8c0⟩)]) ∧
    (∀ x ∈ [(false,(⟨[1],0x0201a8c0⟩ : Packet))], samplePair.Arrived x) ∧
    ∀ (k : ℕ) (f : Frame Bool) (j : Bool) (stamp : ℤ), t.up[k]? = some f → f.dhost = samplePair.eth j →
      samplePair.port j ≠ samplePair.port f.source →
      ∃ u, samplePair.step t (.forward k stamp) = some (u,[]) ∧ (j,f) ∈ u.down := by
  have heval : (run samplePair.step samplePair.initial sampleExchange).map Prod.snd = some [(false,⟨[1],0x0201a8c0⟩)] := by
    decide +kernel
  obtain ⟨⟨t,out⟩,hrun,hout⟩ := Option.map_eq_some_iff.mp heval
  dsimp only at hout
  subst hout
  exact ⟨t,hrun,run_arrives hrun⟩

end Runs

end LocalNetwork
end ClickMobileIP
