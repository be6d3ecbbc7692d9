import ClickMobileIP.System.Datapath

/-! # No ping is lost

While a node stays registered where it is, every request of the correspondent node is
somewhere on its way or has come back as a reply. The invariant follows each ping in
flight through the stages of its route; one arrival moves one ping by one stage.
-/
namespace ClickMobileIP.Datapath
open EventRun

section Runs
variable {N : NetConfig} {n m : Net} {chance : Chance}

/-- A frame that is a ping on its way, with its number and the links it still has to cross. -/
structure Flight where
  frame : Frame
  seq : UInt16
  left : ℕ

/-- While no number has been used twice: no reply counts as a duplicate, the numbers in flight differ and are
unanswered, and the next numbers are unused. -/
structure Unrepeated (ping : ICMPPingSource) (flights : List Flight) : Prop where
  noDuplicates : ping.nduplicate = 0
  distinct : (flights.map Flight.seq).Nodup
  unanswered : ∀ x ∈ flights, 0 < ping.sendTimestamp x.seq
  unused : ∀ k, ping.count ≤ k → k < 65535 → ping.sendTimestamp (htons (UInt16.ofNat (k + 1))) = 0

/-- Every request so far is in flight or has come back; `arrived` frames have reached a station. -/
structure Conserved (N : NetConfig) (place : Place) (n : Net) (arrived : ℕ) (flights : List Flight) : Prop where
  attached : Attached N n
  stays : n.place = place
  source : n.ping.src = N.cn.addr ∧ n.ping.dst = N.mn.addr ∧ n.ping.data.length ≤ 1472
  frames : n.frames = flights.map Flight.frame
  stages : ∀ x ∈ flights, Stage N place n.ping.icmpId x.seq x.left x.frame
  used : ∀ x ∈ flights, n.ping.sendTimestamp x.seq ≠ 0
  count : n.ping.count = n.ping.nreceived + flights.length
  duplicates : n.ping.nduplicate ≤ n.ping.nreceived
  crossings : arrived + flights.length + (flights.map Flight.left).sum = place.hops * n.ping.count
  unrepeated : n.ping.count ≤ 65535 → Unrepeated n.ping flights

theorem send_request (chance : Chance) (h : Attached N n) (hN : N.Sound)
    (hsource : n.ping.src = N.cn.addr ∧ n.ping.dst = N.mn.addr ∧ n.ping.data.length ≤ 1472) (ping : ICMPPingSource) :
    ∃ m f, atSource N chance { n with ping := ping } n.ping.makePacket = some (m,[f]) ∧ Attached N m ∧
      m.place = n.place ∧ m.ping = ping ∧ m.frames = n.frames ∧
      Stage N n.place n.ping.icmpId n.ping.ipId (n.place.hops - 1) f := by
  obtain ⟨hsrc,hdst,hdata⟩ := hsource
  have hmade := ICMPPingSource.makePacket_requests (s := n.ping) (hdata.trans (by decide))
  have hpass := CheckIPHeader.simpleAction_of_valid hmade.valid
  have hrequest : Request N n.ping.icmpId n.ping.ipId n.ping.makePacket := by
    refine ⟨hmade.valid,hmade.echo,hmade.verifies,⟨hmade.ends.1.trans hsrc,hmade.ends.2.1.trans hdst⟩,?_,?_,hmade.padding⟩
    · rw [Packet.headerLength,hmade.plain.1]
      decide
    · rw [hmade.length]
      omega
  set q : Packet := { n.ping.makePacket with dstIpAnno := n.ping.makePacket.ip.ipDst } with hq
  have hanno : q.dstIpAnno = N.mn.addr := hrequest.ends.2
  have hown : q.dstIpAnno ≠ N.cn.addr := by
    rw [hanno]
    exact hN.node_ne_source
  have hordinary : Path.Ordinary q := (hrequest.anno _).ordinary (by
    change 1 < n.ping.makePacket.ip.ipTtl
    rw [hmade.plain.2.1]
    decide)
  set r : Packet := { q with dstIpAnno := N.cn.gateway } with hr
  have hroute : N.cn.route 1 q = (1,r) := by
    rw [HostConfig.route,if_neg hown,hanno,if_neg hN.apart.1,if_pos hN.gateways.2.1]
  have hrun : n.cn.receive chance.env N.cn.addr n.ping.makePacket = _ :=
    CorrespondingNode.receive_out h.cn hN.cn hpass hordinary hown
  rw [hroute] at hrun
  have hleaves : Request N n.ping.icmpId n.ping.ipId r := (hrequest.anno _).anno _
  obtain ⟨-,-,-,-,-,httl,hgateway⟩ := plain_same hleaves.valid
  refine ⟨{ n with cn := n.cn.looked q, ping := ping },⟨.publicNet,N.ha.publicAddr,DecIPTTL.plain r⟩,?_,
    h.lookedSource q ping,rfl,rfl,rfl,.toAgent _ hleaves.hop ?_⟩
  · rw [atSource,hrun,← hN.gateways.1]
    rfl
  · have hfresh : r.ip.ipTtl = 200 := hmade.plain.2.1
    rw [httl,hfresh]
    decide

theorem ipId_injective {j k : ℕ} (hj : j < 65535) (hk : k < 65535)
    (h : htons (UInt16.ofNat (j + 1)) = htons (UInt16.ofNat (k + 1))) : j = k := by
  have heq : UInt16.ofNat (j + 1) = UInt16.ofNat (k + 1) := by
    rw [← ntohs_htons (UInt16.ofNat (j + 1)),h,ntohs_htons]
  have hnat := congrArg UInt16.toNat heq
  rw [UInt16.toNat_ofNat',UInt16.toNat_ofNat'] at hnat
  omega

theorem Unrepeated.sent {ping : ICMPPingSource} {flights : List Flight} {now : ℤ} (h : Unrepeated ping flights)
    (hcount : ping.count < 65535) (hnow : 0 < now) (f : Frame) (left : ℕ) :
    Unrepeated { ping with count := ping.count + 1, sendTimestamp := Function.update ping.sendTimestamp ping.ipId now }
      (flights ++ [⟨f,ping.ipId,left⟩]) := by
  have hid : ping.ipId = htons (UInt16.ofNat (ping.count + 1)) := by
    rw [ICMPPingSource.ipId,Nat.mod_eq_of_lt hcount]
  have hunused : ping.sendTimestamp ping.ipId = 0 := by
    rw [hid]
    exact h.unused _ le_rfl hcount
  have hother : ∀ x ∈ flights, x.seq ≠ ping.ipId := by
    intro x hx heq
    have hpos := h.unanswered x hx
    rw [heq,hunused] at hpos
    exact hpos.false
  refine ⟨h.noDuplicates,?_,?_,?_⟩
  · rw [List.map_append,List.nodup_append]
    refine ⟨h.distinct,List.nodup_singleton _,fun a ha b hb => ?_⟩
    obtain ⟨x,hx,rfl⟩ := List.mem_map.mp ha
    rw [List.mem_singleton.mp hb]
    exact hother x hx
  · intro x hx
    rcases List.mem_append.mp hx with hx | hx
    · change 0 < Function.update ping.sendTimestamp ping.ipId now x.seq
      rw [Function.update_of_ne (hother x hx)]
      exact h.unanswered x hx
    · rw [List.mem_singleton.mp hx]
      change 0 < Function.update ping.sendTimestamp ping.ipId now ping.ipId
      rw [Function.update_self]
      exact hnow
  · intro k hk hlt
    have hne : htons (UInt16.ofNat (k + 1)) ≠ ping.ipId := by
      intro heq
      rw [hid] at heq
      exact Nat.ne_of_gt hk (ipId_injective hlt hcount heq)
    change Function.update ping.sendTimestamp ping.ipId now (htons (UInt16.ofNat (k + 1))) = 0
    rw [Function.update_of_ne hne]
    exact h.unused k (Nat.le_of_succ_le hk) hlt

theorem Place.hops_pos (place : Place) : 0 < place.hops := by cases place <;> decide

theorem Attached.framed (h : Attached N n) (frames : List Frame) : Attached N { n with frames := frames } :=
  ⟨h.cn,h.mn,h.ha,h.fa,h.registered.same rfl rfl rfl⟩

theorem Conserved.idle {place : Place} {arrived : ℕ} {flights : List Flight} (h : Conserved N place n arrived flights)
    (scheduled : Bool) :
    Conserved N place { n with ping := { n.ping with timerScheduled := scheduled } } arrived flights :=
  ⟨⟨h.attached.cn,h.attached.mn,h.attached.ha,h.attached.fa,h.attached.registered.same rfl rfl rfl⟩,h.stays,
    h.source,h.frames,h.stages,h.used,h.count,h.duplicates,h.crossings,
    fun hle => ⟨(h.unrepeated hle).noDuplicates,(h.unrepeated hle).distinct,(h.unrepeated hle).unanswered,
      (h.unrepeated hle).unused⟩⟩

/-- One more ping is on its way. -/
theorem Conserved.sent {place : Place} {arrived : ℕ} {flights : List Flight} {now : ℤ} {f : Frame}
    (h : Conserved N place n arrived flights) (hnow : 0 < now) (hm : Attached N m) (hplace : m.place = n.place)
    (hping : m.ping = { n.ping with
      count := n.ping.count + 1, sendTimestamp := Function.update n.ping.sendTimestamp n.ping.ipId now })
    (hframes : m.frames = n.frames) (hf : Stage N place n.ping.icmpId n.ping.ipId (place.hops - 1) f) :
    Conserved N place { m with frames := m.frames ++ [f] } arrived (flights ++ [⟨f,n.ping.ipId,place.hops - 1⟩]) := by
  have hused : ∀ x ∈ flights, Function.update n.ping.sendTimestamp n.ping.ipId now x.seq ≠ 0 := by
    intro x hx
    by_cases hseq : x.seq = n.ping.ipId
    · rw [hseq]
      exact (Function.update_self ..).trans_ne hnow.ne'
    · exact (Function.update_of_ne hseq ..).trans_ne (h.used x hx)
  have hcrossings := h.crossings
  have hcount := h.count
  refine ⟨hm.framed _,hplace.trans h.stays,?_,?_,?_,?_,?_,?_,?_,?_⟩
  · change m.ping.src = _ ∧ m.ping.dst = _ ∧ m.ping.data.length ≤ _
    rw [hping]
    exact h.source
  · change m.frames ++ [f] = _
    rw [hframes,h.frames,List.map_append]
    rfl
  · change ∀ x : Flight, x ∈ _ → Stage N place m.ping.icmpId x.seq x.left x.frame
    rw [hping]
    intro x hx
    rcases List.mem_append.mp hx with hx | hx
    · exact h.stages x hx
    · rw [List.mem_singleton.mp hx]
      exact hf
  · change ∀ x : Flight, x ∈ _ → m.ping.sendTimestamp x.seq ≠ 0
    rw [hping]
    intro x hx
    rcases List.mem_append.mp hx with hx | hx
    · exact hused x hx
    · rw [List.mem_singleton.mp hx]
      exact (Function.update_self ..).trans_ne hnow.ne'
  · change m.ping.count = m.ping.nreceived + _
    rw [hping,List.length_append]
    change n.ping.count + 1 = n.ping.nreceived + (flights.length + 1)
    omega
  · change m.ping.nduplicate ≤ m.ping.nreceived
    rw [hping]
    exact h.duplicates
  · change _ = place.hops * m.ping.count
    rw [hping,List.map_append,List.sum_append,List.length_append]
    change arrived + (_ + 1) + (_ + (place.hops - 1 + 0)) = place.hops * (n.ping.count + 1)
    have hhops := place.hops_pos
    rw [Nat.mul_succ]
    omega
  · change m.ping.count ≤ 65535 → Unrepeated m.ping _
    rw [hping]
    exact fun hle => (h.unrepeated (Nat.le_of_succ_le hle)).sent hle hnow f _

theorem Conserved.timer (chance : Chance) {place : Place} {arrived : ℕ} {flights : List Flight} {now : ℤ}
    (h : Conserved N place n arrived flights) (hN : N.Sound) (hnow : 0 < now) (hroom : n.ping.count < 2147483647) :
    ∃ m flights', step N n (.timer chance now) = some (m,[]) ∧ m.ping.count ≤ n.ping.count + 1 ∧
      Conserved N place m arrived flights' := by
  by_cases hsends : n.ping.Sends (chance.env.alloc .request)
  · set ping : ICMPPingSource :=
      { n.ping with count := n.ping.count + 1,
                    sendTimestamp := Function.update n.ping.sendTimestamp n.ping.ipId now }
    have hsend : n.ping.runTimer (chance.env.alloc .request) now = some (ping,[⟨0,n.ping.makePacket⟩]) := by
      rw [ICMPPingSource.runTimer_of_sends now hsends,increment,if_pos hroom]
      rfl
    obtain ⟨m,f,hrun,hm,hplace,hmping,hframes,hf⟩ := send_request chance h.attached hN h.source ping
    rw [h.stays] at hf
    refine ⟨{ m with frames := m.frames ++ [f] },flights ++ [⟨f,n.ping.ipId,place.hops - 1⟩],?_,?_,
      h.sent hnow hm hplace hmping hframes hf⟩
    · rw [step,hsend]
      dsimp only
      rw [hrun]
      rfl
    · change m.ping.count ≤ n.ping.count + 1
      rw [hmping]
  · obtain ⟨scheduled,hidle⟩ := ICMPPingSource.runTimer_of_not_sends now hsends
    refine ⟨{ n with ping := { n.ping with timerScheduled := scheduled } },flights,?_,Nat.le_succ _,h.idle scheduled⟩
    rw [step,hidle]

section Answers
variable {ping next : ICMPPingSource} {flights flights' : List Flight} {x : Flight} {seq : UInt16}

theorem Unrepeated.of_perm (h : Unrepeated ping flights) (hperm : (flights'.map Flight.seq).Perm (flights.map Flight.seq)) :
    Unrepeated ping flights' := by
  refine ⟨h.noDuplicates,hperm.nodup_iff.mpr h.distinct,fun x hx => ?_,h.unused⟩
  obtain ⟨y,hy,hseq⟩ := List.mem_map.mp (hperm.mem_iff.mp (List.mem_map_of_mem hx))
  rw [← hseq]
  exact h.unanswered y hy

theorem Unrepeated.answered (h : Unrepeated ping (x :: flights)) (haccounted : ping.Accounted seq next)
    (hseq : seq = x.seq) : Unrepeated next flights := by
  have hpos : 0 < ping.sendTimestamp seq := by
    rw [hseq]
    exact h.unanswered x List.mem_cons_self
  obtain ⟨-,hcount,-,hduplicate,hstamps⟩ := haccounted
  rw [if_neg hpos.not_gt] at hduplicate
  obtain ⟨hother,hdistinct⟩ := List.nodup_cons.mp h.distinct
  refine ⟨hduplicate.trans h.noDuplicates,hdistinct,?_,?_⟩
  · intro y hy
    have hne : y.seq ≠ seq := by
      rw [hseq]
      intro heq
      exact hother (heq ▸ List.mem_map_of_mem hy)
    rw [hstamps,Function.update_of_ne hne]
    exact h.unanswered y (List.mem_cons_of_mem x hy)
  · intro k hk hlt
    rw [hcount] at hk
    have hunused := h.unused k hk hlt
    have hne : htons (UInt16.ofNat (k + 1)) ≠ seq := by
      intro heq
      rw [← heq,hunused] at hpos
      exact hpos.false
    rw [hstamps,Function.update_of_ne hne,hunused]

theorem used_accounted (haccounted : ping.Accounted seq next) (hused : ping.sendTimestamp seq ≠ 0)
    (hx : ping.sendTimestamp x.seq ≠ 0) : next.sendTimestamp x.seq ≠ 0 := by
  rw [haccounted.stamps]
  by_cases hseq : x.seq = seq
  · rw [hseq,Function.update_self]
    split_ifs
    · exact hused
    · exact neg_ne_zero.mpr hused
  · rw [Function.update_of_ne hseq]
    exact hx

end Answers

section Delivery
variable {place : Place} {arrived : ℕ} {flights rest : List Flight} {x : Flight}

theorem Conserved.moves (h : Conserved N place n arrived flights) (hperm : (x :: rest).Perm flights) {left : ℕ} {f : Frame}
    (hleft : x.left = left + 1) (hm : Attached N m) (hplace : m.place = n.place) (hping : m.ping = n.ping)
    (hframes : m.frames = rest.map Flight.frame) (hf : Stage N place n.ping.icmpId x.seq left f) :
    Conserved N place { m with frames := m.frames ++ [f] } (arrived + 1) (rest ++ [⟨f,x.seq,left⟩]) := by
  have hmem : ∀ y ∈ x :: rest, y ∈ flights := fun y hy => hperm.mem_iff.mp hy
  have hx := hmem x List.mem_cons_self
  have hlength : rest.length + 1 = flights.length := hperm.length_eq
  have hsum : x.left + (rest.map Flight.left).sum = (flights.map Flight.left).sum := (hperm.map Flight.left).sum_eq
  refine ⟨hm.framed _,hplace.trans h.stays,?_,?_,?_,?_,?_,?_,?_,?_⟩
  · change m.ping.src = _ ∧ m.ping.dst = _ ∧ m.ping.data.length ≤ _
    rw [hping]
    exact h.source
  · change m.frames ++ [f] = _
    rw [hframes,List.map_append]
    rfl
  · change ∀ y : Flight, y ∈ _ → Stage N place m.ping.icmpId y.seq y.left y.frame
    rw [hping]
    intro y hy
    rcases List.mem_append.mp hy with hy | hy
    · exact h.stages y (hmem y (List.mem_cons_of_mem x hy))
    · rw [List.mem_singleton.mp hy]
      exact hf
  · change ∀ y : Flight, y ∈ _ → m.ping.sendTimestamp y.seq ≠ 0
    rw [hping]
    intro y hy
    rcases List.mem_append.mp hy with hy | hy
    · exact h.used y (hmem y (List.mem_cons_of_mem x hy))
    · rw [List.mem_singleton.mp hy]
      exact h.used x hx
  · change m.ping.count = m.ping.nreceived + _
    rw [hping,List.length_append,List.length_singleton,hlength]
    exact h.count
  · change m.ping.nduplicate ≤ m.ping.nreceived
    rw [hping]
    exact h.duplicates
  · change _ = place.hops * m.ping.count
    rw [hping,List.map_append,List.sum_append,List.length_append,← h.crossings]
    change arrived + 1 + (_ + 1) + (_ + (left + 0)) = arrived + _ + _
    omega
  · change m.ping.count ≤ 65535 → Unrepeated m.ping _
    rw [hping]
    intro hle
    refine (h.unrepeated hle).of_perm ?_
    rw [List.map_append]
    exact (List.perm_append_singleton _ _).trans (hperm.map Flight.seq)

theorem Conserved.answered (h : Conserved N place n arrived flights) (hperm : (x :: rest).Perm flights)
    {p : Packet} {arrival : ℤ} (hleft : x.left = 0) (hm : Attached N m) (hplace : m.place = n.place)
    (haccepts : n.ping.Accepts p) (hseq : p.icmp.sequence = x.seq) (hping : n.ping.push arrival p = some m.ping)
    (hframes : m.frames = rest.map Flight.frame) :
    Conserved N place { m with frames := m.frames ++ [] } (arrived + 1) rest := by
  have hmem : ∀ y ∈ x :: rest, y ∈ flights := fun y hy => hperm.mem_iff.mp hy
  have hlength : rest.length + 1 = flights.length := hperm.length_eq
  have hsum : x.left + (rest.map Flight.left).sum = (flights.map Flight.left).sum := (hperm.map Flight.left).sum_eq
  have hused : n.ping.sendTimestamp p.icmp.sequence ≠ 0 := by
    rw [hseq]
    exact h.used x (hmem x List.mem_cons_self)
  have hcount := h.count
  have haccounted := ICMPPingSource.push_accounted haccepts hused hping
  obtain ⟨hsrc,hdst,hdata,hicmpId⟩ := haccounted.ends
  have hpcount := haccounted.count
  have hreceived := haccounted.received
  refine ⟨hm.framed _,hplace.trans h.stays,?_,?_,?_,?_,?_,?_,?_,?_⟩
  · change m.ping.src = _ ∧ m.ping.dst = _ ∧ m.ping.data.length ≤ _
    rw [hsrc,hdst,hdata]
    exact h.source
  · change m.frames ++ [] = _
    rw [hframes,List.append_nil]
  · change ∀ y : Flight, y ∈ _ → Stage N place m.ping.icmpId y.seq y.left y.frame
    rw [hicmpId]
    exact fun y hy => h.stages y (hmem y (List.mem_cons_of_mem x hy))
  · change ∀ y : Flight, y ∈ _ → m.ping.sendTimestamp y.seq ≠ 0
    exact fun y hy => used_accounted haccounted hused (h.used y (hmem y (List.mem_cons_of_mem x hy)))
  · change m.ping.count = m.ping.nreceived + _
    rw [hpcount,hreceived]
    omega
  · change m.ping.nduplicate ≤ m.ping.nreceived
    have hle := h.duplicates
    rw [haccounted.duplicate,hreceived]
    split_ifs <;> omega
  · change _ = place.hops * m.ping.count
    rw [hpcount,← h.crossings]
    omega
  · change m.ping.count ≤ 65535 → Unrepeated m.ping _
    rw [hpcount]
    exact fun hle => ((h.unrepeated hle).of_perm (hperm.map Flight.seq)).answered haccounted hseq

theorem Conserved.deliver {k : ℕ} (halloc : chance.env.alloc .tunnel = true) (h : Conserved N place n arrived flights)
    (hN : N.Sound) (hroom : n.ping.count ≤ 2147483647) :
    ∃ m fs flights', step N n (.deliver chance k) = some (m,fs) ∧ m.ping.count = n.ping.count ∧
      Conserved N place m (arrived + fs.length) flights' := by
  by_cases hk : k < flights.length
  · set x := flights[k] with hx
    set rest := flights.eraseIdx k with hrest
    have hperm : (x :: rest).Perm flights := List.getElem_cons_eraseIdx_perm hk
    have hlookup : n.frames[k]? = some x.frame := by
      rw [h.frames,List.getElem?_map,List.getElem?_eq_getElem hk]
      rfl
    have hframes : n.frames.eraseIdx k = rest.map Flight.frame := by
      rw [h.frames,List.eraseIdx_map]
    have hstage := h.stages x (List.getElem_mem hk)
    rw [← h.stays] at hstage
    have hping : n.ping.Room := by
      have hcount := h.count
      have hduplicates := h.duplicates
      exact ⟨by omega,by omega⟩
    obtain ⟨m,fs,hrun,hmoved⟩ :=
      arrive_stage (n := { n with frames := n.frames.eraseIdx k }) halloc hping (h.attached.framed _) hN hstage
    have hstep : step N n (.deliver chance k) = some ({ m with frames := m.frames ++ fs },[x.frame]) := by
      rw [step,hlookup]
      dsimp only
      rw [hrun]
      rfl
    generalize hleft : x.left = left at hmoved
    cases hmoved with
    | on m f hm hplace hping hmframes hf =>
      rw [h.stays] at hf
      exact ⟨_,_,_,hstep,congrArg ICMPPingSource.count hping,
        h.moves hperm hleft hm hplace hping (hmframes.trans hframes) hf⟩
    | answered m p arrival hm hplace haccepts hseq hping hmframes =>
      have hused : n.ping.sendTimestamp p.icmp.sequence ≠ 0 := by
        rw [hseq]
        exact h.used x (List.getElem_mem hk)
      exact ⟨_,_,_,hstep,(ICMPPingSource.push_accounted haccepts hused hping).count,
        h.answered hperm hleft hm hplace haccepts hseq hping (hmframes.trans hframes)⟩
  · refine ⟨n,[],flights,?_,rfl,h⟩
    have hnone : n.frames[k]? = none := by
      rw [h.frames,List.getElem?_map,List.getElem?_eq_none (Nat.le_of_not_lt hk)]
      rfl
    rw [step,hnone]

end Delivery

def Event.Timely : Event → Prop
  | .timer _ now => 0 < now
  | .deliver _ _ => True

/-- If the packet that arrives enters the tunnel, there is memory for the packet around it. -/
def Event.Allocates : Event → Prop
  | .timer _ _ => True
  | .deliver chance _ => chance.env.alloc .tunnel = true

def Event.isTimer : Event → Bool
  | .timer _ _ => true
  | .deliver _ _ => false

theorem Conserved.step {place : Place} {arrived : ℕ} {flights : List Flight} (h : Conserved N place n arrived flights)
    (hN : N.Sound) {e : Event} (he : e.Timely) (halloc : e.Allocates) {rest : ℕ}
    (hroom : n.ping.count + ((if e.isTimer = true then 1 else 0) + rest) ≤ 2147483647) :
    ∃ m fs flights', Datapath.step N n e = some (m,fs) ∧ m.ping.count + rest ≤ 2147483647 ∧
      Conserved N place m (arrived + fs.length) flights' := by
  cases e with
  | timer chance now =>
    change _ + (1 + rest) ≤ _ at hroom
    obtain ⟨m,flights',hstep,hcount,hm⟩ := h.timer chance hN he (by omega)
    exact ⟨m,[],flights',hstep,by omega,hm⟩
  | deliver chance k =>
    change _ + (0 + rest) ≤ _ at hroom
    obtain ⟨m,fs,flights',hstep,hcount,hm⟩ := h.deliver (k := k) halloc hN (by omega)
    exact ⟨m,fs,flights',hstep,by omega,hm⟩

theorem Conserved.run {place : Place} {arrived : ℕ} {flights : List Flight} (h : Conserved N place n arrived flights)
    (hN : N.Sound) {events : List Event} (htimes : ∀ e ∈ events, e.Timely) (halloc : ∀ e ∈ events, e.Allocates)
    (hroom : n.ping.count + events.countP Event.isTimer ≤ 2147483647) :
    ∃ m out flights', run (Datapath.step N) n events = some (m,out) ∧
      Conserved N place m (arrived + out.length) flights' := by
  induction events generalizing n arrived flights with
  | nil => exact ⟨n,[],flights,rfl,h⟩
  | cons e es ih =>
    rw [List.countP_cons,Nat.add_comm (es.countP _)] at hroom
    obtain ⟨m,fs,flights',hstep,hleft,hm⟩ :=
      h.step hN (htimes e List.mem_cons_self) (halloc e List.mem_cons_self) hroom
    obtain ⟨u,out,flights'',hrun,hu⟩ := ih hm (fun e' he' => htimes e' (List.mem_cons_of_mem e he'))
      (fun e' he' => halloc e' (List.mem_cons_of_mem e he')) hleft
    refine ⟨u,fs ++ out,flights'',run_cons_eq_some.mpr ⟨m,fs,out,hstep,hrun,rfl⟩,?_⟩
    rw [List.length_append,← Nat.add_assoc]
    exact hu

def binding : HARegistrationEntry where
  mobileNodeHomadress := htonl 0xc0a80201
  mobileNodeCoa := htonl 0xc0a80003
  lifetime := 25
  id1 := 3
  id2 := 4

/-- The node visits: the home agent has its binding, the foreign agent has it in its list. -/
def visiting (cn mn ha fa : LinearIPLookup) : Net where
  place := .visiting
  cn := { rt := cn }
  ping := .configure (htonl 0xc0a80001) (htonl 0xc0a80201) (-1) 0 (List.replicate 56 0)
  mn :=
    { rt := mn
      node := { MobileNode.configure (htonl 0xc0a80201) (htonl 0xc0a802fe) (htonl 0xc0a80002) with
        currPrivateAddr := htonl 0xc0a803fe } }
  ha :=
    { rt := ha
      base := { AgentBase.configure (htonl 0xc0a80002) (htonl 0xc0a802fe) 25 with
        table := Function.update (fun _ => none) (htonl 0xc0a80201) (some binding) } }
  fa :=
    { rt := fa
      base := { AgentBase.configure (htonl 0xc0a80003) (htonl 0xc0a803fe) 25 with
        visitorMap := [{ ipSrc := htonl 0xc0a80201, ipDst := htonl 0xc0a803fe, udpSrc := 1001, udpDst := 434,
                         homeAgent := htonl 0xc0a80002, id1 := 3, id2 := 4, lifetimeReq := 25, lifetimeRem := 25 }] } }

end Runs

end ClickMobileIP.Datapath
