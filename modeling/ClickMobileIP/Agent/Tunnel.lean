import ClickMobileIP.Agent.Forwarding

/-! # The tunnel between the agents

Encapsulation prepends one header and decapsulation pulls it off again; in between
stands the header check of the receiving agent. The round trip holds for every inner
packet, with or without options, up to the length that the sixteen-bit length field
of the outer header can announce.
-/
namespace ClickMobileIP.Tunnel
open ByteLayout

section Encapsulated
variable (s : AgentBase) (careOff : IPAddress) (p : Packet)

theorem ip_encapsulate : (IpEncapsulation.encapsulate s careOff p).ip =
    sealIp (IpEncapsulation.outerIp s careOff p) :=
  ClickIp.layout.read_write _ _

theorem length_encapsulate : (IpEncapsulation.encapsulate s careOff p).length = 20 + p.length := by
  simp [IpEncapsulation.encapsulate,Packet.length]

theorem drop_encapsulate : (IpEncapsulation.encapsulate s careOff p).data.drop 20 = p.data :=
  ClickIp.layout.drop_write_append _ _

theorem take_encapsulate : (IpEncapsulation.encapsulate s careOff p).data.take 20 =
    ClickIp.layout.write (IpEncapsulation.encapsulate s careOff p).ip := by
  rw [ip_encapsulate]
  exact ClickIp.layout.take_write_append _ _

variable {p}

theorem simpleAction_encapsulate (hlen : p.length ≤ 65515) :
    CheckIPHeader.simpleAction {} (IpEncapsulation.encapsulate s careOff p) =
      some (IpEncapsulation.encapsulate s careOff p) := by
  have hplen := length_encapsulate s careOff p
  have hip := ip_encapsulate s careOff p
  have hann : (ntohs (IpEncapsulation.encapsulate s careOff p).ip.ipLen).toNat = p.length + 20 := by
    rw [hip]
    simp only [sealIp,IpEncapsulation.outerIp,ntohs_htons,UInt16.toNat_ofNat']
    omega
  have hsum : clickInCksum ((IpEncapsulation.encapsulate s careOff p).data.take 20) = 0 := by
    rw [take_encapsulate,hip]
    exact clickInCksum_sealIp _ rfl
  apply CheckIPHeader.simpleAction_self
  · omega
  · rw [hip]
    rfl
  · rw [hip]
    rfl
  · omega
  · exact hsum
  · rw [hip]
    rfl

theorem push_encapsulate {fa : AgentBase} (hlen : 20 ≤ p.length)
    (hv : fa.inMapNode p.ip.ipDst = true) :
    IpDecap.push fa (IpEncapsulation.encapsulate s careOff p) =
      some [⟨1,(IpEncapsulation.encapsulate s careOff p).pull 20⟩] := by
  have hplen := length_encapsulate s careOff p
  have hproto : Layout.u8.load (IpEncapsulation.encapsulate s careOff p).data 9 = some 4 := by
    rw [load_ipP (by omega),ip_encapsulate]
    rfl
  have hinner : Layout.u32.load (IpEncapsulation.encapsulate s careOff p).data 36 =
      some p.ip.ipDst := by
    have hb : 36 + Layout.u32.size ≤ (IpEncapsulation.encapsulate s careOff p).data.length := by
      change 40 ≤ (IpEncapsulation.encapsulate s careOff p).length
      omega
    have hdrop : (IpEncapsulation.encapsulate s careOff p).data.drop 36 = p.data.drop 16 := by
      rw [← drop_encapsulate s careOff p,List.drop_drop]
    rw [Layout.load_eq_some _ hb,hdrop,read_ipDst]
  simp only [IpDecap.push,hproto,hinner,hv,↓reduceIte]

end Encapsulated

/-- A packet for a node without binding leaves unchanged. A packet for a bound node
leaves as one tunnel packet to the care-of address, survives the header check of the
other end, and is handed to a visitor exactly as it came in. -/
theorem tunnel_round_trip (ha : AgentBase) (p : Packet) (hmin : 20 ≤ p.length)
    (hmax : p.length ≤ 65515) :
    (ha.table p.ip.ipDst = none → ∀ alloc, IpEncapsulation.push alloc ha p = some [⟨0,p⟩]) ∧
    ∀ entry, ha.table p.ip.ipDst = some entry →
      ∃ t, IpEncapsulation.push true ha p = some [⟨1,t⟩] ∧
        t.ip.ipDst = entry.mobileNodeCoa ∧ t.dstIpAnno = entry.mobileNodeCoa ∧
        CheckIPHeader.simpleAction {} t = some t ∧
        ∀ fa : AgentBase, fa.inMapNode p.ip.ipDst = true →
          ∃ u, IpDecap.push fa t = some [⟨1,u⟩] ∧ u.data = p.data := by
  have hload := load_ipDst hmin
  constructor
  · intro hnone alloc
    have hhome : ha.isHome p.ip.ipDst = true := by
      simp only [AgentBase.isHome,HashMap.findPair,hnone]
    simp only [IpEncapsulation.push,hload,hhome,↓reduceIte]
  · intro entry hentry
    have hhome : ha.isHome p.ip.ipDst = false := AgentBase.isHome_eq_false.mpr ⟨entry,hentry⟩
    have hcoa : IpEncapsulation.getDesitination ha p.ip.ipDst = some entry.mobileNodeCoa := by
      simp only [IpEncapsulation.getDesitination,HashMap.findPair,hentry,Option.map_some]
    refine ⟨IpEncapsulation.encapsulate ha entry.mobileNodeCoa p,?_,?_,rfl,
      simpleAction_encapsulate ha _ hmax,?_⟩
    · simp only [IpEncapsulation.push,hload,hhome,hcoa,Bool.false_eq_true,Bool.true_eq_false,↓reduceIte]
    · rw [ip_encapsulate]
      rfl
    · intro fa hv
      exact ⟨_,push_encapsulate ha _ hmin hv,drop_encapsulate ha entry.mobileNodeCoa p⟩

def sampleHeader : Packet where
  data := ClickIp.layout.write (sealIp { ipV := 4, ipHl := 5, ipLen := htons 20, ipTtl := 64, ipDst := 9 })
  dstIpAnno := 9

theorem tunnel_round_trip_sample :
    CheckIPHeader.simpleAction {} sampleHeader = some sampleHeader ∧
    ∃ t u, IpEncapsulation.push true
        { AgentBase.configure 1 2 25 with table := fun _ => some ⟨9,7,5,0,0⟩ } sampleHeader =
          some [⟨1,t⟩] ∧ t.dstIpAnno = 7 ∧
      IpDecap.push { AgentBase.configure 7 8 25 with visitorMap := [⟨0,9,8,0,0,1,0,0,5,5⟩] } t =
        some [⟨1,u⟩] ∧ u.data = sampleHeader.data := by
  refine ⟨by decide +kernel,?_⟩
  obtain ⟨t,ht,-,hanno,-,hdecap⟩ := (tunnel_round_trip
    { AgentBase.configure 1 2 25 with table := fun _ => some ⟨9,7,5,0,0⟩ } sampleHeader
    (by decide +kernel) (by decide +kernel)).2 ⟨9,7,5,0,0⟩ rfl
  obtain ⟨u,hu,hdata⟩ := hdecap
    { AgentBase.configure 7 8 25 with visitorMap := [⟨0,9,8,0,0,1,0,0,5,5⟩] } (by decide +kernel)
  exact ⟨t,u,ht,hanno,hu,hdata⟩

end ClickMobileIP.Tunnel
