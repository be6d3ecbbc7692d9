import ClickMobileIP.Router.Annotated

/-! # Answering an echo request

The responder turns a request into its reply in place and never sums up a packet: three
incremental updates account for the offset, the time to live and the type, and a last step
puts the one checksum right that such an update cannot produce. The reply is compared with
the plain one, whose two checksums are computed from scratch.
-/
namespace ClickMobileIP
open ByteLayout OnesComplement

/-- `((uint16_t *)iph)[4]`: time to live and protocol. -/
def ClickIp.ttlWord (iph : ClickIp) : UInt16 := UInt16.ofNat (iph.ipTtl.toNat + 256 * iph.ipP.toNat)

theorem ClickIp.ttlWord_toNat (iph : ClickIp) : iph.ttlWord.toNat = iph.ipTtl.toNat + 256 * iph.ipP.toNat := by
  have httl := iph.ipTtl.toNat_lt
  have hproto := iph.ipP.toNat_lt
  rw [ClickIp.ttlWord,UInt16.toNat_ofNat']
  omega

def ClickIp.swapAddresses (iph : ClickIp) : ClickIp := { iph with ipSrc := iph.ipDst, ipDst := iph.ipSrc }

def ClickIp.clearOff (iph : ClickIp) : ClickIp := { iph with ipOff := 0 }

def ClickIp.setTtl (iph : ClickIp) (ttl : UInt8) : ClickIp := { iph with ipTtl := ttl }

def ClickIcmp.setEchoReply (icmph : ClickIcmp) : ClickIcmp := { icmph with icmpType := 0, icmpCode := 0 }

namespace ICMPPingResponder
variable {p : Packet}

/-- The header of the reply: the exchange of the addresses needs no update. -/
def replyIp (iph : ClickIp) : ClickIp :=
  let swapped := iph.swapAddresses
  let cleared := swapped.clearOff.withSum (clickUpdateInCksum swapped.ipSum swapped.ipOff 0)
  (cleared.setTtl 255).withSum (clickUpdateInCksum cleared.ipSum cleared.ttlWord (cleared.setTtl 255).ttlWord)

def replyIcmp (icmph : ClickIcmp) (rest : List UInt8) : ClickIcmp :=
  let updated := icmph.setEchoReply.withCksum
    (clickUpdateInCksum icmph.icmpCksum icmph.firstWord icmph.setEchoReply.firstWord)
  updated.withCksum (clickUpdateZeroInCksum updated.icmpCksum (ClickIcmp.layout.write updated ++ rest))

/-- A request, with `transport_length` at least that of the echo header. -/
def IsEcho (p : Packet) : Prop := 8 ≤ p.datagram.length ∧ p.ip.ipP = 1 ∧ p.icmp.icmpType = 8

instance (p : Packet) : Decidable (IsEcho p) := inferInstanceAs (Decidable (_ ∧ _ ∧ _))

def reply (p : Packet) : Packet :=
  { (p.setIp (replyIp p.ip)).setIcmp (replyIcmp p.icmp (p.datagram.drop 8)) with dstIpAnno := p.ip.ipSrc }

/-- Anything but a request leaves at output 1 or is killed. A request becomes the reply where it is, as a packet
that no other element shares. -/
def simpleAction (noutputs : ℕ) (a : Annotated) : Pushes :=
  if IsEcho a.packet then [(0,{ a with packet := reply a.packet, paint := 0 })]
  else if noutputs = 2 then [(1,a)] else []

/-- The reply of a responder that sums up header and message again. -/
def plainReply (p : Packet) : Packet :=
  { (p.setIp ((p.ip.swapAddresses.clearOff).setTtl 255)).reseal.setIcmp
      (p.icmp.setEchoReply.sealed (p.datagram.drop 8)) with dstIpAnno := p.ip.ipSrc }

theorem words_swapAddresses (iph : ClickIp) : iph.swapAddresses.words = iph.words := by
  simp only [ClickIp.words,ClickIp.swapAddresses]
  omega

/-- Both updates leave a sum that is a multiple of `0xffff`; the second word is not zero, so the
result is the checksum of the plain reply. -/
theorem replyIp_completes {s : ℕ} {iph : ClickIp} (h : (iph.words + s + iph.ipSum.toNat) % 65535 = 0) :
    ((replyIp iph).words + s + (replyIp iph).ipSum.toNat) % 65535 = 0 ∧ (replyIp iph).ipSum.toNat < 65535 := by
  have hsum := iph.ipSum.toNat_lt
  have hoff := iph.ipOff.toNat_lt
  have hword := iph.ttlWord.toNat_lt
  have hproto := iph.ipP.toNat_lt
  have httl := iph.ttlWord_toNat
  have hswap := words_swapAddresses iph
  set c := clickUpdateInCksum iph.ipSum iph.ipOff 0 with hc
  have hfirst : ((iph.words - iph.ipOff.toNat + s) + 0 + c.toNat) % 65535 = 0 := by
    have hle : iph.ipOff.toNat ≤ iph.words := by
      rw [ClickIp.words]
      omega
    rw [hc,clickUpdateInCksum_toNat]
    exact updated_mod (by omega) (by omega) (by decide) (by omega)
  have hclt := c.toNat_lt
  have hnew : ((iph.swapAddresses.clearOff.withSum c).setTtl 255).ttlWord.toNat = 255 + 256 * iph.ipP.toNat :=
    ClickIp.ttlWord_toNat _
  have hold : (iph.swapAddresses.clearOff.withSum c).ttlWord.toNat = iph.ttlWord.toNat := rfl
  have hstored : (replyIp iph).ipSum.toNat = updated c.toNat iph.ttlWord.toNat (255 + 256 * iph.ipP.toNat) := by
    rw [← hnew,← hold,← clickUpdateInCksum_toNat]
    rfl
  have hwords : (replyIp iph).words + iph.ipOff.toNat + iph.ttlWord.toNat = iph.words + (255 + 256 * iph.ipP.toNat) := by
    have hreply : (replyIp iph).words = ((iph.swapAddresses.clearOff).setTtl 255).words := rfl
    rw [hreply,← hswap,httl]
    simp only [ClickIp.words,ClickIp.swapAddresses,ClickIp.clearOff,ClickIp.setTtl]
    change _ + 0 + (255 + _) + _ + _ + _ + _ = _
    omega
  have hle : iph.ipOff.toNat + iph.ttlWord.toNat ≤ iph.words := by
    rw [httl,ClickIp.words]
    omega
  constructor
  · have hmod : (iph.words - iph.ipOff.toNat - iph.ttlWord.toNat + s + (255 + 256 * iph.ipP.toNat) +
        updated c.toNat iph.ttlWord.toNat (255 + 256 * iph.ipP.toNat)) % 65535 = 0 :=
      updated_mod (by omega) (by omega) (by omega) (by omega)
    rw [hstored]
    omega
  · rw [hstored]
    exact updated_lt (by omega) (by omega) (by omega) (.inr (.inr (by omega)))

section Message
variable {icmph : ClickIcmp} {rest : List UInt8}

theorem firstWord_setEchoReply (icmph : ClickIcmp) : icmph.setEchoReply.firstWord = 0 := rfl

theorem words_setEchoReply (icmph : ClickIcmp) (rest : List UInt8) :
    icmph.setEchoReply.words rest = icmph.restWords rest := by
  rw [ClickIcmp.words,firstWord_setEchoReply,UInt16.toNat_zero,Nat.zero_add]
  rfl

theorem all_zero_iff (bytes : List UInt8) : bytes.all (fun b => b == 0) = true ↔ sumWords bytes = 0 := by
  induction bytes using sumWords.induct with
  | case1 a b rest ih =>
    have hzero : ∀ b : UInt8, b = 0 ↔ b.toNat = 0 := fun b => UInt8.toNat_inj.symm
    simp only [List.all_cons,Bool.and_eq_true,beq_iff_eq,ih,sumWords,hzero]
    omega
  | case2 a => simp [sumWords,← UInt8.toNat_inj]
  | case3 => simp [sumWords]

/-- The message of the reply carries the checksum computed from scratch, `0xffff` for zeros. -/
theorem replyIcmp_eq (hlen : rest.length ≤ 65535) (htype : icmph.icmpType = 8)
    (h : clickInCksum (ClickIcmp.layout.write icmph ++ rest) = 0) :
    replyIcmp icmph rest = icmph.setEchoReply.sealed rest := by
  have hverifies := ClickIcmp.words_of_verifies hlen h
  have hfirst : icmph.firstWord.toNat = 8 + 256 * icmph.icmpCode.toNat := by
    rw [ClickIcmp.firstWord_toNat,htype]
    rfl
  have hcode := icmph.icmpCode.toNat_lt
  have hcksum := icmph.icmpCksum.toNat_lt
  have hwords := words_setEchoReply icmph rest
  set w := clickUpdateInCksum icmph.icmpCksum icmph.firstWord icmph.setEchoReply.firstWord with hw
  have hupdate : w.toNat = updated icmph.icmpCksum.toNat icmph.firstWord.toNat 0 := clickUpdateInCksum_toNat _ _ _
  have hmod : (icmph.restWords rest + 0 + w.toNat) % 65535 = 0 := by
    rw [hupdate]
    refine updated_mod (by omega) (by omega) (by decide) ?_
    rw [ClickIcmp.words] at hverifies
    omega
  have hlt : w.toNat < 65535 := by
    rw [hupdate]
    exact updated_lt (by omega) (by omega) (by decide) (.inr (.inl (by omega)))
  have hbytes : sumWords (ClickIcmp.layout.write (icmph.setEchoReply.withCksum w) ++ rest) =
      icmph.restWords rest + w.toNat := by
    rw [ClickIcmp.sumWords_message,hwords]
  have hreply : replyIcmp icmph rest = icmph.setEchoReply.withCksum
      (clickUpdateZeroInCksum w (ClickIcmp.layout.write (icmph.setEchoReply.withCksum w) ++ rest)) := rfl
  rw [hreply,clickUpdateZeroInCksum]
  by_cases hzero : (w == 0 && (ClickIcmp.layout.write (icmph.setEchoReply.withCksum w) ++ rest).all
      (fun b => b == 0)) = true
  · rw [if_pos hzero]
    obtain ⟨hwzero,hall⟩ := Bool.and_eq_true_iff.mp hzero
    have hnone := (all_zero_iff _).mp hall
    refine (ClickIcmp.sealed_unique hlen ?_ ?_).symm
    · change (_ + 65535) % 65535 = 0
      omega
    · change 65535 = 65535 ↔ _
      omega
  · rw [if_neg hzero]
    refine (ClickIcmp.sealed_unique hlen ?_ ?_).symm
    · omega
    · -- an all-zero message would have got its checksum from the other branch
      have hpos : icmph.restWords rest ≠ 0 := by
        intro hnone
        apply hzero
        have hwzero : w = 0 := UInt16.toNat_inj.mp (by change w.toNat = 0; omega)
        rw [Bool.and_eq_true_iff,all_zero_iff,hbytes,hnone,hwzero]
        exact ⟨rfl,rfl⟩
      omega

end Message

theorem setIp_replyIp (hp : p.Valid) :
    (p.setIp ((p.ip.swapAddresses.clearOff).setTtl 255)).reseal = p.setIp (replyIp p.ip) := by
  have h := hp.headed
  obtain ⟨hmod,htop⟩ := replyIp_completes ((Packet.headerVerifies_iff h).mp hp.verifies)
  have hq : (p.setIp ((p.ip.swapAddresses.clearOff).setTtl 255)).WellHeaded := h.setIp rfl rfl
  have hoptions : (p.setIp ((p.ip.swapAddresses.clearOff).setTtl 255)).options = p.options :=
    Packet.options_setIp rfl
  rw [Packet.reseal_unique hq (w := (replyIp p.ip).ipSum) (by rw [hoptions,Packet.ip_setIp]; exact hmod) htop,
    Packet.setIp_setIp,Packet.ip_setIp]
  rfl

theorem reply_eq_plainReply (hp : p.Valid) (hicmp : p.IcmpVerifies) (hecho : IsEcho p) : reply p = plainReply p := by
  obtain ⟨hlen,-,htype⟩ := hecho
  have hmax := hp.length_le
  have hdrop : (p.datagram.drop 8).length ≤ 65535 := by
    rw [List.length_drop,Packet.length_datagram]
    omega
  have hmessage : clickInCksum (ClickIcmp.layout.write p.icmp ++ p.datagram.drop 8) = 0 := by
    rw [← Packet.datagram_eq hlen]
    exact hicmp
  rw [reply,plainReply,setIp_replyIp hp,replyIcmp_eq hdrop htype hmessage]

structure Answers (p q : Packet) : Prop where
  valid : q.Valid
  verifies : q.IcmpVerifies
  ends : q.ip.ipSrc = p.ip.ipDst ∧ q.ip.ipDst = p.ip.ipSrc ∧ q.dstIpAnno = p.ip.ipSrc
  proto : q.ip.ipP = 1
  fresh : q.ip.ipTtl = 255 ∧ q.ip.ipOff = 0
  kind : q.icmp.icmpType = 0 ∧ q.icmp.icmpCode = 0
  padding : q.icmp.padding = p.icmp.padding
  data : q.datagram.drop 8 = p.datagram.drop 8
  length : q.length = p.length
  options : q.options = p.options

theorem plainReply_answers (hp : p.Valid) (hecho : IsEcho p) : Answers p (plainReply p) := by
  obtain ⟨hlen,hproto,-⟩ := hecho
  set q := (p.setIp ((p.ip.swapAddresses.clearOff).setTtl 255)).reseal with hq
  set icmph := p.icmp.setEchoReply.sealed (p.datagram.drop 8) with hicmph
  have hvalid : q.Valid := hp.setIp_reseal rfl rfl rfl
  have hlength : q.length = p.length := Packet.length_setIp_reseal hp.headed.fixed
  have hdatagram : q.datagram = p.datagram := Packet.datagram_setIp_reseal rfl hp.headed.header
  have hqip : q.ip = ((p.ip.swapAddresses.clearOff).setTtl 255).withSum q.ip.ipSum := Packet.ip_setIp_reseal p _
  have hqlen : 8 ≤ q.datagram.length := hdatagram ▸ hlen
  have hsmall : (p.datagram.drop 8).length ≤ 65535 := by
    have hmax := hp.length_le
    rw [List.length_drop,Packet.length_datagram]
    omega
  have hset := hvalid.setIcmp icmph hqlen
  have hrdata : (q.setIcmp icmph).datagram = ClickIcmp.layout.write icmph ++ p.datagram.drop 8 := by
    rw [← hdatagram]
    exact Packet.datagram_setIcmp hvalid.headed hvalid.room
  have hrip : (q.setIcmp icmph).ip = ((p.ip.swapAddresses.clearOff).setTtl 255).withSum q.ip.ipSum := by
    rw [Packet.ip_setIcmp hvalid.headed,← hqip]
  have hricmp : (q.setIcmp icmph).icmp = icmph := by
    rw [Packet.icmp,hrdata,Layout.read_write]
  have hroptions : (q.setIcmp icmph).options = p.options := by
    rw [Packet.options_setIcmp hvalid.headed hvalid.room]
    exact Packet.options_setIp_reseal rfl
  have hrlen : (q.setIcmp icmph).length = p.length := (Packet.length_setIcmp hqlen).trans hlength
  have hreply : plainReply p = { q.setIcmp icmph with dstIpAnno := p.ip.ipSrc } := rfl
  rw [hreply]
  refine ⟨hset.anno _,?_,?_,?_,?_,?_,?_,?_,hrlen,hroptions⟩
  · rw [Packet.IcmpVerifies,Packet.datagram_anno,hrdata]
    exact ClickIcmp.clickInCksum_sealed hsmall
  · rw [Packet.ip_anno,hrip]
    exact ⟨rfl,rfl,rfl⟩
  · rw [Packet.ip_anno,hrip]
    exact hproto
  · rw [Packet.ip_anno,hrip]
    exact ⟨rfl,rfl⟩
  · rw [Packet.icmp,Packet.datagram_anno,← Packet.icmp,hricmp]
    exact ⟨rfl,rfl⟩
  · rw [Packet.icmp,Packet.datagram_anno,← Packet.icmp,hricmp]
    rfl
  · rw [Packet.datagram_anno,hrdata]
    exact ClickIcmp.layout.drop_write_append _ _

/-- Every valid echo request, with whatever options, code and data, is answered by the reply that
a responder summing up header and message again would send, and the sender can tell it is meant:
it passes both of its checks and repeats identifier, sequence number and data. -/
theorem simpleAction_answers (noutputs : ℕ) {a : Annotated} (hp : a.packet.Valid)
    (hicmp : a.packet.IcmpVerifies) (hecho : IsEcho a.packet) :
    simpleAction noutputs a = [(0,{ a with packet := plainReply a.packet, paint := 0 })] ∧
      Answers a.packet (plainReply a.packet) := by
  refine ⟨?_,plainReply_answers hp hecho⟩
  rw [simpleAction,if_pos hecho,reply_eq_plainReply hp hicmp hecho]

/-- A request without data whose reply is a message of zeros. -/
def sampleEcho : Annotated where
  packet := ⟨ClickIp.layout.write (sealIp
    { ipV := 4, ipHl := 5, ipLen := htons 28, ipTtl := 7, ipP := 1, ipOff := 64, ipSrc := 9, ipDst := 3 }) ++
    ClickIcmp.layout.write (({ icmpType := 8 } : ClickIcmp).sealed []),3⟩
  paint := 2

theorem simpleAction_answers_sample :
    ∃ q, simpleAction 1 sampleEcho = [(0,{ packet := q })] ∧ q.icmp.icmpCksum = 65535 ∧ q.IcmpVerifies := by
  have hvalid : sampleEcho.packet.Valid :=
    ⟨⟨by decide +kernel,by decide +kernel,by decide +kernel⟩,by decide +kernel,by decide +kernel,
      by decide +kernel⟩
  have hicmp : sampleEcho.packet.IcmpVerifies := by decide +kernel
  obtain ⟨hpush,hanswers⟩ := simpleAction_answers 1 hvalid hicmp (by decide +kernel)
  exact ⟨_,hpush,by decide +kernel,hanswers.verifies⟩

end ICMPPingResponder
end ClickMobileIP
