import ClickMobileIP.Agent.RelayedChecksums

/-! # Rewriting IP headers in place

The forwarding path of a router changes single members of a header and leaves the options
and the payload behind it alone. `ClickIp.words` is the sum of the sixteen-bit words of the
fixed header without the checksum, so each change is an equation between two such sums and
a header verifies exactly if words, options and checksum add up to a multiple of `0xffff`.
-/
namespace ClickMobileIP
open ByteLayout OnesComplement

def ClickIp.words (iph : ClickIp) : ℕ :=
  iph.ipHl.toNat + 16 * iph.ipV.toNat + 256 * iph.ipTos.toNat + iph.ipLen.toNat + iph.ipId.toNat +
    iph.ipOff.toNat + (iph.ipTtl.toNat + 256 * iph.ipP.toNat) +
    (iph.ipSrc.toNat % 65536 + iph.ipSrc.toNat / 65536) + (iph.ipDst.toNat % 65536 + iph.ipDst.toNat / 65536)

theorem sumWords_u32 (a : UInt32) : sumWords (Layout.u32.write a) = a.toNat % 65536 + a.toNat / 65536 := by
  have ha := a.toNat_lt
  have hwrite : Layout.u32.write a =
      Layout.u16.write (UInt16.ofNat (a.toNat % 65536)) ++ Layout.u16.write (UInt16.ofNat (a.toNat / 65536)) := rfl
  rw [hwrite,sumWords_append _ ⟨1,rfl⟩,sumWords_u16,sumWords_u16,UInt16.toNat_ofNat',UInt16.toNat_ofNat']
  omega

theorem ClickIp.sumWords_write (iph : ClickIp) :
    sumWords (ClickIp.layout.write iph) = iph.words + iph.ipSum.toNat := by
  have hhl := iph.ipHl.isLt
  have hv := iph.ipV.isLt
  have hfront : sumWords iph.front = iph.ipHl.toNat + 16 * iph.ipV.toNat + 256 * iph.ipTos.toNat +
      iph.ipLen.toNat + iph.ipId.toNat + iph.ipOff.toNat + (iph.ipTtl.toNat + 256 * iph.ipP.toNat) := by
    have hbyte : (UInt8.ofNat (iph.ipHl.toNat + 16 * iph.ipV.toNat)).toNat =
        iph.ipHl.toNat + 16 * iph.ipV.toNat := by
      rw [UInt8.toNat_ofNat']
      omega
    have hsplit : iph.front = [UInt8.ofNat (iph.ipHl.toNat + 16 * iph.ipV.toNat),iph.ipTos] ++
        (Layout.u16.write iph.ipLen ++ (Layout.u16.write iph.ipId ++ (Layout.u16.write iph.ipOff ++
          [iph.ipTtl,iph.ipP]))) := rfl
    rw [hsplit,sumWords_append _ ⟨1,rfl⟩,sumWords_append _ ⟨1,rfl⟩,sumWords_append _ ⟨1,rfl⟩,
      sumWords_append _ ⟨1,rfl⟩,sumWords_u16,sumWords_u16,sumWords_u16]
    simp only [sumWords,hbyte]
    omega
  rw [ClickIp.write_eq,sumWords_append _ ⟨5,iph.length_front⟩,sumWords_append _ ⟨1,rfl⟩,sumWords_u16,
    sumWords_append _ ⟨2,rfl⟩,sumWords_u32,sumWords_u32,hfront,ClickIp.words]
  omega

def ClickIp.withSum (iph : ClickIp) (w : UInt16) : ClickIp := { iph with ipSum := w }

@[simp] theorem ClickIp.words_withSum (iph : ClickIp) (w : UInt16) : (iph.withSum w).words = iph.words := rfl

theorem ClickIp.words_pos {iph : ClickIp} (hv : iph.ipV = 4) : 0 < iph.words := by
  have hversion : iph.ipV.toNat = 4 := by rw [hv]; rfl
  rw [ClickIp.words,hversion]
  omega

namespace Packet
variable {p : Packet} {iph : ClickIp}

/-- Another fixed header in front of the same options and payload. -/
def setIp (p : Packet) (iph : ClickIp) : Packet := { p with data := ClickIp.layout.write iph ++ p.data.drop 20 }

/-- A version 4 header that announces at least its fixed part. -/
structure WellHeaded (p : Packet) : Prop where
  fixed : 20 ≤ p.length
  version : p.ip.ipV = 4
  header : 20 ≤ p.headerLength

def options (p : Packet) : List UInt8 := (p.data.drop 20).take (p.headerLength - 20)

@[simp] theorem ip_setIp (p : Packet) (iph : ClickIp) : (p.setIp iph).ip = iph := ClickIp.layout.read_write _ _

@[simp] theorem dstIpAnno_setIp (p : Packet) (iph : ClickIp) : (p.setIp iph).dstIpAnno = p.dstIpAnno := rfl

@[simp] theorem drop_setIp (p : Packet) (iph : ClickIp) : (p.setIp iph).data.drop 20 = p.data.drop 20 :=
  ClickIp.layout.drop_write_append _ _

theorem length_setIp (h : 20 ≤ p.length) : (p.setIp iph).length = p.length := by
  have hdrop : (p.data.drop 20).length = p.length - 20 := List.length_drop
  simp only [setIp,length,List.length_append,Layout.length_write,size_click_ip]
  rw [hdrop]
  change 20 + (p.length - 20) = p.length
  omega

theorem setIp_setIp (p : Packet) (iph jph : ClickIp) : (p.setIp iph).setIp jph = p.setIp jph := by
  rw [setIp,drop_setIp]
  rfl

theorem headerLength_setIp (h : iph.ipHl = p.ip.ipHl) : (p.setIp iph).headerLength = p.headerLength := by
  rw [headerLength,ip_setIp,h,headerLength]

theorem WellHeaded.setIp (h : p.WellHeaded) (hhl : iph.ipHl = p.ip.ipHl) (hv : iph.ipV = p.ip.ipV) :
    (p.setIp iph).WellHeaded where
  fixed := (length_setIp h.fixed).symm ▸ h.fixed
  version := by rw [ip_setIp,hv,h.version]
  header := (headerLength_setIp hhl).symm ▸ h.header

theorem options_setIp (h : iph.ipHl = p.ip.ipHl) : (p.setIp iph).options = p.options := by
  rw [options,drop_setIp,headerLength_setIp h,options]

theorem drop_setIp_of_le {n : ℕ} (hn : 20 ≤ n) : (p.setIp iph).data.drop n = p.data.drop n := by
  have hsplit : n = 20 + (n - 20) := by omega
  rw [hsplit,← List.drop_drop,← List.drop_drop,drop_setIp]

theorem datagram_setIp (h : iph.ipHl = p.ip.ipHl) (hh : 20 ≤ p.headerLength) :
    (p.setIp iph).datagram = p.datagram := by
  rw [datagram,headerLength_setIp h,drop_setIp_of_le hh,datagram]

theorem headerLength_le (p : Packet) : p.headerLength ≤ 60 := by
  have hlt := p.ip.ipHl.isLt
  rw [headerLength]
  omega

theorem take_headerLength (h : p.WellHeaded) :
    p.data.take p.headerLength = ClickIp.layout.write p.ip ++ p.options := by
  have hdata : ClickIp.layout.write p.ip ++ p.data.drop 20 = p.data := ClickIp.layout.write_append_drop h.fixed
  conv_lhs => rw [← hdata]
  rw [List.take_append,List.take_of_length_le (by rw [Layout.length_write,size_click_ip]; exact h.header),
    Layout.length_write,size_click_ip,options]

theorem sumWords_header (h : p.WellHeaded) :
    sumWords (p.data.take p.headerLength) = p.ip.words + p.ip.ipSum.toNat + sumWords p.options := by
  rw [take_headerLength h,sumWords_append _ ⟨10,Layout.length_write ..⟩,ClickIp.sumWords_write]

theorem sumWords_header_lt (p : Packet) : sumWords (p.data.take p.headerLength) + 65535 < 2 ^ 32 := by
  have hbound := sumWords_lt (p.data.take p.headerLength)
  have hle := p.headerLength_le
  have htake : (p.data.take p.headerLength).length ≤ p.headerLength := List.length_take_le _ _
  omega

/-- What a receiver's test of a header with options comes to. -/
theorem headerVerifies_iff (h : p.WellHeaded) :
    p.HeaderVerifies ↔ (p.ip.words + sumWords p.options + p.ip.ipSum.toNat) % 65535 = 0 := by
  have hsum := sumWords_header h
  have hlt := sumWords_header_lt p
  have hpos := ClickIp.words_pos h.version
  rw [HeaderVerifies,clickInCksum_eq_zero (by omega) (by omega),hsum,Nat.add_right_comm]

/-- `ip_sum = 0; ip_sum = click_in_cksum(ip,hlen)`. -/
def reseal (p : Packet) : Packet :=
  p.setIp (p.ip.withSum (clickInCksum ((p.setIp (p.ip.withSum 0)).data.take p.headerLength)))

theorem reseal_eq (p : Packet) : p.reseal = p.setIp (p.ip.withSum p.reseal.ip.ipSum) := by
  simp only [reseal,ip_setIp,ClickIp.withSum]

theorem ip_reseal (p : Packet) : p.reseal.ip = p.ip.withSum p.reseal.ip.ipSum := by
  conv_lhs => rw [reseal_eq,ip_setIp]

@[simp] theorem headerLength_reseal (p : Packet) : p.reseal.headerLength = p.headerLength := headerLength_setIp rfl

@[simp] theorem options_reseal (p : Packet) : p.reseal.options = p.options := options_setIp rfl

theorem length_reseal (h : 20 ≤ p.length) : p.reseal.length = p.length := length_setIp h

theorem datagram_reseal (h : 20 ≤ p.headerLength) : p.reseal.datagram = p.datagram := datagram_setIp rfl h

theorem WellHeaded.reseal (h : p.WellHeaded) : p.reseal.WellHeaded := h.setIp rfl rfl

theorem sumWords_blank (h : p.WellHeaded) :
    sumWords ((p.setIp (p.ip.withSum 0)).data.take p.headerLength) = p.ip.words + sumWords p.options := by
  have hblank : (p.setIp (p.ip.withSum 0)).WellHeaded := h.setIp rfl rfl
  have hhead : (p.setIp (p.ip.withSum 0)).headerLength = p.headerLength := headerLength_setIp rfl
  have hoptions : (p.setIp (p.ip.withSum 0)).options = p.options := options_setIp rfl
  have hsum := sumWords_header hblank
  rw [hhead,ip_setIp,hoptions] at hsum
  exact hsum

/-- The stored word completes the header's sum, and is never `0xffff`. -/
theorem ipSum_reseal (h : p.WellHeaded) :
    (p.ip.words + sumWords p.options + p.reseal.ip.ipSum.toNat) % 65535 = 0 ∧
      p.reseal.ip.ipSum.toNat < 65535 := by
  have hlt := sumWords_header_lt p
  rw [sumWords_header h] at hlt
  have hpos := ClickIp.words_pos h.version
  have hblank := sumWords_blank h
  have hword : p.reseal.ip.ipSum = clickInCksum ((p.setIp (p.ip.withSum 0)).data.take p.headerLength) := by
    rw [Packet.reseal,ip_setIp]
    rfl
  have hle := fold_le (p.ip.words + sumWords p.options)
  have hmod := fold_mod (s := p.ip.words + sumWords p.options) (by omega)
  have hfold := fold_pos (s := p.ip.words + sumWords p.options) (by omega) (by omega)
  rw [hword,clickInCksum_toNat (by omega),hblank]
  omega

theorem headerVerifies_reseal (h : p.WellHeaded) : p.reseal.HeaderVerifies := by
  have hwords : p.reseal.ip.words = p.ip.words := by rw [ip_reseal,ClickIp.words_withSum]
  rw [headerVerifies_iff h.reseal,hwords,options_reseal]
  exact (ipSum_reseal h).1

/-- Any other update of the checksum that verifies and avoids `0xffff` stores the same word. -/
theorem reseal_unique (h : p.WellHeaded) {w : UInt16}
    (hw : (p.ip.words + sumWords p.options + w.toNat) % 65535 = 0) (htop : w.toNat < 65535) :
    p.reseal = p.setIp (p.ip.withSum w) := by
  obtain ⟨hmod,hlt⟩ := ipSum_reseal h
  have heq : p.reseal.ip.ipSum = w := UInt16.toNat_inj.mp (completion_unique hlt htop hmod hw)
  rw [reseal_eq,heq]

section Truncated
variable {n : ℕ}

theorem take_eq (hn : n ≤ p.length) : p.take (p.length - n) = { p with data := p.data.take n } := by
  have hcut : p.length - (p.length - n) = n := by omega
  rw [Packet.take,hcut]

theorem length_truncated (hn : n ≤ p.length) : ({ p with data := p.data.take n } : Packet).length = n := by
  rw [Packet.length,List.length_take]
  exact Nat.min_eq_left hn

theorem ip_truncated (h : p.WellHeaded) (hn : p.headerLength ≤ n) :
    ({ p with data := p.data.take n } : Packet).ip = p.ip :=
  Layout.read_take _ h.fixed (h.header.trans hn)

theorem headerLength_truncated (h : p.WellHeaded) (hn : p.headerLength ≤ n) :
    ({ p with data := p.data.take n } : Packet).headerLength = p.headerLength := by
  rw [headerLength,ip_truncated h hn,headerLength]

theorem WellHeaded.truncated (h : p.WellHeaded) (hn : p.headerLength ≤ n) (hlen : n ≤ p.length) :
    ({ p with data := p.data.take n } : Packet).WellHeaded where
  fixed := by
    rw [length_truncated hlen]
    exact h.header.trans hn
  version := by rw [ip_truncated h hn,h.version]
  header := by
    rw [headerLength_truncated h hn]
    exact h.header

theorem headerVerifies_truncated (h : p.WellHeaded) (hn : p.headerLength ≤ n) :
    ({ p with data := p.data.take n } : Packet).HeaderVerifies ↔ p.HeaderVerifies := by
  rw [HeaderVerifies,headerLength_truncated h hn,List.take_take,Nat.min_eq_left hn,HeaderVerifies]

theorem datagram_truncated (h : p.WellHeaded) (hn : p.headerLength ≤ n) :
    ({ p with data := p.data.take n } : Packet).datagram = p.datagram.take (n - p.headerLength) := by
  rw [datagram,headerLength_truncated h hn,datagram,List.drop_take]

end Truncated

theorem length_datagram (p : Packet) : p.datagram.length = p.length - p.headerLength := List.length_drop

theorem length_options (h : p.WellHeaded) (hroom : p.headerLength ≤ p.length) :
    p.options.length = p.headerLength - 20 := by
  have hheader := h.header
  have hdrop : (p.data.drop 20).length = p.length - 20 := List.length_drop
  rw [options,List.length_take,hdrop]
  omega

section Assembled
variable (iph : ClickIp) (opts payload : List UInt8) (anno : IPAddress)

/-- A packet put together from its parts, with options as long as the header says. -/
def assemble : Packet := ⟨ClickIp.layout.write iph ++ (opts ++ payload),anno⟩

@[simp] theorem ip_assemble : (assemble iph opts payload anno).ip = iph := ClickIp.layout.read_write _ _

theorem length_assemble : (assemble iph opts payload anno).length = 20 + opts.length + payload.length := by
  simp only [assemble,Packet.length,List.length_append,Layout.length_write,size_click_ip]
  omega

variable {iph opts}

theorem headerLength_assemble (h : 4 * iph.ipHl.toNat = 20 + opts.length) :
    (assemble iph opts payload anno).headerLength = 20 + opts.length := by
  rw [headerLength,ip_assemble,h]

theorem WellHeaded.assemble (h : 4 * iph.ipHl.toNat = 20 + opts.length) (hv : iph.ipV = 4) :
    (Packet.assemble iph opts payload anno).WellHeaded where
  fixed := by
    rw [length_assemble]
    omega
  version := by rw [ip_assemble,hv]
  header := by
    rw [headerLength_assemble payload anno h]
    omega

theorem datagram_assemble (h : 4 * iph.ipHl.toNat = 20 + opts.length) :
    (assemble iph opts payload anno).datagram = payload := by
  rw [datagram,headerLength_assemble payload anno h,assemble,← List.append_assoc]
  exact List.drop_left' (by simp)

theorem options_assemble (h : 4 * iph.ipHl.toNat = 20 + opts.length) :
    (assemble iph opts payload anno).options = opts := by
  have hdrop : (assemble iph opts payload anno).data.drop 20 = opts ++ payload :=
    ClickIp.layout.drop_write_append _ _
  rw [options,headerLength_assemble payload anno h,hdrop]
  exact List.take_left' (by omega)

end Assembled

/-- What `CheckIPHeader` makes sure of and every later element relies on. -/
structure Valid (p : Packet) : Prop where
  headed : p.WellHeaded
  room : p.headerLength ≤ p.length
  announced : (ntohs p.ip.ipLen).toNat = p.length
  verifies : p.HeaderVerifies

theorem Valid.length_le (h : p.Valid) : p.length ≤ 65535 := by
  have hlt := (ntohs p.ip.ipLen).toNat_lt
  rw [h.announced] at hlt
  omega

theorem ip_anno (p : Packet) (a : IPAddress) : ({ p with dstIpAnno := a } : Packet).ip = p.ip := rfl

theorem datagram_anno (p : Packet) (a : IPAddress) : ({ p with dstIpAnno := a } : Packet).datagram = p.datagram := rfl

theorem Valid.anno (h : p.Valid) (a : IPAddress) : ({ p with dstIpAnno := a } : Packet).Valid :=
  ⟨⟨h.headed.fixed,h.headed.version,h.headed.header⟩,h.room,h.announced,h.verifies⟩

theorem Valid.truncated (h : p.WellHeaded) (hn : p.headerLength ≤ (ntohs p.ip.ipLen).toNat)
    (hle : (ntohs p.ip.ipLen).toNat ≤ p.length) (hverifies : p.HeaderVerifies) :
    ({ p with data := p.data.take (ntohs p.ip.ipLen).toNat } : Packet).Valid where
  headed := h.truncated hn hle
  room := by
    rw [headerLength_truncated h hn,length_truncated hle]
    exact hn
  announced := by rw [ip_truncated h hn,length_truncated hle]
  verifies := (headerVerifies_truncated h hn).mpr hverifies

theorem length_setIp_reseal (h : 20 ≤ p.length) : (p.setIp iph).reseal.length = p.length := by
  have hlen : (p.setIp iph).length = p.length := length_setIp h
  rw [length_reseal (hlen ▸ h),hlen]

section Resealed
variable (hhl : iph.ipHl = p.ip.ipHl)
include hhl

theorem datagram_setIp_reseal (h : 20 ≤ p.headerLength) : (p.setIp iph).reseal.datagram = p.datagram := by
  have hhead := headerLength_setIp hhl
  rw [datagram_reseal (hhead ▸ h),datagram_setIp hhl h]

theorem options_setIp_reseal : (p.setIp iph).reseal.options = p.options := by
  rw [options_reseal,options_setIp hhl]

/-- Members that neither concern the version nor a length may change if the header is sealed anew. -/
theorem Valid.setIp_reseal (h : p.Valid) (hv : iph.ipV = p.ip.ipV) (hlen : iph.ipLen = p.ip.ipLen) :
    (p.setIp iph).reseal.Valid where
  headed := (h.headed.setIp hhl hv).reseal
  room := by
    rw [headerLength_reseal,headerLength_setIp hhl,length_setIp_reseal h.headed.fixed]
    exact h.room
  announced := by
    rw [ip_reseal,length_setIp_reseal h.headed.fixed,ip_setIp]
    change (ntohs iph.ipLen).toNat = p.length
    rw [hlen,h.announced]
  verifies := headerVerifies_reseal (h.headed.setIp hhl hv)

end Resealed

/-- A packet put together with a header that announces its parts, and sealed. -/
theorem Valid.assemble_reseal {opts payload : List UInt8} {anno : IPAddress} (hhl : 4 * iph.ipHl.toNat = 20 + opts.length)
    (hv : iph.ipV = 4) (hlen : (ntohs iph.ipLen).toNat = 20 + opts.length + payload.length) :
    (assemble iph opts payload anno).reseal.Valid := by
  have hheaded : (assemble iph opts payload anno).WellHeaded := WellHeaded.assemble payload anno hhl hv
  have hlength : (assemble iph opts payload anno).reseal.length = 20 + opts.length + payload.length := by
    rw [length_reseal hheaded.fixed,length_assemble]
  refine ⟨hheaded.reseal,?_,?_,headerVerifies_reseal hheaded⟩
  · rw [headerLength_reseal,headerLength_assemble _ _ hhl,hlength]
    omega
  · rw [ip_reseal,ip_assemble,hlength]
    exact hlen

theorem ip_setIp_reseal (p : Packet) (iph : ClickIp) :
    (p.setIp iph).reseal.ip = iph.withSum (p.setIp iph).reseal.ip.ipSum := by
  conv_lhs => rw [ip_reseal,ip_setIp]

end Packet

namespace CheckIPHeader
variable {p q : Packet}

/-- What passes the check is valid, and is what the header announces of the packet. -/
theorem valid_of_simpleAction (h : CheckIPHeader.simpleAction {} p = some q) :
    q.Valid ∧ q = ⟨p.data.take (ntohs p.ip.ipLen).toNat,p.ip.ipDst⟩ ∧ q.ip = p.ip := by
  unfold simpleAction at h
  dsimp only at h
  split_ifs at h with hshort hversion hheader hlen hsum hsrc
  obtain ⟨hfits,hroom⟩ := not_or.mp hlen
  have hhead : p.WellHeaded := ⟨Nat.not_lt.mp hshort,not_not.mp hversion,Nat.not_lt.mp hheader⟩
  have hn : p.headerLength ≤ (ntohs p.ip.ipLen).toNat := Nat.not_lt.mp hroom
  have hle : (ntohs p.ip.ipLen).toNat ≤ p.length := Nat.not_lt.mp hfits
  have hverifies : p.HeaderVerifies := by
    rw [Packet.HeaderVerifies,Packet.headerLength]
    simpa using hsum
  have hq : q = ⟨p.data.take (ntohs p.ip.ipLen).toNat,p.ip.ipDst⟩ := by
    rw [← Option.some.inj h,Packet.take_eq hle]
  have hvalid := (Packet.Valid.truncated hhead hn hle hverifies).anno p.ip.ipDst
  have hip : q.ip = p.ip := by
    rw [hq]
    exact (Packet.ip_anno _ _).trans (Packet.ip_truncated hhead hn)
  refine ⟨?_,hq,hip⟩
  rw [hq]
  exact hvalid

/-- A valid packet passes as it is. -/
theorem simpleAction_of_valid (h : p.Valid) :
    CheckIPHeader.simpleAction {} p = some { p with dstIpAnno := p.ip.ipDst } := by
  have hfixed := h.headed.fixed
  have hversion := h.headed.version
  have hheader := h.headed.header
  have hroom := h.room
  have hannounced := h.announced
  have hverifies : clickInCksum (p.data.take (4 * p.ip.ipHl.toNat)) = 0 := h.verifies
  rw [Packet.headerLength] at hheader hroom
  have hfull : p.take 0 = p := by simp [Packet.take,Packet.length]
  unfold simpleAction
  dsimp only
  rw [if_neg (by omega),if_neg (not_not.mpr hversion),if_neg (by omega),hannounced,if_neg (by omega),
    if_neg (by simp [hverifies]),if_neg (by simp),Nat.sub_self,hfull]

end CheckIPHeader

end ClickMobileIP
