import ClickMobileIP.Router.DecIPTTL

/-! # ICMP headers

An ICMP message starts where the IP header ends and is covered by its own checksum
from there to the end of the packet. Unlike an IP header a message may be all zero, an
echo reply for instance, so its checksum can be `0xffff`.
-/
namespace ClickMobileIP
open ByteLayout OnesComplement

/-- `struct click_icmp`. What the last four bytes mean depends on the type: identifier and
sequence number of an echo, gateway, pointer or next MTU of an error. -/
structure ClickIcmp where
  icmpType : UInt8 := 0
  icmpCode : UInt8 := 0
  icmpCksum : UInt16 := 0
  padding : UInt32 := 0
  deriving DecidableEq, Repr

def ClickIcmp.layout : Layout ClickIcmp :=
  (Layout.u8.prod (Layout.u8.prod (Layout.u16.prod Layout.u32))).equiv
    { toFun := fun ⟨type,code,cksum,padding⟩ => ⟨type,code,cksum,padding⟩
      invFun := fun ⟨type,code,cksum,padding⟩ => ⟨type,code,cksum,padding⟩
      left_inv := fun _ => rfl
      right_inv := fun _ => rfl }

@[simp] theorem size_click_icmp : ClickIcmp.layout.size = 8 := rfl

namespace ClickIcmp
variable (icmph : ClickIcmp) (rest : List UInt8)

def firstWord : UInt16 := UInt16.ofNat (icmph.icmpType.toNat + 256 * icmph.icmpCode.toNat)

theorem firstWord_toNat : icmph.firstWord.toNat = icmph.icmpType.toNat + 256 * icmph.icmpCode.toNat := by
  have htype := icmph.icmpType.toNat_lt
  have hcode := icmph.icmpCode.toNat_lt
  rw [firstWord,UInt16.toNat_ofNat']
  omega

def withCksum (w : UInt16) : ClickIcmp := { icmph with icmpCksum := w }

def restWords : ℕ := icmph.padding.toNat % 65536 + icmph.padding.toNat / 65536 + sumWords rest

theorem sumWords_write : sumWords (layout.write icmph ++ rest) =
    icmph.firstWord.toNat + icmph.icmpCksum.toNat + icmph.restWords rest := by
  have hwrite : layout.write icmph ++ rest = [icmph.icmpType,icmph.icmpCode] ++
      (Layout.u16.write icmph.icmpCksum ++ (Layout.u32.write icmph.padding ++ rest)) := rfl
  rw [hwrite,sumWords_append _ ⟨1,rfl⟩,sumWords_append _ ⟨1,rfl⟩,sumWords_append _ ⟨2,rfl⟩,sumWords_u16,
    sumWords_u32,firstWord_toNat,restWords]
  simp only [sumWords]
  omega

/-- `icmp_cksum = 0; icmp_cksum = click_in_cksum(icmph,len)`. -/
def sealed : ClickIcmp := icmph.withCksum (clickInCksum (layout.write (icmph.withCksum 0) ++ rest))

variable {icmph rest}

theorem sumWords_blank : sumWords (layout.write (icmph.withCksum 0) ++ rest) =
    icmph.firstWord.toNat + icmph.restWords rest := by
  rw [sumWords_write]
  rfl

theorem restWords_le (hlen : rest.length ≤ 65535) : icmph.restWords rest ≤ 65535 * 32771 := by
  have hrest := sumWords_lt rest
  have hpadding := icmph.padding.toNat_lt
  rw [restWords]
  omega

def words (icmph : ClickIcmp) (rest : List UInt8) : ℕ := icmph.firstWord.toNat + icmph.restWords rest

theorem words_lt (hlen : rest.length ≤ 65535) : icmph.words rest + 65535 < 2 ^ 32 := by
  have hle : icmph.restWords rest ≤ 65535 * 32771 := restWords_le hlen
  have hfirst := icmph.firstWord.toNat_lt
  rw [words]
  omega

theorem cksum_sealed (hlen : rest.length ≤ 65535) :
    (icmph.sealed rest).icmpCksum.toNat = 65535 - fold (icmph.words rest) := by
  have hlt : icmph.words rest + 65535 < 2 ^ 32 := words_lt hlen
  have hword : (icmph.sealed rest).icmpCksum = clickInCksum (layout.write (icmph.withCksum 0) ++ rest) := rfl
  have hblank : sumWords (layout.write (icmph.withCksum 0) ++ rest) = icmph.words rest := sumWords_blank
  rw [hword,clickInCksum_toNat (by omega),hblank]

theorem sumWords_message (w : UInt16) :
    sumWords (layout.write (icmph.withCksum w) ++ rest) = icmph.words rest + w.toNat := by
  rw [sumWords_write,words]
  exact Nat.add_right_comm _ _ _

/-- A message that carries its own checksum verifies, an all-zero one included. -/
theorem clickInCksum_sealed (hlen : rest.length ≤ 65535) :
    clickInCksum (layout.write (icmph.sealed rest) ++ rest) = 0 := by
  have hlt : icmph.words rest + 65535 < 2 ^ 32 := words_lt hlen
  have hall : sumWords (layout.write (icmph.sealed rest) ++ rest) =
      icmph.words rest + (65535 - fold (icmph.words rest)) := by
    rw [← cksum_sealed hlen]
    exact sumWords_message _
  have hle := fold_le (icmph.words rest)
  have htop : fold (icmph.words rest + (65535 - fold (icmph.words rest))) = 65535 := by
    rcases Nat.eq_zero_or_pos (icmph.words rest) with hzero | hpos
    · rw [hzero]
      rfl
    · exact fold_add_complement hlt hpos
  apply UInt16.toNat_inj.mp
  rw [clickInCksum_toNat (by omega),hall,htop]
  rfl

theorem words_of_verifies (hlen : rest.length ≤ 65535) (h : clickInCksum (layout.write icmph ++ rest) = 0) :
    (icmph.words rest + icmph.icmpCksum.toNat) % 65535 = 0 := by
  have hlt : icmph.words rest + 65535 < 2 ^ 32 := words_lt hlen
  have hcksum := icmph.icmpCksum.toNat_lt
  have hall : sumWords (layout.write icmph ++ rest) = icmph.words rest + icmph.icmpCksum.toNat :=
    sumWords_message icmph.icmpCksum
  have hzero : (clickInCksum (layout.write icmph ++ rest)).toNat = 0 := by
    rw [h]
    rfl
  rw [clickInCksum_toNat (by omega),hall] at hzero
  have hle := fold_le (icmph.words rest + icmph.icmpCksum.toNat)
  have hmod := fold_mod (s := icmph.words rest + icmph.icmpCksum.toNat) (by omega)
  omega

/-- The word that completes the sum, `0xffff` only for a message of zeros, is the checksum. -/
theorem sealed_unique (hlen : rest.length ≤ 65535) {w : UInt16}
    (hw : (icmph.words rest + w.toNat) % 65535 = 0) (htop : w.toNat = 65535 ↔ icmph.words rest = 0) :
    icmph.sealed rest = icmph.withCksum w := by
  have hlt : icmph.words rest + 65535 < 2 ^ 32 := words_lt hlen
  have hwlt := w.toNat_lt
  have hle := fold_le (icmph.words rest)
  have hmod := fold_mod (s := icmph.words rest) (by omega)
  have hcksum : (icmph.sealed rest).icmpCksum = w := by
    apply UInt16.toNat_inj.mp
    rw [cksum_sealed hlen]
    rcases Nat.eq_zero_or_pos (icmph.words rest) with hzero | hpos
    · rw [htop.mpr hzero,hzero]
      rfl
    · have hfold := fold_pos (s := icmph.words rest) (by omega) hpos
      omega
  rw [← hcksum]
  rfl

end ClickIcmp

namespace Packet

def icmp (p : Packet) : ClickIcmp := ClickIcmp.layout.read p.datagram

/-- What `CheckICMPHeader` tests: the checksum over the whole message. -/
def IcmpVerifies (p : Packet) : Prop := clickInCksum p.datagram = 0

instance (p : Packet) : Decidable p.IcmpVerifies := inferInstanceAs (Decidable (_ = _))

/-- Another ICMP header behind the same IP header and in front of the same data. -/
def setIcmp (p : Packet) (icmph : ClickIcmp) : Packet :=
  { p with data := p.data.take p.headerLength ++ (ClickIcmp.layout.write icmph ++ p.datagram.drop 8) }

section SetIcmp
variable {p : Packet} {icmph : ClickIcmp}

theorem datagram_eq (h : 8 ≤ p.datagram.length) :
    p.datagram = ClickIcmp.layout.write p.icmp ++ p.datagram.drop 8 :=
  (ClickIcmp.layout.write_append_drop h).symm

theorem take_setIcmp (hlen : p.headerLength ≤ p.length) :
    (p.setIcmp icmph).data.take p.headerLength = p.data.take p.headerLength := by
  have htake : (p.data.take p.headerLength).length = p.headerLength := by
    rw [List.length_take]
    exact Nat.min_eq_left hlen
  exact List.take_left' htake

theorem ip_setIcmp (h : p.WellHeaded) : (p.setIcmp icmph).ip = p.ip := by
  have htake : 20 ≤ (p.data.take p.headerLength).length := by
    rw [List.length_take]
    exact Nat.le_min.mpr ⟨h.header,h.fixed⟩
  rw [ip,setIcmp,Layout.read_append _ htake]
  exact Layout.read_take _ h.fixed h.header

theorem headerLength_setIcmp (h : p.WellHeaded) : (p.setIcmp icmph).headerLength = p.headerLength := by
  rw [headerLength,ip_setIcmp h,headerLength]

theorem datagram_setIcmp (h : p.WellHeaded) (hlen : p.headerLength ≤ p.length) :
    (p.setIcmp icmph).datagram = ClickIcmp.layout.write icmph ++ p.datagram.drop 8 := by
  have htake : (p.data.take p.headerLength).length = p.headerLength := by
    rw [List.length_take]
    exact Nat.min_eq_left hlen
  rw [datagram,headerLength_setIcmp h,setIcmp]
  exact List.drop_left' htake

theorem headerVerifies_setIcmp (h : p.WellHeaded) (hlen : p.headerLength ≤ p.length) :
    (p.setIcmp icmph).HeaderVerifies ↔ p.HeaderVerifies := by
  rw [HeaderVerifies,headerLength_setIcmp h,take_setIcmp hlen,HeaderVerifies]

theorem length_setIcmp (h : 8 ≤ p.datagram.length) : (p.setIcmp icmph).length = p.length := by
  have hdatagram := p.length_datagram
  simp only [length,setIcmp,List.length_append,List.length_take,Layout.length_write,size_click_icmp,
    List.length_drop] at *
  omega

theorem options_setIcmp (h : p.WellHeaded) (hlen : p.headerLength ≤ p.length) :
    (p.setIcmp icmph).options = p.options := by
  have hoptions : ∀ q : Packet, q.options = (q.data.take q.headerLength).drop 20 := by
    intro q
    rw [options,List.drop_take]
  rw [hoptions,hoptions,headerLength_setIcmp h,take_setIcmp hlen]

theorem Valid.setIcmp (h : p.Valid) (icmph : ClickIcmp) (hlen : 8 ≤ p.datagram.length) : (p.setIcmp icmph).Valid where
  headed := ⟨(length_setIcmp hlen).symm ▸ h.headed.fixed,(ip_setIcmp h.headed).symm ▸ h.headed.version,
    (headerLength_setIcmp h.headed).symm ▸ h.headed.header⟩
  room := by
    rw [headerLength_setIcmp h.headed,length_setIcmp hlen]
    exact h.room
  announced := by
    rw [ip_setIcmp h.headed,length_setIcmp hlen]
    exact h.announced
  verifies := (headerVerifies_setIcmp h.headed h.room).mpr h.verifies

end SetIcmp

end Packet

end ClickMobileIP
