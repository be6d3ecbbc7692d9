import ClickMobileIP.Router.IpHeader

/-! # Decrementing the time to live

`DecIPTTL` does not sum up the header again: it adds the complement of the difference to
the complement of the stored checksum, in network byte order and with one carry. The update
is compared with the plain one, a decremented header that is sealed anew.
-/
namespace ClickMobileIP
open ByteLayout OnesComplement

def isMulticast (a : IPAddress) : Bool := decide (a &&& htonl 0xf0000000 = htonl 0xe0000000)

def clickUpdateInCksum (csum oldHw newHw : UInt16) : UInt16 :=
  let sum : UInt32 := (~~~csum).toUInt32 + (~~~oldHw).toUInt32 + newHw.toUInt32
  let sum : UInt32 := (sum &&& (0xffff : UInt32)) + (sum >>> 16)
  (~~~(sum + (sum >>> 16))).toUInt16

/-- `click_update_zero_in_cksum`, with the loop over the bytes of its slow path. -/
def clickUpdateZeroInCksum (csum : UInt16) (bytes : List UInt8) : UInt16 :=
  if csum == 0 && bytes.all (fun b => b == 0) then 65535 else csum

theorem clickUpdateInCksum_toNat (csum oldHw newHw : UInt16) :
    (clickUpdateInCksum csum oldHw newHw).toNat = updated csum.toNat oldHw.toNat newHw.toNat := by
  have hc := csum.toNat_lt
  have ho := oldHw.toNat_lt
  have hn := newHw.toNat_lt
  have hlow : ∀ n : UInt32, (n &&& (0xffff : UInt32)).toNat = n.toNat % 65536 := by
    intro n
    rw [UInt32.toNat_and]
    exact Nat.and_two_pow_sub_one_eq_mod n.toNat 16
  have hhigh : ∀ n : UInt32, (n >>> 16).toNat = n.toNat / 65536 := by
    intro n
    rw [UInt32.toNat_shiftRight]
    exact Nat.shiftRight_eq_div_pow n.toNat 16
  have hsum : ((~~~csum).toUInt32 + (~~~oldHw).toUInt32 + newHw.toUInt32).toNat =
      65535 - csum.toNat + (65535 - oldHw.toNat) + newHw.toNat := by
    simp only [UInt32.toNat_add,UInt16.toNat_toUInt32,UInt16.toNat_not,UInt16.size]
    omega
  simp only [clickUpdateInCksum,UInt32.toNat_toUInt16,UInt32.toNat_not,UInt32.size,UInt32.toNat_add,hhigh,hlow] at *
  rw [hsum,updated,fold]
  generalize ht : (65535 - csum.toNat + (65535 - oldHw.toNat) + newHw.toNat) % 65536 +
    (65535 - csum.toNat + (65535 - oldHw.toNat) + newHw.toNat) / 65536 = t
  have hbound : t < 131071 := by omega
  have hcarry : t / 65536 ≤ 1 := by omega
  have ht' : t % 2 ^ 32 = t := Nat.mod_eq_of_lt (by omega)
  rw [ht']
  generalize t / 65536 = c at hcarry ⊢
  omega

def ClickIp.decTtl (iph : ClickIp) : ClickIp := { iph with ipTtl := iph.ipTtl - 1 }

structure DecIPTTL where
  active : Bool := true
  multicast : Bool := true

namespace DecIPTTL
variable {d : DecIPTTL} {p : Packet}

/-- The checksum of a header whose time to live goes down by one. -/
def decremented (ipSum : UInt16) : UInt16 :=
  let sum : UInt64 := (~~~(ntohs ipSum)).toUInt64 + (0xfeff : UInt64)
  ~~~(htons (sum + (sum >>> 16)).toUInt16)

/-- Output 1 is for packets whose time to live has run out. The packet is written to as it is, as one that no other
element shares. -/
def simpleAction (d : DecIPTTL) (p : Packet) : Emission :=
  if d.active = false then ⟨0,p⟩
  else if d.multicast = false ∧ isMulticast p.ip.ipDst = true then ⟨0,p⟩
  else if p.ip.ipTtl ≤ 1 then ⟨1,p⟩
  else ⟨0,p.setIp (p.ip.decTtl.withSum (decremented p.ip.ipSum))⟩

/-- In the byte order of the host the stored word grows by one, with the carry folded in;
all ones are written as zero. -/
theorem decremented_mod (c : UInt16) :
    (decremented c).toNat % 65535 = (c.toNat + 1) % 65535 ∧ (decremented c).toNat < 65535 := by
  have hc := (ntohs c).toNat_lt
  have hshift : ∀ n : UInt64, (n >>> 16).toNat = n.toNat / 65536 := by
    intro n
    rw [UInt64.toNat_shiftRight]
    exact Nat.shiftRight_eq_div_pow n.toNat 16
  have hsum : ((~~~(ntohs c)).toUInt64 + (0xfeff : UInt64)).toNat = 65535 - (ntohs c).toNat + 65279 := by
    rw [UInt64.toNat_add,UInt16.toNat_toUInt64,UInt16.toNat_not,UInt16.size]
    change (65536 - 1 - (ntohs c).toNat + 65279) % 2 ^ 64 = _
    omega
  have hswap : (ntohs c).toNat = c.toNat % 256 * 256 + c.toNat / 256 := htons_toNat c
  have hlt := c.toNat_lt
  have hfold : (((~~~(ntohs c)).toUInt64 + (0xfeff : UInt64)) +
      ((~~~(ntohs c)).toUInt64 + (0xfeff : UInt64)) >>> 16).toUInt16.toNat =
      130814 - (ntohs c).toNat - 65535 * ((130814 - (ntohs c).toNat) / 65536) := by
    have ht : 130814 - (ntohs c).toNat = 65535 - (ntohs c).toNat + 65279 := by omega
    rw [UInt64.toNat_toUInt16,UInt64.toNat_add,hshift,hsum,ht]
    generalize hs : 65535 - (ntohs c).toNat + 65279 = t
    have hcarry : t / 65536 = 0 ∨ t / 65536 = 1 := by omega
    rcases hcarry with hcarry | hcarry <;> rw [hcarry] <;> omega
  rw [decremented,UInt16.toNat_not,UInt16.size,htons_toNat,hfold,hswap]
  rw [hswap] at hc
  omega

/-- The plain way: decrement the member and sum up the whole header again. -/
def plain (p : Packet) : Packet := (p.setIp p.ip.decTtl).reseal

theorem words_decTtl {iph : ClickIp} (h : 1 < iph.ipTtl) : iph.decTtl.words + 1 = iph.words := by
  have hle : (1 : UInt8) ≤ iph.ipTtl := UInt8.le_of_lt h
  have hlt : 1 < iph.ipTtl.toNat := UInt8.lt_iff_toNat_lt.mp h
  have hsub : (iph.ipTtl - 1).toNat = iph.ipTtl.toNat - 1 := UInt8.toNat_sub_of_le _ _ hle
  simp only [ClickIp.words,ClickIp.decTtl,hsub]
  omega

/-- The shortcut stores what the plain way stores. -/
theorem setIp_decremented (h : p.WellHeaded) (hsum : p.HeaderVerifies) (httl : 1 < p.ip.ipTtl) :
    p.setIp (p.ip.decTtl.withSum (decremented p.ip.ipSum)) = plain p := by
  obtain ⟨hmod,htop⟩ := decremented_mod p.ip.ipSum
  have hold := (Packet.headerVerifies_iff h).mp hsum
  have hwords := words_decTtl httl
  have hq : (p.setIp p.ip.decTtl).WellHeaded := h.setIp rfl rfl
  have hoptions : (p.setIp p.ip.decTtl).options = p.options := Packet.options_setIp rfl
  have hnew : ((p.setIp p.ip.decTtl).ip.words + sumWords (p.setIp p.ip.decTtl).options +
      (decremented p.ip.ipSum).toNat) % 65535 = 0 := by
    rw [hoptions,Packet.ip_setIp]
    omega
  rw [plain,Packet.reseal_unique hq hnew htop,Packet.setIp_setIp,Packet.ip_setIp]

theorem simpleAction_default (p : Packet) : simpleAction {} p =
    if p.ip.ipTtl ≤ 1 then ⟨1,p⟩ else ⟨0,p.setIp (p.ip.decTtl.withSum (decremented p.ip.ipSum))⟩ := by
  have hactive : ¬(({} : DecIPTTL).active = false) := by decide
  have hmulticast : ¬(({} : DecIPTTL).multicast = false) := by decide
  unfold simpleAction
  rw [if_neg hactive,if_neg (fun h => hmulticast h.1)]

/-- For every packet with a valid header, options included: one whose time to live has run
out leaves unchanged at output 1, any other leaves at output 0 as if its header had been summed
up again, so that the next receiver's test passes. -/
theorem simpleAction_eq_plain (h : p.WellHeaded) (hsum : p.HeaderVerifies) :
    simpleAction {} p = (if p.ip.ipTtl ≤ 1 then ⟨1,p⟩ else ⟨0,plain p⟩) ∧
      (simpleAction {} p).packet.HeaderVerifies := by
  rw [simpleAction_default]
  by_cases httl : p.ip.ipTtl ≤ 1
  · rw [if_pos httl,if_pos httl]
    exact ⟨rfl,hsum⟩
  · rw [if_neg httl,if_neg httl,setIp_decremented h hsum (UInt8.not_le.mp httl)]
    exact ⟨rfl,Packet.headerVerifies_reseal (h.setIp rfl rfl)⟩

theorem headerLength_plain (p : Packet) : (plain p).headerLength = p.headerLength := by
  rw [Packet.headerLength,plain,Packet.ip_setIp_reseal]
  rfl

theorem plain_valid (hp : p.Valid) : (plain p).Valid ∧ (plain p).length = p.length :=
  ⟨hp.setIp_reseal rfl rfl rfl,Packet.length_setIp_reseal hp.headed.fixed⟩

def sampleHeader : Packet :=
  Packet.reseal ⟨ClickIp.layout.write { ipV := 4, ipHl := 6, ipTtl := 255, ipP := 1, ipSrc := 0xffffffff, ipDst := 7 } ++
    [1,1,1,0],7⟩

theorem simpleAction_eq_plain_sample : simpleAction {} sampleHeader = ⟨0,plain sampleHeader⟩ ∧
    (plain sampleHeader).HeaderVerifies := by
  have hheaded : sampleHeader.WellHeaded := ⟨by decide +kernel,by decide +kernel,by decide +kernel⟩
  obtain ⟨haction,hverifies⟩ := simpleAction_eq_plain hheaded (by decide +kernel)
  rw [if_neg (by decide +kernel)] at haction
  rw [haction] at hverifies
  exact ⟨haction,hverifies⟩

end DecIPTTL
end ClickMobileIP
