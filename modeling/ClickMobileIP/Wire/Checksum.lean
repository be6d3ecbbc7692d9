import ClickMobileIP.Support.OnesComplement
import ClickMobileIP.Wire.ByteOrder
import ClickMobileIP.Wire.Headers

/-! # Internet checksums

`click_in_cksum` and the pseudo-header adjustment, with their thirty-two bit
accumulators, and the fact every receiver relies on: a header that carries its own
checksum checks to zero.
-/
namespace ClickMobileIP
open ByteLayout ByteLayout.Layout OnesComplement

/-- The accumulator is a `uint32_t`; its carries are folded in twice and the
complement is cut to sixteen bits. -/
def clickInCksum (bytes : List UInt8) : UInt16 :=
  let sum : UInt32 := UInt32.ofNat (sumWords bytes)
  let sum : UInt32 := (sum &&& (0xffff : UInt32)) + (sum >>> 16)
  let sum : UInt32 := sum + (sum >>> 16)
  (~~~sum).toUInt16

/-- The portable branch, which user-level builds other than i386 compile. -/
def clickInCksumPseudohdrRaw (csum : UInt32) (src dst : IPAddress) (proto packetLen : UInt16) :
    UInt16 :=
  let csum : UInt32 := ~~~csum &&& (0xffff : UInt32)
  let csum : UInt32 := csum + ((src &&& (0xffff : UInt32)) + (src >>> 16))
  let csum : UInt32 := csum + ((dst &&& (0xffff : UInt32)) + (dst >>> 16))
  let csum : UInt32 := csum + ((htons packetLen).toUInt32 + (htons proto).toUInt32)
  let csum : UInt32 := (csum &&& (0xffff : UInt32)) + (csum >>> 16)
  (~~~(csum + (csum >>> 16)) &&& (0xffff : UInt32)).toUInt16

/-- The option walk of `click_in_cksum_pseudohdr_hard`: a source route replaces
the destination by its last hop. `opts` starts behind the fixed header, `stop` is
where the options end. -/
def sourceRouteDst (opts : List UInt8) (stop : ℕ) (dst : IPAddress) : ℕ → ℕ → IPAddress
  | 0, _ => dst
  | fuel + 1, opt =>
    if stop ≤ opt then dst
    else if opts.getD opt 0 = 1 then sourceRouteDst opts stop dst fuel (opt + 1)
    else if opts.getD opt 0 = 0 then dst
    else
      let len := (opts.getD (opt + 1) 0).toNat
      if stop ≤ opt + 1 ∨ len < 2 ∨ stop < opt + len then dst
      else if (opts.getD opt 0 = 137 ∨ opts.getD opt 0 = 131) ∧ 7 ≤ len then
        u32.read (opts.drop (opt + len - 4))
      else sourceRouteDst opts stop dst fuel (opt + len)

def clickInCksumPseudohdrHard (csum : UInt32) (iph : ClickIp) (opts : List UInt8)
    (packetLen : UInt16) : UInt16 :=
  let stop := 4 * iph.ipHl.toNat - 20
  clickInCksumPseudohdrRaw csum iph.ipSrc (sourceRouteDst opts stop iph.ipDst stop 0)
    iph.ipP.toUInt16 packetLen

/-- `opts` are the bytes that follow the fixed header in memory. -/
def clickInCksumPseudohdr (dataCsum : UInt16) (iph : ClickIp) (opts : List UInt8)
    (transportLen : UInt16) : UInt16 :=
  if iph.ipHl = 5 then
    clickInCksumPseudohdrRaw dataCsum.toUInt32 iph.ipSrc iph.ipDst iph.ipP.toUInt16 transportLen
  else clickInCksumPseudohdrHard dataCsum.toUInt32 iph opts transportLen

private theorem low_half (n : UInt32) : (n &&& (0xffff : UInt32)).toNat = n.toNat % 65536 := by
  rw [UInt32.toNat_and]
  exact Nat.and_two_pow_sub_one_eq_mod n.toNat 16

private theorem high_half (n : UInt32) : (n >>> 16).toNat = n.toNat / 65536 := by
  rw [UInt32.toNat_shiftRight]
  exact Nat.shiftRight_eq_div_pow n.toNat 16

theorem clickInCksum_toNat {bytes : List UInt8} (h : sumWords bytes < 2 ^ 32) :
    (clickInCksum bytes).toNat = 65535 - fold (sumWords bytes) := by
  have hsum : (UInt32.ofNat (sumWords bytes)).toNat = sumWords bytes := by
    rw [UInt32.toNat_ofNat']
    exact Nat.mod_eq_of_lt h
  simp only [clickInCksum,UInt32.toNat_toUInt16,UInt32.toNat_not,UInt32.size,
    UInt32.toNat_add,high_half,low_half,hsum]
  rw [fold]
  generalize ht : sumWords bytes % 65536 + sumWords bytes / 65536 = t
  have hbound : t < 131071 := by omega
  have ht' : t % 2 ^ 32 = t := Nat.mod_eq_of_lt (by omega)
  rw [ht']
  have hcarry : t / 65536 ≤ 1 := by omega
  generalize t / 65536 = c at hcarry ⊢
  omega

/-- Zero bytes behind a header do not count. -/
theorem clickInCksum_append_zeros {bytes : List UInt8} (h : Even bytes.length) (n : ℕ) :
    clickInCksum (bytes ++ List.replicate n 0) = clickInCksum bytes := by
  unfold clickInCksum
  rw [sumWords_append _ h,sumWords_zeros,Nat.add_zero]

/-- What a receiver's test of a header comes to. -/
theorem clickInCksum_eq_zero {bytes : List UInt8} (h : sumWords bytes < 2 ^ 32) (hpos : 0 < sumWords bytes) :
    clickInCksum bytes = 0 ↔ sumWords bytes % 65535 = 0 := by
  have hle := fold_le (sumWords bytes)
  rw [← UInt16.toNat_inj,clickInCksum_toNat h,UInt16.toNat_zero,← fold_eq_top h hpos]
  omega

theorem sumWords_u16 (c : UInt16) : sumWords (u16.write c) = c.toNat := by
  have hlt := c.toNat_lt
  simp only [u16,sumWords,UInt8.toNat_ofNat']
  omega

/-- A header that is not all zero and stores its own checksum in an aligned word
verifies: the sum over it complements to zero. -/
theorem clickInCksum_verify {before after : List UInt8} (hb : Even before.length)
    (hlen : (before ++ after).length ≤ 65535) (hpos : 0 < sumWords before + sumWords after) :
    clickInCksum (before ++ (u16.write (clickInCksum (before ++ (u16.write 0 ++ after))) ++ after)) =
      0 := by
  have hzero : sumWords (before ++ (u16.write 0 ++ after)) = sumWords before + sumWords after := by
    rw [sumWords_append _ hb,sumWords_append _ ⟨1,rfl⟩]
    simp [u16,sumWords]
  have hbefore := sumWords_lt before
  have hafter := sumWords_lt after
  have hsmall : sumWords before + sumWords after + 65535 < 2 ^ 32 := by
    rw [List.length_append] at hlen
    omega
  have hfits : sumWords (before ++ (u16.write 0 ++ after)) < 2 ^ 32 := by omega
  have hck := clickInCksum_toNat hfits
  rw [hzero] at hck
  generalize hc : clickInCksum (before ++ (u16.write 0 ++ after)) = c at hck
  have hall : sumWords (before ++ (u16.write c ++ after)) =
      sumWords before + sumWords after + c.toNat := by
    rw [sumWords_append _ hb,sumWords_append _ ⟨1,rfl⟩,sumWords_u16]
    omega
  have hle := fold_le (sumWords before + sumWords after)
  apply UInt16.toNat_inj.mp
  rw [clickInCksum_toNat (by rw [hall]; omega),hall,hck,fold_add_complement hsmall hpos]
  rfl

/-- A word at an even place counts in full in every sum that reaches it. -/
theorem sumWords_take_word {before : List UInt8} (hb : Even before.length) (c : UInt16)
    (after : List UInt8) {n : ℕ} (hn : before.length + 2 ≤ n) :
    sumWords ((before ++ (u16.write c ++ after)).take n) =
      sumWords ((before ++ (u16.write 0 ++ after)).take n) + c.toNat := by
  have htake : ∀ w : UInt16, sumWords ((before ++ (u16.write w ++ after)).take n) =
      sumWords before + (w.toNat + sumWords (after.take (n - before.length - 2))) := by
    intro w
    rw [List.take_append,List.take_of_length_le (by omega : before.length ≤ n),sumWords_append _ hb,
      List.take_append,List.take_of_length_le (by rw [length_write]; simp only [size_u16]; omega),
      sumWords_append _ ⟨1,rfl⟩,sumWords_u16,length_write]
    rfl
  rw [htake,htake,UInt16.toNat_zero]
  omega

def pseudoSum (src dst : IPAddress) (proto len : UInt16) : ℕ :=
  src.toNat % 65536 + src.toNat / 65536 + (dst.toNat % 65536 + dst.toNat / 65536) +
    ((htons len).toNat + (htons proto).toNat)

def pseudoDst (iph : ClickIp) (opts : List UInt8) : IPAddress :=
  let stop := 4 * iph.ipHl.toNat - 20
  if iph.ipHl = 5 then iph.ipDst else sourceRouteDst opts stop iph.ipDst stop 0

theorem clickInCksumPseudohdr_eq (c : UInt16) (iph : ClickIp) (opts : List UInt8) (len : UInt16) :
    clickInCksumPseudohdr c iph opts len =
      clickInCksumPseudohdrRaw c.toUInt32 iph.ipSrc (pseudoDst iph opts) iph.ipP.toUInt16 len := by
  unfold clickInCksumPseudohdr pseudoDst
  by_cases h : iph.ipHl = 5
  · simp only [h,↓reduceIte]
  · simp only [h,↓reduceIte]
    rfl

theorem pseudoSum_le (src dst : IPAddress) (proto len : UInt16) :
    pseudoSum src dst proto len ≤ 393210 := by
  have hsrc := src.toNat_lt
  have hdst := dst.toNat_lt
  have hlen := (htons len).toNat_lt
  have hproto := (htons proto).toNat_lt
  unfold pseudoSum
  omega

theorem pseudoSum_pos (src dst : IPAddress) {proto : UInt8} (h : proto = 17) (len : UInt16) :
    0 < pseudoSum src dst proto.toUInt16 len := by
  have hword : 0 < (htons proto.toUInt16).toNat := by
    rw [h]
    decide
  unfold pseudoSum
  omega

theorem clickInCksumPseudohdrRaw_toNat (c : UInt16) (src dst : IPAddress) (proto len : UInt16) :
    (clickInCksumPseudohdrRaw c.toUInt32 src dst proto len).toNat =
      65535 - fold (65535 - c.toNat + pseudoSum src dst proto len) := by
  have hc := c.toNat_lt
  have hsrc := src.toNat_lt
  have hdst := dst.toNat_lt
  have hlen := (htons len).toNat_lt
  have hproto := (htons proto).toNat_lt
  have hnot : (~~~c.toUInt32 &&& (0xffff : UInt32)).toNat = 65535 - c.toNat := by
    rw [low_half,UInt32.toNat_not,UInt16.toNat_toUInt32,UInt32.size]
    omega
  have hhalves : ∀ n : UInt32, ((n &&& (0xffff : UInt32)) + (n >>> 16)).toNat =
      n.toNat % 65536 + n.toNat / 65536 := by
    intro n
    have hn := n.toNat_lt
    rw [UInt32.toNat_add,low_half,high_half]
    omega
  have hwords : ((htons len).toUInt32 + (htons proto).toUInt32).toNat =
      (htons len).toNat + (htons proto).toNat := by
    rw [UInt32.toNat_add,UInt16.toNat_toUInt32,UInt16.toNat_toUInt32]
    omega
  have htotal : ((~~~c.toUInt32 &&& (0xffff : UInt32)) + ((src &&& (0xffff : UInt32)) + (src >>> 16)) +
      ((dst &&& (0xffff : UInt32)) + (dst >>> 16)) +
      ((htons len).toUInt32 + (htons proto).toUInt32)).toNat =
      65535 - c.toNat + pseudoSum src dst proto len := by
    rw [UInt32.toNat_add,UInt32.toNat_add,UInt32.toNat_add,hnot,hhalves,hhalves,hwords,pseudoSum]
    omega
  have hbound := pseudoSum_le src dst proto len
  unfold clickInCksumPseudohdrRaw
  dsimp only
  generalize (~~~c.toUInt32 &&& (0xffff : UInt32)) + ((src &&& (0xffff : UInt32)) + (src >>> 16)) +
    ((dst &&& (0xffff : UInt32)) + (dst >>> 16)) +
    ((htons len).toUInt32 + (htons proto).toUInt32) = total at htotal ⊢
  rw [UInt32.toNat_toUInt16,low_half,UInt32.toNat_not,UInt32.toNat_add,high_half,hhalves,htotal,fold,UInt32.size]
  omega

section Udp
variable {bytes : List UInt8} {iph : ClickIp} (opts : List UInt8) (len : UInt16)

/-- Data and pseudo-header of a UDP datagram, summed up. -/
def udpSum (bytes : List UInt8) (iph : ClickIp) (opts : List UInt8) (len : UInt16) : ℕ :=
  sumWords bytes + pseudoSum iph.ipSrc (pseudoDst iph opts) iph.ipP.toUInt16 len

theorem udpSum_bounds (hlen : bytes.length ≤ 65535) (hproto : iph.ipP = 17) :
    0 < udpSum bytes iph opts len ∧ udpSum bytes iph opts len + 65535 < 2 ^ 32 := by
  have hbytes := sumWords_lt bytes
  have hle := pseudoSum_le iph.ipSrc (pseudoDst iph opts) iph.ipP.toUInt16 len
  have hpos := pseudoSum_pos iph.ipSrc (pseudoDst iph opts) hproto len
  rw [udpSum]
  omega

theorem clickInCksumPseudohdr_toNat (hlen : bytes.length ≤ 65535) (hproto : iph.ipP = 17) :
    (clickInCksumPseudohdr (clickInCksum bytes) iph opts len).toNat =
      65535 - fold (udpSum bytes iph opts len) := by
  have hbytes := sumWords_lt bytes
  have hle := fold_le (sumWords bytes)
  have hpos := pseudoSum_pos iph.ipSrc (pseudoDst iph opts) hproto len
  have hsmall := (udpSum_bounds opts len hlen hproto).2
  have hcomplement : 65535 - (65535 - fold (sumWords bytes)) = fold (sumWords bytes) := by omega
  rw [clickInCksumPseudohdr_eq,clickInCksumPseudohdrRaw_toNat,clickInCksum_toNat (by omega),hcomplement,
    fold_fold_add hpos hsmall]
  rfl

theorem clickInCksumPseudohdr_eq_zero (hlen : bytes.length ≤ 65535) (hproto : iph.ipP = 17) :
    clickInCksumPseudohdr (clickInCksum bytes) iph opts len = 0 ↔ udpSum bytes iph opts len % 65535 = 0 := by
  obtain ⟨hpos,hsmall⟩ := udpSum_bounds opts len hlen hproto
  have hle := fold_le (udpSum bytes iph opts len)
  rw [← UInt16.toNat_inj,clickInCksumPseudohdr_toNat opts len hlen hproto,UInt16.toNat_zero,
    ← fold_eq_top (by omega) hpos]
  omega

/-- The word that a sender stores: no other makes the sum a multiple of `0xffff`, and it
is never `0xffff` itself. -/
theorem clickInCksumPseudohdr_eq_iff (hlen : bytes.length ≤ 65535) (hproto : iph.ipP = 17) (w : UInt16) :
    clickInCksumPseudohdr (clickInCksum bytes) iph opts len = w ↔
      (udpSum bytes iph opts len + w.toNat) % 65535 = 0 ∧ w ≠ 65535 := by
  obtain ⟨hpos,hsmall⟩ := udpSum_bounds opts len hlen hproto
  have hle := fold_le (udpSum bytes iph opts len)
  have hmod := fold_mod (s := udpSum bytes iph opts len) (by omega)
  have hfold := fold_pos (s := udpSum bytes iph opts len) (by omega) hpos
  have hw := w.toNat_lt
  have htop : w ≠ 65535 ↔ w.toNat ≠ 65535 := by
    rw [ne_eq,← UInt16.toNat_inj]
    rfl
  rw [← UInt16.toNat_inj,clickInCksumPseudohdr_toNat opts len hlen hproto,htop]
  omega

/-- A datagram that stores this word in an aligned place verifies; the bytes that stand for
the options may differ as long as they name the same destination. -/
theorem clickInCksumPseudohdr_verify {before after : List UInt8} (hb : Even before.length)
    (hlen : (before ++ (u16.write 0 ++ after)).length ≤ 65535) (hproto : iph.ipP = 17) {opts' : List UInt8}
    (hdst : pseudoDst iph opts' = pseudoDst iph opts) {w : UInt16}
    (hw : clickInCksumPseudohdr (clickInCksum (before ++ (u16.write 0 ++ after))) iph opts len = w) :
    clickInCksumPseudohdr (clickInCksum (before ++ (u16.write w ++ after))) iph opts' len = 0 := by
  have hwords : sumWords (before ++ (u16.write w ++ after)) =
      sumWords (before ++ (u16.write 0 ++ after)) + w.toNat := by
    simp only [sumWords_append _ hb,sumWords_append _ (show Even (u16.write _).length from ⟨1,rfl⟩),
      sumWords_u16,UInt16.toNat_zero]
    omega
  have hlen' : (before ++ (u16.write w ++ after)).length ≤ 65535 := by
    simpa only [List.length_append,length_write] using hlen
  have hstored := ((clickInCksumPseudohdr_eq_iff opts len hlen hproto w).mp hw).1
  rw [clickInCksumPseudohdr_eq_zero opts' len hlen' hproto,udpSum,hwords,hdst]
  rw [udpSum] at hstored
  omega

end Udp

end ClickMobileIP
