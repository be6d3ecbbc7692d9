import ClickMobileIP.Router.IpHeader
import ClickMobileIP.Support.Reassembly
import Mathlib.Data.Nat.Bitwise
import Mathlib.Tactic.IntervalCases

/-! # Fragmentation

`IPFragmenter` cuts a packet that is longer than its MTU into fragments. The first one keeps
the whole header, the others get a header with the options that are to be copied; offset and
flags share one member in network byte order. The results say that a receiver who copies the
payloads to the places that the offsets name ends up with the payload of the packet, in
whatever order the fragments arrive.
-/
namespace ClickMobileIP
open ByteLayout OnesComplement Reassembly

section Masks
variable (a b : UInt16)

theorem or_split {m n : ℕ} : (m ||| n) / 256 = m / 256 ||| n / 256 ∧ (m ||| n) % 256 = m % 256 ||| n % 256 :=
  ⟨Nat.or_div_two_pow (n := 8),Nat.or_mod_two_pow (n := 8)⟩

theorem and_split {m n : ℕ} : (m &&& n) / 256 = m / 256 &&& n / 256 ∧ (m &&& n) % 256 = (m % 256) &&& (n % 256) :=
  ⟨Nat.and_div_two_pow (n := 8),Nat.and_mod_two_pow (n := 8)⟩

theorem htons_halves (a : UInt16) : (htons a).toNat / 256 = a.toNat % 256 ∧ (htons a).toNat % 256 = a.toNat / 256 := by
  have ha := a.toNat_lt
  rw [htons_toNat]
  omega

/-- Swapping the bytes commutes with every operation on the bits of a byte. -/
theorem htons_or : htons (a ||| b) = htons a ||| htons b := by
  obtain ⟨hdiv,hmod⟩ := or_split (m := (htons a).toNat) (n := (htons b).toNat)
  obtain ⟨hdiv',hmod'⟩ := or_split (m := a.toNat) (n := b.toNat)
  obtain ⟨ha,ha'⟩ := htons_halves a
  obtain ⟨hb,hb'⟩ := htons_halves b
  rw [ha,hb,← hmod'] at hdiv
  rw [ha',hb',← hdiv'] at hmod
  apply UInt16.toNat_inj.mp
  rw [htons_toNat,UInt16.toNat_or,UInt16.toNat_or]
  omega

theorem htons_and : htons (a &&& b) = htons a &&& htons b := by
  obtain ⟨hdiv,hmod⟩ := and_split (m := (htons a).toNat) (n := (htons b).toNat)
  obtain ⟨hdiv',hmod'⟩ := and_split (m := a.toNat) (n := b.toNat)
  obtain ⟨ha,ha'⟩ := htons_halves a
  obtain ⟨hb,hb'⟩ := htons_halves b
  rw [ha,hb,← hmod'] at hdiv
  rw [ha',hb',← hdiv'] at hmod
  apply UInt16.toNat_inj.mp
  rw [htons_toNat,UInt16.toNat_and,UInt16.toNat_and]
  omega

end Masks

def ipDf : UInt16 := 0x4000

def ipMf : UInt16 := 0x2000

namespace ClickIp

/-- The three flags, the lowest of them for more fragments. -/
def fragFlags (iph : ClickIp) : ℕ := (ntohs iph.ipOff).toNat / 8192

/-- The place of the payload in units of eight bytes. -/
def fragOffset (iph : ClickIp) : ℕ := (ntohs iph.ipOff).toNat % 8192

def dontFragment (iph : ClickIp) : Bool := decide (iph.ipOff &&& htons ipDf ≠ 0)

def moreFragments (iph : ClickIp) : Bool := decide (iph.ipOff &&& htons ipMf ≠ 0)

theorem fragFlags_lt (iph : ClickIp) : iph.fragFlags < 8 := by
  have hlt := (ntohs iph.ipOff).toNat_lt
  rw [fragFlags]
  omega

theorem masked_eq_zero (a m : UInt16) : a &&& htons m = 0 ↔ (ntohs a).toNat &&& m.toNat = 0 := by
  have hswap : a &&& htons m = htons (ntohs a &&& m) := by rw [htons_and,htons_ntohs]
  rw [hswap,htons_eq_zero,← UInt16.toNat_inj,UInt16.toNat_and,UInt16.toNat_zero]

theorem moreFragments_iff (iph : ClickIp) : iph.moreFragments = true ↔ iph.fragFlags % 2 = 1 := by
  have hbit : (ntohs iph.ipOff).toNat &&& 2 ^ 13 = ((ntohs iph.ipOff).toNat.testBit 13).toNat * 2 ^ 13 :=
    Nat.and_two_pow _ _
  have hpow : ipMf.toNat = 2 ^ 13 := rfl
  rw [moreFragments,decide_eq_true_iff,ne_eq,masked_eq_zero,hpow,hbit,fragFlags,
    Nat.testBit_eq_decide_div_mod_eq]
  simp

theorem dontFragment_iff (iph : ClickIp) : iph.dontFragment = true ↔ iph.fragFlags / 2 % 2 = 1 := by
  have hbit : (ntohs iph.ipOff).toNat &&& 2 ^ 14 = ((ntohs iph.ipOff).toNat.testBit 14).toNat * 2 ^ 14 :=
    Nat.and_two_pow _ _
  have hpow : ipDf.toNat = 2 ^ 14 := rfl
  have hdiv : (ntohs iph.ipOff).toNat / 8192 / 2 = (ntohs iph.ipOff).toNat / 2 ^ 14 := Nat.div_div_eq_div_mul ..
  rw [dontFragment,decide_eq_true_iff,ne_eq,masked_eq_zero,hpow,hbit,fragFlags,hdiv,
    Nat.testBit_eq_decide_div_mod_eq]
  simp

/-- `ip_off |= htons(IP_MF)`. -/
def setMf (iph : ClickIp) : ClickIp := { iph with ipOff := iph.ipOff ||| htons ipMf }

/-- `ip_off &= ~htons(IP_MF)`. -/
def clearMf (iph : ClickIp) : ClickIp := { iph with ipOff := iph.ipOff &&& ~~~(htons ipMf) }

/-- `ip_off &= ~htons(IP_DF)`. -/
def clearDf (iph : ClickIp) : ClickIp := { iph with ipOff := iph.ipOff &&& ~~~(htons ipDf) }

/-- `ip_off = htons(ntohs(ip_off) + n)`. -/
def advance (iph : ClickIp) (n : ℕ) : ClickIp := { iph with ipOff := htons (ntohs iph.ipOff + UInt16.ofNat n) }

theorem ntohs_setMf (iph : ClickIp) : (ntohs iph.setMf.ipOff).toNat = (ntohs iph.ipOff).toNat ||| 2 ^ 13 := by
  have hswap : ntohs iph.setMf.ipOff = ntohs iph.ipOff ||| ipMf := by
    rw [setMf,ntohs,htons_or,htons_htons]
    rfl
  rw [hswap,UInt16.toNat_or]
  rfl

theorem ntohs_clearMf (iph : ClickIp) : (ntohs iph.clearMf.ipOff).toNat = (ntohs iph.ipOff).toNat &&& 0xdfff := by
  have hmask : ~~~(htons ipMf) = htons 0xdfff := by decide
  have hswap : ntohs iph.clearMf.ipOff = ntohs iph.ipOff &&& 0xdfff := by
    rw [clearMf,ntohs,hmask,htons_and,htons_htons]
    rfl
  rw [hswap,UInt16.toNat_and]
  rfl

theorem ntohs_clearDf (iph : ClickIp) : (ntohs iph.clearDf.ipOff).toNat = (ntohs iph.ipOff).toNat &&& 0xbfff := by
  have hmask : ~~~(htons ipDf) = htons 0xbfff := by decide
  have hswap : ntohs iph.clearDf.ipOff = ntohs iph.ipOff &&& 0xbfff := by
    rw [clearDf,ntohs,hmask,htons_and,htons_htons]
    rfl
  rw [hswap,UInt16.toNat_and]
  rfl

@[simp] theorem fragOffset_setMf (iph : ClickIp) : iph.setMf.fragOffset = iph.fragOffset := by
  rw [fragOffset,ntohs_setMf]
  exact (Nat.or_mod_two_pow (n := 13)).trans (Nat.or_zero _)

@[simp] theorem fragFlags_setMf (iph : ClickIp) : iph.setMf.fragFlags = iph.fragFlags ||| 1 := by
  rw [fragFlags,ntohs_setMf]
  exact Nat.or_div_two_pow (n := 13)

@[simp] theorem fragOffset_clearMf (iph : ClickIp) : iph.clearMf.fragOffset = iph.fragOffset := by
  have hmod : ((ntohs iph.ipOff).toNat &&& 0xdfff) % 2 ^ 13 = ((ntohs iph.ipOff).toNat % 2 ^ 13) &&& (2 ^ 13 - 1) :=
    Nat.and_mod_two_pow
  rw [fragOffset,ntohs_clearMf]
  exact hmod.trans ((Nat.and_two_pow_sub_one_eq_mod _ 13).trans (Nat.mod_mod _ _))

@[simp] theorem fragFlags_clearMf (iph : ClickIp) : iph.clearMf.fragFlags = iph.fragFlags &&& 6 := by
  rw [fragFlags,ntohs_clearMf]
  exact Nat.and_div_two_pow (n := 13)

@[simp] theorem fragOffset_clearDf (iph : ClickIp) : iph.clearDf.fragOffset = iph.fragOffset := by
  have hmod : ((ntohs iph.ipOff).toNat &&& 0xbfff) % 2 ^ 13 = ((ntohs iph.ipOff).toNat % 2 ^ 13) &&& (2 ^ 13 - 1) :=
    Nat.and_mod_two_pow
  rw [fragOffset,ntohs_clearDf]
  exact hmod.trans ((Nat.and_two_pow_sub_one_eq_mod _ 13).trans (Nat.mod_mod _ _))

@[simp] theorem fragFlags_clearDf (iph : ClickIp) : iph.clearDf.fragFlags = iph.fragFlags &&& 5 := by
  rw [fragFlags,ntohs_clearDf]
  exact Nat.and_div_two_pow (n := 13)

theorem moreFragments_setMf (iph : ClickIp) : iph.setMf.moreFragments = true := by
  have hlt := iph.fragFlags_lt
  rw [moreFragments_iff,fragFlags_setMf]
  generalize iph.fragFlags = m at hlt
  interval_cases m <;> rfl

theorem moreFragments_clearMf (iph : ClickIp) : iph.clearMf.moreFragments = false := by
  have hlt := iph.fragFlags_lt
  rw [← Bool.not_eq_true,moreFragments_iff,fragFlags_clearMf]
  generalize iph.fragFlags = m at hlt
  interval_cases m <;> decide

theorem dontFragment_eq {iph jph : ClickIp} (h : iph.fragFlags / 2 % 2 = jph.fragFlags / 2 % 2) :
    iph.dontFragment = jph.dontFragment := by
  rw [Bool.eq_iff_iff,dontFragment_iff,dontFragment_iff,h]

@[simp] theorem dontFragment_setMf (iph : ClickIp) : iph.setMf.dontFragment = iph.dontFragment := by
  have hlt := iph.fragFlags_lt
  apply dontFragment_eq
  rw [fragFlags_setMf]
  generalize iph.fragFlags = m at hlt
  interval_cases m <;> rfl

@[simp] theorem dontFragment_clearMf (iph : ClickIp) : iph.clearMf.dontFragment = iph.dontFragment := by
  have hlt := iph.fragFlags_lt
  apply dontFragment_eq
  rw [fragFlags_clearMf]
  generalize iph.fragFlags = m at hlt
  interval_cases m <;> rfl

theorem dontFragment_clearDf (iph : ClickIp) : iph.clearDf.dontFragment = false := by
  have hlt := iph.fragFlags_lt
  rw [← Bool.not_eq_true,dontFragment_iff,fragFlags_clearDf]
  generalize iph.fragFlags = m at hlt
  interval_cases m <;> decide

theorem moreFragments_clearDf (iph : ClickIp) : iph.clearDf.moreFragments = iph.moreFragments := by
  have hlt := iph.fragFlags_lt
  rw [Bool.eq_iff_iff,moreFragments_iff,moreFragments_iff,fragFlags_clearDf]
  generalize iph.fragFlags = m at hlt
  interval_cases m <;> decide

/-- As long as the offset stays below its thirteen bits the flags are not touched. -/
theorem advance_spec {iph : ClickIp} {n : ℕ} (h : iph.fragOffset + n < 8192) :
    (iph.advance n).fragOffset = iph.fragOffset + n ∧ (iph.advance n).fragFlags = iph.fragFlags := by
  have hlt := (ntohs iph.ipOff).toNat_lt
  have hsum : (ntohs (iph.advance n).ipOff).toNat = (ntohs iph.ipOff).toNat + n := by
    rw [fragOffset] at h
    rw [advance,ntohs_htons,UInt16.toNat_add,UInt16.toNat_ofNat']
    omega
  rw [fragOffset] at h
  rw [fragOffset,fragFlags,hsum,fragOffset,fragFlags]
  omega

end ClickIp

structure IPFragmenter where
  mtu : ℕ
  honorDf : Bool := true
  least : 8 ≤ mtu := by decide
  small : mtu < 2 ^ 31 := by decide

namespace IPFragmenter

/-- The walk of `optcopy` over the options of the packet. The fuel is their length. -/
def optcopyLoop : ℕ → List UInt8 → List UInt8
  | 0, _ => []
  | _ + 1, [] => []
  | fuel + 1, opt :: rest =>
    let len := (rest.headD 0).toNat
    if opt = 1 then optcopyLoop fuel rest
    else if opt = 0 ∨ rest = [] ∨ len < 2 ∨ rest.length + 1 < len then []
    else (if opt &&& (0x80 : UInt8) ≠ 0 then (opt :: rest).take len else []) ++
      optcopyLoop fuel ((opt :: rest).drop len)

/-- The copied options, filled up to whole words with end-of-list bytes. -/
def optcopy (opts : List UInt8) : List UInt8 :=
  let out := optcopyLoop opts.length opts
  out ++ List.replicate ((4 - out.length % 4) % 4) 0

/-- `(_mtu - hlen) & ~7`; where the difference is negative no payload fits. -/
def dlen (f : IPFragmenter) (hlen : ℕ) : ℕ := (f.mtu - hlen) / 8 * 8

section Later
variable (f : IPFragmenter) (p : Packet) (hadMf : Bool) (inDlen : ℕ)

def outHlen (p : Packet) : ℕ := 20 + (optcopy p.options).length

def outDlen (off : ℕ) : ℕ :=
  let outDlen := f.dlen (outHlen p)
  if inDlen < outDlen + off then inDlen - off else outDlen

/-- The header of the fragment that starts at byte `off` of the payload, before it is sealed. -/
def laterIp (off : ℕ) : ClickIp :=
  let outDlen := outDlen f p inDlen off
  let qip := { p.ip.advance (off / 8) with ipHl := BitVec.ofNat 4 (outHlen p / 4),
                                           ipLen := htons (UInt16.ofNat (outHlen p + outDlen)) }
  if inDlen ≤ outDlen + off ∧ hadMf = false then qip.clearMf else qip

def laterFragment (off : ℕ) : Packet :=
  (Packet.assemble (laterIp f p hadMf inDlen off) (optcopy p.options)
    ((p.datagram.drop off).take (outDlen f p inDlen off)) p.dstIpAnno).reseal

/-- The loop over the remaining fragments. `none` is a copy from outside the packet; `alloc`
says for which offsets `Packet::make` succeeds. -/
def fragmentLoop (alloc : ℕ → Bool) : ℕ → ℕ → Option (List Emission)
  | 0, off => if off < inDlen then none else some []
  | fuel + 1, off =>
    if off < inDlen then
      if alloc off = true ∧ p.length < p.headerLength + off + outDlen f p inDlen off then none
      else
        match fragmentLoop alloc fuel (off + outDlen f p inDlen off) with
        | none => none
        | some rest =>
          if alloc off then some (⟨0,laterFragment f p hadMf inDlen off⟩ :: rest) else some rest
    else some []

end Later

section Fragment
variable (f : IPFragmenter) (random : UInt16) (p : Packet)

/-- Where the flag against fragmentation is not honoured it is cleared, and the
identification is drawn anew. -/
def cheated : ClickIp :=
  if p.ip.dontFragment then { p.ip.clearDf with ipId := random } else p.ip

def firstIp : ClickIp :=
  { (cheated random p).setMf with
    ipLen := htons (UInt16.ofNat (p.headerLength + f.dlen p.headerLength)) }

/-- The packet with the header of the first fragment and its whole payload. -/
def rewritten : Packet := (p.setIp (firstIp f random p)).reseal

def fragment (alloc : ℕ → Bool) : Option (List Emission) :=
  let hlen := p.headerLength
  let firstDlen := f.dlen hlen
  let inDlen := (ntohs p.ip.ipLen).toNat - hlen
  if (p.ip.dontFragment = true ∧ f.honorDf = true) ∨ firstDlen < 8 then some [⟨1,p⟩]
  else
    let q := rewritten f random p
    match fragmentLoop f q (cheated random p).moreFragments inDlen alloc inDlen firstDlen with
    | none => none
    | some rest => some (⟨0,q.take (q.length - hlen - firstDlen)⟩ :: rest)

/-- Short packets pass. -/
def push (alloc : ℕ → Bool) : Option (List Emission) :=
  if p.length ≤ f.mtu then some [⟨0,p⟩] else fragment f random p alloc

end Fragment

theorem length_optcopyLoop_le (fuel : ℕ) (oin : List UInt8) : (optcopyLoop fuel oin).length ≤ oin.length := by
  induction fuel generalizing oin with
  | zero => exact Nat.zero_le _
  | succ fuel ih =>
    match oin with
    | [] => exact Nat.zero_le _
    | opt :: rest =>
      have hdrop := ih ((opt :: rest).drop (rest.headD 0).toNat)
      rw [List.length_drop,List.length_cons] at hdrop
      rw [optcopyLoop]
      split_ifs with hnop hstop hcopy
      · exact (ih rest).trans (Nat.le_succ _)
      · exact Nat.zero_le _
      · rw [List.length_append,List.length_take,List.length_cons]
        omega
      · rw [List.nil_append,List.length_cons]
        omega

theorem length_optcopy_mod (opts : List UInt8) : (optcopy opts).length % 4 = 0 := by
  simp only [optcopy,List.length_append,List.length_replicate]
  omega

theorem length_optcopy_le {opts : List UInt8} (h : opts.length % 4 = 0) : (optcopy opts).length ≤ opts.length := by
  have hle := length_optcopyLoop_le opts.length opts
  simp only [optcopy,List.length_append,List.length_replicate]
  omega

section Lengths
variable {f : IPFragmenter} {p : Packet}

theorem headerLength_mod (p : Packet) : p.headerLength % 4 = 0 := by
  rw [Packet.headerLength]
  omega

theorem outHlen_le (h : p.WellHeaded) (hroom : p.headerLength ≤ p.length) : outHlen p ≤ p.headerLength := by
  have hopts := Packet.length_options h hroom
  have hmod := headerLength_mod p
  have hheader := h.header
  have hwhole : p.options.length % 4 = 0 := by omega
  have hle := length_optcopy_le hwhole
  rw [outHlen]
  omega

theorem dlen_mod (f : IPFragmenter) (hlen : ℕ) : f.dlen hlen % 8 = 0 := by
  rw [dlen]
  omega

theorem dlen_anti {m n : ℕ} (h : m ≤ n) : f.dlen n ≤ f.dlen m := by
  unfold dlen
  omega

theorem add_dlen_le {hlen : ℕ} (h : 8 ≤ f.dlen hlen) : hlen + f.dlen hlen ≤ f.mtu := by
  unfold dlen at h ⊢
  omega

end Lengths

/-- Where a fragment says that its payload belongs. -/
def place (p q : Packet) : ℕ × List UInt8 := (8 * (q.ip.fragOffset - p.ip.fragOffset),q.datagram)

/-- `q` is a valid packet of at most `mtu` bytes that carries a piece of the payload of `p`
under the identification `id`; it announces more fragments unless it ends where a packet
without further fragments ends. -/
structure Fragment (mtu : ℕ) (id : UInt16) (p q : Packet) : Prop where
  valid : q.Valid
  fits : q.length ≤ mtu
  ident : q.ip.ipId = id
  ends : q.ip.ipSrc = p.ip.ipSrc ∧ q.ip.ipDst = p.ip.ipDst ∧ q.ip.ipP = p.ip.ipP
  service : q.ip.ipTos = p.ip.ipTos ∧ q.ip.ipTtl = p.ip.ipTtl
  anno : q.dstIpAnno = p.dstIpAnno
  fragmentable : q.ip.dontFragment = false
  after : p.ip.fragOffset ≤ q.ip.fragOffset
  piece : IsPiece p.datagram (place p q)
  last : q.ip.moreFragments = false ↔
    p.ip.moreFragments = false ∧ (place p q).1 + (place p q).2.length = p.datagram.length

/-- A packet that is cut: it is as long as it says, longer than the MTU, may be cut, and leaves
room for eight bytes of payload. -/
structure Cuttable (f : IPFragmenter) (p : Packet) : Prop where
  headed : p.WellHeaded
  announced : (ntohs p.ip.ipLen).toNat = p.length
  long : f.mtu < p.length
  allowed : p.ip.dontFragment = false ∨ f.honorDf = false
  payload : 8 ≤ f.dlen p.headerLength

/-- The payload of a packet that can be put together again ends inside the largest packet. -/
structure Fragmentable (f : IPFragmenter) (p : Packet) : Prop extends Cuttable f p where
  extent : 8 * p.ip.fragOffset + p.datagram.length ≤ 65535

section Rewritten
variable {f : IPFragmenter} {p : Packet}

theorem Cuttable.room (h : Cuttable f p) : p.headerLength + f.dlen p.headerLength < p.length :=
  (add_dlen_le h.payload).trans_lt h.long

theorem cheated_spec (random : UInt16) (p : Packet) : (cheated random p).dontFragment = false ∧
    (cheated random p).moreFragments = p.ip.moreFragments ∧ (cheated random p).fragOffset = p.ip.fragOffset := by
  unfold cheated
  by_cases h : p.ip.dontFragment = true
  · rw [if_pos h]
    exact ⟨p.ip.dontFragment_clearDf,p.ip.moreFragments_clearDf,p.ip.fragOffset_clearDf⟩
  · rw [if_neg h]
    exact ⟨Bool.eq_false_iff.mpr h,rfl,rfl⟩

theorem cheated_fields (random : UInt16) (p : Packet) : (cheated random p).ipHl = p.ip.ipHl ∧
    (cheated random p).ipV = p.ip.ipV ∧ (cheated random p).ipSrc = p.ip.ipSrc ∧
    (cheated random p).ipDst = p.ip.ipDst ∧ (cheated random p).ipP = p.ip.ipP ∧
    (cheated random p).ipTos = p.ip.ipTos ∧ (cheated random p).ipTtl = p.ip.ipTtl := by
  unfold cheated
  by_cases h : p.ip.dontFragment = true
  · rw [if_pos h]
    exact ⟨rfl,rfl,rfl,rfl,rfl,rfl,rfl⟩
  · rw [if_neg h]
    exact ⟨rfl,rfl,rfl,rfl,rfl,rfl,rfl⟩

variable (f) (random : UInt16)

theorem ip_rewritten (p : Packet) : (rewritten f random p).ip =
    (firstIp f random p).withSum (rewritten f random p).ip.ipSum := by
  conv_lhs => rw [rewritten,Packet.ip_reseal,Packet.ip_setIp]
  rfl

theorem firstIp_hl (p : Packet) : (firstIp f random p).ipHl = p.ip.ipHl :=
  (cheated_fields random p).1

theorem WellHeaded.firstIp (h : p.WellHeaded) : (p.setIp (firstIp f random p)).WellHeaded :=
  h.setIp (firstIp_hl f random p) (cheated_fields random p).2.1

theorem headerLength_rewritten (p : Packet) : (rewritten f random p).headerLength = p.headerLength :=
  (Packet.headerLength_reseal _).trans (Packet.headerLength_setIp (firstIp_hl f random p))

theorem length_rewritten (h : p.WellHeaded) : (rewritten f random p).length = p.length :=
  (Packet.length_reseal (WellHeaded.firstIp f random h).fixed).trans (Packet.length_setIp h.fixed)

theorem datagram_rewritten (h : p.WellHeaded) : (rewritten f random p).datagram = p.datagram :=
  (Packet.datagram_reseal (WellHeaded.firstIp f random h).header).trans
    (Packet.datagram_setIp (firstIp_hl f random p) h.header)

theorem wellHeaded_rewritten (h : p.WellHeaded) : (rewritten f random p).WellHeaded := (WellHeaded.firstIp f random h).reseal

variable {f}

theorem place_first (h : Fragmentable f p) :
    place p ((rewritten f random p).take ((rewritten f random p).length - p.headerLength - f.dlen p.headerLength)) =
      (0,p.datagram.take (f.dlen p.headerLength)) := by
  have hlong := h.room
  have hwell := wellHeaded_rewritten f random h.headed
  have hhead := headerLength_rewritten f random p
  have hlen := length_rewritten f random h.headed
  have hcut : p.headerLength + f.dlen p.headerLength ≤ (rewritten f random p).length := by omega
  have hbehind : (rewritten f random p).headerLength ≤ p.headerLength + f.dlen p.headerLength := by omega
  have hdatagram := Packet.datagram_truncated hwell hbehind
  rw [hhead,Nat.add_sub_cancel_left,datagram_rewritten f random h.headed] at hdatagram
  have hsame : (rewritten f random p).ip.fragOffset = p.ip.fragOffset := by
    rw [ip_rewritten]
    exact ((cheated random p).fragOffset_setMf).trans (cheated_spec random p).2.2
  rw [Nat.sub_sub,Packet.take_eq hcut,place,Packet.ip_truncated hwell hbehind,hdatagram,hsame,Nat.sub_self]

theorem first_valid (h : Cuttable f p) :
    ((rewritten f random p).take ((rewritten f random p).length - p.headerLength - f.dlen p.headerLength)).Valid ∧
    ((rewritten f random p).take ((rewritten f random p).length - p.headerLength - f.dlen p.headerLength)).length ≤
      f.mtu := by
  have hlong := h.room
  have hwell := wellHeaded_rewritten f random h.headed
  have hhead := headerLength_rewritten f random p
  have hlen := length_rewritten f random h.headed
  have hcut : p.headerLength + f.dlen p.headerLength ≤ (rewritten f random p).length := by omega
  have hbehind : (rewritten f random p).headerLength ≤ p.headerLength + f.dlen p.headerLength := by omega
  have hlength := Packet.length_truncated hcut
  have hann := h.announced
  have hword := (ntohs p.ip.ipLen).toNat_lt
  rw [Nat.sub_sub,Packet.take_eq hcut]
  refine ⟨⟨hwell.truncated hbehind hcut,?_,?_,?_⟩,?_⟩
  · rw [Packet.headerLength_truncated hwell hbehind,hlength,hhead]
    omega
  · rw [Packet.ip_truncated hwell hbehind,hlength,ip_rewritten]
    change (ntohs (htons (UInt16.ofNat (p.headerLength + f.dlen p.headerLength)))).toNat = _
    rw [ntohs_htons,UInt16.toNat_ofNat']
    omega
  · exact (Packet.headerVerifies_truncated hwell hbehind).mpr
      (Packet.headerVerifies_reseal (WellHeaded.firstIp f random h.headed))
  · rw [hlength]
    exact add_dlen_le h.payload

theorem first_fragment (h : Fragmentable f p) : Fragment f.mtu (cheated random p).ipId p
    ((rewritten f random p).take ((rewritten f random p).length - p.headerLength - f.dlen p.headerLength)) := by
  have hlong := h.room
  obtain ⟨hvalid,hfits⟩ := first_valid random h.toCuttable
  have hwell := wellHeaded_rewritten f random h.headed
  have hhead := headerLength_rewritten f random p
  have hlen := length_rewritten f random h.headed
  have hcut : p.headerLength + f.dlen p.headerLength ≤ (rewritten f random p).length := by omega
  have hbehind : (rewritten f random p).headerLength ≤ p.headerLength + f.dlen p.headerLength := by omega
  have hip := Packet.ip_truncated hwell hbehind
  have hlength := Packet.length_truncated hcut
  have hdatagram := Packet.datagram_truncated hwell hbehind
  rw [hhead,Nat.add_sub_cancel_left,datagram_rewritten f random h.headed] at hdatagram
  obtain ⟨-,-,hsrc,hdst,hproto,htos,httl⟩ := cheated_fields random p
  obtain ⟨hdf,hmf,hoff⟩ := cheated_spec random p
  have hpayload := p.length_datagram
  rw [Nat.sub_sub,Packet.take_eq hcut] at hvalid hfits ⊢
  have hplace := place_first random h
  rw [Nat.sub_sub,Packet.take_eq hcut] at hplace
  have htake : (p.datagram.take (f.dlen p.headerLength)).length = f.dlen p.headerLength := by
    rw [List.length_take,hpayload]
    omega
  exact
    { valid := hvalid
      fits := hfits
      ident := by
        rw [hip,ip_rewritten]
        rfl
      ends := by
        rw [hip,ip_rewritten]
        exact ⟨hsrc,hdst,hproto⟩
      service := by
        rw [hip,ip_rewritten]
        exact ⟨htos,httl⟩
      anno := rfl
      fragmentable := by
        rw [hip,ip_rewritten]
        exact ((cheated random p).dontFragment_setMf).trans hdf
      after := by
        rw [hip,ip_rewritten]
        exact (((cheated random p).fragOffset_setMf).trans hoff).ge
      piece := by
        rw [hplace]
        refine ⟨?_,fun i hi => ?_⟩
        · rw [htake,hpayload]
          omega
        · rw [htake] at hi
          rw [List.getElem?_take_of_lt hi,Nat.zero_add]
      last := by
        rw [hplace,htake,hip,ip_rewritten]
        change ((cheated random p).setMf).moreFragments = false ↔ _
        rw [ClickIp.moreFragments_setMf]
        refine ⟨fun hfalse => absurd hfalse (by decide),fun hend => ?_⟩
        have hshort : 0 + f.dlen p.headerLength = p.datagram.length := hend.2
        omega }

end Rewritten

section Later
variable (f : IPFragmenter) {r : Packet} (hadMf : Bool) (inDlen : ℕ) {off : ℕ}

theorem laterIp_fields (r : Packet) (off : ℕ) : (laterIp f r hadMf inDlen off).ipHl = BitVec.ofNat 4 (outHlen r / 4) ∧
    (laterIp f r hadMf inDlen off).ipLen = htons (UInt16.ofNat (outHlen r + outDlen f r inDlen off)) ∧
    (laterIp f r hadMf inDlen off).ipV = r.ip.ipV ∧ (laterIp f r hadMf inDlen off).ipId = r.ip.ipId ∧
    (laterIp f r hadMf inDlen off).ipSrc = r.ip.ipSrc ∧ (laterIp f r hadMf inDlen off).ipDst = r.ip.ipDst ∧
    (laterIp f r hadMf inDlen off).ipP = r.ip.ipP ∧ (laterIp f r hadMf inDlen off).ipTos = r.ip.ipTos ∧
    (laterIp f r hadMf inDlen off).ipTtl = r.ip.ipTtl := by
  unfold laterIp
  dsimp only
  split_ifs <;> exact ⟨rfl,rfl,rfl,rfl,rfl,rfl,rfl,rfl,rfl⟩

theorem laterIp_offset (h : r.ip.fragOffset + off / 8 < 8192) :
    (laterIp f r hadMf inDlen off).fragOffset = r.ip.fragOffset + off / 8 ∧
    (laterIp f r hadMf inDlen off).dontFragment = r.ip.dontFragment ∧
    (laterIp f r hadMf inDlen off).moreFragments =
      if inDlen ≤ outDlen f r inDlen off + off ∧ hadMf = false then false else r.ip.moreFragments := by
  obtain ⟨hoff,hflags⟩ := ClickIp.advance_spec h
  have hdf : (r.ip.advance (off / 8)).dontFragment = r.ip.dontFragment := by
    apply ClickIp.dontFragment_eq
    rw [hflags]
  have hmf : (r.ip.advance (off / 8)).moreFragments = r.ip.moreFragments := by
    rw [Bool.eq_iff_iff,ClickIp.moreFragments_iff,ClickIp.moreFragments_iff,hflags]
  unfold laterIp
  dsimp only
  split_ifs with hlast
  · exact ⟨(ClickIp.fragOffset_clearMf _).trans hoff,(ClickIp.dontFragment_clearMf _).trans hdf,
      ClickIp.moreFragments_clearMf _⟩
  · exact ⟨hoff,hdf,hmf⟩

theorem laterIp_hl (h : r.WellHeaded) (hroom : r.headerLength ≤ r.length) :
    4 * (laterIp f r hadMf inDlen off).ipHl.toNat = 20 + (optcopy r.options).length := by
  have hle := outHlen_le h hroom
  have hmax := r.headerLength_le
  have hmod := length_optcopy_mod r.options
  rw [(laterIp_fields f hadMf inDlen r off).1,BitVec.toNat_ofNat]
  unfold outHlen at hle ⊢
  omega

theorem outDlen_le (r : Packet) (off : ℕ) : outDlen f r inDlen off ≤ f.dlen (outHlen r) := by
  unfold outDlen
  dsimp only
  split_ifs with h <;> omega

variable {f inDlen}

theorem outDlen_spec (hoff : off < inDlen) (hpayload : 8 ≤ f.dlen (outHlen r)) :
    0 < outDlen f r inDlen off ∧ off + outDlen f r inDlen off ≤ inDlen ∧
      (off + outDlen f r inDlen off = inDlen ∨ outDlen f r inDlen off % 8 = 0) := by
  have hmod := dlen_mod f (outHlen r)
  unfold outDlen
  dsimp only
  split_ifs with h <;> omega

end Later

theorem place_assemble {off : ℕ} {p : Packet} {iph : ClickIp} {opts chunk : List UInt8} {anno : IPAddress}
    (hhl : 4 * iph.ipHl.toNat = 20 + opts.length) (hv : iph.ipV = 4)
    (hoff : iph.fragOffset = p.ip.fragOffset + off / 8) (hmod : off % 8 = 0) :
    place p (Packet.assemble iph opts chunk anno).reseal = (off,chunk) := by
  have hb := Packet.WellHeaded.assemble chunk anno hhl hv
  have hsame : (Packet.assemble iph opts chunk anno).reseal.ip.fragOffset = p.ip.fragOffset + off / 8 := by
    rw [Packet.ip_reseal,Packet.ip_assemble]
    exact hoff
  rw [place,Packet.datagram_reseal hb.header,Packet.datagram_assemble _ _ hhl,hsame]
  congr 1
  omega

theorem fragment_assemble {mtu off : ℕ} {id : UInt16} {p : Packet} {iph : ClickIp} {opts chunk : List UInt8}
    (hhl : 4 * iph.ipHl.toNat = 20 + opts.length) (hv : iph.ipV = 4)
    (hlen : (ntohs iph.ipLen).toNat = 20 + opts.length + chunk.length)
    (hfits : 20 + opts.length + chunk.length ≤ mtu) (hid : iph.ipId = id)
    (hends : iph.ipSrc = p.ip.ipSrc ∧ iph.ipDst = p.ip.ipDst ∧ iph.ipP = p.ip.ipP)
    (hservice : iph.ipTos = p.ip.ipTos ∧ iph.ipTtl = p.ip.ipTtl) (hdf : iph.dontFragment = false)
    (hoff : iph.fragOffset = p.ip.fragOffset + off / 8) (hmod : off % 8 = 0)
    (hpiece : IsPiece p.datagram (off,chunk))
    (hlast : iph.moreFragments = false ↔
      p.ip.moreFragments = false ∧ off + chunk.length = p.datagram.length) :
    Fragment mtu id p (Packet.assemble iph opts chunk p.dstIpAnno).reseal := by
  have hb := Packet.WellHeaded.assemble chunk p.dstIpAnno hhl hv
  have hip := Packet.ip_reseal (Packet.assemble iph opts chunk p.dstIpAnno)
  rw [Packet.ip_assemble] at hip
  have hlength : (Packet.assemble iph opts chunk p.dstIpAnno).reseal.length = 20 + opts.length + chunk.length := by
    rw [Packet.length_reseal hb.fixed,Packet.length_assemble]
  have hplace : place p (Packet.assemble iph opts chunk p.dstIpAnno).reseal = (off,chunk) :=
    place_assemble hhl hv hoff hmod
  exact
    { valid := Packet.Valid.assemble_reseal hhl hv hlen
      fits := hlength.trans_le hfits
      ident := by
        rw [hip]
        exact hid
      ends := by
        rw [hip]
        exact hends
      service := by
        rw [hip]
        exact hservice
      anno := rfl
      fragmentable := by
        rw [hip]
        exact hdf
      after := by
        have hge : p.ip.fragOffset ≤ iph.fragOffset := by omega
        rw [hip]
        exact hge
      piece := by
        rw [hplace]
        exact hpiece
      last := by
        rw [hplace,hip]
        exact hlast }

section Pieces
variable {f : IPFragmenter} (random : UInt16) {p : Packet}

theorem room_rewritten (h : Cuttable f p) :
    (rewritten f random p).headerLength ≤ (rewritten f random p).length := by
  have hroom := h.room
  rw [headerLength_rewritten,length_rewritten f random h.headed]
  omega

theorem dlen_rewritten (h : Cuttable f p) : 8 ≤ f.dlen (outHlen (rewritten f random p)) := by
  have hle := outHlen_le (wellHeaded_rewritten f random h.headed) (room_rewritten random h)
  rw [headerLength_rewritten] at hle
  exact h.payload.trans (dlen_anti hle)

theorem ip_rewritten_fields (f : IPFragmenter) (random : UInt16) (p : Packet) :
    (rewritten f random p).ip.ipId = (cheated random p).ipId ∧
    ((rewritten f random p).ip.ipSrc = p.ip.ipSrc ∧ (rewritten f random p).ip.ipDst = p.ip.ipDst ∧
      (rewritten f random p).ip.ipP = p.ip.ipP) ∧
    ((rewritten f random p).ip.ipTos = p.ip.ipTos ∧ (rewritten f random p).ip.ipTtl = p.ip.ipTtl) ∧
    (rewritten f random p).ip.fragOffset = p.ip.fragOffset ∧ (rewritten f random p).ip.dontFragment = false ∧
    (rewritten f random p).ip.moreFragments = true := by
  obtain ⟨-,-,hsrc,hdst,hproto,htos,httl⟩ := cheated_fields random p
  obtain ⟨hdf,-,hoff⟩ := cheated_spec random p
  rw [ip_rewritten]
  exact ⟨rfl,⟨hsrc,hdst,hproto⟩,⟨htos,httl⟩,((cheated random p).fragOffset_setMf).trans hoff,
    ((cheated random p).dontFragment_setMf).trans hdf,ClickIp.moreFragments_setMf _⟩

theorem place_later (h : Fragmentable f p) {off : ℕ} (hoff : off < p.datagram.length) (hmod : off % 8 = 0) :
    place p (laterFragment f (rewritten f random p) (cheated random p).moreFragments p.datagram.length off) =
      (off,(p.datagram.drop off).take (outDlen f (rewritten f random p) p.datagram.length off)) := by
  have hwell := wellHeaded_rewritten f random h.headed
  have hext := h.extent
  have hbase := (ip_rewritten_fields f random p).2.2.2.1
  have hv := (laterIp_fields f (cheated random p).moreFragments p.datagram.length (rewritten f random p) off).2.2.1
  have hsmall : (rewritten f random p).ip.fragOffset + off / 8 < 8192 := by omega
  have hfrag := (laterIp_offset f (cheated random p).moreFragments p.datagram.length hsmall).1
  rw [laterFragment,place_assemble (laterIp_hl f _ _ hwell (room_rewritten random h.toCuttable)) (hv.trans hwell.version)
    (hfrag.trans (by rw [hbase])) hmod,datagram_rewritten f random h.headed]

theorem length_chunk (h : Cuttable f p) {off : ℕ} (hoff : off < p.datagram.length) :
    ((p.datagram.drop off).take (outDlen f (rewritten f random p) p.datagram.length off)).length =
      outDlen f (rewritten f random p) p.datagram.length off := by
  obtain ⟨-,hinside,-⟩ := outDlen_spec (r := rewritten f random p) hoff (dlen_rewritten random h)
  rw [List.length_take,List.length_drop]
  omega

theorem later_valid (h : Cuttable f p) {off : ℕ} (hoff : off < p.datagram.length) :
    (laterFragment f (rewritten f random p) (cheated random p).moreFragments p.datagram.length off).Valid ∧
    (laterFragment f (rewritten f random p) (cheated random p).moreFragments p.datagram.length off).length ≤
      f.mtu := by
  have hwell := wellHeaded_rewritten f random h.headed
  have hhl : 4 * (laterIp f (rewritten f random p) (cheated random p).moreFragments p.datagram.length off).ipHl.toNat =
      20 + (optcopy (rewritten f random p).options).length := laterIp_hl f _ _ hwell (room_rewritten random h)
  have hchunk := length_chunk random h hoff
  have hfits := add_dlen_le (dlen_rewritten random h)
  have hle := outDlen_le f p.datagram.length (rewritten f random p) off
  have hann := h.announced
  have hword := (ntohs p.ip.ipLen).toNat_lt
  have hlong := h.long
  obtain ⟨-,hiplen,hv,-⟩ := laterIp_fields f (cheated random p).moreFragments p.datagram.length (rewritten f random p) off
  have hlength : 20 + (optcopy (rewritten f random p).options).length +
      outDlen f (rewritten f random p) p.datagram.length off ≤ f.mtu := by
    unfold outHlen at hfits hle
    omega
  rw [laterFragment,datagram_rewritten f random h.headed]
  constructor
  · apply Packet.Valid.assemble_reseal hhl (hv.trans hwell.version)
    rw [hiplen,ntohs_htons,UInt16.toNat_ofNat',hchunk]
    unfold outHlen
    omega
  · have hb := Packet.WellHeaded.assemble ((p.datagram.drop off).take
      (outDlen f (rewritten f random p) p.datagram.length off)) (rewritten f random p).dstIpAnno hhl (hv.trans hwell.version)
    rw [Packet.length_reseal hb.fixed,Packet.length_assemble,hchunk]
    exact hlength

theorem later_fragment (h : Fragmentable f p) {off : ℕ} (hoff : off < p.datagram.length) (hmod : off % 8 = 0) :
    Fragment f.mtu (cheated random p).ipId p
      (laterFragment f (rewritten f random p) (cheated random p).moreFragments p.datagram.length off) := by
  have hwell := wellHeaded_rewritten f random h.headed
  have hroom := room_rewritten random h.toCuttable
  have hpayload := dlen_rewritten random h.toCuttable
  have hdata := datagram_rewritten f random h.headed
  have hmf := (cheated_spec random p).2.1
  have hext := h.extent
  have hsmall := f.small
  have hann := h.announced
  have hword := (ntohs p.ip.ipLen).toNat_lt
  have hlong := h.long
  obtain ⟨hid,hends,hservice,hbase,hdf,hmore⟩ := ip_rewritten_fields f random p
  have hanno : (rewritten f random p).dstIpAnno = p.dstIpAnno := rfl
  generalize rewritten f random p = r at *
  rw [hmf]
  have hfits := add_dlen_le hpayload
  obtain ⟨hpos,hinside,-⟩ := outDlen_spec (f := f) (r := r) hoff hpayload
  have hle := outDlen_le f p.datagram.length r off
  obtain ⟨-,hiplen,hv,hid',hsrc,hdst,hproto,htos,httl⟩ :=
    laterIp_fields f p.ip.moreFragments p.datagram.length r off
  have hunits : r.ip.fragOffset + off / 8 < 8192 := by omega
  obtain ⟨hfrag,hdf',hmf'⟩ := laterIp_offset f p.ip.moreFragments p.datagram.length hunits
  have hchunk : ((p.datagram.drop off).take (outDlen f r p.datagram.length off)).length =
      outDlen f r p.datagram.length off := by
    rw [List.length_take,List.length_drop]
    omega
  rw [laterFragment,hdata,hanno]
  refine fragment_assemble ?_ ?_ ?_ ?_ ?_ ?_ ?_ ?_ ((hfrag.trans (by rw [hbase]))) hmod ?_ ?_
  · exact laterIp_hl f _ _ hwell hroom
  · exact hv.trans hwell.version
  · rw [hiplen,ntohs_htons,UInt16.toNat_ofNat',hchunk]
    unfold outHlen at *
    omega
  · rw [hchunk]
    unfold outHlen at *
    omega
  · exact hid'.trans hid
  · exact ⟨hsrc.trans hends.1,hdst.trans hends.2.1,hproto.trans hends.2.2⟩
  · exact ⟨htos.trans hservice.1,httl.trans hservice.2⟩
  · exact hdf'.trans hdf
  · refine ⟨?_,fun i hi => ?_⟩
    · rw [hchunk]
      exact hinside
    · have hi' : i < outDlen f r p.datagram.length off := hchunk ▸ hi
      rw [List.getElem?_take_of_lt hi',List.getElem?_drop]
  · rw [hmf',hmore,hchunk]
    by_cases hend : p.datagram.length ≤ outDlen f r p.datagram.length off + off ∧ p.ip.moreFragments = false
    · rw [if_pos hend]
      refine ⟨fun _ => ⟨hend.2,?_⟩,fun _ => rfl⟩
      omega
    · rw [if_neg hend]
      refine ⟨fun hfalse => absurd hfalse (by decide),fun hlast => absurd ⟨?_,hlast.1⟩ hend⟩
      omega

end Pieces

section Loop
variable (f : IPFragmenter) (r : Packet) (inDlen : ℕ)

def offsets : ℕ → ℕ → List ℕ
  | 0, _ => []
  | fuel + 1, off => if off < inDlen then off :: offsets fuel (off + outDlen f r inDlen off) else []

variable {f r inDlen}

/-- With the payload inside the packet the loop runs to its end and emits a fragment for every
offset whose packet could be allocated. -/
theorem fragmentLoop_eq (hpayload : 8 ≤ f.dlen (outHlen r)) (hdata : r.headerLength + inDlen ≤ r.length)
    (hadMf : Bool) (alloc : ℕ → Bool) (fuel off : ℕ) (hfuel : inDlen ≤ fuel + off) :
    fragmentLoop f r hadMf inDlen alloc fuel off =
      some (((offsets f r inDlen fuel off).filter alloc).map fun o => ⟨0,laterFragment f r hadMf inDlen o⟩) := by
  induction fuel generalizing off with
  | zero =>
    rw [fragmentLoop,if_neg (by omega)]
    rfl
  | succ fuel ih =>
    rw [fragmentLoop,offsets]
    by_cases hoff : off < inDlen
    · obtain ⟨hpos,hinside,-⟩ := outDlen_spec (f := f) (r := r) hoff hpayload
      rw [if_pos hoff,if_pos hoff,if_neg (by omega),ih _ (by omega)]
      cases halloc : alloc off <;> simp [halloc]
    · rw [if_neg hoff,if_neg hoff]
      rfl

theorem offsets_spec (hpayload : 8 ≤ f.dlen (outHlen r)) (fuel off : ℕ) (hfuel : inDlen ≤ fuel + off)
    (hmod : off % 8 = 0 ∨ inDlen ≤ off) :
    (∀ o ∈ offsets f r inDlen fuel off, o < inDlen ∧ o % 8 = 0) ∧
      ∀ i, off ≤ i → i < inDlen → ∃ o ∈ offsets f r inDlen fuel off, o ≤ i ∧ i < o + outDlen f r inDlen o := by
  induction fuel generalizing off with
  | zero =>
    refine ⟨fun o ho => absurd ho List.not_mem_nil,fun i hi hlt => ?_⟩
    omega
  | succ fuel ih =>
    rw [offsets]
    by_cases hoff : off < inDlen
    · obtain ⟨hpos,hinside,hnext⟩ := outDlen_spec (f := f) (r := r) hoff hpayload
      obtain ⟨hmem,hcover⟩ := ih (off + outDlen f r inDlen off) (by omega) (by omega)
      rw [if_pos hoff]
      refine ⟨fun o ho => ?_,fun i hi hlt => ?_⟩
      · rcases List.mem_cons.mp ho with rfl | ho
        · exact ⟨hoff,by omega⟩
        · exact hmem o ho
      · by_cases hi' : i < off + outDlen f r inDlen off
        · exact ⟨off,List.mem_cons_self,hi,hi'⟩
        · obtain ⟨o,ho,hle⟩ := hcover i (by omega) hlt
          exact ⟨o,List.mem_cons_of_mem _ ho,hle⟩
    · rw [if_neg hoff]
      exact ⟨fun o ho => absurd ho List.not_mem_nil,fun i hi hlt => by omega⟩

end Loop

section Reassembled
variable {f : IPFragmenter} {p : Packet}

def fragments (f : IPFragmenter) (random : UInt16) (alloc : ℕ → Bool) (p : Packet) : List Packet :=
  let r := rewritten f random p
  r.take (r.length - p.headerLength - f.dlen p.headerLength) ::
    ((offsets f r p.datagram.length p.datagram.length (f.dlen p.headerLength)).filter alloc).map
      (laterFragment f r (cheated random p).moreFragments p.datagram.length)

theorem push_eq_fragments (h : Cuttable f p) (random : UInt16) (alloc : ℕ → Bool) :
    f.push random p alloc = some ((fragments f random alloc p).map (Emission.mk 0)) := by
  have hlong := h.long
  have hpayload := h.payload
  have hroom := h.room
  have hlen : (ntohs p.ip.ipLen).toNat - p.headerLength = p.datagram.length := by
    rw [h.announced,Packet.length_datagram]
  have hgo : ¬((p.ip.dontFragment = true ∧ f.honorDf = true) ∨ f.dlen p.headerLength < 8) := by
    rintro (⟨hdf,hhonor⟩ | hshort)
    · rcases h.allowed with hno | hno <;> simp_all
    · omega
  have hinside : (rewritten f random p).headerLength + p.datagram.length ≤ (rewritten f random p).length := by
    rw [headerLength_rewritten,length_rewritten f random h.headed,Packet.length_datagram]
    omega
  rw [push,if_neg (by omega),fragment]
  dsimp only
  rw [if_neg hgo,hlen,fragmentLoop_eq (dlen_rewritten random h) hinside _ _ _ _ (by omega)]
  simp only [fragments,List.map_cons,List.map_map]
  rfl

theorem fragments_spec (h : Fragmentable f p) (random : UInt16) (alloc : ℕ → Bool) :
    ∀ q ∈ fragments f random alloc p, Fragment f.mtu (cheated random p).ipId p q := by
  intro q hq
  have hspec := (offsets_spec (dlen_rewritten random h.toCuttable) p.datagram.length
    (f.dlen p.headerLength) (Nat.le_add_right p.datagram.length _) (Or.inl (dlen_mod _ _))).1
  rcases List.mem_cons.mp hq with rfl | hq
  · exact first_fragment random h
  · obtain ⟨o,ho,rfl⟩ := List.mem_map.mp hq
    obtain ⟨hlt,hmod⟩ := hspec o (List.mem_filter.mp ho).1
    exact later_fragment random h hlt hmod

/-- Whatever the offset of the packet: the fragments are valid and fit. -/
theorem fragments_valid (h : Cuttable f p) (random : UInt16) (alloc : ℕ → Bool) :
    ∀ q ∈ fragments f random alloc p, q.Valid ∧ q.length ≤ f.mtu := by
  intro q hq
  rcases List.mem_cons.mp hq with rfl | hq
  · exact first_valid random h
  · obtain ⟨o,ho,rfl⟩ := List.mem_map.mp hq
    have hspec := (offsets_spec (dlen_rewritten random h) p.datagram.length
      (f.dlen p.headerLength) (Nat.le_add_right p.datagram.length _) (Or.inl (dlen_mod _ _))).1
    obtain ⟨hlt,hmod⟩ := hspec o (List.mem_filter.mp ho).1
    exact later_valid random h hlt

/-- What becomes of a valid packet: it goes on or is cut into valid packets that fit, or it leaves
unchanged at output 1. -/
theorem push_valid (hp : p.Valid) (hpayload : 8 ≤ f.dlen p.headerLength) (random : UInt16) (alloc : ℕ → Bool) :
    (∃ sent : List Packet, f.push random p alloc = some (sent.map (Emission.mk 0)) ∧
      ∀ q ∈ sent, q.Valid ∧ q.length ≤ f.mtu) ∨
    (f.push random p alloc = some [⟨1,p⟩] ∧ f.mtu < p.length) := by
  by_cases hshort : p.length ≤ f.mtu
  · refine .inl ⟨[p],?_,fun q hq => ?_⟩
    · rw [push,if_pos hshort]
      rfl
    · rw [List.mem_singleton.mp hq]
      exact ⟨hp,hshort⟩
  · by_cases hdf : p.ip.dontFragment = true ∧ f.honorDf = true
    · refine .inr ⟨?_,Nat.not_le.mp hshort⟩
      rw [push,if_neg hshort,fragment]
      exact if_pos (.inl hdf)
    · have hallowed : p.ip.dontFragment = false ∨ f.honorDf = false := by
        rcases Bool.eq_false_or_eq_true p.ip.dontFragment with hset | hset
        · exact .inr (Bool.eq_false_iff.mpr (fun hhonor => hdf ⟨hset,hhonor⟩))
        · exact .inl hset
      have hcut : Cuttable f p := ⟨hp.headed,hp.announced,Nat.not_le.mp hshort,hallowed,hpayload⟩
      exact .inl ⟨_,push_eq_fragments hcut random alloc,fragments_valid hcut random alloc⟩

theorem fragments_cover (h : Fragmentable f p) (random : UInt16) {i : ℕ} (hi : i < p.datagram.length) :
    ∃ q ∈ fragments f random (fun _ => true) p, Covers (place p q) i := by
  have hroom := h.room
  have hpayload := p.length_datagram
  by_cases hfirst : i < f.dlen p.headerLength
  · refine ⟨_,List.mem_cons_self,?_⟩
    rw [place_first random h]
    refine ⟨Nat.zero_le _,?_⟩
    rw [List.length_take]
    omega
  · obtain ⟨hmem,hcover⟩ := offsets_spec (dlen_rewritten random h.toCuttable)
      p.datagram.length (f.dlen p.headerLength) (Nat.le_add_right p.datagram.length _) (Or.inl (dlen_mod _ _))
    obtain ⟨o,ho,hle,hlt⟩ := hcover i (by omega) hi
    obtain ⟨hin,hmod⟩ := hmem o ho
    obtain ⟨-,hinside,-⟩ := outDlen_spec (f := f) (r := rewritten f random p) hin (dlen_rewritten random h.toCuttable)
    refine ⟨_,List.mem_cons_of_mem _ (List.mem_map_of_mem (List.mem_filter.mpr ⟨ho,rfl⟩)),?_⟩
    rw [place_later random h hin hmod]
    refine ⟨hle,?_⟩
    rw [List.length_take,List.length_drop]
    omega

/-- For every packet that is cut, however the allocations go: each emitted fragment is a valid
packet with a piece of the payload. If no allocation fails, a receiver ends up with the payload
in whatever order the fragments arrive and even if some of them arrive more than once. -/
theorem push_reassembles (h : Fragmentable f p) (random : UInt16) (alloc : ℕ → Bool) :
    ∃ sent : List Packet, f.push random p alloc = some (sent.map (Emission.mk 0)) ∧
      (∀ q ∈ sent, Fragment f.mtu (cheated random p).ipId p q) ∧
      ((∀ off, alloc off = true) → ∀ arrivals : List Packet, (∀ q, q ∈ arrivals ↔ q ∈ sent) →
        ∀ buf : List UInt8, buf.length = p.datagram.length →
          (arrivals.map (place p)).foldl overwrite buf = p.datagram) := by
  refine ⟨fragments f random alloc p,push_eq_fragments h.toCuttable random alloc,fragments_spec h random alloc,?_⟩
  intro halloc arrivals hsame buf hbuf
  obtain rfl : alloc = fun _ => true := funext halloc
  apply foldl_overwrite_eq
  · intro piece hpiece
    obtain ⟨q,hq,rfl⟩ := List.mem_map.mp hpiece
    exact (fragments_spec h random _ q ((hsame q).mp hq)).piece
  · intro i hi
    obtain ⟨q,hq,hcovers⟩ := fragments_cover h random hi
    exact ⟨place p q,List.mem_map_of_mem ((hsame q).mpr hq),hcovers⟩
  · exact hbuf

/-- A packet with an option that is copied and one that is not, too long for an MTU of 48 bytes. -/
def samplePacket : Packet where
  data := ClickIp.layout.write { ipV := 4, ipHl := 7, ipLen := htons 61, ipTtl := 9, ipP := 17, ipId := 5, ipSrc := 1, ipDst := 2 } ++
    ([7,3,0,1,131,3,4,0] ++ (List.range 33).map UInt8.ofNat)
  dstIpAnno := 2

theorem push_reassembles_sample : ∃ sent : List Packet,
    ({ mtu := 48 } : IPFragmenter).push 0 samplePacket (fun _ => true) = some (sent.map (Emission.mk 0)) ∧
      (sent.reverse.map (place samplePacket)).foldl overwrite (List.replicate 33 0) =
        (List.range 33).map UInt8.ofNat := by
  have hcut : Fragmentable { mtu := 48 } samplePacket :=
    { headed := ⟨by decide +kernel,by decide +kernel,by decide +kernel⟩
      announced := by decide +kernel
      long := by decide +kernel
      allowed := Or.inl (by decide +kernel)
      payload := by decide +kernel
      extent := by decide +kernel }
  obtain ⟨sent,hpush,-,hback⟩ := push_reassembles hcut 0 (fun _ => true)
  exact ⟨sent,hpush,hback (fun _ => rfl) sent.reverse (fun q => List.mem_reverse) _ (by decide +kernel)⟩

end Reassembled

end IPFragmenter
end ClickMobileIP
