import ClickMobileIP.Router.IPFragmenter
import ClickMobileIP.Router.IPGWOptions

/-! # Error messages

`ICMPError` answers a packet that could not be forwarded with a message to its source, which
quotes the packet and takes the recorded part of a source route back. It keeps silent about
everything that could make errors multiply: other errors, broadcasts, later fragments and
sources that are no hosts.
-/
namespace ClickMobileIP
open ByteLayout
open IPGWOptions (byteAt byteAt_of_getElem?)

structure ICMPError where
  srcIp : IPAddress
  type : UInt8
  code : UInt8 := 0
  badAddrs : List IPAddress := []
  mtu : ℕ := 576
  pmtu : UInt16 := 0
  useFixAnno : Bool := true
  deriving DecidableEq, Repr

namespace ICMPError
variable (e : ICMPError)

def isErrorType (type : UInt8) : Bool := type == 3 || type == 4 || type == 5 || type == 11 || type == 12

def unicast (a : IPAddress) : Bool :=
  let ha := htonl a
  !(ha == 0xffffffff) && !(ha &&& (0xf0000000 : UInt32) == 0xe0000000) && !e.badAddrs.contains a

/-- Neither a group nor net 0, the loopback or class E. -/
def validSource (a : IPAddress) : Bool :=
  let net := (htonl a >>> 24) &&& (0xff : UInt32)
  e.unicast a && !(net == 0) && !(net == 127) && !(net &&& (0xf0 : UInt32) == 0xf0)

/-- `valid_source_route`: the offset of the option, if there is one. A read behind the packet is a
fault. -/
def sourceRouteLoop (oa : List UInt8) (hlen : ℕ) : ℕ → ℕ → Option (Option ℕ)
  | 0, _ => some none
  | fuel + 1, oi =>
    if hlen ≤ oi then some none
    else
      match oa[oi]? with
      | none => none
      | some type =>
        if type = 1 then sourceRouteLoop oa hlen fuel (oi + 1)
        else if type = 0 then some none
        else
          match oa[oi + 1]? with
          | none => none
          | some len =>
            let xlen := len.toNat
            if xlen < 2 ∨ hlen < oi + xlen then some none
            else if type = 131 ∨ type = 137 then
              match oa[oi + 2]? with
              | none => none
              | some ptr =>
                if 4 ≤ ptr.toNat ∧ ptr.toNat % 4 = 0 ∧ ptr.toNat ≤ xlen + 1 then some (some oi)
                else sourceRouteLoop oa hlen fuel (oi + xlen)
            else sourceRouteLoop oa hlen fuel (oi + xlen)

def validSourceRoute (p : Packet) : Option (Option ℕ) := sourceRouteLoop p.data p.headerLength p.headerLength 20

/-- The reasons of RFC 1812, section 4.3.2.7. -/
def Refuses (a : Annotated) : Prop :=
  (a.packet.ip.ipP = 1 ∧ (a.packet.length < a.packet.headerLength + 4 ∨
    isErrorType (byteAt a.packet.data a.packet.headerLength) = true)) ∨
  e.unicast a.packet.ip.ipDst = false ∨
  (a.packetType = .broadcast ∨ a.packetType = .multicast) ∨
  e.validSource a.packet.ip.ipSrc = false ∨
  a.packet.ip.fragOffset ≠ 0

instance (a : Annotated) : Decidable (e.Refuses a) := inferInstanceAs (Decidable (_ ∨ _ ∨ _ ∨ _ ∨ _))

/-- The same and, for redirects, 5.2.7.2: the packet is source-routed. -/
def Declines (a : Annotated) : Prop := e.Refuses a ∨ (e.type = 5 ∧ ∃ sr, validSourceRoute a.packet = some (some sr))

/-- A route that a parameter problem concerns is not used. -/
def routeBack (a : Annotated) : Option ℕ :=
  match validSourceRoute a.packet with
  | some (some sr) =>
    if e.type = 12 ∧ e.code = 0 ∧ sr ≤ a.paramProb.toNat ∧
        a.paramProb.toNat < sr + (byteAt a.packet.data (sr + 1)).toNat then none
    else some sr
  | _ => none

/-- The recorded hops in reverse order, with the pointer at the first of them. -/
def reversedRoute (oa : List UInt8) (sr : ℕ) : List UInt8 :=
  let ptr := (byteAt oa (sr + 2)).toNat
  [byteAt oa sr,UInt8.ofNat (ptr - 1),4] ++
    (List.range ((ptr - 4) / 4)).flatMap (fun i => (oa.drop (sr + ptr - 5 - 4 * i)).take 4) ++ [0]

def options (a : Annotated) : List UInt8 :=
  match e.routeBack a with
  | none => []
  | some sr => reversedRoute a.packet.data sr

def headerWords (a : Annotated) : ℕ :=
  match e.routeBack a with
  | none => 20 / 4
  | some sr => (20 + ((byteAt a.packet.data (sr + 2)).toNat - 1) + 3) / 4

/-- Pointer, gateway or next MTU. -/
def particulars (a : Annotated) : UInt32 :=
  if e.type = 12 ∧ e.code = 0 then a.paramProb.toUInt32
  else if e.type = 5 then a.packet.dstIpAnno
  else if e.type = 3 ∧ e.code = 4 then UInt32.ofNat (65536 * (htons e.pmtu).toNat)
  else 0

/-- As much of the packet as fits. -/
def quoted (a : Annotated) : List UInt8 := a.packet.data.take (e.mtu - 4 * e.headerWords a - 8)

def errorIp (id : ℕ) (a : Annotated) : ClickIp where
  ipV := 4
  ipHl := BitVec.ofNat 4 (e.headerWords a)
  ipLen := htons (UInt16.ofNat (4 * e.headerWords a + 8 + (e.quoted a).length))
  ipId := htons (UInt16.ofNat id)
  ipTtl := 200
  ipP := 1
  ipSrc := e.srcIp
  ipDst := a.packet.ip.ipSrc

def errorIcmp (a : Annotated) : ClickIcmp :=
  ({ icmpType := e.type, icmpCode := e.code, padding := e.particulars a } : ClickIcmp).sealed (e.quoted a)

/-- A new packet has no paint and is for the host. -/
def report (id : ℕ) (a : Annotated) : Annotated where
  packet := (Packet.assemble (e.errorIp id a) (e.options a)
    (ClickIcmp.layout.write (e.errorIcmp a) ++ e.quoted a) a.packet.ip.ipSrc).reseal
  fixIpSrc := if e.useFixAnno then 1 else 0

/-- `id` is the static counter of the function, and `alloc` tells whether `Packet::make` succeeds. -/
def simpleAction (alloc : Bool) (id : ℕ) (a : Annotated) : Option (Option Annotated) :=
  if e.Refuses a then some none
  else
    match validSourceRoute a.packet with
    | none => none
    | some route =>
      if e.type = 5 ∧ route.isSome = true then some none
      else if alloc = false then some none
      else some (some (e.report id a))

section Route
variable {e} {oa : List UInt8} {hlen fuel oi sr : ℕ} {a : Annotated}

theorem sourceRouteLoop_spec (hoi : 20 ≤ oi) (h : sourceRouteLoop oa hlen fuel oi = some (some sr)) :
    20 ≤ sr ∧ sr + (byteAt oa (sr + 1)).toNat ≤ hlen ∧ (byteAt oa sr = 131 ∨ byteAt oa sr = 137) ∧
      4 ≤ (byteAt oa (sr + 2)).toNat ∧ (byteAt oa (sr + 2)).toNat % 4 = 0 ∧
      (byteAt oa (sr + 2)).toNat ≤ (byteAt oa (sr + 1)).toNat + 1 := by
  induction fuel generalizing oi with
  | zero => cases h
  | succ fuel ih =>
    rw [sourceRouteLoop] at h
    by_cases hin : hlen ≤ oi
    · rw [if_pos hin] at h
      cases h
    rw [if_neg hin] at h
    cases htype : oa[oi]? with
    | none =>
      rw [htype] at h
      cases h
    | some type =>
      rw [htype] at h
      dsimp only at h
      by_cases hnop : type = 1
      · rw [if_pos hnop] at h
        exact ih (by omega) h
      by_cases hend : type = 0
      · rw [if_neg hnop,if_pos hend] at h
        cases h
      rw [if_neg hnop,if_neg hend] at h
      cases hlen' : oa[oi + 1]? with
      | none =>
        rw [hlen'] at h
        cases h
      | some len =>
        rw [hlen'] at h
        dsimp only at h
        by_cases hbad : len.toNat < 2 ∨ hlen < oi + len.toNat
        · rw [if_pos hbad] at h
          cases h
        rw [if_neg hbad] at h
        by_cases hroute : type = 131 ∨ type = 137
        · rw [if_pos hroute] at h
          cases hptr : oa[oi + 2]? with
          | none =>
            rw [hptr] at h
            cases h
          | some ptr =>
            rw [hptr] at h
            dsimp only at h
            by_cases hvalid : 4 ≤ ptr.toNat ∧ ptr.toNat % 4 = 0 ∧ ptr.toNat ≤ len.toNat + 1
            · rw [if_pos hvalid] at h
              cases h
              rw [byteAt_of_getElem? htype,byteAt_of_getElem? hlen',byteAt_of_getElem? hptr]
              exact ⟨hoi,by omega,hroute,hvalid⟩
            · rw [if_neg hvalid] at h
              exact ih (by omega) h
        · rw [if_neg hroute] at h
          exact ih (by omega) h

/-- Two bytes behind the header are all that this walk, too, can read too much. -/
theorem sourceRouteLoop_ne_none (hroom : hlen + 2 ≤ oa.length) : sourceRouteLoop oa hlen fuel oi ≠ none := by
  induction fuel generalizing oi with
  | zero => exact Option.some_ne_none _
  | succ fuel ih =>
    rw [sourceRouteLoop]
    by_cases hin : hlen ≤ oi
    · rw [if_pos hin]
      exact Option.some_ne_none _
    have hfirst : oi < oa.length := by omega
    have hsecond : oi + 1 < oa.length := by omega
    rw [if_neg hin,List.getElem?_eq_getElem hfirst,List.getElem?_eq_getElem hsecond]
    dsimp only
    split_ifs with hnop hend hbad hroute
    · exact ih
    · exact Option.some_ne_none _
    · exact Option.some_ne_none _
    · have hthird : oi + 2 < oa.length := by omega
      rw [List.getElem?_eq_getElem hthird]
      dsimp only
      split_ifs
      · exact Option.some_ne_none _
      · exact ih
    · exact ih

theorem validSourceRoute_ne_none {p : Packet} (h : p.OptionsInside) : validSourceRoute p ≠ none := by
  rcases h with hplain | hroom
  · rw [validSourceRoute]
    cases hlen : p.headerLength with
    | zero => exact Option.some_ne_none _
    | succ n =>
      rw [sourceRouteLoop,if_pos (hlen ▸ hplain)]
      exact Option.some_ne_none _
  · exact sourceRouteLoop_ne_none hroom

theorem length_flatMap_of_const {l : List ℕ} {f : ℕ → List UInt8} {k : ℕ} (h : ∀ i ∈ l, (f i).length = k) :
    (l.flatMap f).length = k * l.length := by
  induction l with
  | nil => rfl
  | cons i l ih =>
    rw [List.flatMap_cons,List.length_append,h i List.mem_cons_self,ih (fun j hj => h j (List.mem_cons_of_mem _ hj)),
      List.length_cons,Nat.mul_succ,Nat.add_comm]

theorem length_reversedRoute (h : 4 ≤ (byteAt oa (sr + 2)).toNat) (hmod : (byteAt oa (sr + 2)).toNat % 4 = 0)
    (hroom : sr + (byteAt oa (sr + 2)).toNat ≤ oa.length + 1) :
    (reversedRoute oa sr).length = (byteAt oa (sr + 2)).toNat := by
  set ptr := (byteAt oa (sr + 2)).toNat with hptr
  have hhops : ∀ i ∈ List.range ((ptr - 4) / 4), ((oa.drop (sr + ptr - 5 - 4 * i)).take 4).length = 4 := by
    intro i hi
    have hlt := List.mem_range.mp hi
    rw [List.length_take,List.length_drop]
    omega
  have hsum := length_flatMap_of_const hhops
  rw [List.length_range] at hsum
  rw [reversedRoute,← hptr,List.length_append,List.length_append,hsum]
  change 3 + _ + 1 = _
  omega

theorem routeBack_spec (hroom : a.packet.headerLength ≤ a.packet.length) (h : e.routeBack a = some sr) :
    (e.options a).length = (byteAt a.packet.data (sr + 2)).toNat ∧ (e.options a).length % 4 = 0 ∧
      4 ≤ (e.options a).length ∧ (e.options a).length ≤ 40 ∧
      e.headerWords a = 5 + (e.options a).length / 4 ∧
      (byteAt a.packet.data sr = 131 ∨ byteAt a.packet.data sr = 137) := by
  have hroute : validSourceRoute a.packet = some (some sr) := by
    rw [routeBack] at h
    split at h
    · rename_i sr' hsr
      split_ifs at h
      rw [hsr,h]
    · cases h
  obtain ⟨hlow,hhigh,htype,hptr,hmod,hle⟩ := sourceRouteLoop_spec (le_refl 20) hroute
  have hhead := a.packet.headerLength_le
  have hlength : (reversedRoute a.packet.data sr).length = (byteAt a.packet.data (sr + 2)).toNat := by
    apply length_reversedRoute hptr hmod
    change _ ≤ a.packet.length + 1
    omega
  have hoptions : e.options a = reversedRoute a.packet.data sr := by
    rw [options,h]
  have hwords : e.headerWords a = (20 + ((byteAt a.packet.data (sr + 2)).toNat - 1) + 3) / 4 := by
    rw [headerWords,h]
  rw [hoptions,hlength,hwords]
  refine ⟨rfl,hmod,hptr,by omega,by omega,htype⟩

theorem headerWords_eq (hroom : a.packet.headerLength ≤ a.packet.length) : e.headerWords a = 5 + (e.options a).length / 4 ∧
    (e.options a).length % 4 = 0 ∧ (e.options a).length ≤ 40 := by
  cases h : e.routeBack a with
  | none =>
    have hoptions : e.options a = [] := by rw [options,h]
    have hwords : e.headerWords a = 20 / 4 := by rw [headerWords,h]
    rw [hoptions,hwords]
    exact ⟨rfl,rfl,by decide⟩
  | some sr =>
    obtain ⟨-,hmod,-,hle,hwords,-⟩ := routeBack_spec hroom h
    exact ⟨hwords,hmod,hle⟩

end Route

structure Reports (a q : Annotated) : Prop where
  valid : q.packet.Valid
  verifies : q.packet.IcmpVerifies
  ends : q.packet.ip.ipSrc = e.srcIp ∧ q.packet.ip.ipDst = a.packet.ip.ipSrc ∧ q.packet.dstIpAnno = a.packet.ip.ipSrc
  fresh : q.packet.ip.ipTtl = 200 ∧ q.packet.ip.ipOff = 0 ∧ q.packet.ip.ipP = 1
  kind : q.packet.icmp.icmpType = e.type ∧ q.packet.icmp.icmpCode = e.code ∧ q.packet.icmp.padding = e.particulars a
  size : q.packet.length ≤ e.mtu
  quote : q.packet.datagram.drop 8 = e.quoted a ∧ min a.packet.length (e.mtu - 68) ≤ (e.quoted a).length
  options : q.packet.options = e.options a
  behind : q.packet.headerLength + 8 ≤ q.packet.length
  annotations : q.packetType = .host ∧ q.paint = 0 ∧ q.fixIpSrc = if e.useFixAnno then 1 else 0

section Report
variable {e} {a q : Annotated}

theorem report_reports (hroom : a.packet.headerLength ≤ a.packet.length) (hmin : 68 ≤ e.mtu) (hmax : e.mtu ≤ 65535) (id : ℕ) :
    e.Reports a (e.report id a) := by
  obtain ⟨hwords,hmod,hle⟩ := headerWords_eq (e := e) hroom
  have hhl : 4 * (e.errorIp id a).ipHl.toNat = 20 + (e.options a).length := by
    change 4 * (BitVec.ofNat 4 (e.headerWords a)).toNat = _
    rw [BitVec.toNat_ofNat,hwords]
    omega
  have hquoted : (e.quoted a).length = min (e.mtu - (20 + (e.options a).length) - 8) a.packet.length := by
    have hfour : 4 * e.headerWords a = 20 + (e.options a).length := by omega
    rw [quoted,List.length_take,hfour]
    rfl
  set payload := ClickIcmp.layout.write (e.errorIcmp a) ++ e.quoted a with hpayload
  set r := Packet.assemble (e.errorIp id a) (e.options a) payload a.packet.ip.ipSrc with hr
  have hheaded : r.WellHeaded := Packet.WellHeaded.assemble _ _ hhl rfl
  have hlength : r.length = 28 + (e.options a).length + (e.quoted a).length := by
    rw [hr,Packet.length_assemble,hpayload,List.length_append,Layout.length_write,size_click_icmp]
    omega
  have hrlength : r.reseal.length = 28 + (e.options a).length + (e.quoted a).length :=
    (Packet.length_reseal hheaded.fixed).trans hlength
  have hdatagram : r.reseal.datagram = payload :=
    (Packet.datagram_reseal hheaded.header).trans (Packet.datagram_assemble _ _ hhl)
  have hip : r.reseal.ip = (e.errorIp id a).withSum r.reseal.ip.ipSum := by
    conv_lhs => rw [Packet.ip_reseal,hr,Packet.ip_assemble]
  have hicmp : r.reseal.icmp = e.errorIcmp a := by
    rw [Packet.icmp,hdatagram,hpayload,Layout.read_write]
  have hreport : (e.report id a).packet = r.reseal := rfl
  refine ⟨?_,?_,?_,?_,?_,?_,?_,?_,?_,⟨rfl,rfl,rfl⟩⟩ <;> rw [hreport]
  · apply Packet.Valid.assemble_reseal hhl rfl
    change (ntohs (htons (UInt16.ofNat (4 * e.headerWords a + 8 + (e.quoted a).length)))).toNat = _
    rw [ntohs_htons,UInt16.toNat_ofNat',hpayload,List.length_append,Layout.length_write,size_click_icmp]
    omega
  · rw [Packet.IcmpVerifies,hdatagram]
    exact ClickIcmp.clickInCksum_sealed (by omega)
  · rw [hip]
    exact ⟨rfl,rfl,rfl⟩
  · rw [hip]
    exact ⟨rfl,rfl,rfl⟩
  · rw [hicmp]
    exact ⟨rfl,rfl,rfl⟩
  · rw [hrlength]
    omega
  · rw [hdatagram]
    exact ⟨ClickIcmp.layout.drop_write_append _ _,by omega⟩
  · exact (Packet.options_reseal r).trans (Packet.options_assemble _ _ hhl)
  · rw [Packet.headerLength_reseal,hr,Packet.headerLength_assemble _ _ hhl,← hr,hrlength]
    omega

/-- A message about an error is one that no `ICMPError` answers. -/
theorem refuses_of_reports (h : e.Reports a q) (htype : isErrorType e.type = true) (e' : ICMPError) :
    e'.Refuses q := by
  have hbyte : byteAt q.packet.data q.packet.headerLength = q.packet.icmp.icmpType := by
    simp [byteAt,Packet.icmp,ClickIcmp.layout,Layout.prod,Layout.equiv,Layout.u8,Packet.datagram]
  refine .inl ⟨h.fresh.2.2,.inr ?_⟩
  rw [hbyte,h.kind.1]
  exact htype

/-- A packet with bytes enough is read no further than it reaches, and there is no message exactly for
the listed reasons or without memory for it. -/
theorem simpleAction_silent_iff (alloc : Bool) (id : ℕ) (h : a.packet.OptionsInside) :
    e.simpleAction alloc id a ≠ none ∧ (e.simpleAction alloc id a = some none ↔ e.Declines a ∨ alloc = false) := by
  rw [simpleAction,Declines]
  by_cases hrefuses : e.Refuses a
  · simp [hrefuses]
  obtain ⟨route,hroute⟩ := Option.ne_none_iff_exists'.mp (validSourceRoute_ne_none h)
  rw [if_neg hrefuses,hroute]
  dsimp only
  cases route with
  | none => cases alloc <;> simp [hrefuses]
  | some sr => by_cases hredirect : e.type = 5 <;> cases alloc <;> simp [hrefuses,hredirect]

theorem report_of_simpleAction {alloc : Bool} {id : ℕ} (h : e.simpleAction alloc id a = some (some q)) : q = e.report id a := by
  rw [simpleAction] at h
  by_cases hrefuses : e.Refuses a
  · rw [if_pos hrefuses] at h
    cases h
  rw [if_neg hrefuses] at h
  cases hroute : validSourceRoute a.packet with
  | none =>
    rw [hroute] at h
    cases h
  | some route =>
    rw [hroute] at h
    dsimp only at h
    split_ifs at h
    · cases h
    · cases h
    · exact (Option.some.inj (Option.some.inj h)).symm

/-- For every packet whose header lies inside it: a read behind the packet needs options that nearly
end it, and otherwise there is no message exactly for the listed reasons or without memory for it;
every message is a valid packet of at most `mtu` bytes to the source, with both checksums right and
with at least `mtu - 68` bytes of the packet or all of them, and no message is ever answered by
another one. -/
theorem simpleAction_reports (htype : isErrorType e.type = true) (hmin : 68 ≤ e.mtu) (hmax : e.mtu ≤ 65535)
    (hroom : a.packet.headerLength ≤ a.packet.length) (alloc : Bool) (id : ℕ) :
    (e.simpleAction alloc id a = none → ¬a.packet.OptionsInside) ∧
    (a.packet.OptionsInside → (e.simpleAction alloc id a = some none ↔ e.Declines a ∨ alloc = false)) ∧
    ∀ q, e.simpleAction alloc id a = some (some q) → e.Reports a q ∧
      ∀ (e' : ICMPError) (alloc' : Bool) (id' : ℕ), e'.simpleAction alloc' id' q = some none := by
  refine ⟨fun hnone hinside => (simpleAction_silent_iff alloc id hinside).1 hnone,
    fun hinside => (simpleAction_silent_iff alloc id hinside).2,fun q hq => ?_⟩
  rw [report_of_simpleAction hq]
  have hreports := report_reports hroom hmin hmax id
  refine ⟨hreports,fun e' alloc' id' => ?_⟩
  rw [simpleAction,if_pos (refuses_of_reports hreports htype e')]

/-- A packet that has come two hops of a loose source route of three and whose time is up. -/
def expired : Annotated where
  packet := Packet.reseal ⟨ClickIp.layout.write
    { ipV := 4, ipHl := 9, ipLen := htons 40, ipTtl := 1, ipP := 17, ipSrc := htonl 0x0a000001, ipDst := htonl 0x0a000002 } ++
    ([131,15,12,1,1,1,1,2,2,2,2,3,3,3,3,0] ++ [5,6,7,8]),htonl 0x0a000002⟩

theorem simpleAction_reports_sample : ∃ q,
    ICMPError.simpleAction ⟨htonl 0x0a0000fe,11,0,[],576,0,true⟩ true 1 expired = some (some q) ∧
      q.packet.options = [131,11,4,2,2,2,2,1,1,1,1,0] ∧ q.packet.Valid ∧ q.packet.IcmpVerifies := by
  obtain ⟨q,hjoin⟩ := Option.isSome_iff_exists.mp (show
    (ICMPError.simpleAction ⟨htonl 0x0a0000fe,11,0,[],576,0,true⟩ true 1 expired).join.isSome = true by decide +kernel)
  have hq := Option.join_eq_some_iff.mp hjoin
  obtain ⟨hreports,-⟩ := (simpleAction_reports (by decide +kernel) (by decide +kernel) (by decide +kernel)
    (by decide +kernel) true 1).2.2 q hq
  exact ⟨q,hq,hreports.options.trans (by decide +kernel),hreports.valid,hreports.verifies⟩

/-- Nothing in the options is for a gateway, so that it leaves the packet as it is. -/
def Inert (p : Packet) : Prop := ∀ (g : IPGWOptions) (ms : UInt32) (a : Annotated), a.packet.data = p.data →
  g.simpleAction ms a = some [(0,a)]

theorem byteAt_options {p : Packet} {i : ℕ} (hi : i < p.options.length) : byteAt p.data (20 + i) = p.options.getD i 0 := by
  have hlt : i < p.headerLength - 20 := by
    rw [Packet.options,List.length_take] at hi
    omega
  rw [byteAt,Packet.options,List.getD_eq_getElem?_getD,List.getD_eq_getElem?_getD,List.getElem?_take_of_lt hlt,
    List.getElem?_drop]

/-- The options of a message are none, or a source route and an end-of-list byte. -/
theorem inert_of_reports (h : e.Reports a q) (hroom : a.packet.headerLength ≤ a.packet.length) : Inert q.packet := by
  intro g ms b hb
  have hlen := Packet.length_options h.valid.headed h.valid.room
  have hheader := h.valid.headed.header
  have hsame : b.packet.headerLength = q.packet.headerLength := by
    rw [Packet.headerLength,Packet.ip,hb,← Packet.ip,← Packet.headerLength]
  rw [h.options] at hlen
  rw [IPGWOptions.simpleAction,hsame]
  cases hr : e.routeBack a with
  | none =>
    have hnone : e.options a = [] := by rw [options,hr]
    rw [hnone,List.length_nil] at hlen
    rw [if_pos (by omega)]
  | some sr =>
    obtain ⟨hptr,hmod,hmin,hmax,-,htype⟩ := routeBack_spec hroom hr
    have hroute : e.options a = reversedRoute a.packet.data sr := by rw [options,hr]
    have hbyte : ∀ i, i < (e.options a).length → byteAt b.packet.data (20 + i) = (e.options a).getD i 0 := by
      intro i hi
      rw [hb,byteAt_options (h.options ▸ hi),h.options]
    set len := (e.options a).length with hlen'
    have hfirst : byteAt b.packet.data 20 = byteAt a.packet.data sr := by
      rw [hbyte 0 (by omega),hroute]
      rfl
    have hsecond : (byteAt b.packet.data 21).toNat = len - 1 := by
      have hlt := (byteAt a.packet.data (sr + 2)).toNat_lt
      rw [hbyte 1 (by omega),hroute]
      change (UInt8.ofNat ((byteAt a.packet.data (sr + 2)).toNat - 1)).toNat = _
      rw [UInt8.toNat_ofNat']
      omega
    have hlast : byteAt b.packet.data (20 + (len - 1)) = 0 := by
      rw [hbyte (len - 1) (by omega),hlen',hroute,reversedRoute]
      simp
    have hinside : ∀ i, i < q.packet.headerLength → b.packet.data[i]? = some (byteAt b.packet.data i) := by
      intro i hi
      have hlt : i < b.packet.data.length := by
        rw [hb]
        exact Nat.lt_of_lt_of_le hi h.valid.room
      rw [List.getElem?_eq_getElem hlt,byteAt_of_getElem? (List.getElem?_eq_getElem hlt)]
    obtain ⟨fuel,hfuel⟩ : ∃ fuel, q.packet.headerLength = fuel + 1 + 1 := ⟨q.packet.headerLength - 2,by omega⟩
    have hloop : g.optionLoop ms q.packet.headerLength q.packet.headerLength 20 b.packet.data false =
        some (.ok (b.packet.data,false)) := by
      have hother : byteAt b.packet.data 20 ≠ 0 ∧ byteAt b.packet.data 20 ≠ 1 ∧ byteAt b.packet.data 20 ≠ 7 ∧
          byteAt b.packet.data 20 ≠ 68 := by
        rw [hfirst]
        rcases htype with htype | htype <;> rw [htype] <;> decide
      conv_lhs => rw [hfuel]
      -- the source route is passed over, and the byte behind it ends the walk
      rw [IPGWOptions.optionLoop,← hfuel,if_neg (by omega),hinside 20 (by omega),hinside 21 (by omega)]
      dsimp only
      rw [if_neg hother.2.1,if_neg hother.1,hsecond,if_neg (by omega),if_pos hother.2.2,IPGWOptions.optionLoop,
        if_neg (by omega),hinside (20 + (len - 1)) (by omega)]
      dsimp only
      rw [hlast]
      rfl
    rw [if_neg (by omega),IPGWOptions.handleOptions,hsame,hloop]

end Report

end ICMPError
end ClickMobileIP
